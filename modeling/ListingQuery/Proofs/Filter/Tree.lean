import ListingQuery.Proofs.Filter.Reader

/-!
# Filter trees

How high a filter is, how many negations lie on one of its paths, how long its runs of negations
are, and what a filter has to be to be the reading of a text: conjunctions and disjunctions of at
least two operands, and nowhere the filter that admits everything.

The measures recurse over the tree and over its lists of operands at once.  For the height, the
negations on a path, the branching and the comparisons there is one lemma each that says what the
measure of a list means for its members.

`Filter.induction` is the induction over filters with a hypothesis for every operand, with the
conjunction and the disjunction as one case.
-/

namespace ListingQuery.Filter

/-! ## Induction -/

/-- What holds of a filter whenever it holds of its operands holds of all filters. -/
theorem induction {motive : Filter → Prop} (always : motive .always)
    (test : ∀ c, motive (.test c)) (not : ∀ f, motive f → motive (.not f))
    (node : ∀ (k : Connective) fs, (∀ f ∈ fs, motive f) → motive (k.node fs)) (f : Filter) :
    motive f :=
  -- the recursor of the nested type, with the motive of lists spelled out
  @Filter.rec motive (fun fs => ∀ f ∈ fs, motive f) always test not (node .conjunction)
    (node .disjunction) (by simp) (fun _ _ hf hfs => List.forall_mem_cons.mpr ⟨hf, hfs⟩) f

/-! ## Measures -/

mutual

/-- The edges on the longest path from the root to a leaf. -/
def height : Filter → Nat
  | always | test _ => 0
  | not f => height f + 1
  | and fs | or fs => heightOfAll fs + 1

/-- The largest height among several filters. -/
def heightOfAll : List Filter → Nat
  | [] => 0
  | f :: fs => max (height f) (heightOfAll fs)

end

mutual

/-- The largest number of negations on a path from the root to a leaf. -/
def negationDepth : Filter → Nat
  | always | test _ => 0
  | not f => negationDepth f + 1
  | and fs | or fs => negationDepthOfAll fs

/-- The largest number of negations on a path of one of several filters. -/
def negationDepthOfAll : List Filter → Nat
  | [] => 0
  | f :: fs => max (negationDepth f) (negationDepthOfAll fs)

end

/-- The negations that a filter begins with. -/
def leadingNegations : Filter → Nat
  | not f => leadingNegations f + 1
  | _ => 0

mutual

/-- The longest run of negations that follow each other immediately. -/
def negationRun : Filter → Nat
  | always | test _ => 0
  | not f => max (leadingNegations f + 1) (negationRun f)
  | and fs | or fs => negationRunOfAll fs

/-- The longest run of negations in one of several filters. -/
def negationRunOfAll : List Filter → Nat
  | [] => 0
  | f :: fs => max (negationRun f) (negationRunOfAll fs)

end

mutual

/-- Every conjunction and disjunction has two operands or more, and no part of the filter admits
everything. -/
def Branching : Filter → Prop
  | always => False
  | test _ => True
  | not f => Branching f
  | and fs | or fs => 2 ≤ fs.length ∧ AllBranching fs

/-- Every one of several filters is branching. -/
def AllBranching : List Filter → Prop
  | [] => True
  | f :: fs => Branching f ∧ AllBranching fs

end

/-- The height of filters is the greatest among them. -/
theorem heightOfAll_le_iff {fs : List Filter} {n : Nat} :
    heightOfAll fs ≤ n ↔ ∀ f ∈ fs, f.height ≤ n := by
  induction fs with
  | nil => simp [heightOfAll]
  | cons f fs ih => rw [heightOfAll, Nat.max_le, ih, List.forall_mem_cons]

/-- The depth of negations of filters is the greatest among them. -/
theorem negationDepthOfAll_le_iff {fs : List Filter} {n : Nat} :
    negationDepthOfAll fs ≤ n ↔ ∀ f ∈ fs, f.negationDepth ≤ n := by
  induction fs with
  | nil => simp [negationDepthOfAll]
  | cons f fs ih => rw [negationDepthOfAll, Nat.max_le, ih, List.forall_mem_cons]

/-- Filters branch if each of them does. -/
theorem allBranching_iff {fs : List Filter} : AllBranching fs ↔ ∀ f ∈ fs, f.Branching := by
  induction fs with
  | nil => simp [AllBranching]
  | cons f fs ih => simp [AllBranching, ih]

/-- The negations at the beginning of a filter are one of its runs. -/
theorem leadingNegations_le_negationRun (f : Filter) : f.leadingNegations ≤ f.negationRun := by
  cases f with
  | not f =>
      rw [leadingNegations, negationRun]
      omega
  | _ => exact Nat.zero_le _

/-! ## Parts of a filter -/

/-- A node branches exactly if it has two operands at least, and these branch. -/
theorem branching_node {k : Connective} {fs : List Filter} :
    (k.node fs).Branching ↔ 2 ≤ fs.length ∧ ∀ f ∈ fs, f.Branching := by
  rw [← allBranching_iff]
  cases k <;> rfl

/-- The leaves of a node are those of its operands. -/
theorem leaves_node (k : Connective) (fs : List Filter) :
    (k.node fs).leaves = leavesOfAll fs := by
  cases k <;> rfl

/-- The leaves of a node are those of its first operand, and then the others. -/
theorem leaves_node_cons (k : Connective) (f : Filter) (fs : List Filter) :
    (k.node (f :: fs)).leaves = f.leaves ++ (k.node fs).leaves := by
  cases k <;> rfl

/-- The leaves of filters are gathered in their order. -/
theorem leavesOfAll_eq (fs : List Filter) : leavesOfAll fs = fs.flatMap leaves := by
  induction fs with
  | nil => rfl
  | cons f fs ih => simp [leavesOfAll, ih]

/-- A leaf of an operand is a leaf of the node. -/
theorem mem_leaves_node {k : Connective} {fs : List Filter} {f : Filter} {c : Comparison}
    (hf : f ∈ fs) (hc : c ∈ f.leaves) : c ∈ (k.node fs).leaves := by
  rw [leaves_node, leavesOfAll_eq]
  exact List.mem_flatMap.mpr ⟨f, hf, hc⟩

end ListingQuery.Filter
