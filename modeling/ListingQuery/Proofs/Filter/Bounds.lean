import ListingQuery.Proofs.Filter.Reader
import ListingQuery.Proofs.Filter.Tree
import ListingQuery.Proofs.Limits

/-!
# The size of accepted filters

The limits are checked in two places that count differently: the scan of the tokens counts
parentheses and conditions, the reader counts parentheses and negations, and neither counts
conjunctions and disjunctions.  What they mean for the tree is derived here.

* `Yields` is the invariant of a reader: what it returns is branching and no higher than a bound,
  with a bounded number of negations on every path and one leaf for every fragment that was read;
* `Yields.readJoined` says that a connective raises the height by one and nothing else, so that a
  level of nesting, which holds a disjunction of conjunctions, adds two;
* `yields_readOperand` is the induction over the levels;
* `accepted_within_limits` puts the checks together.
-/

namespace ListingQuery.Filter

/-- The number of conditions among tokens. -/
def fragments (ts : List Token) : Nat :=
  ts.countP Token.isFragment

@[simp] theorem fragments_cons (t : Token) (ts : List Token) :
    fragments (t :: ts) = fragments ts + if t.isFragment then 1 else 0 :=
  List.countP_cons

/-- Whatever the reader returns is branching, has at most the given height and at most the given
number of negations on a path, and a leaf for every fragment that was read. -/
def Yields (operand : List Token → Reading Filter) (height negations : Nat) : Prop :=
  ∀ ts f rest, operand ts = .ok (f, rest) →
    f.Branching ∧ f.height ≤ height ∧ f.negationDepth ≤ negations ∧
      f.leaves.length + fragments rest = fragments ts

variable {operand : List Token → Reading Filter} {h n : Nat}

/-- Each further operand has what the reader of operands yields, and together they have a leaf for
every fragment. -/
theorem Yields.further (hyields : Yields operand h n) {k : Connective} {ts rest : List Token}
    {fs : List Filter} (hfurther : Further k operand ts fs rest) :
    (∀ f ∈ fs, f.Branching ∧ f.height ≤ h ∧ f.negationDepth ≤ n) ∧
      (leavesOfAll fs).length + fragments rest = fragments ts := by
  induction hfurther with
  | stop _ => simp [leavesOfAll]
  | @more ts mid rest f fs hread _ ih =>
      obtain ⟨hbranching, hheight, hnegations, hleaves⟩ := hyields _ _ _ hread
      obtain ⟨hall, hrest⟩ := ih
      constructor
      · intro g hg
        rcases List.mem_cons.mp hg with rfl | hg
        · exact ⟨hbranching, hheight, hnegations⟩
        · exact hall g hg
      · simp only [leavesOfAll, List.length_append, fragments_cons, Connective.token_isFragment]
        simp only [Bool.false_eq_true, if_false]
        omega

/-- A connective between two operands or more raises the height by one. -/
theorem Connective.node_measures (k : Connective) {fs : List Filter}
    (hall : ∀ f ∈ fs, f.Branching ∧ f.height ≤ h ∧ f.negationDepth ≤ n) (htwo : 2 ≤ fs.length) :
    (k.node fs).Branching ∧ (k.node fs).height ≤ h + 1 ∧ (k.node fs).negationDepth ≤ n ∧
      (k.node fs).leaves = leavesOfAll fs := by
  have hbranching := allBranching_iff.mpr fun f hf => (hall f hf).1
  have hheight := heightOfAll_le_iff.mpr fun f hf => (hall f hf).2.1
  have hnegations := negationDepthOfAll_le_iff.mpr fun f hf => (hall f hf).2.2
  cases k <;>
    simp [node, Branching, height, negationDepth, leaves, htwo, hbranching, hheight, hnegations]

/-- Operands with connectives between them yield a filter that is at most one higher. -/
theorem Yields.readJoined (hyields : Yields operand h n) (hshort : Shortens operand)
    (k : Connective) : Yields (readJoined k.token k.node operand) (h + 1) n := by
  intro ts f rest hread
  obtain ⟨first, mid, others, hfirst, hfurther, rfl⟩ := (readJoined_iff hshort).mp hread
  obtain ⟨hbranching, hheight, hnegations, hleaves⟩ := hyields _ _ _ hfirst
  obtain ⟨hall, hrest⟩ := hyields.further hfurther
  cases others with
  | nil =>
      simp only [leavesOfAll, List.length_nil] at hrest
      exact ⟨hbranching, Nat.le_succ_of_le hheight, hnegations, by
        simp only [Connective.gather]; omega⟩
  | cons second others =>
      have hmembers : ∀ f ∈ first :: second :: others,
          f.Branching ∧ f.height ≤ h ∧ f.negationDepth ≤ n := by
        intro f hf
        rcases List.mem_cons.mp hf with rfl | hf
        · exact ⟨hbranching, hheight, hnegations⟩
        · exact hall f hf
      obtain ⟨hb, hh, hn, hl⟩ := k.node_measures hmembers (by simp)
      refine ⟨hb, hh, hn, ?_⟩
      rw [Connective.gather, hl, leavesOfAll, List.length_append]
      omega

/-- A disjunction yields a filter that is at most two higher than its operands. -/
theorem Yields.readDisjunction (hyields : Yields operand h n) (hshort : Shortens operand) :
    Yields (readDisjunction operand) (h + 2) n := by
  rw [readDisjunction_eq]
  have hconjunction := hyields.readJoined hshort .conjunction
  exact hconjunction.readJoined (shortens_readJoined hshort) .disjunction

/-- Within its levels of nesting an operand is at most twice as high as there are levels. -/
theorem yields_readOperand (limit levels : Nat) :
    Yields (readOperand limit levels) (2 * levels) levels := by
  intro ts f rest hread
  refine readOperand_induction (motive := fun levels ts f rest =>
    f.Branching ∧ f.height ≤ 2 * levels ∧ f.negationDepth ≤ levels ∧
      f.leaves.length + fragments rest = fragments ts) ?_ ?_ ?_ hread
  · intro levels text words c rest _
    simp [Branching, height, negationDepth, leaves, Token.isFragment, Nat.add_comm]
  · rintro levels ts f rest ⟨hbranching, hheight, hnegations, hleaves⟩
    refine ⟨hbranching, ?_, ?_, ?_⟩
    · simp only [height]
      omega
    · simp only [negationDepth]
      omega
    · simpa [leaves, Token.isFragment] using hleaves
  · intro levels ts f rest ih hinner
    obtain ⟨hbranching, hheight, hnegations, hleaves⟩ :=
      Yields.readDisjunction ih (shortens_readOperand limit levels) _ _ _ hinner
    refine ⟨hbranching, by omega, by omega, ?_⟩
    simpa [Token.isFragment] using hleaves

/-! ## The scan of the tokens -/

/-- A token is counted as a leaf if it is a condition. -/
theorem Counts.add_leaves (c : Counts) (t : Token) :
    (c.add t).leaves = c.leaves + if t.isFragment then 1 else 0 := by
  cases t <;> rfl

/-- Tokens that break no limit have no more conditions than are allowed. -/
theorem fragments_le_of_firstBreach? {limits : Limits} {c : Counts} {ts : List Token}
    (hstart : c.leaves ≤ limits.filterLeaves.toNat) (hnone : firstBreach? limits c ts = none) :
    c.leaves + fragments ts ≤ limits.filterLeaves.toNat := by
  induction ts generalizing c with
  | nil => simpa [fragments] using hstart
  | cons t ts ih =>
      obtain ⟨hbreach, hrest⟩ := firstBreach?_cons_eq_none_iff.mp hnone
      obtain ⟨_, _, hleaves⟩ := Counts.breach?_eq_none_iff.mp hbreach
      have hrest := ih hleaves hrest
      rw [Counts.add_leaves] at hrest
      rw [fragments_cons]
      omega

/-! ## Accepted filters -/

/-- **Accepted filters are within the limits.**  With every bound cut at its ceiling, an accepted
text is no longer than allowed, and the filter has no more leaves than allowed, is at most twice as
high as the nesting allows and two more, and has on no path more negations than the nesting allows;
it is branching, unless it is the filter that admits everything. -/
theorem accepted_within_limits {source : String} {limits : Limits} {f : Filter}
    (hread : read source limits = .ok f) :
    source.utf8ByteSize ≤ min limits.filterLength.toNat Limits.maxFilterLength.toNat ∧
      f.leaves.length ≤ min limits.filterLeaves.toNat Limits.maxFilterLeaves.toNat ∧
      f.height ≤ 2 * min limits.filterDepth.toNat Limits.maxFilterDepth.toNat + 2 ∧
      f.negationDepth ≤ min limits.filterDepth.toNat Limits.maxFilterDepth.toNat ∧
      (f = .always ∨ f.Branching) := by
  rw [← Limits.clamped_filterLength, ← Limits.clamped_filterLeaves, ← Limits.clamped_filterDepth]
  obtain ⟨hlength, ⟨_, rfl⟩ | ⟨t, ts, _, hbreach, htree⟩⟩ := read_cases hread
  · simp [hlength, leaves, height, negationDepth]
  · have hyields := (yields_readOperand limits.clamped.filterDepth.toNat
      limits.clamped.filterDepth.toNat).readDisjunction (shortens_readOperand _ _)
    obtain ⟨hbranching, hheight, hnegations, hleaves⟩ := hyields _ _ _ (ofTokens_iff.mp htree)
    have hfragments := fragments_le_of_firstBreach? (Nat.zero_le _) hbreach
    have hzero : Counts.zero.leaves = 0 := rfl
    have hnil : fragments [] = 0 := rfl
    exact ⟨hlength, by omega, hheight, hnegations, Or.inr hbranching⟩

/-- A negated disjunction under a limit of two conditions and a nesting far above its ceiling. -/
theorem negatedDisjunction_within_limits :
    read "not (zimmer>=3 or plz==30159)"
        { Limits.standard with filterDepth := 1000000, filterLeaves := 2 } =
      .ok (.not (.or [.test ⟨.zimmer, .ge, "3", .int 3⟩,
        .test ⟨.plz, .eq, "30159", .str "30159"⟩])) ∧
    (Filter.not (.or [.test ⟨.zimmer, .ge, "3", .int 3⟩,
        .test ⟨.plz, .eq, "30159", .str "30159"⟩])).height ≤ 2 * 256 + 2 ∧
    (Filter.not (.or [.test ⟨.zimmer, .ge, "3", .int 3⟩,
        .test ⟨.plz, .eq, "30159", .str "30159"⟩])).leaves.length ≤ 2 := by
  have hread : read "not (zimmer>=3 or plz==30159)"
        { Limits.standard with filterDepth := 1000000, filterLeaves := 2 } =
      .ok (.not (.or [.test ⟨.zimmer, .ge, "3", .int 3⟩,
        .test ⟨.plz, .eq, "30159", .str "30159"⟩])) :=
    eq_ok_of_toOption (by decide +kernel)
  obtain ⟨_, hleaves, hheight, _, _⟩ := accepted_within_limits hread
  exact ⟨hread, hheight, hleaves⟩

end ListingQuery.Filter
