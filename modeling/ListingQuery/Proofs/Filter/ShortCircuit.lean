import ListingQuery.Proofs.Filter.Evaluation
import ListingQuery.Proofs.FirstFailure

/-!
# Which comparisons are looked at

A filter is a Boolean combination of its comparisons, and a comparison whose operator does not compare
the two kinds counts as false.  Evaluation from left to right looks at some of the comparisons only: a
conjunction is left behind its first false operand, a disjunction behind its first true one.

* `Filter.truth` is the value of the tree over given verdicts on its comparisons;
* `Filter.visited` are the comparisons that are looked at under these verdicts, in their order;
* `evaluate_of_visited` and `evaluate_of_firstFailure` say that the two settle an evaluation: the first
  comparison on the way that cannot be made is its error, and without one the truth is its result.
-/

namespace ListingQuery

namespace Comparison

/-- The verdict of a comparison as a truth value: false where the kinds are not compared, and where
there is no verdict at all. -/
def holds (c : Comparison) (l : Listing) : Bool :=
  match c.field.valueIn l with
  | .error _ => false
  | .ok value =>
    match c.op.apply value c.operand with
    | .ok verdict => verdict
    | .error _ => false

/-- A comparison is made exactly if its field has a value, and then it gives its truth value. -/
theorem evaluate_of_value {c : Comparison} {l : Listing} {v : Option Value}
    (h : c.field.valueIn l = .ok v) : c.evaluate l = .ok (c.holds l) := by
  simp only [evaluate, holds, h]
  cases c.op.apply v c.operand <;> rfl

/-- A comparison has a verdict exactly if its field has a value. -/
theorem exists_evaluate_iff {c : Comparison} {l : Listing} :
    (∃ b, c.evaluate l = .ok b) ↔ ∃ v, c.field.valueIn l = .ok v := by
  constructor
  · rintro ⟨b, hb⟩
    cases hvalue : c.field.valueIn l with
    | ok v => exact ⟨v, rfl⟩
    | error s =>
        rw [evaluate_eq_error_iff.mpr ⟨⟨s, hvalue⟩, rfl⟩] at hb
        cases hb
  · rintro ⟨v, hv⟩
    exact ⟨_, evaluate_of_value hv⟩

end Comparison

namespace Filter

/-! ## Truth -/

mutual

/-- The value of a filter over verdicts on its comparisons. -/
def truth (verdict : Comparison → Bool) : Filter → Bool
  | always => true
  | test c => verdict c
  | not f => !truth verdict f
  | and fs => truthOfAll verdict fs
  | or fs => truthOfAny verdict fs

/-- Are all of several filters true? -/
def truthOfAll (verdict : Comparison → Bool) : List Filter → Bool
  | [] => true
  | f :: fs => truth verdict f && truthOfAll verdict fs

/-- Is one of several filters true? -/
def truthOfAny (verdict : Comparison → Bool) : List Filter → Bool
  | [] => false
  | f :: fs => truth verdict f || truthOfAny verdict fs

end

/-! ## Visits -/

mutual

/-- The comparisons that are looked at under verdicts on them, from left to right. -/
def visited (verdict : Comparison → Bool) : Filter → List Comparison
  | always => []
  | test c => [c]
  | not f => visited verdict f
  | and fs => visitedOfAll verdict fs
  | or fs => visitedOfAny verdict fs

/-- The comparisons that are looked at up to the first false filter. -/
def visitedOfAll (verdict : Comparison → Bool) : List Filter → List Comparison
  | [] => []
  | f :: fs => visited verdict f ++ if truth verdict f then visitedOfAll verdict fs else []

/-- The comparisons that are looked at up to the first true filter. -/
def visitedOfAny (verdict : Comparison → Bool) : List Filter → List Comparison
  | [] => []
  | f :: fs => visited verdict f ++ if truth verdict f then [] else visitedOfAny verdict fs

end

section Nodes

variable (verdict : Comparison → Bool) (k : Connective)

/-- A node without operands is what no operand has decided. -/
theorem truth_node_nil : (k.node []).truth verdict = !k.decisive := by
  cases k <;> rfl

/-- The first operand decides, or the others do. -/
theorem truth_node_cons (f : Filter) (fs : List Filter) :
    (k.node (f :: fs)).truth verdict =
      if f.truth verdict = k.decisive then k.decisive else (k.node fs).truth verdict := by
  cases k <;> cases h : f.truth verdict <;>
    simp [Connective.node, Connective.decisive, truth, truthOfAll, truthOfAny, h]

/-- A node without operands visits nothing. -/
theorem visited_node_nil : (k.node []).visited verdict = [] := by
  cases k <;> rfl

/-- What lies behind an operand that decides is not looked at. -/
theorem visited_node_cons (f : Filter) (fs : List Filter) :
    (k.node (f :: fs)).visited verdict = f.visited verdict ++
      if f.truth verdict = k.decisive then [] else (k.node fs).visited verdict := by
  cases k <;> cases h : f.truth verdict <;>
    simp [Connective.node, Connective.decisive, visited, visitedOfAll, visitedOfAny, h]

/-- **An operand with the decisive verdict decides, wherever it stands.** -/
theorem truth_node_iff (fs : List Filter) :
    (k.node fs).truth verdict = k.decisive ↔ ∃ f ∈ fs, f.truth verdict = k.decisive := by
  induction fs with
  | nil => cases h : k.decisive <;> simp [truth_node_nil, h]
  | cons f fs ih =>
      simp only [truth_node_cons, List.mem_cons, exists_eq_or_imp, ← ih]
      by_cases hf : f.truth verdict = k.decisive <;> simp [hf]

end Nodes

/-- Only comparisons of the filter are looked at. -/
theorem mem_leaves_of_mem_visited {verdict : Comparison → Bool} {f : Filter} {c : Comparison}
    (h : c ∈ f.visited verdict) : c ∈ f.leaves := by
  induction f using Filter.induction with
  | always => cases h
  | test d => exact h
  | not f ih => exact ih h
  | node k fs ih =>
      induction fs with
      | nil =>
          rw [visited_node_nil] at h
          cases h
      | cons g fs ihfs =>
          obtain ⟨hg, hfs⟩ := List.forall_mem_cons.mp ih
          rw [visited_node_cons, List.mem_append] at h
          rw [leaves_node_cons, List.mem_append]
          rcases h with hfirst | hothers
          · exact Or.inl (hg hfirst)
          · split at hothers
            · cases hothers
            · exact Or.inr (ihfs hfs hothers)

/-! ## Evaluation -/

section Evaluation

variable {l : Listing}

/-- **If every comparison that is looked at can be made, the result is the truth** of the filter over
the verdicts. -/
theorem evaluate_of_visited {f : Filter}
    (h : ∀ c ∈ f.visited (·.holds l), ∃ b, c.evaluate l = .ok b) :
    f.evaluate l = .ok (f.truth (·.holds l)) := by
  induction f using Filter.induction with
  | always => rfl
  | test c =>
      obtain ⟨v, hv⟩ := Comparison.exists_evaluate_iff.mp (h c List.mem_cons_self)
      exact Comparison.evaluate_of_value hv
  | not f ih =>
      rw [evaluate, ih h]
      rfl
  | node k fs ih =>
      induction fs with
      | nil => rw [evaluate_node_nil, truth_node_nil]
      | cons g fs ihfs =>
          obtain ⟨hg, hfs⟩ := List.forall_mem_cons.mp ih
          rw [visited_node_cons, List.forall_mem_append] at h
          rw [evaluate_node_cons, truth_node_cons, hg h.1]
          by_cases hdecides : g.truth (·.holds l) = k.decisive
          · simp [Except.bind, hdecides]
          · have hrest := h.2
            rw [if_neg hdecides] at hrest
            simp [Except.bind, hdecides, ihfs hfs hrest]

/-- **The first comparison that is looked at and cannot be made ends the evaluation.** -/
theorem evaluate_of_firstFailure {f : Filter} {e : QueryError}
    (h : FirstFailure (fun c => c.evaluate l) (f.visited (·.holds l)) e) :
    f.evaluate l = .error e := by
  induction f using Filter.induction with
  | always => exact absurd h (not_firstFailure_nil e)
  | test c =>
      rcases firstFailure_cons_iff.mp h with hc | ⟨_, hnone⟩
      · exact hc
      · exact absurd hnone (not_firstFailure_nil e)
  | not f ih =>
      rw [evaluate, ih h]
      rfl
  | node k fs ih =>
      induction fs with
      | nil =>
          rw [visited_node_nil] at h
          exact absurd h (not_firstFailure_nil e)
      | cons g fs ihfs =>
          obtain ⟨hg, hfs⟩ := List.forall_mem_cons.mp ih
          rw [visited_node_cons, firstFailure_append_iff] at h
          rw [evaluate_node_cons]
          rcases h with hfirst | ⟨hmade, hothers⟩
          · rw [hg hfirst]
            rfl
          · rw [evaluate_of_visited hmade]
            by_cases hdecides : g.truth (·.holds l) = k.decisive
            · rw [if_pos hdecides] at hothers
              exact absurd hothers (not_firstFailure_nil e)
            · rw [if_neg hdecides] at hothers
              simp [Except.bind, hdecides, ihfs hfs hothers]

/-- An evaluation fails exactly with the first comparison that is looked at and cannot be made. -/
theorem evaluate_eq_error_iff_visited {f : Filter} {e : QueryError} :
    f.evaluate l = .error e ↔
      FirstFailure (fun c => c.evaluate l) (f.visited (·.holds l)) e := by
  refine ⟨fun h => ?_, evaluate_of_firstFailure⟩
  rcases firstFailure_or_all (fun c => c.evaluate l) (f.visited (·.holds l)) with hall | ⟨d, hd⟩
  · rw [evaluate_of_visited hall] at h
    cases h
  · rw [evaluate_of_firstFailure hd, Except.error.injEq] at h
    rwa [← h]

end Evaluation

end Filter

end ListingQuery
