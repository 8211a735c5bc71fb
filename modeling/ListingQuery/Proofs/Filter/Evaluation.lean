import ListingQuery.Proofs.Filter.Tree

/-!
# Evaluating a filter

Conjunctions and disjunctions are evaluated alike: from left to right, up to the first operand with
the verdict that decides.  So whatever a filter gives comes from its comparisons.

* `evaluate_node_cons` is one step of that;
* `evaluate_eq_error` says that an error is that of a comparison whose field has no value, however
  far the evaluation gets;
* `evaluate_congr` says that the values of the fields that are compared settle the verdict.
-/

namespace ListingQuery

/-- A comparison fails exactly if its field has no value. -/
theorem Comparison.evaluate_eq_error_iff {c : Comparison} {l : Listing} {e : QueryError} :
    c.evaluate l = .error e ↔ (∃ s, c.field.valueIn l = .error s) ∧ e = c.failure := by
  unfold Comparison.evaluate
  cases c.field.valueIn l with
  | error s => simp [eq_comm]
  | ok value => cases hverdict : c.op.apply value c.operand <;> simp [hverdict]

namespace Filter

variable {l : Listing}

/-- The verdict of an operand that decides for the whole. -/
def Connective.decisive : Connective → Bool
  | conjunction => false
  | disjunction => true

/-- A node without operands is what no operand has decided. -/
theorem evaluate_node_nil (k : Connective) : (k.node []).evaluate l = .ok !k.decisive := by
  cases k <;> rfl

/-- The first operand decides, or the others do. -/
theorem evaluate_node_cons (k : Connective) (f : Filter) (fs : List Filter) :
    (k.node (f :: fs)).evaluate l = (f.evaluate l).bind fun v =>
      if v = k.decisive then .ok v else (k.node fs).evaluate l := by
  cases k <;> cases h : f.evaluate l with
  | error e => simp [Connective.node, evaluate, evaluateAll, evaluateAny, h, Except.bind]
  | ok v =>
      cases v <;> simp [Connective.node, Connective.decisive, evaluate, evaluateAll, evaluateAny, h,
        Except.bind]

/-- One operand alone has the verdict of the node that it would be. -/
theorem evaluate_gather (k : Connective) (first : Filter) (others : List Filter) :
    (k.gather first others).evaluate l = (k.node (first :: others)).evaluate l := by
  cases others with
  | cons g gs => rfl
  | nil =>
      rw [evaluate_node_cons, evaluate_node_nil]
      cases h : first.evaluate l with
      | error e => exact h
      | ok v =>
          refine h.trans ?_
          cases v <;> cases k <;> rfl

/-- **The values of the fields that are compared settle the verdict.** -/
theorem evaluate_congr {f : Filter} {m : Listing}
    (h : ∀ c ∈ f.leaves, c.field.valueIn l = c.field.valueIn m) : f.evaluate l = f.evaluate m := by
  induction f using Filter.induction with
  | always => rfl
  | test c =>
      have hvalue := h c List.mem_cons_self
      simp only [evaluate, Comparison.evaluate, hvalue]
  | not f ih => simp only [evaluate, ih h]
  | node k fs ih =>
      induction fs with
      | nil => rw [evaluate_node_nil, evaluate_node_nil]
      | cons g fs ihfs =>
          obtain ⟨hg, hfs⟩ := List.forall_mem_cons.mp ih
          rw [leaves_node_cons, List.forall_mem_append] at h
          rw [evaluate_node_cons, evaluate_node_cons, hg h.1, ihfs hfs h.2]

end Filter

end ListingQuery
