import Mathlib.Logic.Relation
import ListingQuery.Proofs.Filter.ShortCircuit

/-!
# Filters that say the same

A filter can be rewritten in two ways.  Operands can be put into another order and grouped otherwise,
which changes the comparisons that are looked at and so the error, but never a result that is reached
with all comparisons made.  Negations can be moved to the operands and cancelled, which changes nothing
at all: the same comparisons are looked at in the same order.

* `Regrouped` is the first, `NegationMoved` one step of the second, both anywhere in a tree;
* `Regrouped.leaves_perm` and `Regrouped.truth_eq` are what regrouping keeps;
* `NegationMoved.evaluate_eq` is what moving a negation keeps;
* `evaluation_short_circuits` is the whole account of an evaluation.
-/

namespace ListingQuery.Filter

/-! ## Regrouping -/

/-- Filters that differ in the order and the grouping of operands. -/
inductive Regrouped : Filter → Filter → Prop
  | refl (f : Filter) : Regrouped f f
  | symm {f g : Filter} (h : Regrouped f g) : Regrouped g f
  | trans {f g h : Filter} (hfg : Regrouped f g) (hgh : Regrouped g h) : Regrouped f h
  | not {f g : Filter} (h : Regrouped f g) : Regrouped (.not f) (.not g)
  | operand (k : Connective) (before after : List Filter) {f g : Filter} (h : Regrouped f g) :
      Regrouped (k.node (before ++ f :: after)) (k.node (before ++ g :: after))
  | reordered (k : Connective) {fs gs : List Filter} (h : fs.Perm gs) :
      Regrouped (k.node fs) (k.node gs)
  | grouped (k : Connective) (before inner after : List Filter) :
      Regrouped (k.node (before ++ k.node inner :: after)) (k.node (before ++ inner ++ after))
  | single (k : Connective) (f : Filter) : Regrouped (k.node [f]) f

/-- Operands that decide in the same cases give the same value. -/
theorem truth_node_congr {verdict : Comparison → Bool} {k : Connective} {fs gs : List Filter}
    (h : (∃ f ∈ fs, f.truth verdict = k.decisive) ↔ ∃ g ∈ gs, g.truth verdict = k.decisive) :
    (k.node fs).truth verdict = (k.node gs).truth verdict := by
  rw [← truth_node_iff, ← truth_node_iff] at h
  revert h
  cases (k.node fs).truth verdict <;> cases (k.node gs).truth verdict <;> cases k.decisive <;> simp

/-- Regrouping keeps the value over any verdicts. -/
theorem Regrouped.truth_eq {f g : Filter} (h : Regrouped f g) (verdict : Comparison → Bool) :
    f.truth verdict = g.truth verdict := by
  induction h with
  | refl f => rfl
  | symm _ ih => exact ih.symm
  | trans _ _ ihfg ihgh => exact ihfg.trans ihgh
  | not _ ih => simp only [truth, ih]
  | operand k before after _ ih =>
      apply truth_node_congr
      simp only [List.mem_append, List.mem_cons, or_and_right, exists_or, exists_eq_left, ih]
  | reordered k hperm => exact truth_node_congr (by simp [hperm.mem_iff])
  | grouped k before inner after =>
      have hinner := truth_node_iff verdict k inner
      apply truth_node_congr
      simp only [List.mem_append, List.mem_cons, or_and_right, exists_or, exists_eq_left, hinner,
        or_assoc]
  | single k f =>
      rw [truth_node_cons, truth_node_nil]
      cases f.truth verdict <;> cases k.decisive <;> rfl

/-- Regrouping keeps the comparisons, though not their order. -/
theorem Regrouped.leaves_perm {f g : Filter} (h : Regrouped f g) : f.leaves.Perm g.leaves := by
  induction h with
  | refl f => exact .refl _
  | symm _ ih => exact ih.symm
  | trans _ _ ihfg ihgh => exact ihfg.trans ihgh
  | not _ ih => exact ih
  | operand k before after _ ih =>
      simp only [leaves_node, leavesOfAll_eq, List.flatMap_append, List.flatMap_cons]
      exact (ih.append_right _).append_left _
  | reordered k hperm =>
      simp only [leaves_node, leavesOfAll_eq]
      exact hperm.flatMap_right leaves
  | grouped k before inner after =>
      simp [leaves_node, leavesOfAll_eq]
  | single k f => simp [leaves_node, leavesOfAll_eq]

/-! ## Moving negations -/

/-- The connective that a negation turns a connective into. -/
def Connective.dual : Connective → Connective
  | conjunction => disjunction
  | disjunction => conjunction

/-- One negation is moved from a conjunction or a disjunction to its operands, or two that follow each
other are left out, anywhere in a filter. -/
inductive NegationMoved : Filter → Filter → Prop
  | inward (k : Connective) (fs : List Filter) :
      NegationMoved (.not (k.node fs)) (k.dual.node (fs.map .not))
  | cancelled (f : Filter) : NegationMoved (.not (.not f)) f
  | not {f g : Filter} (h : NegationMoved f g) : NegationMoved (.not f) (.not g)
  | operand (k : Connective) (before after : List Filter) {f g : Filter} (h : NegationMoved f g) :
      NegationMoved (k.node (before ++ f :: after)) (k.node (before ++ g :: after))

section Moving

variable {l : Listing}

/-- A negated conjunction goes as far as the disjunction of the negated operands. -/
theorem evaluate_not_node (k : Connective) (fs : List Filter) :
    (not (k.node fs)).evaluate l = (k.dual.node (fs.map not)).evaluate l := by
  induction fs with
  | nil => cases k <;> rfl
  | cons f fs ih =>
      rw [List.map_cons, evaluate_node_cons, ← ih, evaluate, evaluate_node_cons, evaluate, evaluate]
      cases f.evaluate l with
      | error e => rfl
      | ok v => cases k <;> cases v <;> rfl

/-- What an operand gives is all that counts. -/
theorem evaluate_operand_congr {f g : Filter} (h : f.evaluate l = g.evaluate l) (k : Connective)
    (before after : List Filter) :
    (k.node (before ++ f :: after)).evaluate l = (k.node (before ++ g :: after)).evaluate l := by
  induction before with
  | nil => rw [List.nil_append, List.nil_append, evaluate_node_cons, evaluate_node_cons, h]
  | cons d before ih =>
      rw [List.cons_append, List.cons_append, evaluate_node_cons, evaluate_node_cons, ih]

/-- **Moving a negation changes neither the result nor the error.** -/
theorem NegationMoved.evaluate_eq {f g : Filter} (h : NegationMoved f g) :
    f.evaluate l = g.evaluate l := by
  induction h with
  | inward k fs => exact evaluate_not_node k fs
  | cancelled f =>
      rw [evaluate, evaluate]
      cases f.evaluate l with
      | error e => rfl
      | ok v => cases v <;> rfl
  | not _ ih => rw [evaluate, evaluate, ih]
  | operand k before after _ ih => exact evaluate_operand_congr ih k before after

end Moving

/-! ## The account of an evaluation -/

/-- Where every comparison can be made, the filter has its truth as its result. -/
theorem evaluate_of_values {f : Filter} {l : Listing}
    (h : ∀ c ∈ f.leaves, ∃ v, c.field.valueIn l = .ok v) :
    f.evaluate l = .ok (f.truth (·.holds l)) :=
  evaluate_of_visited fun c hc =>
    Comparison.exists_evaluate_iff.mpr (h c (mem_leaves_of_mem_visited hc))

/-- **Evaluation short-circuits and is otherwise classical.**  If every field that is compared has a
value or none, though not a missing section, the result is the classical value of the tree over the
verdicts, and no reordering or regrouping of operands changes it.  In any case an evaluation fails
exactly if a comparison that is looked at lacks its section, and with the error of the first such
comparison.  And moving negations inward or cancelling them, any number of times and anywhere in the
tree, changes neither the result nor the error. -/
theorem evaluation_short_circuits (f : Filter) (l : Listing) :
    ((∀ c ∈ f.leaves, ∃ v, c.field.valueIn l = .ok v) →
      f.evaluate l = .ok (f.truth (·.holds l)) ∧
        ∀ g, Regrouped f g → g.evaluate l = f.evaluate l) ∧
    (∀ e, f.evaluate l = .error e ↔
      ∃ before c after, f.visited (·.holds l) = before ++ c :: after ∧
        (∀ d ∈ before, ∃ v, d.field.valueIn l = .ok v) ∧
        (∃ missing, c.field.valueIn l = .error missing) ∧
        e = .sieving c.field.name c.op.token c.raw) ∧
    ∀ g, Relation.ReflTransGen NegationMoved f g → g.evaluate l = f.evaluate l := by
  refine ⟨fun hvalues => ⟨evaluate_of_values hvalues, ?_⟩, ?_, ?_⟩
  · intro g hg
    have hothers : ∀ c ∈ g.leaves, ∃ v, c.field.valueIn l = .ok v := fun c hc =>
      hvalues c (hg.leaves_perm.mem_iff.mpr hc)
    rw [evaluate_of_values hothers, evaluate_of_values hvalues, hg.truth_eq]
  · intro e
    rw [evaluate_eq_error_iff_visited]
    simp only [FirstFailure, Comparison.exists_evaluate_iff, Comparison.evaluate_eq_error_iff,
      Comparison.failure]
  · intro g hg
    induction hg with
    | refl => rfl
    | tail _ hstep ih => rw [← ih, hstep.evaluate_eq]

/-- A flat in Celle at a rent of 500; nothing is known of its rooms. -/
def celleFlat : Listing :=
  { Listing.empty with
    geo := some ⟨none, some "Celle", none, none, none, none, none, none⟩
    preise := some ⟨some ⟨0x407F400000000000⟩, none, none, none, none, none, none, none, none⟩ }

/-- The flat is in Celle. -/
def inCelle : Filter := .test ⟨.ort, .eq, "Celle", .str "Celle"⟩

/-- The rent is compared with a word, which is false of every rent. -/
def cheap : Filter := .test ⟨.kaltmiete, .lt, "wenig", .str "wenig"⟩

/-- The flat has three rooms or more. -/
def roomy : Filter := .test ⟨.zimmer, .ge, "3", .int 3⟩

/-- A comparison of kinds that are not compared is false before it is negated, in any order of the
operands.  The rooms are missed only where they are looked at, with the negation outside or inside. -/
theorem celleFlat_short_circuits :
    (∀ c ∈ (Filter.not (.and [inCelle, cheap])).leaves, ∃ v, c.field.valueIn celleFlat = .ok v) ∧
      (Filter.not (.and [cheap, inCelle])).evaluate celleFlat = .ok true ∧
      (Filter.not (.or [inCelle, roomy])).evaluate celleFlat = .ok false ∧
      (Filter.not (.or [cheap, roomy])).evaluate celleFlat = .error (.sieving "zimmer" ">=" "3") ∧
      (Filter.and [.not cheap, .not roomy]).evaluate celleFlat =
        .error (.sieving "zimmer" ">=" "3") := by
  have hvalues : ∀ c ∈ (Filter.not (.and [inCelle, cheap])).leaves,
      ∃ v, c.field.valueIn celleFlat = .ok v := by
    simp [leaves, leavesOfAll, inCelle, cheap, Field.valueIn, celleFlat, Listing.inPlace,
      Listing.required, Except.map]
  obtain ⟨hresult, hregrouped⟩ :=
    (evaluation_short_circuits (.not (.and [inCelle, cheap])) celleFlat).1 hvalues
  have hswapped : Regrouped (.not (.and [inCelle, cheap])) (.not (.and [cheap, inCelle])) :=
    .not (.reordered .conjunction (List.Perm.swap cheap inCelle []))
  obtain ⟨_, herror, hmoved⟩ := evaluation_short_circuits (.not (.or [cheap, roomy])) celleFlat
  have hrooms : (Filter.not (.or [cheap, roomy])).evaluate celleFlat =
      .error (.sieving "zimmer" ">=" "3") :=
    (herror _).mpr ⟨[⟨.kaltmiete, .lt, "wenig", .str "wenig"⟩], ⟨.zimmer, .ge, "3", .int 3⟩, [],
      by decide, by simp [Field.valueIn], ⟨.flaechen, rfl⟩, rfl⟩
  have hinward := hmoved _ (.single (.inward .disjunction [cheap, roomy]))
  exact ⟨hvalues, (hregrouped _ hswapped).trans hresult, rfl, hrooms, hinward.trans hrooms⟩

end ListingQuery.Filter
