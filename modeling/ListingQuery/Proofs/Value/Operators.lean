import ListingQuery.Proofs.Calendar.MomentText
import ListingQuery.Value.Operator

/-!
# The laws of the operators

Equality and order of values are computed apart from each other: `looseEq` goes into lists and says no
to mixed kinds, `compare?` knows neither lists nor truth values and has no answer for mixed kinds.  On
the pairs that are ordered they agree, also where an integer is rounded to be compared with a floating
point number, and where numbers with different bits are equal.  So the operators of order and equality
go together there: one of below, the same and above, and the other two are put together from these.

* `Value.compare?_swap` is the order from the other side, and `Value.looseEq_of_compare?` the agreement
  of order and equality;
* `Operator.Verdicts` are the five verdicts that go with a place, and `Operator.verdicts_of_compare?`
  says that a pair in order has them;
* `Operator.negation?` pairs every positive operator with its negation, and `Operator.apply_negation`
  is their law, missing values and mismatches included;
* `Operator.operator_laws` is the table as a whole.
-/

namespace ListingQuery

/-! ## Order and equality -/

/-- The parts of a moment can be told from its place on the line. -/
theorem Moment.key_injective {m n : Moment} (h : m.key = n.key) : m = n := by
  have hm := m.time.bounds
  have hn := n.time.bounds
  have hmonth := m.date.month_le
  have hmonth' := n.date.month_le
  have hday := m.date.day_le
  have hday' := n.date.day_le
  obtain ⟨⟨year, month, day, _⟩, ⟨hour, minute, second, nanosecond, _⟩⟩ := m
  obtain ⟨⟨year', month', day', _⟩, ⟨hour', minute', second', nanosecond', _⟩⟩ := n
  simp only [Moment.key] at *
  have hparts : year = year' ∧ month = month' ∧ day = day' ∧ hour = hour' ∧ minute = minute' ∧
      second = second' ∧ nanosecond = nanosecond' := by omega
  obtain ⟨rfl, rfl, rfl, rfl, rfl, rfl, rfl⟩ := hparts
  rfl

/-- Numbers are compared alike from either side. -/
theorem Binary64.compare?_swap (x y : Binary64) :
    y.compare? x = (x.compare? y).map Ordering.swap := by
  unfold compare?
  rw [Bool.or_comm]
  split
  · rfl
  · rw [Option.map_some, ← Std.OrientedOrd.eq_swap]

namespace Value

/-- The order of two values from the other side, where there is one. -/
theorem compare?_swap (a b : Value) : b.compare? a = (a.compare? b).map Ordering.swap := by
  cases a with
  | int i =>
      cases b with
      | int j => exact congrArg some Std.OrientedOrd.eq_swap
      | float y => exact Binary64.compare?_swap _ _
      | _ => rfl
  | float x =>
      cases b with
      | int j => exact Binary64.compare?_swap _ _
      | float y => exact Binary64.compare?_swap _ _
      | _ => rfl
  | date m =>
      cases b with
      | date n => exact congrArg some Std.OrientedOrd.eq_swap
      | _ => rfl
  | str s =>
      cases b with
      | str t => exact congrArg some Std.OrientedOrd.eq_swap
      | _ => rfl
  | bool p => cases b <;> rfl
  | list items => cases b <;> rfl

/-- Values whose places are told by something of theirs are equal in the order if they are the same. -/
theorem beq_of_compare {α β : Type} [BEq α] [LawfulBEq α] [Ord β] [Std.LawfulEqOrd β] {place : α → β}
    (hplace : Function.Injective place) {x y : α} {o : Ordering}
    (h : compare (place x) (place y) = o) : (x == y) = o.isEq := by
  subst h
  rw [Bool.eq_iff_iff, beq_iff_eq, Ordering.isEq_iff_eq_eq, Std.LawfulEqOrd.compare_eq_iff_eq]
  exact hplace.eq_iff.symm

/-- Numbers that can be compared are equal exactly if they tie. -/
theorem equals_of_compare? {x y : Binary64} {o : Ordering} (h : x.compare? y = some o) :
    x.equals y = o.isEq := by
  rw [Binary64.equals, h]
  cases o <;> rfl

/-- **Where two values are ordered, they are equal exactly if neither is below the other.** -/
theorem looseEq_of_compare? {a b : Value} {o : Ordering} (h : a.compare? b = some o) :
    a.looseEq b = o.isEq := by
  cases a with
  | int i =>
      cases b with
      | int j => exact beq_of_compare (fun _ _ => Int64.toInt_inj.mp) (Option.some.inj h)
      | float y => exact equals_of_compare? h
      | _ => cases h
  | float x =>
      cases b with
      | int j => exact equals_of_compare? h
      | float y => exact equals_of_compare? h
      | _ => cases h
  | date m =>
      cases b with
      | date n => exact beq_of_compare (fun _ _ => Moment.key_injective) (Option.some.inj h)
      | _ => cases h
  | str s =>
      cases b with
      | str t => exact beq_of_compare Function.injective_id (Option.some.inj h)
      | _ => cases h
  | bool p => cases b <;> cases h
  | list items => cases b <;> cases h

end Value

namespace Operator

/-! ## Operators of order -/

/-- The operators that ask for an order. -/
def ordering : List Operator := [.lt, .le, .gt, .ge]

/-- The verdicts on two present values, the first of which is below the second, the same, or above. -/
structure Verdicts (a b : Value) (below same above : Bool) : Prop where
  lt : Operator.lt.apply (some a) b = .ok below
  eq : Operator.eq.apply (some a) b = .ok same
  gt : Operator.gt.apply (some a) b = .ok above
  le : Operator.le.apply (some a) b = .ok (below || same)
  ge : Operator.ge.apply (some a) b = .ok (above || same)

/-- A present value has a verdict, or the kinds are a mismatch. -/
theorem apply_some (op : Operator) (a b : Value) : op.apply (some a) b =
    match op.verdict? a b with
    | some verdict => .ok verdict
    | none => .error ⟨op, a.kind, b.kind⟩ := rfl

/-- Two values that are ordered have the verdicts of their place. -/
theorem verdicts_of_compare? {a b : Value} {o : Ordering} (h : a.compare? b = some o) :
    Verdicts a b o.isLT o.isEq o.isGT := by
  have hequal := Value.looseEq_of_compare? h
  constructor <;> cases o <;> simp [apply_some, verdict?, h, hequal]

/-- One of three verdicts that go with a place is yes. -/
theorem count_place (o : Ordering) : [o.isLT, o.isEq, o.isGT].count true = 1 := by
  cases o <;> rfl

/-- The operators of order fail where there is no order, and only there. -/
theorem apply_ordering_eq_error_iff {op : Operator} (hop : op ∈ ordering) (a b : Value) :
    (∃ m, op.apply (some a) b = .error m) ↔ a.compare? b = none := by
  have hverdict : op.verdict? a b = none ↔ a.compare? b = none := by
    simp only [ordering, List.mem_cons, List.not_mem_nil, or_false] at hop
    rcases hop with rfl | rfl | rfl | rfl <;> simp [verdict?]
  rw [← hverdict, apply_some]
  cases op.verdict? a b <;> simp

/-- No order holds of a missing value. -/
theorem apply_ordering_none {op : Operator} (hop : op ∈ ordering) (b : Value) :
    op.apply none b = .ok false := by
  simp only [ordering, List.mem_cons, List.not_mem_nil, or_false] at hop
  rcases hop with rfl | rfl | rfl | rfl <;> rfl

/-! ## Negated operators -/

/-- The negation of a positive operator that has one. -/
def negation? : Operator → Option Operator
  | .eq => some .ne
  | .eqCi => some .neCi
  | .isIn => some .notIn
  | .contains => some .notContains
  | _ => none

/-- **A negated operator gives the other verdict, and a mismatch where its twin does.** -/
theorem apply_negation {op negated : Operator} (h : op.negation? = some negated)
    (field : Option Value) (operand : Value) : negated.apply field operand =
      ((op.apply field operand).map (!·)).mapError fun m => { m with op := negated } := by
  have hverdict : ∀ a, negated.verdict? a operand = (op.verdict? a operand).map (!·) := by
    intro a
    cases op <;> cases h <;> rfl
  cases field with
  | none => cases op <;> cases h <;> rfl
  | some a =>
      rw [apply_some, apply_some, hverdict a]
      cases op.verdict? a operand <;> rfl

/-- Holding a value is being held by it, from the other side. -/
theorem apply_contains (a b : Value) : Operator.contains.apply (some a) b =
    (Operator.isIn.apply (some b) a).mapError fun m => ⟨.contains, m.right, m.left⟩ := by
  rw [apply_some, apply_some]
  simp only [verdict?]
  cases b.memberOf? a <;> rfl

/-! ## The table -/

/-- **The laws of the operators.**  A negated operator gives the other verdict than its twin on every
field, absent ones and nested lists included, and fails exactly where that does; `∋` is `∈` with the
sides exchanged; the operators of order fail on present values exactly where there is no order, and are
false of absent ones.  Where there is an order, exactly one of `<`, `==` and `>` holds, the other two
are put together from these, and the exchanged values have the mirrored verdicts. -/
theorem operator_laws :
    (∀ op negated : Operator, op.negation? = some negated → ∀ field operand,
      negated.apply field operand =
        ((op.apply field operand).map (!·)).mapError fun m => { m with op := negated }) ∧
    (∀ a b : Value, Operator.contains.apply (some a) b =
      (Operator.isIn.apply (some b) a).mapError fun m => ⟨.contains, m.right, m.left⟩) ∧
    (∀ op ∈ ordering, ∀ b : Value, op.apply none b = .ok false ∧
      ∀ a : Value, (∃ m, op.apply (some a) b = .error m) ↔ a.compare? b = none) ∧
    ∀ a b : Value, b.compare? a = (a.compare? b).map Ordering.swap ∧
      (a.compare? b ≠ none → ∃ below same above, [below, same, above].count true = 1 ∧
        Verdicts a b below same above ∧ Verdicts b a above same below) := by
  refine ⟨fun _ _ h => apply_negation h, apply_contains,
    fun op hop b => ⟨apply_ordering_none hop b, fun a => apply_ordering_eq_error_iff hop a b⟩,
    fun a b => ⟨a.compare?_swap b, fun hordered => ?_⟩⟩
  obtain ⟨o, ho⟩ := Option.ne_none_iff_exists'.mp hordered
  have hmirrored : b.compare? a = some o.swap := by rw [a.compare?_swap b, ho, Option.map_some]
  refine ⟨o.isLT, o.isEq, o.isGT, count_place o, verdicts_of_compare? ho, ?_⟩
  have hverdicts := verdicts_of_compare? hmirrored
  rwa [Ordering.isLT_swap, Ordering.isEq_swap, Ordering.isGT_swap] at hverdicts

/-- An integer that equals the number it is rounded to, a list in a list, and a missing value. -/
theorem rounded_integer_verdicts :
    Verdicts (.int 9007199254740993) (.float (Binary64.ofInt 9007199254740992)) false true false ∧
      Operator.ne.apply (some (.list [.list [.int 1], .str "a"]))
        (.list [.list [.float (Binary64.ofInt 1)], .str "a"]) = .ok false ∧
      Operator.notIn.apply none (.int 3) = .ok true := by
  have hequal : (Value.int 9007199254740993).looseEq
      (.float (Binary64.ofInt 9007199254740992)) = true := by decide +kernel
  have hlists : Operator.eq.apply (some (.list [.list [.int 1], .str "a"]))
      (.list [.list [.float (Binary64.ofInt 1)], .str "a"]) = .ok true :=
    congrArg Except.ok (by decide +kernel)
  obtain ⟨hnegated, -, -, hordered⟩ := operator_laws
  obtain ⟨below, same, above, hcount, hverdicts, -⟩ :=
    (hordered (.int 9007199254740993) (.float (Binary64.ofInt 9007199254740992))).2 (by decide +kernel)
  refine ⟨?_, (hnegated .eq .ne rfl _ _).trans (by rw [hlists]; rfl), hnegated .isIn .notIn rfl _ _⟩
  have hsame : same = true := (Except.ok.inj hverdicts.eq).symm.trans hequal
  subst hsame
  cases below <;> cases above <;> first | exact hverdicts | simp at hcount

end Operator

end ListingQuery
