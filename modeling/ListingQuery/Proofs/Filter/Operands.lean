import ListingQuery.Proofs.Filter.Readings
import ListingQuery.Proofs.Filter.SingleCondition

/-!
# The operands of accepted filters

The operand of a condition is read once, as a single value or as a list of single values.  Brackets
inside brackets are text, so that no list holds a list; and a text is only taken for a number if the
value is finite.  A field that asks for a type gets a value of that type, or a list of them if the
operator takes a list.

* `Value.IsFlat` are the values that an operand can have;
* `Comparison.isFlat_operandValue?` says so of the operand of one condition;
* `Filter.isFlat_of_read` says so of every condition of an accepted filter;
* `Comparison.WellTyped` adds the type that the field asks for, and `Filter.operands_wellTyped` is the
  result.
-/

namespace ListingQuery

/-- A numeral that is read as a finite number is finite. -/
theorem Numeral.isFinite_of_finite? {cs : List Char} {x : Binary64}
    (h : Numeral.finite? cs = some x) : x.isFinite = true := by
  unfold Numeral.finite? at h
  split at h
  · cases h
  · split at h
    · rename_i hfinite
      exact Option.some.inj h ▸ hfinite
    · cases h

namespace Value

/-- A value that is no list, and no infinite or undefined number. -/
def IsScalar : Value → Prop
  | .float x => x.isFinite = true
  | .list _ => False
  | _ => True

/-- A single value or a list of single values. -/
def IsFlat : Value → Prop
  | .list items => ∀ v ∈ items, v.IsScalar
  | v => v.IsScalar

theorem IsScalar.isFlat {v : Value} (h : v.IsScalar) : v.IsFlat := by
  cases v with
  | list items => exact h.elim
  | _ => exact h

/-- What a text is cast to is a single value. -/
theorem isScalar_castTo? {t : ValueType} {cs : List Char} {v : Value}
    (h : castTo? t cs = some v) : v.IsScalar := by
  cases t with
  | str =>
      rw [← Option.some.inj h]
      trivial
  | int =>
      obtain ⟨i, -, rfl⟩ := Option.map_eq_some_iff.mp h
      trivial
  | float =>
      obtain ⟨x, hx, rfl⟩ := Option.map_eq_some_iff.mp h
      exact Numeral.isFinite_of_finite? hx
  | bool =>
      obtain ⟨b, -, rfl⟩ := Option.map_eq_some_iff.mp h
      trivial
  | date =>
      obtain ⟨m, -, rfl⟩ := Option.map_eq_some_iff.mp h
      trivial

/-- The type of a single value; a list has none. -/
def type? : Value → Option ValueType
  | .int _ => some .int
  | .float _ => some .float
  | .bool _ => some .bool
  | .date _ => some .date
  | .str _ => some .str
  | .list _ => none

/-- A text that is read as a value of a type gives one of that type. -/
theorem type?_castTo? {t : ValueType} {cs : List Char} {v : Value} (h : castTo? t cs = some v) :
    v.type? = some t := by
  cases t with
  | str =>
      rw [← Option.some.inj h]
      rfl
  | int =>
      obtain ⟨i, -, rfl⟩ := Option.map_eq_some_iff.mp h
      rfl
  | float =>
      obtain ⟨x, -, rfl⟩ := Option.map_eq_some_iff.mp h
      rfl
  | bool =>
      obtain ⟨b, -, rfl⟩ := Option.map_eq_some_iff.mp h
      rfl
  | date =>
      obtain ⟨m, -, rfl⟩ := Option.map_eq_some_iff.mp h
      rfl

/-- What a text is taken for is a single value. -/
theorem isScalar_inferScalar (cs : List Char) : (inferScalar cs).IsScalar := by
  unfold inferScalar
  split
  · trivial
  · split
    · rename_i hfloat
      exact Numeral.isFinite_of_finite? hfloat
    · split
      · trivial
      · split <;> trivial

/-- Whatever a text is taken for, it is a single value or a list of them. -/
theorem isFlat_infer (cs : List Char) : (infer cs).IsFlat := by
  unfold infer
  split
  · split
    · exact fun v hv => absurd hv List.not_mem_nil
    · intro v hv
      obtain ⟨item, -, rfl⟩ := List.mem_map.mp hv
      exact isScalar_inferScalar _
  · exact (isScalar_inferScalar cs).isFlat

end Value

namespace Comparison

/-- Every value of a list is read from an item. -/
theorem exists_item_of_castItems? {t : ValueType} {items : List (List Char)} {vs : List Value}
    (h : castItems? t items = some vs) {v : Value} (hv : v ∈ vs) :
    ∃ item ∈ items, Value.castTo? t item = some v := by
  have hmem : some v ∈ items.map (Value.castTo? t) := by
    rw [castItems?_eq_some_iff.mp h]
    exact List.mem_map_of_mem hv
  exact List.mem_map.mp hmem

/-- **An operand is a single value or a list of single values.** -/
theorem isFlat_operandValue? {field : Field} {op : Operator} {raw : List Char} {quoted : Bool}
    {v : Value} (h : operandValue? field op raw quoted = some v) : v.IsFlat := by
  unfold operandValue? at h
  cases htype : field.declaredType with
  | none =>
      simp only [htype, Option.some.injEq] at h
      subst h
      split
      · trivial
      · exact Value.isFlat_infer raw
  | some t =>
      simp only [htype] at h
      split at h
      · split at h
        · obtain ⟨vs, hvs, rfl⟩ := Option.map_eq_some_iff.mp h
          intro v hv
          obtain ⟨item, -, hitem⟩ := exists_item_of_castItems? hvs hv
          exact Value.isScalar_castTo? hitem
        · exact (Value.isScalar_castTo? h).isFlat
      · exact (Value.isScalar_castTo? h).isFlat

/-- An operand as a field of a type asks for it: a single value of the type, or a list of such values
behind `∈` and `∉`. -/
inductive Suits (t : ValueType) (op : Operator) : Value → Prop
  | single {v : Value} (hv : v.type? = some t) : Suits t op v
  | list {items : List Value} (hop : op = .isIn ∨ op = .notIn)
      (hitems : ∀ v ∈ items, v.type? = some t) : Suits t op (.list items)

theorem takesList_iff (op : Operator) : op.wantsList = true ↔ op = .isIn ∨ op = .notIn := by
  cases op <;> decide

/-- **An operand suits the type that the field asks for.** -/
theorem suits_operandValue? {field : Field} {op : Operator} {raw : List Char} {quoted : Bool}
    {t : ValueType} {v : Value} (htype : field.declaredType = some t)
    (h : operandValue? field op raw quoted = some v) : Suits t op v := by
  simp only [operandValue?, htype] at h
  split at h
  · rename_i hlist
    have hop : op.wantsList = true := (Bool.and_eq_true_iff.mp hlist).2
    split at h
    · obtain ⟨vs, hvs, rfl⟩ := Option.map_eq_some_iff.mp h
      refine .list ((takesList_iff op).mp hop) fun v hv => ?_
      obtain ⟨item, -, hitem⟩ := exists_item_of_castItems? hvs hv
      exact Value.type?_castTo? hitem
    · exact .single (Value.type?_castTo? h)
  · exact .single (Value.type?_castTo? h)

/-- The operand of a comparison is a single value or a list of single values, without infinite or
undefined numbers, and of the type that the field asks for. -/
structure WellTyped (c : Comparison) : Prop where
  flat : c.operand.IsFlat
  suits : ∀ t, c.field.declaredType = some t → Suits t c.op c.operand

end Comparison

namespace Filter

/-- Every condition of an accepted filter takes a text as its operand. -/
theorem exists_takes_of_read {source : String} {limits : Limits} {f : Filter}
    (h : read source limits = .ok f) : ∀ c ∈ f.leaves, ∃ text, c.Takes text := by
  intro c hc
  obtain ⟨-, ⟨-, rfl⟩ | ⟨t, ts, -, -, htree⟩⟩ := read_cases h
  · cases hc
  · have hreading : Except.ok c ∈ readings (t :: ts) := by
      rw [readings_of_ofTokens htree]
      exact List.mem_map_of_mem hc
    obtain ⟨u, -, hu⟩ := List.mem_filterMap.mp hreading
    cases u with
    | fragment text words =>
        obtain ⟨before, s, behind, -, -, -, -, htakes⟩ :=
          Comparison.read_eq_ok_iff.mp (Option.some.inj hu)
        exact ⟨_, htakes⟩
    | _ => cases hu

/-- The operands of an accepted filter are single values and lists of them. -/
theorem isFlat_of_read {source : String} {limits : Limits} {f : Filter}
    (h : read source limits = .ok f) : ∀ c ∈ f.leaves, c.operand.IsFlat := by
  intro c hc
  obtain ⟨text, -, hvalue⟩ := exists_takes_of_read h c hc
  exact Comparison.isFlat_operandValue? hvalue

/-- **The operands of an accepted filter are well typed.** -/
theorem operands_wellTyped {source : String} {limits : Limits} {f : Filter}
    (h : read source limits = .ok f) : ∀ c ∈ f.leaves, c.WellTyped := by
  intro c hc
  obtain ⟨text, -, hvalue⟩ := exists_takes_of_read h c hc
  exact ⟨isFlat_of_read h c hc, fun t htype => Comparison.suits_operandValue? htype hvalue⟩

/-- A list of postcodes, a date with its offset left out, and a list that looks nested and holds a word
for a number that is none. -/
theorem postcodes_dates_wellTyped :
    read "plz∈[30159; 030 ] and not abdatum<2024-02-29T12:00:00+01:00 or ort∈[[1;nan];1e999]"
        Limits.standard =
      .ok (.or [.and [.test ⟨.plz, .isIn, "[30159; 030 ]", .list [.str "30159", .str "030"]⟩,
          .not (.test ⟨.abdatum, .lt, "2024-02-29T12:00:00+01:00",
            .date ⟨⟨2024, 2, 29, rfl⟩, ⟨12, 0, 0, 0, rfl⟩⟩⟩)],
        .test ⟨.ort, .isIn, "[[1;nan];1e999]", .list [.str "[1", .str "nan]", .str "1e999"]⟩]) ∧
    Comparison.WellTyped ⟨.plz, .isIn, "[30159; 030 ]", .list [.str "30159", .str "030"]⟩ ∧
    Comparison.WellTyped
      ⟨.ort, .isIn, "[[1;nan];1e999]", .list [.str "[1", .str "nan]", .str "1e999"]⟩ := by
  have hread : read
        "plz∈[30159; 030 ] and not abdatum<2024-02-29T12:00:00+01:00 or ort∈[[1;nan];1e999]"
        Limits.standard =
      .ok (.or [.and [.test ⟨.plz, .isIn, "[30159; 030 ]", .list [.str "30159", .str "030"]⟩,
          .not (.test ⟨.abdatum, .lt, "2024-02-29T12:00:00+01:00",
            .date ⟨⟨2024, 2, 29, rfl⟩, ⟨12, 0, 0, 0, rfl⟩⟩⟩)],
        .test ⟨.ort, .isIn, "[[1;nan];1e999]", .list [.str "[1", .str "nan]", .str "1e999"]⟩]) :=
    eq_ok_of_toOption (by decide +kernel)
  have hall := operands_wellTyped hread
  exact ⟨hread, hall _ (by simp [leaves, leavesOfAll]), hall _ (by simp [leaves, leavesOfAll])⟩

end Filter

end ListingQuery
