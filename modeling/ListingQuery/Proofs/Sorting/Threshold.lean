import ListingQuery.Proofs.Filter.ShortCircuit
import ListingQuery.Proofs.Number.Rounding
import ListingQuery.Proofs.Sorting.AnySort

/-!
# Thresholds and the sort order

A condition such as `zimmer <= 3` admits what stands before something that it admits, when the
listings are sorted by the field of the condition.  Sorting and conditions compare values each in a
way of its own: sorting compares two values of the field, with missing values and ranks of kinds, and
a condition compares a value with its operand, which may be the other kind of number.  An integer is
rounded before it is compared with a floating point number.  Since rounding keeps the order of
integers, the two ways agree on values of one kind.

* `Placed` says that of two verdicts of a comparison one is no later than the other;
* `Value.placed_compare?` says so of the comparisons of two values, in the order of their column, with
  whatever operand;
* `threshold_admits_neighbours` is the result.
-/

namespace ListingQuery

/-! ## Places with regard to an operand -/

/-- The place of `o` is no later than that of `p`. -/
def Placed (o p : Ordering) : Prop :=
  o = .lt ∨ o = p ∨ p = .gt

/-- Of two places in a line the earlier one is no later with regard to a third. -/
theorem placed_compare {α : Type} [LinearOrder α] {x y : α} (h : x ≤ y) (z : α) :
    Placed (compare x z) (compare y z) := by
  by_cases hxz : x < z
  · exact Or.inl (compare_lt_iff_lt.mpr hxz)
  · by_cases hzy : z < y
    · exact Or.inr (Or.inr (compare_gt_iff_gt.mpr hzy))
    · have hx : x = z := le_antisymm (h.trans (not_lt.mp hzy)) (not_lt.mp hxz)
      have hy : y = z := le_antisymm (not_lt.mp hzy) ((not_lt.mp hxz).trans h)
      rw [hx, hy]
      exact Or.inr (Or.inl rfl)

/-- Numbers that compare so are in order. -/
theorem le_of_isLE_compare {α : Type} [LinearOrder α] {x y : α}
    (h : (compare x y).isLE = true) : x ≤ y :=
  compare_le_iff_le.mp (Ordering.isLE_iff_ne_gt.mp h)

namespace Binary64

/-- Of two numbers the smaller one is no later with regard to a third, which may be none. -/
theorem placed_compare? {x y : Binary64} (hx : x.isNaN = false) (hy : y.isNaN = false)
    (h : x.key ≤ y.key) (z : Binary64) : Option.Rel Placed (x.compare? z) (y.compare? z) := by
  unfold compare?
  rw [hx, hy]
  cases z.isNaN with
  | true => exact .none
  | false => exact .some (placed_compare h z.key)

end Binary64

namespace Value

/-- Two integers in order compare in order with numbers of both kinds. -/
theorem placed_compare?_int {i j : Int64} (h : i.toInt ≤ j.toInt) (operand : Value) :
    Option.Rel Placed ((int i).compare? operand) ((int j).compare? operand) := by
  cases operand with
  | int k => exact .some (placed_compare h k.toInt)
  | float z =>
      exact Binary64.placed_compare? (Binary64.isNaN_ofInt _) (Binary64.isNaN_ofInt _)
        (Binary64.key_ofInt_mono h) z
  | _ => exact .none

/-- Two floating point numbers in order compare in order with numbers of both kinds. -/
theorem placed_compare?_float {x y : Binary64} (hx : x.isNaN = false) (hy : y.isNaN = false)
    (h : x.key ≤ y.key) (operand : Value) :
    Option.Rel Placed ((float x).compare? operand) ((float y).compare? operand) := by
  cases operand with
  | int k => exact Binary64.placed_compare? hx hy h _
  | float z => exact Binary64.placed_compare? hx hy h z
  | _ => exact .none

/-- Values of one kind have one level. -/
theorem level_eq_of_kind_eq {v w : Value} (h : v.kind = w.kind) :
    level (some v) = level (some w) := by
  cases v <;> cases w <;> first | rfl | exact absurd h (by simp [kind])

/-- **Two values of a column that are in order and of one kind compare in order with any operand**,
or neither is compared with it. -/
theorem placed_compare? {s : Scale} {v w : Value} (hv : OnScale s (some v))
    (hw : OnScale s (some w)) (hkind : v.kind = w.kind)
    (horder : (optionalKeyOrder (some v) (some w)).isLE = true) (operand : Value) :
    Option.Rel Placed (v.compare? operand) (w.compare? operand) := by
  have halike := alike_of_level_eq hv hw (level_eq_of_kind_eq hkind)
  rw [optionalKeyOrder_of_alike halike] at horder
  cases halike with
  | int i j =>
      exact placed_compare?_int (le_of_isLE_compare (by simpa [number, word] using horder)) operand
  | float hx hy =>
      exact placed_compare?_float hx hy
        (le_of_isLE_compare (by simpa [number, word] using horder)) operand
  | bool p q => exact .none
  | date m n =>
      have hle := le_of_isLE_compare (x := m.key) (y := n.key)
        (by simpa [number, word] using horder)
      cases operand with
      | date k => exact .some (placed_compare hle k.key)
      | _ => exact .none
  | str t u =>
      have hle := le_of_isLE_compare (x := t) (y := u) (by simpa [number, word] using horder)
      cases operand with
      | str k => exact .some (placed_compare hle k)
      | _ => exact .none

end Value

/-! ## Thresholds -/

namespace Operator

/-- Is the operand of the operator an upper bound? -/
def IsUpperBound (op : Operator) : Prop :=
  op = .lt ∨ op = .le

/-- Is the operand of the operator a lower bound? -/
def IsLowerBound (op : Operator) : Prop :=
  op = .gt ∨ op = .ge

variable {op : Operator} {v w operand : Value}

/-- What is no later than something below a bound is below it. -/
theorem IsUpperBound.verdict? (hop : op.IsUpperBound)
    (hplaced : Option.Rel Placed (v.compare? operand) (w.compare? operand))
    (hw : op.verdict? w operand = some true) : op.verdict? v operand = some true := by
  have hop : op = .lt ∨ op = .le := hop
  generalize ho : v.compare? operand = o at hplaced
  generalize hp : w.compare? operand = p at hplaced
  cases hplaced with
  | none => rcases hop with rfl | rfl <;> simp [Operator.verdict?, hp] at hw
  | some hplace =>
      rcases hop with rfl | rfl
      all_goals
        simp only [Operator.verdict?, ho, hp, Option.map_some, Option.some.injEq] at hw ⊢
        rcases hplace with rfl | rfl | rfl <;> first | rfl | exact hw | cases hw

/-- What is no earlier than something above a bound is above it. -/
theorem IsLowerBound.verdict? (hop : op.IsLowerBound)
    (hplaced : Option.Rel Placed (v.compare? operand) (w.compare? operand))
    (hv : op.verdict? v operand = some true) : op.verdict? w operand = some true := by
  have hop : op = .gt ∨ op = .ge := hop
  generalize ho : v.compare? operand = o at hplaced
  generalize hp : w.compare? operand = p at hplaced
  cases hplaced with
  | none => rcases hop with rfl | rfl <;> simp [Operator.verdict?, ho] at hv
  | some hplace =>
      rcases hop with rfl | rfl
      all_goals
        simp only [Operator.verdict?, ho, hp, Option.map_some, Option.some.injEq] at hv ⊢
        rcases hplace with rfl | rfl | rfl <;> first | rfl | exact hv | cases hv

end Operator

/-- The field has values of one kind in both listings. -/
def Field.SameKind (f : Field) (l m : Listing) : Prop :=
  ∃ v w, f.valueIn l = .ok (some v) ∧ f.valueIn m = .ok (some w) ∧ v.kind = w.kind

/-- A condition admits a listing with a value exactly if its verdict on the value is true. -/
theorem Comparison.evaluate_iff_verdict? {c : Comparison} {l : Listing} {v : Value}
    (h : c.field.valueIn l = .ok (some v)) :
    c.evaluate l = .ok true ↔ c.op.verdict? v c.operand = some true := by
  simp only [evaluate, h, Operator.apply]
  cases c.op.verdict? v c.operand <;> simp

namespace SortOrder

/-- The ascending order of one field. -/
def ascending (f : Field) : SortOrder := ⟨[⟨f, false⟩]⟩

/-- In the ascending order of a field its values are in the order of its column. -/
theorem isLE_of_compareListings_ascending {f : Field} (hf : f.isSortable = true) {l m : Listing}
    (hl : l.HasNoNaN) (hm : m.HasNoNaN) {a b : Option Value} (ha : f.valueIn l = .ok a)
    (hb : f.valueIn m = .ok b) (h : (compareListings (ascending f).keys l m).isLE = true) :
    (Value.optionalKeyOrder a b).isLE = true := by
  have horder : Value.optionalKeyOrder a b = (SortKey.mk f false).compareListings l m :=
    SortKey.order_eq (k := ⟨f, false⟩) hf hl hm ha hb
  rw [ascending, compareListings_cons, ← horder] at h
  simpa [compareListings] using h

/-- **A threshold admits what stands on its side.**  Listings without NaN are sorted by the field of a
condition, in which it has a value or none at all.  With an upper bound the condition admits what
stands before a listing that it admits and has a value of the same kind; with a lower bound it admits
what stands behind. -/
theorem threshold_admits_neighbours (c : Comparison) (hfield : c.field.isSortable = true)
    {α : Type} (listing : α → Listing) (items : List α)
    (hnumbers : ∀ a ∈ items, (listing a).HasNoNaN)
    (hvalues : ∀ a ∈ items, ∃ v, c.field.valueIn (listing a) = .ok v) :
    ∃ sorted, (ascending c.field).run listing items = .ok sorted ∧
      (c.op.IsUpperBound → sorted.Pairwise fun a b => c.field.SameKind (listing a) (listing b) →
        c.evaluate (listing b) = .ok true → c.evaluate (listing a) = .ok true) ∧
      (c.op.IsLowerBound → sorted.Pairwise fun a b => c.field.SameKind (listing a) (listing b) →
        c.evaluate (listing a) = .ok true → c.evaluate (listing b) = .ok true) := by
  have hitems : ∀ a ∈ items, Comparable (ascending c.field).keys (listing a) := by
    intro a ha
    refine ⟨hnumbers a ha, ?_⟩
    simpa [ascending, HasValues] using hvalues a ha
  have hrun : (ascending c.field).run listing items = .ok (items.mergeSort fun a b =>
      (compareListings (ascending c.field).keys (listing a) (listing b)).isLE) :=
    run_eq_mergeSort (by simpa [ascending]) hitems
  -- the values of two listings compare in their order with the operand
  have hplaced : (items.mergeSort fun a b =>
      (compareListings (ascending c.field).keys (listing a) (listing b)).isLE).Pairwise fun a b =>
        ∀ v w, c.field.valueIn (listing a) = .ok (some v) →
          c.field.valueIn (listing b) = .ok (some w) → v.kind = w.kind →
          Option.Rel Placed (v.compare? c.operand) (w.compare? c.operand) := by
    refine (stablySorted_mergeSort
      (ordersUpToTies_compareListings _ listing (· ∈ items))).ordered.imp_of_mem ?_
    intro a b ha hb hle v w hv hw hkind
    have hanumbers := hnumbers a (List.mem_mergeSort.mp ha)
    have hbnumbers := hnumbers b (List.mem_mergeSort.mp hb)
    exact Value.placed_compare? (Field.valueIn_onScale hfield hanumbers hv)
      (Field.valueIn_onScale hfield hbnumbers hw) hkind
      (isLE_of_compareListings_ascending hfield hanumbers hbnumbers hv hw hle) c.operand
  refine ⟨_, hrun, fun hop => hplaced.imp ?_, fun hop => hplaced.imp ?_⟩
  · rintro a b hab ⟨v, w, hv, hw, hkind⟩ hadmitted
    rw [Comparison.evaluate_iff_verdict? hw] at hadmitted
    rw [Comparison.evaluate_iff_verdict? hv]
    exact hop.verdict? (hab v w hv hw hkind) hadmitted
  · rintro a b hab ⟨v, w, hv, hw, hkind⟩ hadmitted
    rw [Comparison.evaluate_iff_verdict? hv] at hadmitted
    rw [Comparison.evaluate_iff_verdict? hw]
    exact hop.verdict? (hab v w hv hw hkind) hadmitted

/-- A rent below 600. -/
def lowRent : Comparison :=
  ⟨.kaltmiete, .lt, "600", .int 600⟩

/-- By their rents the flats without one come first, then those of a rent below 600, and then the
others: of two that have a rent the first is below 600 if the second is. -/
theorem flats_below_rent :
    (ascending .kaltmiete).run Prod.fst flats.zipIdx = .ok (flatsAt [1, 4, 0, 2, 5, 3]) ∧
      (flatsAt [1, 4, 0, 2, 5, 3]).map (fun item => (lowRent.evaluate item.1).toOption) =
        [some false, some false, some true, some true, some true, some false] ∧
      (flatsAt [1, 4, 0, 2, 5, 3]).Pairwise fun a b => Field.kaltmiete.SameKind a.1 b.1 →
        lowRent.evaluate b.1 = .ok true → lowRent.evaluate a.1 = .ok true := by
  have hnumbers : ∀ item ∈ flats.zipIdx, item.1.HasNoNaN := by decide
  have hvalues : ∀ item ∈ flats.zipIdx, HasValues (ascending .kaltmiete).keys item.1 := by decide
  obtain ⟨sorted, hrun, hbelow, -⟩ := threshold_admits_neighbours lowRent rfl Prod.fst
    flats.zipIdx hnumbers fun item hitem => hvalues item hitem _ List.mem_cons_self
  have hsorted : sorted = flatsAt [1, 4, 0, 2, 5, 3] :=
    Except.ok.inj (hrun.symm.trans
      (run_of_insertion (by decide) hnumbers (by decide +kernel)))
  subst hsorted
  exact ⟨hrun, by decide +kernel, hbelow (Or.inl rfl)⟩

end SortOrder

end ListingQuery
