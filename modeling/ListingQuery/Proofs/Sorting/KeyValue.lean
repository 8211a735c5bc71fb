import Mathlib.Data.String.Basic
import ListingQuery.SortOrder

/-!
# The order of key values

Which of two values of a sort key stands first, said without a comparison function: `Precedes` is the
relation, case by case.  The comparison function that sorts is this relation, as long as a column
holds one kind of numbers only.  Integers and floating point numbers together would not be ordered:
an integer is rounded before it is compared with a floating point number, so that two integers can
tie with a third number and not with each other.

* `OnScale` are the values of a column with one kind of numbers, none of them NaN;
* `placeOrder` compares ranks, then numbers, then texts, and is a total preorder whatever the values
  are;
* `optionalKeyOrder_eq` and `precedes_iff` say that on one scale the function that sorts, the relation
  and `placeOrder` are the same.
-/

namespace ListingQuery.Value

/-- One key value stands before another: a missing value before every other, values of different
kinds by the rank of their kinds, and values of one kind by their own order. -/
inductive Precedes : Option Value → Option Value → Prop
  | missing {b : Value} : Precedes none (some b)
  | kind {a b : Value} (h : a.rank < b.rank) : Precedes (some a) (some b)
  | bool : Precedes (some (.bool false)) (some (.bool true))
  | int {i j : Int64} (h : i.toInt < j.toInt) : Precedes (some (.int i)) (some (.int j))
  | float {x y : Binary64} (h : x.key < y.key) : Precedes (some (.float x)) (some (.float y))
  | date {m n : Moment} (h : m.key < n.key) : Precedes (some (.date m)) (some (.date n))
  | str {s t : String} (h : s < t) : Precedes (some (.str s)) (some (.str t))

/-- The kind of numbers in a column. -/
inductive Scale where
  | whole
  | real
deriving DecidableEq, Repr

/-- A value of a column: missing, a number of its kind that is not NaN, or no number and no list. -/
def OnScale : Scale → Option Value → Prop
  | _, none => True
  | .whole, some (.int _) => True
  | .real, some (.float x) => x.isNaN = false
  | _, some (.bool _) => True
  | _, some (.date _) => True
  | _, some (.str _) => True
  | _, some _ => False

/-- The rank of a value that may be missing. -/
def level : Option Value → Nat
  | none => 0
  | some v => v.rank + 1

@[simp] theorem level_none : level none = 0 := rfl

@[simp] theorem level_some (v : Value) : level (some v) = v.rank + 1 := rfl

/-- The place of a value among those of its kind, texts apart. -/
def number : Option Value → Int
  | some (.int i) => i.toInt
  | some (.float x) => x.key
  | some (.bool b) => b.toNat
  | some (.date m) => m.key
  | _ => 0

/-- The text of a value that is one. -/
def word : Option Value → String
  | some (.str s) => s
  | _ => ""

/-- The order of ranks, then of numbers, then of texts. -/
def placeOrder : Option Value → Option Value → Ordering :=
  compareLex (compareOn level) (compareLex (compareOn number) (compareOn word))

instance : Std.TransCmp placeOrder :=
  inferInstanceAs (Std.TransCmp (compareLex _ _))

/-! ## Values of different levels -/

/-- Values are placed by level, then by number and then by word. -/
theorem placeOrder_eq (a b : Option Value) :
    placeOrder a b = (compare (level a) (level b)).then
      ((compare (number a) (number b)).then (compare (word a) (word b))) := rfl

/-- A value of a lower level is placed before. -/
theorem placeOrder_of_lt {a b : Option Value} (h : level a < level b) :
    placeOrder a b = .lt := by
  rw [placeOrder_eq, Nat.compare_eq_lt.mpr h]
  rfl

/-- A value of a higher level is placed behind. -/
theorem placeOrder_of_gt {a b : Option Value} (h : level b < level a) :
    placeOrder a b = .gt := by
  rw [placeOrder_eq, Nat.compare_eq_gt.mpr h]
  rfl

/-- A value of a lower level comes first. -/
theorem optionalKeyOrder_of_lt {a b : Option Value} (h : level a < level b) :
    optionalKeyOrder a b = .lt := by
  cases a with
  | none =>
      cases b with
      | none => exact absurd h (Nat.lt_irrefl _)
      | some w => rfl
  | some v =>
      cases b with
      | none => exact absurd h (Nat.not_lt_zero _)
      | some w =>
          have hrank : v.rank < w.rank := by simpa using h
          change keyOrder v w = .lt
          unfold keyOrder
          rw [Nat.compare_eq_lt.mpr hrank]
          rfl

/-- A value of a higher level comes last. -/
theorem optionalKeyOrder_of_gt {a b : Option Value} (h : level b < level a) :
    optionalKeyOrder a b = .gt := by
  cases b with
  | none =>
      cases a with
      | none => exact absurd h (Nat.lt_irrefl _)
      | some v => rfl
  | some w =>
      cases a with
      | none => exact absurd h (Nat.not_lt_zero _)
      | some v =>
          have hrank : w.rank < v.rank := by simpa using h
          change keyOrder v w = .gt
          unfold keyOrder
          rw [Nat.compare_eq_gt.mpr hrank]
          rfl

/-- A value of a lower level precedes. -/
theorem precedes_of_lt {a b : Option Value} (h : level a < level b) : Precedes a b := by
  cases b with
  | none => exact absurd h (Nat.not_lt_zero _)
  | some w =>
      cases a with
      | none => exact .missing
      | some v => exact .kind (by simpa using h)

/-- What precedes has no higher level. -/
theorem Precedes.level_le {a b : Option Value} (h : Precedes a b) : level a ≤ level b := by
  cases h with
  | missing => exact Nat.zero_le _
  | kind hlt => simpa using Nat.le_of_lt hlt
  | bool => exact Nat.le_refl _
  | int _ => exact Nat.le_refl _
  | float _ => exact Nat.le_refl _
  | date _ => exact Nat.le_refl _
  | str _ => exact Nat.le_refl _

/-! ## Values of one kind -/

/-- Two missing values, or two values of one kind that has an order, numbers not being NaN. -/
inductive Alike : Option Value → Option Value → Prop
  | missing : Alike none none
  | int (i j : Int64) : Alike (some (.int i)) (some (.int j))
  | float {x y : Binary64} (hx : x.isNaN = false) (hy : y.isNaN = false) :
      Alike (some (.float x)) (some (.float y))
  | bool (p q : Bool) : Alike (some (.bool p)) (some (.bool q))
  | date (m n : Moment) : Alike (some (.date m)) (some (.date n))
  | str (s t : String) : Alike (some (.str s)) (some (.str t))

/-- On one scale, values of one level are of one kind. -/
theorem alike_of_level_eq {s : Scale} {a b : Option Value} (ha : OnScale s a) (hb : OnScale s b)
    (h : level a = level b) : Alike a b := by
  cases a with
  | none =>
      cases b with
      | none => exact .missing
      | some w => simp at h
  | some v =>
      cases b with
      | none => simp at h
      | some w =>
          cases s <;> cases v <;> cases w <;> simp [OnScale, rank] at ha hb h <;> constructor <;>
            assumption

/-- Values that are alike have one level. -/
theorem Alike.level_eq {a b : Option Value} (h : Alike a b) : level a = level b := by
  cases h <;> rfl

/-- Values of one kind are sorted by their numbers and texts. -/
theorem optionalKeyOrder_of_alike {a b : Option Value} (h : Alike a b) :
    optionalKeyOrder a b =
      (compare (number a) (number b)).then (compare (word a) (word b)) := by
  cases h with
  | missing => simp [optionalKeyOrder, number, word]
  | int i j => simp [optionalKeyOrder, keyOrder, rank, compare?, number, word]
  | float hx hy =>
      simp [optionalKeyOrder, keyOrder, rank, compare?, Binary64.compare?, number, word, hx, hy]
  | bool p q => cases p <;> cases q <;> decide
  | date m n => simp [optionalKeyOrder, keyOrder, rank, compare?, Moment.order, number, word]
  | str s t => simp [optionalKeyOrder, keyOrder, rank, compare?, number, word]

/-- Values of one kind stand in the order of their numbers and texts. -/
theorem precedes_iff_of_alike {a b : Option Value} (h : Alike a b) :
    Precedes a b ↔ number a < number b ∨ number a = number b ∧ word a < word b := by
  have hlevel := h.level_eq
  constructor
  · intro hprecedes
    cases hprecedes with
    | missing => simp at hlevel
    | kind hlt => simp at hlevel; omega
    | bool => exact Or.inl (by decide)
    | int hlt => exact Or.inl hlt
    | float hlt => exact Or.inl hlt
    | date hlt => exact Or.inl hlt
    | str hlt => exact Or.inr ⟨rfl, hlt⟩
  · intro hplaces
    cases h with
    | missing => simp [number, word] at hplaces
    | int i j => exact .int (by simpa [number, word] using hplaces)
    | float hx hy => exact .float (by simpa [number, word] using hplaces)
    | bool p q =>
        cases p <;> cases q <;> simp [number, word] at hplaces
        exact .bool
    | date m n => exact .date (by simpa [number, word] using hplaces)
    | str s t => exact .str (by simpa [number, word] using hplaces)

/-! ## All values of a column -/

/-- **On one scale the values are sorted by their places.** -/
theorem optionalKeyOrder_eq {s : Scale} {a b : Option Value} (ha : OnScale s a) (hb : OnScale s b) :
    optionalKeyOrder a b = placeOrder a b := by
  rcases Nat.lt_trichotomy (level a) (level b) with hlt | heq | hgt
  · rw [placeOrder_of_lt hlt, optionalKeyOrder_of_lt hlt]
  · rw [placeOrder_eq, optionalKeyOrder_of_alike (alike_of_level_eq ha hb heq),
      Nat.compare_eq_eq.mpr heq]
    rfl
  · rw [placeOrder_of_gt hgt, optionalKeyOrder_of_gt hgt]

/-- **On one scale a value stands before another exactly if its place does.** -/
theorem precedes_iff {s : Scale} {a b : Option Value} (ha : OnScale s a) (hb : OnScale s b) :
    Precedes a b ↔ placeOrder a b = .lt := by
  rcases Nat.lt_trichotomy (level a) (level b) with hlt | heq | hgt
  · simp [placeOrder_of_lt hlt, precedes_of_lt hlt]
  · rw [precedes_iff_of_alike (alike_of_level_eq ha hb heq), placeOrder_eq,
      Nat.compare_eq_eq.mpr heq]
    simp [Ordering.then_eq_lt, compare_lt_iff_lt]
  · have hnot : ¬ Precedes a b := fun h => absurd h.level_le (Nat.not_le.mpr hgt)
    simp [placeOrder_of_gt hgt, hnot]

end ListingQuery.Value
