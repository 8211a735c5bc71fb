import ListingQuery.Proofs.Number.Rounding
import ListingQuery.Proofs.Sorting.KeyValue
import ListingQuery.Proofs.Sorting.StableSort

/-!
# When key values are ordered

The comparison of key values is meant to order all of them up to ties.  Reflexive and the same from
both sides it always is.  But a floating point number can tie with two integers that do not tie with
each other, since only a pair with a floating point number in it is compared after rounding, and NaN
ties with every number.  These two are all that can go wrong.

* `Sharp` are the columns without a number that ties with two that do not tie;
* `ordersUpToTies_iff_sharp` says it of the values of one key, `compareRows_ordersUpToTies_iff` of the
  rows of several keys, and `keyOrder_ordered_iff` puts both together.
-/

namespace ListingQuery

namespace Value

/-! ## One key -/

/-- No number of the column ties with two that do not tie: no floating point number is the rounding of
two different integers, and beside NaN all numbers tie. -/
structure Sharp (column : Option Value → Prop) : Prop where
  rounding : ∀ i j x, column (some (.int i)) → column (some (.int j)) → column (some (.float x)) →
    (Binary64.ofInt i.toInt).equals x = true → (Binary64.ofInt j.toInt).equals x = true → i = j
  nan : ∀ x v w, column (some (.float x)) → x.isNaN = true → column (some v) → column (some w) →
    v.rank = 1 → w.rank = 1 → keyOrder v w = .eq

/-! ### Numbers -/

/-- A number of either kind, not NaN. -/
def IsReal : Value → Prop
  | .int _ => True
  | .float x => x.isNaN = false
  | _ => False

/-- The place of a number among all floating point numbers. -/
def rounded : Value → Int
  | .int i => (Binary64.ofInt i.toInt).key
  | .float x => x.key
  | _ => 0

/-- A value of the rank of numbers is a number or NaN. -/
theorem isReal_or_nan {v : Value} (h : v.rank = 1) :
    v.IsReal ∨ ∃ x, v = .float x ∧ x.isNaN = true := by
  cases v with
  | int i => exact Or.inl trivial
  | float x =>
      cases hx : x.isNaN with
      | true => exact Or.inr ⟨x, rfl, hx⟩
      | false => exact Or.inl hx
  | _ => simp [rank] at h

/-- NaN ties with every number, on either side. -/
theorem keyOrder_nan {x : Binary64} (hx : x.isNaN = true) {w : Value} (hw : w.rank = 1) :
    keyOrder (.float x) w = .eq ∧ keyOrder w (.float x) = .eq := by
  cases w with
  | int i => simp [keyOrder, rank, compare?, Binary64.compare?, hx]
  | float y => simp [keyOrder, rank, compare?, Binary64.compare?, hx]
  | _ => simp [rank] at hw

section Reals

variable {v w : Value}

/-- Two integers are compared as they are. -/
theorem keyOrder_int (i j : Int64) : keyOrder (.int i) (.int j) = compare i.toInt j.toInt := by
  simp [keyOrder, rank, compare?]

/-- Numbers that are not both integers are compared after rounding. -/
theorem keyOrder_of_float (hv : v.IsReal) (hw : w.IsReal)
    (hmixed : ∀ i j, ¬ (v = .int i ∧ w = .int j)) :
    keyOrder v w = compare v.rounded w.rounded := by
  cases v with
  | int i =>
      cases w with
      | int j => exact absurd ⟨rfl, rfl⟩ (hmixed i j)
      | float y =>
          have hy : y.isNaN = false := hw
          simp [keyOrder, rank, compare?, Binary64.compare?, Binary64.isNaN_ofInt, hy, rounded]
      | _ => exact hw.elim
  | float x =>
      have hx : x.isNaN = false := hv
      cases w with
      | int j =>
          simp [keyOrder, rank, compare?, Binary64.compare?, Binary64.isNaN_ofInt, hx, rounded]
      | float y =>
          have hy : y.isNaN = false := hw
          simp [keyOrder, rank, compare?, Binary64.compare?, hx, hy, rounded]
      | _ => exact hw.elim
  | _ => exact hv.elim

/-- However they are compared, numbers in order have their roundings in order. -/
theorem rounded_le (hv : v.IsReal) (hw : w.IsReal) (h : (keyOrder v w).isLE) :
    v.rounded ≤ w.rounded := by
  by_cases hints : ∃ i j, v = .int i ∧ w = .int j
  · obtain ⟨i, j, rfl, rfl⟩ := hints
    rw [keyOrder_int, Int.isLE_compare] at h
    exact Binary64.key_ofInt_mono h
  · rw [keyOrder_of_float hv hw fun i j hij => hints ⟨i, j, hij⟩, Int.isLE_compare] at h
    exact h

/-- Numbers whose roundings differ are in the order of these. -/
theorem keyOrder_of_rounded_lt (hv : v.IsReal) (hw : w.IsReal) (h : v.rounded < w.rounded) :
    keyOrder v w = .lt := by
  by_cases hints : ∃ i j, v = .int i ∧ w = .int j
  · obtain ⟨i, j, rfl, rfl⟩ := hints
    rw [keyOrder_int, Int.compare_eq_lt]
    by_contra hle
    exact absurd (Binary64.key_ofInt_mono (Int.not_lt.mp hle)) (Int.not_le.mpr h)
  · rw [keyOrder_of_float hv hw fun i j hij => hints ⟨i, j, hij⟩, Int.compare_eq_lt]
    exact h

/-- An integer that is rounded to the place of a number equals it. -/
theorem equals_of_rounded {i : Int64} {x : Binary64} (hx : x.isNaN = false)
    (h : rounded (.int i) = rounded (.float x)) : (Binary64.ofInt i.toInt).equals x = true := by
  simp only [rounded] at h
  simp [Binary64.equals, Binary64.compare?, Binary64.isNaN_ofInt, hx, h]

/-- A comparison of numbers is the same from both sides. -/
theorem keyOrder_swap_of_rank (hv : v.rank = 1) (hw : w.rank = 1) :
    keyOrder v w = (keyOrder w v).swap := by
  rcases isReal_or_nan hv with hvReal | ⟨x, rfl, hx⟩
  · rcases isReal_or_nan hw with hwReal | ⟨y, rfl, hy⟩
    · by_cases hints : ∃ i j, v = .int i ∧ w = .int j
      · obtain ⟨i, j, rfl, rfl⟩ := hints
        rw [keyOrder_int, keyOrder_int]
        exact Std.OrientedCmp.eq_swap
      · rw [keyOrder_of_float hvReal hwReal fun i j hij => hints ⟨i, j, hij⟩,
          keyOrder_of_float hwReal hvReal fun i j hij => hints ⟨j, i, hij.symm⟩]
        exact Std.OrientedCmp.eq_swap
    · rw [(keyOrder_nan hy hv).1, (keyOrder_nan hy hv).2]
      rfl
  · rw [(keyOrder_nan hx hw).1, (keyOrder_nan hx hw).2]
    rfl

end Reals

/-! ### Other values -/

/-- Values of one level that are no numbers are sorted by their places, lists among them, which all
tie. -/
theorem optionalKeyOrder_of_no_number {a b : Option Value} (h : level a = level b)
    (hnumber : level a ≠ 2) : optionalKeyOrder a b = placeOrder a b := by
  rw [placeOrder_eq, Nat.compare_eq_eq.mpr h]
  by_cases hlists : ∃ xs ys, a = some (.list xs) ∧ b = some (.list ys)
  · obtain ⟨xs, ys, rfl, rfl⟩ := hlists
    simp [optionalKeyOrder, keyOrder, rank, compare?, number, word]
  · refine optionalKeyOrder_of_alike ?_
    cases a with
    | none =>
        cases b with
        | none => exact .missing
        | some w => simp at h
    | some v =>
        cases b with
        | none => simp at h
        | some w =>
            cases v <;> cases w <;> simp [rank] at h hnumber hlists <;> constructor

/-! ### All values -/

/-- A comparison of key values is the same from both sides. -/
theorem optionalKeyOrder_swap (a b : Option Value) :
    optionalKeyOrder a b = (optionalKeyOrder b a).swap := by
  rcases Nat.lt_trichotomy (level a) (level b) with hlt | heq | hgt
  · rw [optionalKeyOrder_of_lt hlt, optionalKeyOrder_of_gt hlt]
    rfl
  · by_cases hnumber : level a = 2
    · cases a with
      | none => simp at hnumber
      | some v =>
          cases b with
          | none => simp at heq
          | some w =>
              simp only [level_some] at heq hnumber
              exact keyOrder_swap_of_rank (by omega) (by omega)
    · rw [optionalKeyOrder_of_no_number heq hnumber,
        optionalKeyOrder_of_no_number heq.symm (heq ▸ hnumber)]
      exact Std.OrientedCmp.eq_swap
  · rw [optionalKeyOrder_of_lt hgt, optionalKeyOrder_of_gt hgt]
    rfl

/-- What comes no later has no higher level. -/
theorem level_le_of_isLE {a b : Option Value} (h : (optionalKeyOrder a b).isLE) :
    level a ≤ level b := by
  by_contra hlevel
  rw [optionalKeyOrder_of_gt (Nat.not_le.mp hlevel)] at h
  cases h

section Columns

variable {column : Option Value → Prop}

/-- Three numbers of a sharp column with one rounding: only integers are told apart, and if there are
two of them, the number between them is no floating point number. -/
theorem Sharp.isLE_of_rounded_eq (h : Sharp column) {u v w : Value} (hu : column (some u))
    (hv : column (some v)) (hw : column (some w)) (huReal : u.IsReal) (hvReal : v.IsReal)
    (hwReal : w.IsReal) (huvRounded : u.rounded = v.rounded) (hvwRounded : v.rounded = w.rounded)
    (huv : (keyOrder u v).isLE) (hvw : (keyOrder v w).isLE) : (keyOrder u w).isLE := by
  by_cases hints : ∃ i j, u = .int i ∧ w = .int j
  · obtain ⟨i, j, rfl, rfl⟩ := hints
    cases v with
    | int k =>
        rw [keyOrder_int, Int.isLE_compare] at huv hvw ⊢
        exact Int.le_trans huv hvw
    | float x =>
        have hi := equals_of_rounded hvReal huvRounded
        have hj := equals_of_rounded hvReal hvwRounded.symm
        rw [h.rounding i j x hu hw hv hi hj, keyOrder_int, Int.isLE_compare]
    | _ => exact hvReal.elim
  · rw [keyOrder_of_float huReal hwReal fun i j hij => hints ⟨i, j, hij⟩, huvRounded, hvwRounded]
    simp

/-- Numbers of a sharp column are ordered. -/
theorem Sharp.keyOrder_trans (h : Sharp column) {u v w : Value} (hu : column (some u))
    (hv : column (some v)) (hw : column (some w)) (huRank : u.rank = 1) (hvRank : v.rank = 1)
    (hwRank : w.rank = 1) (huv : (keyOrder u v).isLE) (hvw : (keyOrder v w).isLE) :
    (keyOrder u w).isLE := by
  rcases isReal_or_nan hvRank with hvReal | ⟨x, rfl, hx⟩
  · rcases isReal_or_nan huRank with huReal | ⟨y, rfl, hy⟩
    · rcases isReal_or_nan hwRank with hwReal | ⟨y, rfl, hy⟩
      · have huvRounded := rounded_le huReal hvReal huv
        have hvwRounded := rounded_le hvReal hwReal hvw
        rcases Int.lt_or_eq_of_le (Int.le_trans huvRounded hvwRounded) with hlt | heq
        · rw [keyOrder_of_rounded_lt huReal hwReal hlt]
          rfl
        · exact h.isLE_of_rounded_eq hu hv hw huReal hvReal hwReal (by omega) (by omega) huv hvw
      · rw [(keyOrder_nan hy huRank).2]
        rfl
    · rw [(keyOrder_nan hy hwRank).1]
      rfl
  · rw [h.nan x u w hv hx hu hw huRank hwRank]
    rfl

/-- **The values of a column are ordered up to ties exactly if it is sharp.** -/
theorem ordersUpToTies_iff_sharp : OrdersUpToTies optionalKeyOrder column ↔ Sharp column := by
  constructor
  · intro h
    constructor
    · intro i j x hi hj hx hix hjx
      have hleft : optionalKeyOrder (some (.int i)) (some (.float x)) = .eq := by
        simpa [optionalKeyOrder, keyOrder, rank, compare?, Binary64.equals] using
          congrArg (·.getD .eq) (beq_iff_eq.mp hix)
      have hright : optionalKeyOrder (some (.int j)) (some (.float x)) = .eq := by
        simpa [optionalKeyOrder, keyOrder, rank, compare?, Binary64.equals] using
          congrArg (·.getD .eq) (beq_iff_eq.mp hjx)
      have htie := h.ties _ _ (some (.int j)) hi hx hj hleft
      rw [optionalKeyOrder_swap (some (.float x)), hright] at htie
      have hsame : compare i.toInt j.toInt = .eq := by rwa [← keyOrder_int]
      exact Int64.toInt_inj.mp (Int.compare_eq_eq.mp hsame)
    · intro x v w hx hnan hv hw hvRank hwRank
      have htie := h.ties _ _ (some w) hv hx hw
        (show optionalKeyOrder (some v) (some (.float x)) = .eq from (keyOrder_nan hnan hvRank).2)
      exact htie.trans (keyOrder_nan hnan hwRank).1
  · intro h
    apply OrdersUpToTies.of_swap_of_trans
    · intro a b _ _
      exact optionalKeyOrder_swap a b
    · intro a b c ha hb hc hab hbc
      have habLevel := level_le_of_isLE hab
      have hbcLevel := level_le_of_isLE hbc
      rcases Nat.lt_or_ge (level a) (level c) with hlt | hge
      · rw [optionalKeyOrder_of_lt hlt]
        rfl
      · have hab' : level a = level b := by omega
        have hbc' : level b = level c := by omega
        by_cases hnumber : level a = 2
        · cases a with
          | none => simp at hnumber
          | some u =>
              cases b with
              | none => simp at hab'
              | some v =>
                  cases c with
                  | none => simp at hbc'
                  | some w =>
                      simp only [level_some] at hab' hbc' hnumber
                      exact h.keyOrder_trans ha hb hc (by omega) (by omega) (by omega) hab hbc
        · rw [optionalKeyOrder_of_no_number hab' hnumber] at hab
          rw [optionalKeyOrder_of_no_number hbc' (hab' ▸ hnumber)] at hbc
          rw [optionalKeyOrder_of_no_number (hab'.trans hbc') hnumber]
          exact Std.TransCmp.isLE_trans hab hbc

/-- The values of a field that sorts, with one kind of numbers and no NaN, are a sharp column. -/
theorem sharp_onScale (s : Scale) : Sharp (OnScale s) := by
  constructor
  · intro i j x hi _ hx _ _
    cases s with
    | whole => exact hx.elim
    | real => exact hi.elim
  · intro x v w hx hnan _ _ _ _
    cases s with
    | whole => exact hx.elim
    | real => exact absurd hnan (by rw [show x.isNaN = false from hx]; decide)

end Columns

end Value

/-! ## Several keys -/

/-- A row has its values in the columns, one in each. -/
def InColumns : List (Option Value → Prop) → List (Option Value) → Prop :=
  List.Forall₂ fun column v => column v

/-- A key compares two values alike from either side. -/
theorem SortKey.order_swap (k : SortKey) (a b : Option Value) : k.order a b = (k.order b a).swap := by
  unfold SortKey.order
  rw [Value.optionalKeyOrder_swap a b]
  cases k.descending <;> rfl

theorem SortKey.order_self (k : SortKey) (a : Option Value) : k.order a a = .eq :=
  eq_of_eq_swap (k.order_swap a a)

/-- The direction of a key decides nothing about whether it orders a column. -/
theorem SortKey.order_ordersUpToTies_iff (k : SortKey) {column : Option Value → Prop} :
    OrdersUpToTies k.order column ↔ Value.Sharp column := by
  rw [← Value.ordersUpToTies_iff_sharp]
  cases hdescending : k.descending with
  | false =>
      have horder : k.order = Value.optionalKeyOrder := by
        funext a b
        simp [SortKey.order, hdescending]
      rw [horder]
  | true =>
      have horder : k.order = fun a b => (Value.optionalKeyOrder a b).swap := by
        funext a b
        simp [SortKey.order, hdescending]
      rw [horder]
      constructor
      · intro h
        simpa using h.reversed
      · exact OrdersUpToTies.reversed

namespace SortOrder

theorem compareRows_self (keys : List SortKey) (row : List (Option Value)) :
    compareRows keys row row = .eq := by
  induction keys generalizing row with
  | nil => rfl
  | cons k ks ih =>
      cases row with
      | nil => rfl
      | cons a as =>
          change (k.order a a).then (compareRows ks as as) = .eq
          rw [k.order_self, ih]
          rfl

/-- Rows are compared alike from either side. -/
theorem compareRows_swap (keys : List SortKey) (row row' : List (Option Value)) :
    compareRows keys row row' = (compareRows keys row' row).swap := by
  induction keys generalizing row row' with
  | nil => rfl
  | cons k ks ih =>
      cases row with
      | nil => cases row' <;> rfl
      | cons a as =>
          cases row' with
          | nil => rfl
          | cons b bs =>
              change (k.order a b).then (compareRows ks as bs) =
                ((k.order b a).then (compareRows ks bs as)).swap
              rw [k.order_swap, ih, Ordering.swap_then]

/-- There is a row in columns that are not empty. -/
theorem exists_inColumns {columns : List (Option Value → Prop)}
    (h : ∀ column ∈ columns, ∃ v, column v) : ∃ row, InColumns columns row := by
  induction columns with
  | nil => exact ⟨[], .nil⟩
  | cons column columns ih =>
      obtain ⟨v, hv⟩ := h column (by simp)
      obtain ⟨row, hrow⟩ := ih fun c hc => h c (List.mem_cons_of_mem _ hc)
      exact ⟨v :: row, .cons hv hrow⟩

/-- Rows are ordered exactly if their first values are and what is behind these. -/
theorem compareRows_cons_ordersUpToTies_iff {k : SortKey} {ks : List SortKey}
    {column : Option Value → Prop} {columns : List (Option Value → Prop)}
    (hcolumn : ∃ v, column v) (hcolumns : ∃ row, InColumns columns row) :
    OrdersUpToTies (compareRows (k :: ks)) (InColumns (column :: columns)) ↔
      OrdersUpToTies k.order column ∧ OrdersUpToTies (compareRows ks) (InColumns columns) := by
  constructor
  · intro h
    obtain ⟨v, hv⟩ := hcolumn
    obtain ⟨row, hrow⟩ := hcolumns
    constructor
    · refine h.comap (fun a ha => List.Forall₂.cons ha hrow) fun a b _ _ => ?_
      change k.order a b = (k.order a b).then (compareRows ks row row)
      rw [compareRows_self, Ordering.then_eq]
    · refine h.comap (fun a ha => List.Forall₂.cons hv ha) fun a b _ _ => ?_
      change compareRows ks a b = (k.order v v).then (compareRows ks a b)
      rw [k.order_self]
      rfl
  · rintro ⟨hfirst, hrest⟩
    refine (hfirst.lex hrest).comap
      (f := fun row : List (Option Value) => (row.headD none, row.tail)) ?_ ?_
    · rintro row (_ | ⟨hv, hrow⟩)
      exact ⟨hv, hrow⟩
    · rintro row row' (_ | ⟨hv, hrow⟩) (_ | ⟨hv', hrow'⟩)
      rfl

/-- **The rows of columns are ordered up to ties exactly if every column that a key looks at is
sharp.** -/
theorem compareRows_ordersUpToTies_iff (keys : List SortKey)
    {columns : List (Option Value → Prop)} (hcolumns : ∀ column ∈ columns, ∃ v, column v) :
    OrdersUpToTies (compareRows keys) (InColumns columns) ↔
      ∀ column ∈ columns.take keys.length, Value.Sharp column := by
  induction keys generalizing columns with
  | nil =>
      simp only [List.length_nil, List.take_zero, List.not_mem_nil, false_implies, implies_true,
        iff_true]
      exact OrdersUpToTies.of_swap_of_trans (fun _ _ _ _ => rfl) fun _ _ _ _ _ _ _ _ => rfl
  | cons k ks ih =>
      cases columns with
      | nil =>
          simp only [List.take_nil, List.not_mem_nil, false_implies, implies_true, iff_true]
          refine OrdersUpToTies.of_swap_of_trans (fun row row' _ _ => compareRows_swap _ _ _) ?_
          rintro _ _ _ ⟨⟩ ⟨⟩ ⟨⟩ _ _
          rfl
      | cons column columns =>
          have hrest : ∀ c ∈ columns, ∃ v, c v := fun c hc => hcolumns c (List.mem_cons_of_mem _ hc)
          rw [compareRows_cons_ordersUpToTies_iff (hcolumns column (by simp)) (exists_inColumns hrest),
            k.order_ordersUpToTies_iff, ih hrest]
          simp

end SortOrder

open SortOrder (compareRows)

/-- **The order of keys.**  Key values of all kinds and rows of them are compared alike from both
sides, and tie with themselves; they are ordered up to ties in exactly those columns in which no
number ties with two numbers that do not tie. -/
theorem keyOrder_ordered_iff (column : Option Value → Prop) (keys : List SortKey)
    {columns : List (Option Value → Prop)} (hcolumns : ∀ column ∈ columns, ∃ v, column v) :
    (∀ a, Value.optionalKeyOrder a a = .eq) ∧
    (∀ a b, Value.optionalKeyOrder a b = (Value.optionalKeyOrder b a).swap) ∧
    (OrdersUpToTies Value.optionalKeyOrder column ↔ Value.Sharp column) ∧
    (∀ row, compareRows keys row row = .eq) ∧
    (∀ row row', compareRows keys row row' = (compareRows keys row' row).swap) ∧
    (OrdersUpToTies (compareRows keys) (InColumns columns) ↔
      ∀ column ∈ columns.take keys.length, Value.Sharp column) := by
  refine ⟨?_, Value.optionalKeyOrder_swap, Value.ordersUpToTies_iff_sharp,
    SortOrder.compareRows_self keys, SortOrder.compareRows_swap keys,
    SortOrder.compareRows_ordersUpToTies_iff keys hcolumns⟩
  intro a
  exact eq_of_eq_swap (Value.optionalKeyOrder_swap a a)

/-- Rents in two kinds of numbers, two of which tie. -/
def rents : Option Value → Prop :=
  (· ∈ [none, some (.int 500), some (.int 501), some (.float ⟨0x407F400000000000⟩)])

/-- A town or none. -/
def towns : Option Value → Prop :=
  (· ∈ [none, some (.str "Celle")])

/-- Of the rents no two integers tie with one number, and none is NaN. -/
theorem sharp_rents : Value.Sharp rents := by
  have hfloat : ∀ x, rents (some (.float x)) → x = ⟨0x407F400000000000⟩ := by
    intro x hx
    simpa [rents] using hx
  constructor
  · intro i j x hi hj hx hix hjx
    obtain rfl := hfloat x hx
    have hint : ∀ k, rents (some (.int k)) →
        (Binary64.ofInt k.toInt).equals ⟨0x407F400000000000⟩ = true → k = 500 := by
      intro k hk hequal
      have hcases : k = 500 ∨ k = 501 := by simpa [rents] using hk
      rcases hcases with rfl | rfl
      · rfl
      · exact absurd hequal (by decide +kernel)
    rw [hint i hi hix, hint j hj hjx]
  · intro x v w hx hnan
    obtain rfl := hfloat x hx
    exact absurd hnan (by decide)

/-- Among towns there are no numbers at all. -/
theorem sharp_towns : Value.Sharp towns := by
  constructor <;> simp [towns]

/-- The rents are ordered, and so are rows of them with towns. -/
theorem rents_and_towns_ordered :
    (∀ column ∈ [rents, towns], ∃ v, column v) ∧
      OrdersUpToTies Value.optionalKeyOrder rents ∧
      OrdersUpToTies (compareRows [⟨.kaltmiete, true⟩, ⟨.ort, false⟩]) (InColumns [rents, towns]) := by
  have hmembers : ∀ column ∈ [rents, towns], ∃ v, column v := by
    simp only [List.forall_mem_cons, List.not_mem_nil, false_implies, implies_true, and_true]
    exact ⟨⟨none, by simp [rents]⟩, none, by simp [towns]⟩
  obtain ⟨-, -, hvalues, -, -, hrows⟩ :=
    keyOrder_ordered_iff rents [⟨.kaltmiete, true⟩, ⟨.ort, false⟩] hmembers
  refine ⟨hmembers, hvalues.mpr sharp_rents, hrows.mpr ?_⟩
  simpa using And.intro sharp_rents sharp_towns

/-- Two neighbouring integers, one of which is a floating point number as well. -/
theorem keyOrder_tie_not_kept :
    ¬ ∀ a b c, Value.optionalKeyOrder a b = .eq →
      Value.optionalKeyOrder a c = Value.optionalKeyOrder b c := by
  intro h
  have hties := h (some (.int 9007199254740992)) (some (.float ⟨0x4340000000000000⟩))
    (some (.int 9007199254740993)) (by decide +kernel)
  exact absurd hties (by decide +kernel)

end ListingQuery
