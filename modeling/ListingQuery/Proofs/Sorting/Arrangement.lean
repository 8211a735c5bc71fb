import ListingQuery.Proofs.FirstFailure
import ListingQuery.Proofs.Sorting.Column
import ListingQuery.Proofs.Sorting.StableSort

/-!
# Sorted listings

Listings are sorted by several keys at once, without a change in the order of those that no key tells
apart.  What that means is said by `SortOrder.Arranged`, through the relations of listings

* `SortKey.Puts`, one key puts a listing before another,
* `SortOrder.PutBefore`, the first key that tells two listings apart does, and
* `SortOrder.Ties`, no key tells them apart.

The way there is a comparison function of listings.  `SortOrder.compareListings` is a total preorder
on all listings, and it is the order of rows that items are sorted by where every key has a value and
no number is NaN (`compareRows_eq`).  So the items are merge sorted by it (`run_eq_mergeSort`).  To be
arranged is to be stably sorted by it (`arranged_iff_stablySorted`), so that there is one arrangement
and merge sort finds it.  `run_arranges` is the result, with the failures.
-/

namespace ListingQuery

namespace SortKey

/-- The key puts one listing before another: its value in the one precedes its value in the other,
for a descending key the other way round. -/
def Puts (k : SortKey) (l m : Listing) : Prop :=
  ∃ a b, k.field.valueIn l = .ok a ∧ k.field.valueIn m = .ok b ∧
    if k.descending then Value.Precedes b a else Value.Precedes a b

end SortKey

namespace SortOrder

/-- Keys put one listing before another: the first key that tells them apart does. -/
def PutBefore : List SortKey → Listing → Listing → Prop
  | [], _, _ => False
  | k :: ks, l, m => k.Puts l m ∨ ¬ k.Puts m l ∧ PutBefore ks l m

/-- No key tells the listings apart. -/
def Ties (keys : List SortKey) (l m : Listing) : Prop :=
  ∀ k ∈ keys, ¬ k.Puts l m ∧ ¬ k.Puts m l

/-- Every key has a value in the listing, which may be a missing one. -/
def HasValues (keys : List SortKey) (l : Listing) : Prop :=
  ∀ k ∈ keys, ∃ v, k.field.valueIn l = .ok v

instance (keys : List SortKey) (l : Listing) : Decidable (HasValues keys l) :=
  decidable_of_iff (∀ k ∈ keys, (k.field.valueIn l).isOk = true) <| by
    apply forall₂_congr
    intro k _
    cases k.field.valueIn l <;> simp [Except.isOk, Except.toBool]

/-- Items in the order of the listings that they stand for: they are the given items, none stands
before one that keys put before it, and those that no key tells apart are as they were given. -/
structure Arranged {α : Type} (keys : List SortKey) (listing : α → Listing)
    (items sorted : List α) : Prop where
  perm : sorted.Perm items
  ordered : sorted.Pairwise fun a b => ¬ PutBefore keys (listing b) (listing a)
  stable : ∀ tied : List α, tied.Sublist items →
    tied.Pairwise (fun a b => Ties keys (listing a) (listing b)) → tied.Sublist sorted

/-- The error of the first listing with a key that has no value there, and of its first such key. -/
def FirstFault (keys : List SortKey) (ls : List Listing) (e : QueryError) : Prop :=
  ∃ before l after earlier k later missing, ls = before ++ l :: after ∧
    (∀ m ∈ before, HasValues keys m) ∧ keys = earlier ++ k :: later ∧ HasValues earlier l ∧
    k.field.valueIn l = .error missing ∧ e = .sorting k.field.name missing.missingMessage

end SortOrder

/-! ## Comparing listings -/

namespace SortKey

/-- The value of the key in a listing, missing where there is none. -/
def valueOrMissing (k : SortKey) (l : Listing) : Option Value :=
  match k.field.valueIn l with
  | .ok v => v
  | .error _ => none

/-- The order of two listings by one key. -/
def compareListings (k : SortKey) (l m : Listing) : Ordering :=
  if k.descending then Value.placeOrder (k.valueOrMissing m) (k.valueOrMissing l)
  else Value.placeOrder (k.valueOrMissing l) (k.valueOrMissing m)

instance (k : SortKey) : Std.TransCmp k.compareListings where
  eq_swap := by
    intro l m
    unfold compareListings
    split <;> exact Std.OrientedCmp.eq_swap
  isLE_trans := by
    intro l m n
    unfold compareListings
    split
    · intro hlm hmn
      exact Std.TransCmp.isLE_trans hmn hlm
    · exact Std.TransCmp.isLE_trans

/-- A key compares two listings alike from either side. -/
theorem compareListings_swap (k : SortKey) (l m : Listing) :
    k.compareListings l m = (k.compareListings m l).swap :=
  Std.OrientedCmp.eq_swap

/-- A key has the value of its field. -/
theorem valueIn_eq_ok_iff {k : SortKey} {l : Listing} {v : Option Value} :
    k.valueIn l = .ok v ↔ k.field.valueIn l = .ok v := by
  unfold valueIn
  cases k.field.valueIn l <;> simp

/-- A key fails where its field has no value. -/
theorem valueIn_eq_error_iff {k : SortKey} {l : Listing} {e : QueryError} :
    k.valueIn l = .error e ↔ ∃ missing, k.field.valueIn l = .error missing ∧
      e = .sorting k.field.name missing.missingMessage := by
  unfold valueIn
  cases k.field.valueIn l <;> simp [eq_comm]

/-- A value that is there is the value of the key. -/
theorem valueOrMissing_of_ok {k : SortKey} {l : Listing} {v : Option Value}
    (h : k.field.valueIn l = .ok v) : k.valueOrMissing l = v := by
  simp [valueOrMissing, h]

section Columns

variable {k : SortKey} {l m : Listing}

/-- The order of two values of a key is the order of the listings that they were taken from. -/
theorem order_eq (hk : k.field.isSortable = true) (hl : l.HasNoNaN) (hm : m.HasNoNaN)
    {a b : Option Value} (ha : k.field.valueIn l = .ok a) (hb : k.field.valueIn m = .ok b) :
    k.order a b = k.compareListings l m := by
  have hplaces := Value.optionalKeyOrder_eq (Field.valueIn_onScale hk hl ha)
    (Field.valueIn_onScale hk hm hb)
  unfold order compareListings
  rw [valueOrMissing_of_ok ha, valueOrMissing_of_ok hb, hplaces]
  cases k.descending with
  | false => rfl
  | true => exact Std.OrientedCmp.eq_swap.symm

/-- A key puts a listing before another exactly if it compares as smaller. -/
theorem puts_iff (hk : k.field.isSortable = true) (hl : l.HasNoNaN) (hm : m.HasNoNaN)
    (hlvalue : ∃ v, k.field.valueIn l = .ok v) (hmvalue : ∃ v, k.field.valueIn m = .ok v) :
    k.Puts l m ↔ k.compareListings l m = .lt := by
  obtain ⟨a, ha⟩ := hlvalue
  obtain ⟨b, hb⟩ := hmvalue
  have haScale := Field.valueIn_onScale hk hl ha
  have hbScale := Field.valueIn_onScale hk hm hb
  have hputs : k.Puts l m ↔ if k.descending then Value.Precedes b a else Value.Precedes a b := by
    simp [Puts, ha, hb]
  rw [hputs, compareListings, valueOrMissing_of_ok ha, valueOrMissing_of_ok hb]
  cases k.descending with
  | false => simpa using Value.precedes_iff haScale hbScale
  | true => simpa using Value.precedes_iff hbScale haScale

end Columns

end SortKey

namespace SortOrder

/-- The order of two listings by several keys: the first that tells them apart decides. -/
def compareListings : List SortKey → Listing → Listing → Ordering
  | [] => fun _ _ => .eq
  | k :: ks => compareLex k.compareListings (compareListings ks)

instance transCmp_compareListings : (keys : List SortKey) → Std.TransCmp (compareListings keys)
  | [] => { eq_swap := rfl, isLE_trans := fun h _ => h }
  | k :: ks =>
    have := transCmp_compareListings ks
    inferInstanceAs (Std.TransCmp (compareLex k.compareListings (compareListings ks)))

/-- The first key decides, and the others where it finds a tie. -/
theorem compareListings_cons (k : SortKey) (ks : List SortKey) (l m : Listing) :
    compareListings (k :: ks) l m = (k.compareListings l m).then (compareListings ks l m) := rfl

/-- Keys compare two listings alike from either side. -/
theorem compareListings_swap (keys : List SortKey) (l m : Listing) :
    compareListings keys l m = (compareListings keys m l).swap :=
  Std.OrientedCmp.eq_swap

/-- There are values for all keys if there are for the first one and for the others. -/
theorem hasValues_cons_iff {k : SortKey} {ks : List SortKey} {l : Listing} :
    HasValues (k :: ks) l ↔ (∃ v, k.field.valueIn l = .ok v) ∧ HasValues ks l :=
  List.forall_mem_cons

/-- The listings that keys can compare: every key has a value in them, and no number is NaN. -/
structure Comparable (keys : List SortKey) (l : Listing) : Prop where
  numbers : l.HasNoNaN
  values : HasValues keys l

/-- A listing that is comparable by keys is so by the later ones. -/
theorem Comparable.tail {k : SortKey} {ks : List SortKey} {l : Listing}
    (h : Comparable (k :: ks) l) : Comparable ks l :=
  ⟨h.numbers, (hasValues_cons_iff.mp h.values).2⟩

/-- A listing that is comparable by keys has a value for the first one. -/
theorem Comparable.head {k : SortKey} {ks : List SortKey} {l : Listing}
    (h : Comparable (k :: ks) l) : ∃ v, k.field.valueIn l = .ok v :=
  (hasValues_cons_iff.mp h.values).1

/-- The row of a listing in which every key has a value. -/
def rowIn (keys : List SortKey) (l : Listing) : List (Option Value) :=
  keys.map fun k => k.valueOrMissing l

section Keys

variable {keys : List SortKey} {l m : Listing}

/-- **Rows are compared as the listings that they were taken from.** -/
theorem compareRows_eq (hkeys : ∀ k ∈ keys, k.field.isSortable = true) (hl : Comparable keys l)
    (hm : Comparable keys m) :
    compareRows keys (rowIn keys l) (rowIn keys m) = compareListings keys l m := by
  induction keys with
  | nil => rfl
  | cons k ks ih =>
      obtain ⟨hk, hks⟩ := List.forall_mem_cons.mp hkeys
      obtain ⟨a, ha⟩ := hl.head
      obtain ⟨b, hb⟩ := hm.head
      have horder := SortKey.order_eq hk hl.numbers hm.numbers ha hb
      rw [compareListings_cons, ← horder, ← ih hks hl.tail hm.tail]
      simp only [rowIn, List.map_cons, compareRows, SortKey.valueOrMissing_of_ok ha,
        SortKey.valueOrMissing_of_ok hb]

/-- Keys put a listing before another exactly if it compares as smaller. -/
theorem putBefore_iff (hkeys : ∀ k ∈ keys, k.field.isSortable = true) (hl : Comparable keys l)
    (hm : Comparable keys m) : PutBefore keys l m ↔ compareListings keys l m = .lt := by
  induction keys with
  | nil => simp [PutBefore, compareListings]
  | cons k ks ih =>
      obtain ⟨hk, hks⟩ := List.forall_mem_cons.mp hkeys
      have hlm := SortKey.puts_iff hk hl.numbers hm.numbers hl.head hm.head
      have hml := SortKey.puts_iff hk hm.numbers hl.numbers hm.head hl.head
      rw [k.compareListings_swap] at hml
      rw [PutBefore, hlm, hml, ih hks hl.tail hm.tail, compareListings_cons]
      cases k.compareListings l m <;> simp

/-- No key tells listings apart exactly if they compare as equal. -/
theorem ties_iff (hkeys : ∀ k ∈ keys, k.field.isSortable = true) (hl : Comparable keys l)
    (hm : Comparable keys m) : Ties keys l m ↔ compareListings keys l m = .eq := by
  induction keys with
  | nil => simp [Ties, compareListings]
  | cons k ks ih =>
      obtain ⟨hk, hks⟩ := List.forall_mem_cons.mp hkeys
      have hlm := SortKey.puts_iff hk hl.numbers hm.numbers hl.head hm.head
      have hml := SortKey.puts_iff hk hm.numbers hl.numbers hm.head hl.head
      rw [k.compareListings_swap] at hml
      have hrest := ih hks hl.tail hm.tail
      rw [Ties] at hrest ⊢
      rw [List.forall_mem_cons, hlm, hml, hrest, compareListings_cons]
      cases k.compareListings l m <;> simp

end Keys

/-! ## Sorting items -/

/-- The row of a listing in which every key has a value. -/
theorem rowOf_of_hasValues {s : SortOrder} {l : Listing} (h : HasValues s.keys l) :
    s.rowOf l = .ok (rowIn s.keys l) := by
  apply traverse_of_ok
  intro k hk
  obtain ⟨v, hv⟩ := h k hk
  rw [SortKey.valueIn_eq_ok_iff, SortKey.valueOrMissing_of_ok hv, hv]

/-- A listing has a row exactly if every key has a value in it. -/
theorem exists_rowOf_iff {s : SortOrder} {l : Listing} :
    (∃ row, s.rowOf l = .ok row) ↔ HasValues s.keys l := by
  constructor
  · rintro ⟨row, hrow⟩ k hk
    by_contra hnone
    rcases firstFailure_or_all (fun k => SortKey.valueIn k l) s.keys with hall | ⟨e, he⟩
    · obtain ⟨v, hv⟩ := hall k hk
      exact hnone ⟨v, SortKey.valueIn_eq_ok_iff.mp hv⟩
    · have herror := traverse_eq_error_iff.mpr he
      unfold rowOf at hrow
      rw [herror] at hrow
      cases hrow
  · intro h
    exact ⟨_, rowOf_of_hasValues h⟩

/-- The first listing without a row, and why it has none. -/
theorem firstFault_iff {s : SortOrder} {ls : List Listing} {e : QueryError} :
    FirstFailure s.rowOf ls e ↔ FirstFault s.keys ls e := by
  have hrow : ∀ l, s.rowOf l = .error e ↔ ∃ earlier k later missing,
      s.keys = earlier ++ k :: later ∧ HasValues earlier l ∧
        k.field.valueIn l = .error missing ∧ e = .sorting k.field.name missing.missingMessage := by
    intro l
    unfold rowOf
    rw [traverse_eq_error_iff]
    simp only [FirstFailure, SortKey.valueIn_eq_ok_iff, SortKey.valueIn_eq_error_iff, HasValues]
    constructor
    · rintro ⟨earlier, k, later, hkeys, hearlier, missing, hmissing, he⟩
      exact ⟨earlier, k, later, missing, hkeys, hearlier, hmissing, he⟩
    · rintro ⟨earlier, k, later, missing, hkeys, hearlier, hmissing, he⟩
      exact ⟨earlier, k, later, hkeys, hearlier, missing, hmissing, he⟩
  simp only [FirstFailure, exists_rowOf_iff, hrow, FirstFault]
  constructor
  · rintro ⟨before, l, after, hls, hbefore, earlier, k, later, missing, hfault⟩
    exact ⟨before, l, after, earlier, k, later, missing, hls, hbefore, hfault⟩
  · rintro ⟨before, l, after, earlier, k, later, missing, hls, hbefore, hfault⟩
    exact ⟨before, l, after, hls, hbefore, earlier, k, later, missing, hfault⟩

/-- Sorts items by their rows, whether there are keys or not. -/
def sortItems {α : Type} (s : SortOrder) (listing : α → Listing) (items : List α) :
    Except QueryError (List α) :=
  (s.rowsFor listing items).map fun rows => (s.sortRows rows).map (·.2)

section Items

variable {α : Type} {s : SortOrder} {listing : α → Listing} {items sorted other : List α}

/-- The rows of items, each with its item, where every key has a value. -/
def rowsOf (s : SortOrder) (listing : α → Listing) (items : List α) :
    List (List (Option Value) × α) :=
  items.map fun a => (rowIn s.keys (listing a), a)

/-- Items in which every key has a value have their rows. -/
theorem rowsFor_of_hasValues (h : ∀ a ∈ items, HasValues s.keys (listing a)) :
    s.rowsFor listing items = .ok (s.rowsOf listing items) := by
  apply traverse_of_ok
  intro a ha
  rw [rowOf_of_hasValues (h a ha)]
  rfl

/-- The rows of items cannot be made exactly if a key has no value in one of them. -/
theorem rowsFor_eq_error_iff {e : QueryError} :
    s.rowsFor listing items = .error e ↔ FirstFault s.keys (items.map listing) e := by
  rw [← firstFault_iff, firstFailure_map_iff, ← firstFailure_result_iff fun a row => (row, a),
    ← traverse_eq_error_iff, rowsFor]

/-- The rows are merge sorted. -/
theorem sortRows_eq (s : SortOrder) (rows : List (List (Option Value) × α)) :
    s.sortRows rows = rows.mergeSort fun a b => (compareRows s.keys a.1 b.1).isLE := rfl

/-- Items with values for all keys are sorted by their rows. -/
theorem sortItems_of_hasValues (h : ∀ a ∈ items, HasValues s.keys (listing a)) :
    s.sortItems listing items = .ok ((s.sortRows (s.rowsOf listing items)).map (·.2)) := by
  rw [sortItems, rowsFor_of_hasValues h]
  rfl

/-- Without keys every sorter leaves items as they are. -/
theorem runBy_of_isEmpty {m : Type → Type} [Monad m] (h : s.keys.isEmpty = true)
    (sorter : Sorter m) (listing : α → Listing) (items : List α) :
    s.runBy sorter listing items = pure (.ok items) := by
  rw [runBy, if_pos h]

/-- To leave items as they are where there are no keys is to sort them. -/
theorem run_eq_sortItems (s : SortOrder) (listing : α → Listing) (items : List α) :
    s.run listing items = s.sortItems listing items := by
  by_cases hempty : s.keys.isEmpty = true
  · have hkeys : s.keys = [] := List.isEmpty_iff.mp hempty
    have hvalues : ∀ a ∈ items, HasValues s.keys (listing a) := by
      intro a _ k hk
      rw [hkeys] at hk
      cases hk
    -- without keys all rows tie, and the merge sort keeps a list in order as it is
    have hsorted : s.sortRows (s.rowsOf listing items) = s.rowsOf listing items := by
      rw [sortRows_eq, hkeys]
      exact List.mergeSort_of_pairwise (List.pairwise_of_forall fun _ _ => rfl)
    have hrun : s.run listing items = .ok items := runBy_of_isEmpty hempty .merge listing items
    rw [hrun, sortItems_of_hasValues hvalues, hsorted]
    simp [rowsOf, Function.comp_def]
  · rw [run, runBy, if_neg hempty, sortItems]
    cases s.rowsFor listing items <;> rfl

/-- Comparisons that agree on the items sort them alike. -/
theorem mergeSort_congr {r r' : α → α → Bool} (h : ∀ a ∈ items, ∀ b ∈ items, r a b = r' a b) :
    items.mergeSort r = items.mergeSort r' := by
  have hmap := List.map_mergeSort (f := id) h
  rwa [List.map_id, List.map_id] at hmap

/-- Items with a value for every key are merge sorted by their rows, NaN or not. -/
theorem run_eq_mergeSort_rows (hitems : ∀ a ∈ items, HasValues s.keys (listing a)) :
    s.run listing items = .ok (items.mergeSort fun a b =>
      (compareRows s.keys (rowIn s.keys (listing a)) (rowIn s.keys (listing b))).isLE) := by
  rw [run_eq_sortItems, sortItems_of_hasValues hitems]
  have hback : (s.rowsOf listing items).map (·.2) = items := by simp [rowsOf, Function.comp_def]
  have hmap := List.map_mergeSort (l := s.rowsOf listing items) (f := (·.2))
    (r := fun a b => (compareRows s.keys a.1 b.1).isLE)
    (s := fun a b =>
      (compareRows s.keys (rowIn s.keys (listing a)) (rowIn s.keys (listing b))).isLE) ?_
  · rw [sortRows_eq, hmap, hback]
  · intro p hp q hq
    obtain ⟨a, ha, rfl⟩ := List.mem_map.mp hp
    obtain ⟨b, hb, rfl⟩ := List.mem_map.mp hq
    rfl

/-- **Items are merge sorted by the listings that they stand for.** -/
theorem run_eq_mergeSort (hkeys : ∀ k ∈ s.keys, k.field.isSortable = true)
    (hitems : ∀ a ∈ items, Comparable s.keys (listing a)) :
    s.run listing items = .ok (items.mergeSort fun a b =>
      (compareListings s.keys (listing a) (listing b)).isLE) := by
  rw [run_eq_mergeSort_rows fun a ha => (hitems a ha).values]
  congr 1
  apply mergeSort_congr
  intro a ha b hb
  rw [compareRows_eq hkeys (hitems a ha) (hitems b hb)]

/-- Listings are ordered up to ties by any keys, and so are the items that stand for them. -/
theorem ordersUpToTies_compareListings (keys : List SortKey) (listing : α → Listing)
    (member : α → Prop) :
    OrdersUpToTies (fun a b => compareListings keys (listing a) (listing b)) member :=
  .of_swap_of_trans (fun a b _ _ => compareListings_swap keys (listing a) (listing b))
    fun _ _ _ _ _ _ => Std.TransCmp.isLE_trans

/-- **To be arranged is to be stably sorted.** -/
theorem arranged_iff_stablySorted (hkeys : ∀ k ∈ s.keys, k.field.isSortable = true)
    (hitems : ∀ a ∈ items, Comparable s.keys (listing a)) :
    Arranged s.keys listing items sorted ↔
      StablySorted (fun a b => compareListings s.keys (listing a) (listing b)) items sorted := by
  have hordered : sorted.Perm items →
      (sorted.Pairwise (fun a b => ¬ PutBefore s.keys (listing b) (listing a)) ↔
        sorted.Pairwise fun a b => (compareListings s.keys (listing a) (listing b)).isLE = true) := by
    intro hperm
    apply List.Pairwise.iff_of_mem
    intro a b ha hb
    rw [putBefore_iff hkeys (hitems b (hperm.mem_iff.mp hb)) (hitems a (hperm.mem_iff.mp ha)),
      compareListings_swap]
    cases compareListings s.keys (listing a) (listing b) <;> simp
  have htied : ∀ tied : List α, tied.Sublist items →
      (tied.Pairwise (fun a b => Ties s.keys (listing a) (listing b)) ↔
        tied.Pairwise fun a b => compareListings s.keys (listing a) (listing b) = .eq) := by
    intro tied hsub
    apply List.Pairwise.iff_of_mem
    intro a b ha hb
    exact ties_iff hkeys (hitems a (hsub.subset ha)) (hitems b (hsub.subset hb))
  constructor
  · intro h
    refine ⟨h.perm, (hordered h.perm).mp h.ordered, ?_⟩
    intro tied hsub hties
    exact h.stable tied hsub ((htied tied hsub).mpr hties)
  · intro h
    refine ⟨h.perm, (hordered h.perm).mpr h.ordered, ?_⟩
    intro tied hsub hties
    exact h.stable tied hsub ((htied tied hsub).mp hties)

/-- The merge sort by keys arranges its items. -/
theorem arranged_mergeSort (hkeys : ∀ k ∈ s.keys, k.field.isSortable = true)
    (hitems : ∀ a ∈ items, Comparable s.keys (listing a)) :
    Arranged s.keys listing items (items.mergeSort fun a b =>
      (compareListings s.keys (listing a) (listing b)).isLE) :=
  (arranged_iff_stablySorted hkeys hitems).mpr
    (stablySorted_mergeSort (ordersUpToTies_compareListings s.keys listing _))

/-- **Items are arranged in one way only.** -/
theorem Arranged.unique (hkeys : ∀ k ∈ s.keys, k.field.isSortable = true)
    (hitems : ∀ a ∈ items, Comparable s.keys (listing a))
    (h : Arranged s.keys listing items sorted) (hother : Arranged s.keys listing items other) :
    sorted = other :=
  ((arranged_iff_stablySorted hkeys hitems).mp h).unique
    (ordersUpToTies_compareListings s.keys listing _)
    ((arranged_iff_stablySorted hkeys hitems).mp hother)

/-- Sorting fails with the first key that has no value in a listing. -/
theorem run_eq_error_iff {e : QueryError} :
    s.run listing items = .error e ↔ FirstFault s.keys (items.map listing) e := by
  rw [run_eq_sortItems, ← rowsFor_eq_error_iff, sortItems]
  cases s.rowsFor listing items <;> simp [Except.map]

/-- Every key has a value in every listing, or sorting fails. -/
theorem hasValues_or_firstFault (s : SortOrder) (listing : α → Listing) (items : List α) :
    (∀ a ∈ items, HasValues s.keys (listing a)) ∨
      ∃ e, FirstFault s.keys (items.map listing) e := by
  rcases firstFailure_or_all (fun a => s.rowOf (listing a)) items with hall | ⟨e, he⟩
  · exact Or.inl fun a ha => exists_rowOf_iff.mp (hall a ha)
  · exact Or.inr ⟨e, firstFault_iff.mp (firstFailure_map_iff.mpr he)⟩

/-- A change to the items that the keys do not see can be made before or after. -/
theorem run_map {β : Type} {listing' : β → Listing} {g : α → β}
    (h : ∀ a, s.rowOf (listing' (g a)) = s.rowOf (listing a)) (items : List α) :
    s.run listing' (items.map g) = (s.run listing items).map (List.map g) := by
  have hrows : s.rowsFor listing' (items.map g) =
      (s.rowsFor listing items).map (List.map (Prod.map id g)) := by
    rw [rowsFor, rowsFor, traverse_map, ← traverse_result]
    congr 1
    funext a
    rw [h a]
    cases s.rowOf (listing a) <;> rfl
  have hsort : ∀ rows : List (List (Option Value) × α),
      s.sortRows (rows.map (Prod.map id g)) = (s.sortRows rows).map (Prod.map id g) := by
    intro rows
    refine (List.map_mergeSort (f := Prod.map id g) ?_).symm
    intro a _ b _
    rfl
  rw [run_eq_sortItems, run_eq_sortItems, sortItems, sortItems, hrows]
  cases s.rowsFor listing items with
  | error e => rfl
  | ok rows => simp [Except.map, hsort, Function.comp_def]

/-- What comes out of a sort is what went in, NaN or not. -/
theorem perm_of_run {sorted : List α} (hrun : s.run listing items = .ok sorted) :
    sorted.Perm items := by
  rcases hasValues_or_firstFault s listing items with hvalues | ⟨e, he⟩
  · rw [run_eq_mergeSort_rows hvalues, Except.ok.injEq] at hrun
    exact hrun ▸ List.mergeSort_perm _ _
  · rw [run_eq_error_iff.mpr he] at hrun
    cases hrun

/-- What comes out of a sort is arranged, and the keys could compare it. -/
theorem arranged_of_run (hkeys : ∀ k ∈ s.keys, k.field.isSortable = true)
    (hnumbers : ∀ a ∈ items, (listing a).HasNoNaN) {sorted : List α}
    (hrun : s.run listing items = .ok sorted) :
    (∀ a ∈ items, Comparable s.keys (listing a)) ∧ Arranged s.keys listing items sorted := by
  rcases hasValues_or_firstFault s listing items with hvalues | ⟨e, he⟩
  · have hitems : ∀ a ∈ items, Comparable s.keys (listing a) :=
      fun a ha => ⟨hnumbers a ha, hvalues a ha⟩
    have hsorted := arranged_mergeSort hkeys hitems
    rw [run_eq_mergeSort hkeys hitems, Except.ok.injEq] at hrun
    exact ⟨hitems, hrun ▸ hsorted⟩
  · rw [run_eq_error_iff.mpr he] at hrun
    cases hrun

end Items

/-- **What sorting gives.**  By keys that can be sorted by, items whose listings hold no NaN are
arranged if every key has a value in every listing; otherwise there is a first listing with a key
that has none, and the error is that of its first such key. -/
theorem run_arranges (s : SortOrder) (hkeys : ∀ k ∈ s.keys, k.field.isSortable = true)
    {α : Type} (listing : α → Listing) (items : List α)
    (hnumbers : ∀ a ∈ items, (listing a).HasNoNaN) :
    ((∀ a ∈ items, HasValues s.keys (listing a)) →
      ∃ sorted, s.run listing items = .ok sorted ∧ Arranged s.keys listing items sorted) ∧
    ((¬ ∀ a ∈ items, HasValues s.keys (listing a)) →
      ∃ e, s.run listing items = .error e ∧ FirstFault s.keys (items.map listing) e) := by
  constructor
  · intro hvalues
    have hitems : ∀ a ∈ items, Comparable s.keys (listing a) :=
      fun a ha => ⟨hnumbers a ha, hvalues a ha⟩
    exact ⟨_, run_eq_mergeSort hkeys hitems, arranged_mergeSort hkeys hitems⟩
  · intro hnone
    obtain ⟨e, he⟩ := (hasValues_or_firstFault s listing items).resolve_left hnone
    exact ⟨e, run_eq_error_iff.mpr he, he⟩

/-! ### Furnished and unfurnished flats -/

/-- A flat with its rent, and how it is furnished. -/
def flat (kaltmiete : Option Binary64) (moebliert : Option Furnishing) : Listing :=
  { Listing.empty with
    preise := some ⟨kaltmiete, none, none, none, none, none, none, none, none⟩
    ausstattung := some ⟨none, none, moebliert⟩ }

/-- Flats with rents of 500 and 700, some without; one is said to be furnished and how, one is only
said to be furnished. -/
def flats : List Listing :=
  [flat (some ⟨0x407F400000000000⟩) (some ⟨some "VOLL"⟩), flat none none,
    flat (some ⟨0x407F400000000000⟩) none, flat (some ⟨0x4085E00000000000⟩) none,
    flat none (some ⟨none⟩), flat (some ⟨0x407F400000000000⟩) (some ⟨some "VOLL"⟩)]

/-- The flats at some positions, each with its position. -/
def flatsAt (positions : List Nat) : List (Listing × Nat) :=
  positions.filterMap fun i => flats[i]?.map (·, i)

/-- Unfurnished flats first, and the highest rents of them. -/
def byFurnishing : SortOrder := ⟨[⟨.moebliert, false⟩, ⟨.kaltmiete, true⟩]⟩

/-- The flats are arranged, and a listing that says nothing of its fittings cannot be among them. -/
theorem flats_arranged :
    (∀ k ∈ byFurnishing.keys, k.field.isSortable = true) ∧
      (∀ l ∈ flats ++ [Listing.empty], l.HasNoNaN) ∧ (∀ l ∈ flats, HasValues byFurnishing.keys l) ∧
      (∃ sorted, byFurnishing.run id flats = .ok sorted ∧
        Arranged byFurnishing.keys id flats sorted) ∧
      ∃ e, byFurnishing.run id (flats ++ [Listing.empty]) = .error e ∧
        FirstFault byFurnishing.keys ((flats ++ [Listing.empty]).map id) e := by
  have hkeys : ∀ k ∈ byFurnishing.keys, k.field.isSortable = true := by decide
  have hnumbers : ∀ l ∈ flats ++ [Listing.empty], l.HasNoNaN := by decide
  have hvalues : ∀ l ∈ flats, HasValues byFurnishing.keys l := by decide
  have hfault : ¬ ∀ l ∈ flats ++ [Listing.empty], HasValues byFurnishing.keys l := by decide
  have hflats := run_arranges byFurnishing hkeys id flats
    fun l hl => hnumbers l (List.mem_append_left _ hl)
  have hall := run_arranges byFurnishing hkeys id (flats ++ [Listing.empty]) hnumbers
  exact ⟨hkeys, hnumbers, hvalues, hflats.1 hvalues, hall.2 hfault⟩

end SortOrder

end ListingQuery
