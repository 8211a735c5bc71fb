import ListingQuery.Proofs.Running.Sieve
import ListingQuery.Proofs.Sorting.AnySort

/-!
# Sieving and sorting

Listings can be sieved before they are sorted or after, with the same result.  A stable sort is known
by the order of its items and by the subsequences of those that tie, and a sieve that is laid over it
keeps both, so that what it leaves is the stable sort of what it leaves of the items.

That is so for any keys.  A key that cannot be sorted by ties all listings that it has a value in, so
that it may as well be left out.

* `mergeSort_filter`: a sieve keeps a stable sort (`StablySorted.filter`), so that it leaves the merge
  sort of what it leaves;
* `run_sortable`: the keys that cannot be sorted by decide nothing;
* `sieve_sort_commute` is the result.
-/

namespace ListingQuery

/-- A key that cannot be sorted by ties all listings. -/
theorem SortKey.order_of_not_isSortable {k : SortKey} (hk : k.field.isSortable = false)
    {l m : Listing} {a b : Option Value} (ha : k.field.valueIn l = .ok a)
    (hb : k.field.valueIn m = .ok b) : k.order a b = .eq := by
  have hfield : k.field = .objekttyp := by
    generalize k.field = f at hk
    cases f <;> first | rfl | cases hk
  rw [hfield] at ha hb
  obtain ⟨_, _, rfl⟩ := Listing.required_map_eq_ok ha
  obtain ⟨_, _, rfl⟩ := Listing.required_map_eq_ok hb
  unfold order
  cases k.descending <;> rfl

namespace SortOrder

/-! ## Keys that cannot be sorted by -/

/-- The keys that can be sorted by. -/
def sortable (s : SortOrder) : SortOrder :=
  ⟨s.keys.filter fun k => k.field.isSortable⟩

/-- The sortable keys of an order can be sorted by. -/
theorem isSortable_of_mem_sortable {s : SortOrder} :
    ∀ k ∈ s.sortable.keys, k.field.isSortable = true :=
  fun _ hk => (List.mem_filter.mp hk).2

/-- Values for all keys are values for the sortable ones. -/
theorem HasValues.sortable {s : SortOrder} {l : Listing} (h : HasValues s.keys l) :
    HasValues s.sortable.keys l :=
  fun k hk => h k (List.mem_filter.mp hk).1

/-- Rows are compared by the keys that can be sorted by. -/
theorem compareRows_sortable {keys : List SortKey} {l m : Listing} (hl : HasValues keys l)
    (hm : HasValues keys m) :
    compareRows (keys.filter fun k => k.field.isSortable)
        (rowIn (keys.filter fun k => k.field.isSortable) l)
        (rowIn (keys.filter fun k => k.field.isSortable) m) =
      compareRows keys (rowIn keys l) (rowIn keys m) := by
  induction keys with
  | nil => rfl
  | cons k ks ih =>
      obtain ⟨⟨a, ha⟩, hlrest⟩ := hasValues_cons_iff.mp hl
      obtain ⟨⟨b, hb⟩, hmrest⟩ := hasValues_cons_iff.mp hm
      have hcons : compareRows (k :: ks) (rowIn (k :: ks) l) (rowIn (k :: ks) m) =
          (k.order a b).then (compareRows ks (rowIn ks l) (rowIn ks m)) := by
        simp only [rowIn, List.map_cons, compareRows, SortKey.valueOrMissing_of_ok ha,
          SortKey.valueOrMissing_of_ok hb]
      rw [hcons, ← ih hlrest hmrest]
      cases hk : k.field.isSortable with
      | false =>
          rw [List.filter_cons_of_neg (by simp [hk]), SortKey.order_of_not_isSortable hk ha hb]
          rfl
      | true =>
          rw [List.filter_cons_of_pos (by simpa using hk)]
          simp only [rowIn, List.map_cons, compareRows, SortKey.valueOrMissing_of_ok ha,
            SortKey.valueOrMissing_of_ok hb]

section Items

variable {α : Type} {s : SortOrder} {listing : α → Listing} {items : List α}

/-- **The keys that cannot be sorted by decide nothing**, where every key has a value. -/
theorem run_sortable (hitems : ∀ a ∈ items, HasValues s.keys (listing a)) :
    s.sortable.run listing items = s.run listing items := by
  rw [run_eq_mergeSort_rows fun a ha => (hitems a ha).sortable, run_eq_mergeSort_rows hitems]
  congr 1
  apply mergeSort_congr
  intro a ha b hb
  exact congrArg Ordering.isLE (compareRows_sortable (hitems a ha) (hitems b hb))

/-- Items without NaN and with a value for every key are merge sorted, by whatever keys. -/
theorem run_eq_mergeSort_sortable (hitems : ∀ a ∈ items, Comparable s.keys (listing a)) :
    s.run listing items = .ok (items.mergeSort fun a b =>
      (compareListings s.sortable.keys (listing a) (listing b)).isLE) := by
  rw [← run_sortable fun a ha => (hitems a ha).values]
  exact run_eq_mergeSort isSortable_of_mem_sortable fun a ha =>
    ⟨(hitems a ha).numbers, (hitems a ha).values.sortable⟩

/-- **What a sieve leaves of a merge sort is the merge sort of what it leaves of the items.** -/
theorem mergeSort_filter (keys : List SortKey) (listing : α → Listing) (items : List α)
    (p : α → Bool) :
    ((items.filter p).mergeSort fun a b => (compareListings keys (listing a) (listing b)).isLE) =
      (items.mergeSort fun a b => (compareListings keys (listing a) (listing b)).isLE).filter p := by
  have horders := ordersUpToTies_compareListings keys listing
  exact (stablySorted_mergeSort (horders (· ∈ items.filter p))).unique (horders _)
    ((stablySorted_mergeSort (horders (· ∈ items))).filter p)

end Items

/-- **Sieving and sorting commute.**  Items without NaN on which every key has a value and the filter
a verdict are sieved and then sorted as they are sorted and then sieved. -/
theorem sieve_sort_commute (f : Filter) (s : SortOrder) {α : Type} (listing : α → Listing)
    (items : List α) (hnumbers : ∀ a ∈ items, (listing a).HasNoNaN)
    (hvalues : ∀ a ∈ items, HasValues s.keys (listing a))
    (hverdicts : ∀ a ∈ items, ∃ verdict, f.evaluate (listing a) = .ok verdict) :
    ∃ kept sorted result, f.run listing items = .ok kept ∧ s.run listing kept = .ok result ∧
      s.run listing items = .ok sorted ∧ f.run listing sorted = .ok result := by
  have hitems : ∀ a ∈ items, Comparable s.keys (listing a) :=
    fun a ha => ⟨hnumbers a ha, hvalues a ha⟩
  have hkept : f.run listing items = .ok (items.filter fun a => f.admits (listing a)) :=
    Filter.run_of_ok hverdicts
  have hsorted : s.run listing items = .ok (items.mergeSort fun a b =>
      (compareListings s.sortable.keys (listing a) (listing b)).isLE) :=
    run_eq_mergeSort_sortable hitems
  have hresult : s.run listing (items.filter fun a => f.admits (listing a)) =
      .ok ((items.filter fun a => f.admits (listing a)).mergeSort fun a b =>
        (compareListings s.sortable.keys (listing a) (listing b)).isLE) :=
    run_eq_mergeSort_sortable fun a ha => hitems a (List.mem_filter.mp ha).1
  refine ⟨_, _, _, hkept, hresult, hsorted, ?_⟩
  -- the filter has a verdict on what is sorted, since that is what was given
  rw [mergeSort_filter]
  exact Filter.run_of_ok fun a ha => hverdicts a (List.mem_mergeSort.mp ha)

/-- No flats above a rent of 600. -/
def affordable : Filter :=
  .not (.test ⟨.kaltmiete, .gt, "600", .int 600⟩)

/-- The flats up to a rent of 600 and those without one, by their furnishing and the highest rents. -/
theorem affordable_flats_by_furnishing :
    affordable.run Prod.fst flats.zipIdx = .ok (flatsAt [0, 1, 2, 4, 5]) ∧
      byFurnishing.run Prod.fst (flatsAt [0, 1, 2, 4, 5]) = .ok (flatsAt [2, 1, 4, 0, 5]) ∧
      byFurnishing.run Prod.fst flats.zipIdx = .ok (flatsAt [3, 2, 1, 4, 0, 5]) ∧
      affordable.run Prod.fst (flatsAt [3, 2, 1, 4, 0, 5]) = .ok (flatsAt [2, 1, 4, 0, 5]) := by
  have hnumbers : ∀ item ∈ flats.zipIdx, item.1.HasNoNaN := by decide
  obtain ⟨kept, sorted, result, hkept, hresult, hsorted, hsieved⟩ :=
    sieve_sort_commute affordable byFurnishing Prod.fst flats.zipIdx hnumbers (by decide)
      (by decide +kernel)
  have haffordable : kept = flatsAt [0, 1, 2, 4, 5] :=
    Except.ok.inj (hkept.symm.trans (by decide +kernel))
  have hall : sorted = flatsAt [3, 2, 1, 4, 0, 5] :=
    Except.ok.inj (hsorted.symm.trans
      (run_of_insertion (by decide) hnumbers (by decide +kernel)))
  subst haffordable hall
  have hleft : result = flatsAt [2, 1, 4, 0, 5] :=
    Except.ok.inj (hsieved.symm.trans (by decide +kernel))
  subst hleft
  exact ⟨hkept, hresult, hsorted, hsieved⟩

end SortOrder

end ListingQuery
