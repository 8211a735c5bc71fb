import ListingQuery.Proofs.Sorting.AnySort

/-!
# Successive sorts

To sort items by several keys is to sort them by the last keys first, and then by the others.  The
last sort keeps what the first one did wherever its own keys cannot tell listings apart, so the keys
of the first decide there, as they do behind the others in one sort.  That is `StablySorted.append`;
`successive_sorts_agree` is the result for sort orders.
-/

namespace ListingQuery

namespace SortOrder

/-- Keys that follow others decide where those find a tie. -/
theorem compareListings_append (keys more : List SortKey) (l m : Listing) :
    compareListings (keys ++ more) l m =
      (compareListings keys l m).then (compareListings more l m) := by
  induction keys with
  | nil => rfl
  | cons k ks ih =>
      rw [List.cons_append, compareListings_cons, compareListings_cons, ih, Ordering.then_assoc]

/-- **The merge sort by all keys is the merge sort by the last ones, merge sorted by the others.** -/
theorem mergeSort_append {α : Type} (keys more : List SortKey) (listing : α → Listing)
    (items : List α) :
    (items.mergeSort fun a b => (compareListings (keys ++ more) (listing a) (listing b)).isLE) =
      (items.mergeSort fun a b => (compareListings more (listing a) (listing b)).isLE).mergeSort
        fun a b => (compareListings keys (listing a) (listing b)).isLE := by
  have horders := ordersUpToTies_compareListings (α := α)
  have honce := stablySorted_mergeSort (horders more listing (· ∈ items))
  have hagain := stablySorted_mergeSort (horders keys listing fun a =>
    a ∈ items.mergeSort fun a b => (compareListings more (listing a) (listing b)).isLE)
  have hboth := honce.append (horders keys listing _) hagain
  simp only [← compareListings_append] at hboth
  exact (stablySorted_mergeSort (horders (keys ++ more) listing _)).unique
    (horders (keys ++ more) listing _) hboth

/-- **Successive sorts.**  By keys that can be sorted by, items whose listings hold no NaN and have a
value for every key are sorted by all of the keys at once as they are by the last ones first, and the
result of that by the others. -/
theorem successive_sorts_agree (keys more : List SortKey)
    (hkeys : ∀ k ∈ keys ++ more, k.field.isSortable = true) {α : Type} (listing : α → Listing)
    (items : List α) (hnumbers : ∀ a ∈ items, (listing a).HasNoNaN)
    (hvalues : ∀ a ∈ items, HasValues (keys ++ more) (listing a)) :
    ∃ once sorted, (SortOrder.mk more).run listing items = .ok once ∧
      (SortOrder.mk keys).run listing once = .ok sorted ∧
      (SortOrder.mk (keys ++ more)).run listing items = .ok sorted := by
  have hboth : ∀ a ∈ items, Comparable (keys ++ more) (listing a) :=
    fun a ha => ⟨hnumbers a ha, hvalues a ha⟩
  have hmore : ∀ a ∈ items, Comparable more (listing a) :=
    fun a ha => ⟨hnumbers a ha, fun k hk => hvalues a ha k (List.mem_append_right _ hk)⟩
  have honce := run_eq_mergeSort (s := ⟨more⟩)
    (fun k hk => hkeys k (List.mem_append_right _ hk)) hmore
  have hall := run_eq_mergeSort (s := ⟨keys ++ more⟩) hkeys hboth
  have hfirst : ∀ a ∈ items.mergeSort (fun a b =>
      (compareListings more (listing a) (listing b)).isLE), Comparable keys (listing a) := by
    intro a ha
    have hitem := List.mem_mergeSort.mp ha
    exact ⟨hnumbers a hitem, fun k hk => hvalues a hitem k (List.mem_append_left _ hk)⟩
  have hagain := run_eq_mergeSort (s := ⟨keys⟩)
    (fun k hk => hkeys k (List.mem_append_left _ hk)) hfirst
  refine ⟨_, _, honce, hagain, ?_⟩
  rw [hall, mergeSort_append]

/-- The flats by their furnishing and the highest rents: by rent first, and then by furnishing, which
leaves flats that are furnished alike as the rents put them. -/
theorem flats_by_rent_then_furnishing :
    (SortOrder.mk [⟨.kaltmiete, true⟩]).run Prod.fst flats.zipIdx =
        .ok (flatsAt [3, 0, 2, 5, 1, 4]) ∧
      (SortOrder.mk [⟨.moebliert, false⟩]).run Prod.fst (flatsAt [3, 0, 2, 5, 1, 4]) =
        .ok (flatsAt [3, 2, 1, 4, 0, 5]) ∧
      byFurnishing.run Prod.fst flats.zipIdx = .ok (flatsAt [3, 2, 1, 4, 0, 5]) := by
  have hnumbers : ∀ item ∈ flats.zipIdx, item.1.HasNoNaN := by decide
  obtain ⟨once, sorted, honce, hagain, hboth⟩ :=
    successive_sorts_agree [⟨.moebliert, false⟩] [⟨.kaltmiete, true⟩] (by decide) Prod.fst
      flats.zipIdx hnumbers (by decide)
  have hrents : once = flatsAt [3, 0, 2, 5, 1, 4] :=
    Except.ok.inj (honce.symm.trans
      (run_of_insertion (by decide) hnumbers (by decide +kernel)))
  have hfurnishing : sorted = flatsAt [3, 2, 1, 4, 0, 5] :=
    Except.ok.inj (hboth.symm.trans
      (run_of_insertion (by decide) hnumbers (by decide +kernel)))
  subst hrents hfurnishing
  exact ⟨honce, hagain, hboth⟩

end SortOrder

end ListingQuery
