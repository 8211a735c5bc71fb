import ListingQuery.Proofs.Sorting.Arrangement
import ListingQuery.Proofs.Sorting.KeyOrder

/-!
# Any stable sort

The program merge sorts the rows of its listings.  That is not a choice: where no value of a key is
NaN, each column holds one kind of numbers, so that the rows are ordered up to ties, and every stable
sort gives what merge sort gives.  With NaN in a column the rows are not ordered, and a stable sort
promises nothing.

* `SortKey.IsNaNIn` is a key whose value in a listing is NaN;
* `ordersUpToTies_rowsOf` says that rows without NaN are ordered;
* `runBy_eq_error_iff` is how sorting fails, whatever the sorter;
* `runBy_eq_run` says that without NaN all stable sorts give the same.
-/

namespace ListingQuery

namespace SortKey

/-- The value of the key in the listing is NaN. -/
def IsNaNIn (k : SortKey) (l : Listing) : Prop :=
  ∃ x : Binary64, x.isNaN = true ∧ k.field.valueIn l = .ok (some (.float x))

/-- No value is NaN in a listing without NaN. -/
theorem not_isNaNIn {k : SortKey} (hk : k.field.isSortable = true) {l : Listing}
    (hl : l.HasNoNaN) : ¬ k.IsNaNIn l := by
  rintro ⟨x, hnan, hx⟩
  have hscale := Field.valueIn_onScale hk hl hx
  cases hfield : k.field.scale <;> simp [hfield, Value.OnScale, hnan] at hscale

end SortKey

namespace SortOrder

/-- The columns that keys take from listings without NaN: each holds one kind of numbers. -/
def columnsOf (keys : List SortKey) : List (Option Value → Prop) :=
  keys.map fun k => Value.OnScale k.field.scale

/-- **The rows of these columns are ordered up to ties.** -/
theorem ordersUpToTies_columnsOf (keys : List SortKey) :
    OrdersUpToTies (compareRows keys) (InColumns (columnsOf keys)) := by
  have hmembers : ∀ column ∈ columnsOf keys, ∃ v, column v := by
    intro column hcolumn
    obtain ⟨k, _, rfl⟩ := List.mem_map.mp hcolumn
    exact ⟨none, by cases k.field.scale <;> trivial⟩
  refine (compareRows_ordersUpToTies_iff keys hmembers).mpr ?_
  intro column hcolumn
  obtain ⟨k, _, rfl⟩ := List.mem_map.mp (List.mem_of_mem_take hcolumn)
  exact Value.sharp_onScale _

/-- Values that are not NaN are in their columns. -/
theorem inColumns_rowIn {keys : List SortKey} (hkeys : ∀ k ∈ keys, k.field.isSortable = true)
    {l : Listing} (hvalues : HasValues keys l) (hnan : ∀ k ∈ keys, ¬ k.IsNaNIn l) :
    InColumns (columnsOf keys) (rowIn keys l) := by
  induction keys with
  | nil => exact .nil
  | cons k ks ih =>
      obtain ⟨hk, hks⟩ := List.forall_mem_cons.mp hkeys
      obtain ⟨⟨v, hv⟩, hothers⟩ := hasValues_cons_iff.mp hvalues
      obtain ⟨hkNaN, hksNaN⟩ := List.forall_mem_cons.mp hnan
      refine .cons ?_ (ih hks hothers hksNaN)
      change Value.OnScale k.field.scale (k.valueOrMissing l)
      rw [SortKey.valueOrMissing_of_ok hv]
      rcases Field.valueIn_onScaleOrNaN hk hv with hscale | ⟨x, _, hx, rfl⟩
      · exact hscale
      · exact absurd ⟨x, hx, hv⟩ hkNaN

section Items

variable {α : Type} {s : SortOrder} {listing : α → Listing} {items : List α}

/-- **Rows without NaN are ordered up to ties.** -/
theorem ordersUpToTies_rowsOf (hkeys : ∀ k ∈ s.keys, k.field.isSortable = true)
    (hvalues : ∀ a ∈ items, HasValues s.keys (listing a))
    (hnan : ∀ a ∈ items, ∀ k ∈ s.keys, ¬ k.IsNaNIn (listing a)) :
    OrdersUpToTies (fun a b => compareRows s.keys a.1 b.1) (· ∈ s.rowsOf listing items) := by
  refine (ordersUpToTies_columnsOf s.keys).comap (f := Prod.fst) ?_ fun _ _ _ _ => rfl
  intro row hrow
  obtain ⟨a, ha, rfl⟩ := List.mem_map.mp hrow
  exact inColumns_rowIn hkeys (hvalues a ha) (hnan a ha)

/-- **A stable sort comes back with rows without NaN**, merge sorted. -/
theorem sortRowsBy_eq {sorter : Sorter Option} (hsorter : sorter.IsStable)
    (hkeys : ∀ k ∈ s.keys, k.field.isSortable = true)
    (hvalues : ∀ a ∈ items, HasValues s.keys (listing a))
    (hnan : ∀ a ∈ items, ∀ k ∈ s.keys, ¬ k.IsNaNIn (listing a)) :
    s.sortRowsBy sorter (s.rowsOf listing items) = some (s.sortRows (s.rowsOf listing items)) :=
  hsorter.sort_eq (ordersUpToTies_rowsOf hkeys hvalues hnan)

section AnySorter

variable {m : Type → Type} [Monad m]

/-- Where every key has a value, what a sorter makes of the rows is what comes out. -/
theorem runBy_of_hasValues (sorter : Sorter m) (hkeys : s.keys.isEmpty = false)
    (hvalues : ∀ a ∈ items, HasValues s.keys (listing a)) :
    s.runBy sorter listing items = (do
      let sorted ← s.sortRowsBy sorter (s.rowsOf listing items)
      return .ok (sorted.map (·.2))) := by
  rw [runBy, if_neg (by simp [hkeys]), rowsFor_of_hasValues hvalues]

/-- Where a key has no value the sorter is not asked. -/
theorem runBy_of_firstFault (sorter : Sorter m) {e : QueryError}
    (hfault : FirstFault s.keys (items.map listing) e) :
    s.runBy sorter listing items = pure (.error e) := by
  have hkeys : s.keys.isEmpty = false := by
    obtain ⟨_, _, _, _, _, _, _, _, _, hkeys, _⟩ := hfault
    simp [hkeys]
  rw [runBy, if_neg (by simp [hkeys]), rowsFor_eq_error_iff.mpr hfault]

end AnySorter

/-- **Every stable sort is as good as merge sort.**  By keys that can be sorted by, and where no value
of a key is NaN, it comes back with what the program gives, and the failures are the same. -/
theorem runBy_eq_run {sorter : Sorter Option} (hsorter : sorter.IsStable)
    (hkeys : ∀ k ∈ s.keys, k.field.isSortable = true)
    (hnan : ∀ a ∈ items, ∀ k ∈ s.keys, ¬ k.IsNaNIn (listing a)) :
    s.runBy sorter listing items = some (s.run listing items) := by
  cases hempty : s.keys.isEmpty with
  | true =>
      rw [run, runBy_of_isEmpty hempty, runBy_of_isEmpty hempty]
      rfl
  | false =>
      rcases hasValues_or_firstFault s listing items with hvalues | ⟨e, hfault⟩
      · have hrows := sortRowsBy_eq hsorter hkeys hvalues hnan
        rw [run, runBy_of_hasValues sorter hempty hvalues, hrows,
          runBy_of_hasValues .merge hempty hvalues]
        rfl
      · rw [run, runBy_of_firstFault sorter hfault, runBy_of_firstFault .merge hfault]
        rfl

/-- What a sort gives can be computed by insertion sort. -/
theorem run_of_insertion (hkeys : ∀ k ∈ s.keys, k.field.isSortable = true)
    (hnumbers : ∀ a ∈ items, (listing a).HasNoNaN) {sorted : List α}
    (h : s.runBy .insertion listing items = some (.ok sorted)) :
    s.run listing items = .ok sorted := by
  have hrun := runBy_eq_run Sorter.isStable_insertion hkeys fun a ha k hk =>
    SortKey.not_isNaNIn (hkeys k hk) (hnumbers a ha)
  exact Option.some.inj (hrun.symm.trans h)

end Items

end SortOrder

end ListingQuery
