import ListingQuery.Window
import Mathlib.Data.List.Basic
import Mathlib.Logic.ExistsUnique

/-!
# Windows of a sequence

A page is the items at the positions from `page * limit` up to `(page + 1) * limit`, where both
products are exact.  The first position of a page is computed in words and saturates, which no
sequence of fewer items than there are words can show.

* `Window.cut` takes the items at these positions, `run_eq_cut` says that it is the page;
* `length_cut` counts them;
* `pieces_cover` puts the pages together again;
* `hasPosition_iff_div` finds the page of a position;
* `pages_partition` says that the pages of a sequence have no position in common and leave none out.
-/

namespace ListingQuery.Window

variable {α : Type}

/-- The items at the positions of the page, all items without a limit. -/
def cut (w : Window) (items : List α) : List α :=
  match w.limit with
  | none => items
  | some limit =>
    (items.zipIdx.filter fun p =>
      w.page.toNat * limit.toNat ≤ p.2 && p.2 < (w.page.toNat + 1) * limit.toNat).map Prod.fst

/-- A page holds items of the list, in their order. -/
theorem sublist_run (w : Window) (items : List α) : (w.run items).Sublist items := by
  unfold run
  split
  · exact List.Sublist.refl items
  · exact (List.take_sublist _ _).trans (List.drop_sublist _ _)

/-- A piece of a list: the items of one page, with a limit. -/
def piece (limit page : Nat) (items : List α) : List α :=
  (items.drop (page * limit)).take limit

/-- The items at the positions between two bounds, where positions are counted from `n` on. -/
theorem filter_zipIdx (items : List α) (n lower upper : Nat) :
    ((items.zipIdx n).filter fun p => lower ≤ p.2 && p.2 < upper).map Prod.fst =
      (items.drop (lower - n)).take (upper - max lower n) := by
  induction items generalizing n with
  | nil => simp
  | cons a items ih =>
      rw [List.zipIdx_cons, List.filter_cons]
      by_cases hlower : lower ≤ n
      · have hmax : max lower (n + 1) = n + 1 := by omega
        have hdrop : lower - n = 0 := by omega
        have hdrop' : lower - (n + 1) = 0 := by omega
        by_cases hupper : n < upper
        · have htake : upper - n = upper - (n + 1) + 1 := by omega
          simp [hlower, hupper, ih, hmax, hdrop, hdrop', htake]
        · have htake : upper - n = 0 := by omega
          have htake' : upper - (n + 1) = 0 := by omega
          simp [hlower, hupper, ih, hmax, htake, htake']
      · have hdrop : lower - n = lower - (n + 1) + 1 := by omega
        have hmax : max lower n = max lower (n + 1) := by omega
        simp [hlower, ih, hdrop, hmax]

/-- With a limit a window cuts out a piece. -/
theorem cut_of_limit {w : Window} {limit : UInt64} (hlimit : w.limit = some limit)
    (items : List α) :
    w.cut items = piece limit.toNat w.page.toNat items := by
  have hwidth : (w.page.toNat + 1) * limit.toNat - max (w.page.toNat * limit.toNat) 0 =
      limit.toNat := by
    rw [Nat.add_mul, Nat.one_mul]
    omega
  unfold cut
  rw [hlimit]
  simp only
  rw [filter_zipIdx, hwidth, Nat.sub_zero, piece]

/-- Without a limit a window cuts nothing off. -/
theorem cut_of_no_limit {w : Window} (hlimit : w.limit = none) (items : List α) :
    w.cut items = items := by
  simp [cut, hlimit]

/-- The saturating product is the product, or the largest word. -/
theorem toNat_saturatingMul (a b : UInt64) :
    (saturatingMul a b).toNat = min (UInt64.size - 1) (a.toNat * b.toNat) := by
  unfold saturatingMul
  by_cases hfits : a.toNat * b.toNat < UInt64.size
  · have hmod := Nat.mod_eq_of_lt hfits
    rw [if_pos hfits, UInt64.toNat_mul]
    change a.toNat * b.toNat % UInt64.size = _
    omega
  · rw [if_neg hfits, UInt64.toNat_ofNat']
    change (UInt64.size - 1) % UInt64.size = _
    rw [Nat.mod_eq_of_lt (by decide)]
    omega

/-- **The page is the items at its exact positions.** -/
theorem run_eq_cut (w : Window) {items : List α} (hlength : items.length < UInt64.size) :
    w.run items = w.cut items := by
  cases hlimit : w.limit with
  | none => simp [run, cut, hlimit]
  | some limit =>
      have hoffset : w.offset.toNat = min (UInt64.size - 1) (w.page.toNat * limit.toNat) := by
        rw [offset, hlimit, toNat_saturatingMul, Nat.mul_comm]
      have hdrop : items.drop w.offset.toNat = items.drop (w.page.toNat * limit.toNat) := by
        by_cases hfits : w.page.toNat * limit.toNat ≤ UInt64.size - 1
        · rw [hoffset, Nat.min_eq_right hfits]
        · -- both positions lie behind the last item
          rw [List.drop_eq_nil_of_le (by omega), List.drop_eq_nil_of_le (by omega)]
      rw [cut_of_limit hlimit, run, hlimit, hdrop]
      rfl

/-- How many items the page has of so many. -/
def count (w : Window) (n : Nat) : Nat :=
  match w.limit with
  | none => n
  | some limit => min limit.toNat (n - w.page.toNat * limit.toNat)

/-- A window leaves as many items as it counts. -/
theorem length_cut (w : Window) (items : List α) : (w.cut items).length = w.count items.length := by
  cases hlimit : w.limit with
  | none => simp [cut_of_no_limit hlimit, count, hlimit]
  | some limit => simp [cut_of_limit hlimit, piece, count, hlimit]

/-- A window leaves no more items than there are. -/
theorem count_le (w : Window) (n : Nat) : w.count n ≤ n := by
  unfold count
  split <;> omega

/-- A window leaves items in their order. -/
theorem cut_sublist (w : Window) (items : List α) : (w.cut items).Sublist items := by
  cases hlimit : w.limit with
  | none => simp [cut_of_no_limit hlimit]
  | some limit =>
      rw [cut_of_limit hlimit]
      exact (List.take_sublist _ _).trans (List.drop_sublist _ _)

/-! ## All pages -/

/-- The first pages together are the first items. -/
theorem flatMap_piece (items : List α) (limit count : Nat) :
    ((List.range count).flatMap fun page => piece limit page items) =
      items.take (count * limit) := by
  induction count with
  | zero => simp
  | succ count ih =>
      rw [List.range_succ, List.flatMap_append, ih, Nat.succ_mul, List.take_add]
      simp [piece]

/-- **So many pages that they have room for all items are all items**, and the pages behind them are
empty. -/
theorem pieces_cover {items : List α} {limit count : Nat} (h : items.length ≤ count * limit) :
    ((List.range count).flatMap fun page => piece limit page items) = items ∧
      ∀ page, count ≤ page → piece limit page items = [] := by
  constructor
  · rw [flatMap_piece, List.take_of_length_le h]
  · intro page hpage
    have hbehind : count * limit ≤ page * limit := Nat.mul_le_mul_right limit hpage
    rw [piece, List.drop_eq_nil_of_le (by omega), List.take_nil]

/-! ## Positions -/

/-- The position is one of the page, both products being exact. -/
def HasPosition (limit page : UInt64) (i : Nat) : Prop :=
  page.toNat * limit.toNat ≤ i ∧ i < (page.toNat + 1) * limit.toNat

instance (limit page : UInt64) (i : Nat) : Decidable (HasPosition limit page i) :=
  inferInstanceAs (Decidable (_ ∧ _))

/-- A page holds the items at its positions. -/
theorem cut_eq_filter_hasPosition (limit page : UInt64) (items : List α) :
    cut ⟨some limit, page⟩ items =
      (items.zipIdx.filter fun p => HasPosition limit page p.2).map Prod.fst := by
  have hsame : ∀ i, (page.toNat * limit.toNat ≤ i && i < (page.toNat + 1) * limit.toNat) =
      decide (HasPosition limit page i) := by
    intro i
    rw [Bool.eq_iff_iff, Bool.and_eq_true, decide_eq_true_eq, decide_eq_true_eq, decide_eq_true_eq]
    rfl
  simp only [cut, hsame]

/-- With room for one item at least, a position is on the page that its quotient by the limit names. -/
theorem hasPosition_iff_div {limit : UInt64} (hlimit : 1 ≤ limit) (page : UInt64) (i : Nat) :
    HasPosition limit page i ↔ i / limit.toNat = page.toNat := by
  have hpos : 0 < limit.toNat := UInt64.le_iff_toNat_le.mp hlimit
  rw [HasPosition, ← Nat.le_div_iff_mul_le hpos, ← Nat.div_lt_iff_lt_mul hpos]
  omega

/-- Of the positions of a sequence, the page shows those that it has. -/
theorem mem_run_range {n : Nat} (hn : n < UInt64.size) (limit page : UInt64) (i : Nat) :
    i ∈ run ⟨some limit, page⟩ (List.range n) ↔ i < n ∧ HasPosition limit page i := by
  have hlength : (List.range n).length < UInt64.size := by rwa [List.length_range]
  have hplace : ∀ item position, (List.range n)[position]? = some item ↔
      position < n ∧ position = item := by
    simp [List.getElem?_eq_some_iff]
  simp only [run_eq_cut _ hlength, cut_eq_filter_hasPosition, List.mem_map, List.mem_filter,
    List.mem_zipIdx_iff_getElem?, hplace, decide_eq_true_eq, Prod.exists]
  constructor
  · rintro ⟨_, position, ⟨⟨hlt, rfl⟩, hhas⟩, rfl⟩
    exact ⟨hlt, hhas⟩
  · rintro ⟨hlt, hhas⟩
    exact ⟨i, i, ⟨⟨hlt, rfl⟩, hhas⟩, rfl⟩

/-- **The pages of a sequence.**  A page has the items at its exact positions, whatever the limit and
the page.  With room for one item at least, different pages have no position in common, and every
position is on exactly one page. -/
theorem pages_partition {items : List α} (hlength : items.length < UInt64.size) (limit : UInt64) :
    (∀ page : UInt64, run ⟨some limit, page⟩ items =
      (items.zipIdx.filter fun p => HasPosition limit page p.2).map Prod.fst) ∧
    (1 ≤ limit →
      (∀ p q : UInt64, p ≠ q → List.Disjoint (run ⟨some limit, p⟩ (List.range items.length))
        (run ⟨some limit, q⟩ (List.range items.length))) ∧
      ∀ i < items.length, ∃! page : UInt64,
        i ∈ run ⟨some limit, page⟩ (List.range items.length)) := by
  refine ⟨fun page => ?_, fun hlimit => ⟨fun p q hne i hp hq => ?_, fun i hi => ?_⟩⟩
  · rw [run_eq_cut _ hlength, cut_eq_filter_hasPosition]
  · rw [mem_run_range hlength, hasPosition_iff_div hlimit] at hp hq
    exact hne (UInt64.toNat_inj.mp (hp.2.symm.trans hq.2))
  · -- the page is a word, as it is not behind the position
    have hword : i / limit.toNat < UInt64.size :=
      Nat.lt_of_le_of_lt (Nat.div_le_self _ _) (Nat.lt_trans hi hlength)
    have hpage : (UInt64.ofNat (i / limit.toNat)).toNat = i / limit.toNat :=
      UInt64.toNat_ofNat_of_lt' hword
    refine ⟨UInt64.ofNat (i / limit.toNat), ?_, fun page hmem => ?_⟩
    · exact (mem_run_range hlength _ _ _).mpr ⟨hi, (hasPosition_iff_div hlimit _ _).mpr hpage.symm⟩
    · have hhas := ((mem_run_range hlength _ _ _).mp hmem).2
      rw [hasPosition_iff_div hlimit] at hhas
      exact UInt64.toNat_inj.mp (hhas.symm.trans hpage.symm)

/-- Five items on pages of two: the third page has the last one, a page so far behind that its first
position is no word has none, and the last position is on no page but the third. -/
theorem pages_of_five :
    run ⟨some 2, 2⟩ ['a', 'b', 'c', 'd', 'e'] = ['e'] ∧
      run ⟨some 2, 0x8000000000000000⟩ ['a', 'b', 'c', 'd', 'e'] = [] ∧
      ∃! page : UInt64, 4 ∈ run ⟨some 2, page⟩ (List.range 5) := by
  have hlength : ['a', 'b', 'c', 'd', 'e'].length < UInt64.size := by decide
  obtain ⟨hexact, hparts⟩ := pages_partition hlength 2
  refine ⟨?_, ?_, (hparts (by decide)).2 4 (by decide)⟩
  · rw [hexact]
    decide
  · rw [hexact]
    decide

/-- A change to the items does not change which of them are on the page. -/
theorem run_map {β : Type} (w : Window) (g : α → β) (items : List α) :
    w.run (items.map g) = (w.run items).map g := by
  unfold run
  cases w.limit with
  | none => rfl
  | some limit => simp

end ListingQuery.Window
