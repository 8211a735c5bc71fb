import ListingQuery.Proofs.Filter.Words
import ListingQuery.Proofs.FirstFailure
import ListingQuery.SortOrder

/-!
# Orders as they are written

An order is written as its keys with commas between them, each a field and a direction with a colon
between.  A text can say the same in other ways: with blanks, in letters of any case, with empty items,
or without the direction.

* `SortKey.read_text_iff` says that a key is read as it was written exactly if its field can be sorted
  by;
* `SortOrder.read_text` says it of the keys of an order, however many and however often;
* `SortOrder.displayed_order_reread` adds that every order that was read is such an order.
-/

namespace ListingQuery

/-! ## Keys -/

namespace SortKey

/-- The direction of a key as it is written. -/
def mode (k : SortKey) : List Char :=
  if k.descending then ['d', 'e', 's', 'c'] else ['a', 's', 'c']

/-- The text of a key is its field and its direction with a colon between them. -/
theorem text_eq (k : SortKey) : k.text = k.field.name.toList ++ ':' :: k.mode :=
  rfl

theorem isLetter_of_mem_mode (k : SortKey) : ∀ c ∈ k.mode, Filter.Token.IsLetter c := by
  apply Filter.Token.isLetter_of_all
  unfold mode
  cases k.descending <;> decide

/-- A direction is read as it was written. -/
theorem descending?_mode (k : SortKey) : descending? (some k.mode) = some k.descending := by
  unfold mode
  cases k.descending <;> rfl

theorem trim_mode (k : SortKey) : Text.trim k.mode = k.mode := by
  unfold mode
  cases k.descending <;> decide

/-- There is no comma in the text of a key. -/
theorem comma_not_mem_text (k : SortKey) : ',' ∉ k.text := by
  have hcomma : ¬ Filter.Token.IsLetter ',' := by decide
  simp only [text_eq, List.mem_append, List.mem_cons, not_or]
  exact ⟨fun h => hcomma (k.field.isLetter_of_mem_name _ h), by decide,
    fun h => hcomma (k.isLetter_of_mem_mode _ h)⟩

/-- The text of a key is no empty item. -/
theorem isAllBlank_text (k : SortKey) : Text.isAllBlank k.text = false := by
  refine List.all_eq_false.mpr ⟨':', ?_, by decide⟩
  simp [text_eq]

/-- The name and the direction of a key are cut at its colon. -/
theorem cut?_text (k : SortKey) :
    Text.cut? (· == ':') k.text = some (k.field.name.toList, k.mode) := by
  have hcolon : ':' ∉ k.field.name.toList := fun h =>
    absurd (k.field.isLetter_of_mem_name _ h) (by decide)
  exact Text.cut?_of_not_mem hcolon k.mode

/-- The keys of a text can be sorted by. -/
theorem isSortable_of_read {cs : List Char} {k : SortKey} (h : read cs = .ok k) :
    k.field.isSortable = true := by
  unfold read at h
  split at h
  rename_i name mode _
  cases hfield : Field.ofName? name with
  | none => simp [hfield] at h
  | some field =>
      by_cases hsortable : field.isSortable = true
      · cases hmode : descending? mode with
        | none => simp [hfield, hsortable, hmode] at h
        | some descending =>
            simp only [hfield, hsortable, hmode, Bool.not_true, Bool.false_eq_true, if_false,
              Except.ok.injEq] at h
            rw [← h]
            exact hsortable
      · simp [hfield, hsortable] at h

/-- **A key is read as it was written** exactly if its field can be sorted by. -/
theorem read_text_iff {k : SortKey} : read k.text = .ok k ↔ k.field.isSortable = true := by
  refine ⟨isSortable_of_read, fun hsortable => ?_⟩
  have hname := k.field.ofName?_trim_name Text.blanks_nil
  rw [List.append_nil] at hname
  simp only [read, k.cut?_text, hname, hsortable, k.trim_mode, k.descending?_mode, Bool.not_true,
    Bool.false_eq_true, if_false]

end SortKey

/-! ## Orders -/

namespace SortOrder

/-- The texts of keys have commas between them. -/
theorem keysText_eq (keys : List SortKey) :
    keysText keys = [','].intercalate (keys.map SortKey.text) := by
  induction keys with
  | nil => rfl
  | cons k keys ih =>
      cases keys with
      | nil => simp [keysText]
      | cons l keys => simp [keysText, ih]

/-- The items of an order are the texts of its keys; without keys there is an empty item. -/
theorem items_text (s : SortOrder) :
    (s.text.splitOn ',').filter (fun item => !Text.isAllBlank item) = s.keys.map SortKey.text := by
  rw [text, keysText_eq]
  by_cases hkeys : s.keys = []
  · simp [hkeys, Text.isAllBlank]
  · have hcomma : ∀ item ∈ s.keys.map SortKey.text, ',' ∉ item := by
      intro item hitem
      obtain ⟨k, -, rfl⟩ := List.mem_map.mp hitem
      exact k.comma_not_mem_text
    have hwritten : ∀ item ∈ s.keys.map SortKey.text, (!Text.isAllBlank item) = true := by
      intro item hitem
      obtain ⟨k, -, rfl⟩ := List.mem_map.mp hitem
      rw [k.isAllBlank_text, Bool.not_false]
    rw [List.splitOn_intercalate ',' hcomma (by simpa using hkeys),
      List.filter_eq_self.mpr hwritten]

/-- **An order is read as it was written** if all its fields can be sorted by. -/
theorem read_text {s : SortOrder} (h : ∀ k ∈ s.keys, k.field.isSortable = true) :
    read (String.ofList s.text) = .ok s := by
  have hkeys : ∀ k ∈ s.keys, SortKey.read k.text = .ok (id k) := fun k hk =>
    SortKey.read_text_iff.mpr (h k hk)
  rw [read, String.toList_ofList, items_text, traverse_map, traverse_of_ok hkeys, List.map_id]
  rfl

/-- The keys that are read can be sorted by. -/
theorem isSortable_of_read {source : String} {s : SortOrder} (h : read source = .ok s) :
    ∀ k ∈ s.keys, k.field.isSortable = true := by
  unfold read at h
  cases hkeys : QueryError.traverse SortKey.read
      ((source.toList.splitOn ',').filter fun item => !Text.isAllBlank item) with
  | error e => simp [hkeys, Except.map] at h
  | ok keys =>
      simp only [hkeys, Except.map, Except.ok.injEq] at h
      subst h
      intro k hk
      obtain ⟨cs, _, hread⟩ := exists_of_mem_traverse hkeys hk
      exact SortKey.isSortable_of_read hread

/-- **Displayed orders are read again as themselves.**  Any keys whose fields can be sorted by are read
from their displayed text, in their order and as often as they are there.  Whatever text was read as
an order, its fields can be sorted by, and the displayed text of the order is read as the same
order. -/
theorem displayed_order_reread :
    (∀ s : SortOrder, (∀ k ∈ s.keys, k.field.isSortable = true) →
      read (String.ofList s.text) = .ok s) ∧
    ∀ (source : String) (s : SortOrder), read source = .ok s →
      read (String.ofList s.text) = .ok s ∧ ∀ k ∈ s.keys, k.field.isSortable = true := by
  refine ⟨fun s => read_text, fun source s hread => ?_⟩
  have hsortable := isSortable_of_read hread
  exact ⟨read_text hsortable, hsortable⟩

/-- By rent, then by rooms downwards, then by rent again. -/
def rentRoomsRent : SortOrder :=
  ⟨[⟨.kaltmiete, false⟩, ⟨.zimmer, true⟩, ⟨.kaltmiete, false⟩]⟩

/-- It can be written with blanks, capitals and empty items, and is displayed without them. -/
theorem rentRoomsRent_reread :
    read " kaltmiete,, zimmer : DESC ,kaltmiete:Asc," = .ok rentRoomsRent ∧
      rentRoomsRent.text = "kaltmiete:asc,zimmer:desc,kaltmiete:asc".toList ∧
      read (String.ofList rentRoomsRent.text) = .ok rentRoomsRent := by
  have hread : read " kaltmiete,, zimmer : DESC ,kaltmiete:Asc," = .ok rentRoomsRent := by
    rfl
  exact ⟨hread, by decide +kernel, (displayed_order_reread.2 _ _ hread).1⟩

end SortOrder

end ListingQuery
