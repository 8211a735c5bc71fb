import ListingQuery.Proofs.Calendar.MomentText
import ListingQuery.Proofs.Filter.PlainItems
import ListingQuery.Proofs.Json.Unambiguous
import ListingQuery.Value.Cast

/-!
# Values read from their texts

Without a type to go by, a text is the first of several kinds of value that it can be.  The text of an
integer, a truth value or a moment is not taken for a kind that is tried before: a truth value has a
letter that no number has, and a moment has a colon, whatever its year.  None of these texts has a
bracket, a semicolon or a blank, so that a list of them is cut where its items end.

* `Value.IsPlain` are the values in question;
* `Value.inferScalar_text` is for single values, and `Value.cast_text` for lists, too.
-/

namespace ListingQuery

namespace Decimal

/-- An integer has no other characters than a number. -/
theorem inNumber_of_int64? {cs : List Char} {i : Int64} (h : int64? cs = some i) :
    ∀ c ∈ cs, Json.InNumber c := by
  obtain ⟨n, hn, -⟩ := Option.bind_eq_some_iff.mp h
  unfold int? at hn
  split at hn
  · rename_i digits
    cases hdigits : plain? digits with
    | none => simp [hdigits] at hn
    | some m => exact List.forall_mem_cons.mpr ⟨by decide, Json.inNumber_of_plain? hdigits⟩
  · obtain ⟨m, hm, -⟩ := Option.map_eq_some_iff.mp hn
    unfold nat? at hm
    split at hm
    · exact List.forall_mem_cons.mpr ⟨by decide, Json.inNumber_of_plain? hm⟩
    · exact Json.inNumber_of_plain? hm

end Decimal

namespace Numeral

/-- What is read as a finite number is a numeral. -/
theorem exists_read?_of_finite? {cs : List Char} {x : Binary64} (h : finite? cs = some x) :
    ∃ n, read? cs = some n := by
  unfold finite? at h
  split at h
  · cases h
  · exact ⟨_, ‹_›⟩

end Numeral

/-- There is a colon in every moment. -/
theorem Moment.colon_mem_text (m : Moment) : ':' ∈ m.text := by
  simp [Moment.text, TimeOfDay.text]

namespace Value

/-- A single value whose text tells it: an integer, a truth value, or a moment of whole seconds that is
no leap second. -/
def IsPlainScalar : Value → Prop
  | .int _ | .bool _ => True
  | .date m => m.time.nanosecond = 0
  | .float _ | .str _ | .list _ => False

/-- Such a value, or a list of them. -/
def IsPlain : Value → Prop
  | .list items => ∀ v ∈ items, v.IsPlainScalar
  | v => v.IsPlainScalar

/-! ## Single values -/

/-- A text with a colon is not taken for a number. -/
theorem not_number_of_colon {cs : List Char} (h : ':' ∈ cs) :
    Decimal.int64? cs = none ∧ Numeral.finite? cs = none := by
  have hcolon : ¬ Json.InNumber ':' := by decide
  constructor
  · refine Option.eq_none_iff_forall_ne_some.mpr fun i hi => ?_
    exact hcolon (Decimal.inNumber_of_int64? hi ':' h)
  · refine Option.eq_none_iff_forall_ne_some.mpr fun x hx => ?_
    obtain ⟨n, hn⟩ := Numeral.exists_read?_of_finite? hx
    exact hcolon (Numeral.inNumber_of_read? hn ':' h)

/-- A text with a colon is not taken for a truth value. -/
theorem not_bool_of_colon {cs : List Char} (h : ':' ∈ cs) : readBool? cs = none := by
  have hletters : ∀ word : List Char, ':' ∉ word.map Text.asciiLower →
      Text.sameLetters cs word = false := by
    intro word hword
    refine beq_eq_false_iff_ne.mpr fun hsame => hword ?_
    rw [← hsame]
    exact List.mem_map.mpr ⟨':', h, by decide⟩
  rw [readBool?, hletters _ (by decide), hletters _ (by decide)]
  rfl

/-- **A single value is read from its text.** -/
theorem inferScalar_text {v : Value} (h : v.IsPlainScalar) : inferScalar v.text = v := by
  cases v with
  | int i =>
      simp only [text, inferScalar, Decimal.int64?_ofInt64]
  | bool b => cases b <;> decide +kernel
  | date m =>
      obtain ⟨hint, hfloat⟩ := not_number_of_colon m.colon_mem_text
      simp only [text, inferScalar, hint, hfloat, not_bool_of_colon m.colon_mem_text,
        Moment.read?_text h]
  | float x => exact h.elim
  | str s => exact h.elim
  | list items => exact h.elim

/-! ## Lists -/

/-- The texts of the items of a list, with semicolons between them. -/
theorem itemsText_eq (items : List Value) :
    itemsText items = List.intercalate [';'] (items.map text) := by
  induction items with
  | nil => rfl
  | cons v rest ih =>
      cases rest with
      | nil => simp [itemsText]
      | cons w rest => simp [itemsText, ih]

/-- A character of an integer, a truth value or a moment. -/
def InPlainText (c : Char) : Prop :=
  Decimal.isDigit c = true ∨ c ∈ ['-', '+', ':', 'T', 't', 'r', 'u', 'e', 'f', 'a', 'l', 's']

instance (c : Char) : Decidable (InPlainText c) :=
  inferInstanceAs (Decidable (_ ∨ _))

/-- None of these characters is a blank, and none has a meaning in a list. -/
theorem not_marked_of_inPlainText {c : Char} (h : InPlainText c) : Text.isBlank c = false ∧
    c ∉ ['"', '\'', '(', ')', '[', ']', ';', '&', '|', '!'] := by
  rcases h with hdigit | hmem
  · refine ⟨Decimal.isBlank_of_isDigit hdigit, fun hmark => ?_⟩
    have hmarks : ['"', '\'', '(', ')', '[', ']', ';', '&', '|', '!'].all
        (fun d => !Decimal.isDigit d) = true := by decide
    have hother := List.all_eq_true.mp hmarks c hmark
    rw [hdigit] at hother
    cases hother
  · have hmarks : ['-', '+', ':', 'T', 't', 'r', 'u', 'e', 'f', 'a', 'l', 's'].all (fun d =>
        !Text.isBlank d && !(['"', '\'', '(', ')', '[', ']', ';', '&', '|', '!'].contains d)) =
          true := by decide
    simpa using List.all_eq_true.mp hmarks c hmem

/-- A padded number consists of characters of plain texts. -/
theorem inPlainText_padded (w n : Nat) : ∀ c ∈ Decimal.padded w n, InPlainText c :=
  fun c hc => Or.inl (Decimal.isDigit_of_mem_padded w n c hc)

/-- A year consists of characters of plain texts. -/
theorem inPlainText_yearText (y : Int) : ∀ c ∈ yearText y, InPlainText c := by
  unfold yearText
  split
  · exact inPlainText_padded 4 y.natAbs
  · refine List.forall_mem_cons.mpr ⟨?_, inPlainText_padded 4 y.natAbs⟩
    split <;> decide

/-- The text of a plain value consists of characters of plain texts. -/
theorem inPlainText_text {v : Value} (h : v.IsPlainScalar) : ∀ c ∈ v.text, InPlainText c := by
  cases v with
  | int i =>
      intro c hc
      rcases Decimal.mem_ofInt hc with rfl | hdigit
      · decide
      · exact Or.inl hdigit
  | bool b =>
      have hletters : ∀ b : Bool, (text (.bool b)).all (fun d => decide (InPlainText d)) = true := by
        decide
      intro c hc
      exact of_decide_eq_true (List.all_eq_true.mp (hletters b) c hc)
  | date m =>
      have hnumber := inPlainText_padded 2
      simp only [text, Moment.text, Date.text, TimeOfDay.text, List.forall_mem_append,
        List.forall_mem_cons]
      exact ⟨⟨⟨inPlainText_yearText _, by decide, hnumber _⟩, by decide, hnumber _⟩, by decide,
        ⟨hnumber _, by decide, hnumber _⟩, by decide, hnumber _⟩
  | float x => exact h.elim
  | str s => exact h.elim
  | list items => exact h.elim

/-- The text of a plain value can be an item. -/
theorem itemWord_text {v : Value} (h : v.IsPlainScalar) : Filter.ItemWord v.text where
  ne_nil := by
    intro hnil
    have hread := inferScalar_text h
    have hempty : inferScalar [] = .str "" := by decide +kernel
    rw [hnil, hempty] at hread
    subst hread
    exact h
  not_marked := fun c hc => not_marked_of_inPlainText (inPlainText_text h c hc)

/-- A single value is no list. -/
theorem infer_text {v : Value} (h : v.IsPlainScalar) : infer v.text = v := by
  rw [infer, (itemWord_text h).between?_eq_none (by decide)]
  exact inferScalar_text h

/-- **Integers, truth values, moments and lists of them are read from their texts.** -/
theorem cast_text {v : Value} (h : v.IsPlain) : cast none v.text = .ok v := by
  refine congrArg Except.ok ?_
  cases v with
  | list items =>
      rw [text, itemsText_eq]
      by_cases hempty : items = []
      · subst hempty
        rfl
      · have hwords : ∀ w ∈ items.map text, Filter.ItemWord w := by
          intro w hw
          obtain ⟨v, hv, rfl⟩ := List.mem_map.mp hw
          exact itemWord_text (h v hv)
        have hvalues : items.map (fun v => inferScalar v.text) = items :=
          (List.map_congr_left fun v hv => inferScalar_text (h v hv)).trans (List.map_id items)
        have hlist := Filter.infer_listOf hwords (by simpa using hempty)
        rw [List.map_map] at hlist
        exact hlist.trans (congrArg list hvalues)
  | int i => exact infer_text h
  | bool b => exact infer_text h
  | date m => exact infer_text h
  | float x => exact infer_text h
  | str s => exact infer_text h

/-- The first instant that a moment can be, the smallest integer, and a truth value. -/
theorem oldest_moment_cast :
    text (.list [.date ⟨⟨-262143, 1, 1, rfl⟩, TimeOfDay.midnight⟩, .int (-9223372036854775808),
        .bool false]) = "[-262143-01-01T00:00:00;-9223372036854775808;false]".toList ∧
      cast none "[-262143-01-01T00:00:00;-9223372036854775808;false]".toList =
        .ok (.list [.date ⟨⟨-262143, 1, 1, rfl⟩, TimeOfDay.midnight⟩, .int (-9223372036854775808),
          .bool false]) := by
  have hplain : IsPlain (.list [.date ⟨⟨-262143, 1, 1, rfl⟩, TimeOfDay.midnight⟩,
      .int (-9223372036854775808), .bool false]) := by
    simp [IsPlain, IsPlainScalar, TimeOfDay.midnight]
  have htext : text (.list [.date ⟨⟨-262143, 1, 1, rfl⟩, TimeOfDay.midnight⟩,
      .int (-9223372036854775808), .bool false]) =
        "[-262143-01-01T00:00:00;-9223372036854775808;false]".toList := by
    decide +kernel
  exact ⟨htext, htext ▸ cast_text hplain⟩

end Value

end ListingQuery
