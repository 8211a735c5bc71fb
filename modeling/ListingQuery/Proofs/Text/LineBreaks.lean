import Mathlib.Algebra.GroupWithZero.Nat
import Mathlib.Data.List.Forall2
import ListingQuery.Text.Quoted

/-!
# Line breaks

A text that is written line by line ends every line with a line break.  It is read as the same lines as
long as no line has a line break in it, and then there are as many lines as line breaks.

* `breaks` counts the line breaks of a text, and `breaks_quoted` says that a quoted text has none;
* `LinesUnder` are the texts that are read as lines with given headings, and `LinesUnder.breaks_eq`
  counts their line breaks.
-/

namespace ListingQuery.Text

/-- The number of line breaks in a text. -/
def breaks (cs : List Char) : Nat :=
  cs.count '\n'

/-- A text has no line breaks exactly if the character is not in it. -/
theorem breaks_eq_zero_iff {cs : List Char} : breaks cs = 0 ↔ '\n' ∉ cs :=
  List.count_eq_zero

@[simp] theorem breaks_nil : breaks [] = 0 := rfl

@[simp] theorem breaks_append (as cs : List Char) : breaks (as ++ cs) = breaks as + breaks cs :=
  List.count_append

@[simp] theorem breaks_cons_of_ne {c : Char} (h : c ≠ '\n') (cs : List Char) :
    breaks (c :: cs) = breaks cs :=
  List.count_cons_of_ne h

/-- The line breaks of texts one after the other are added. -/
theorem breaks_flatMap {α : Type} (f : α → List Char) (as : List α) :
    breaks (as.flatMap f) = (as.map fun a => breaks (f a)).sum :=
  List.count_flatMap

/-- Several texts have no line break if there is none in them and none between them. -/
theorem breaks_intercalate {sep : List Char} (hsep : breaks sep = 0) {items : List (List Char)}
    (hitems : ∀ item ∈ items, breaks item = 0) : breaks (sep.intercalate items) = 0 := by
  induction items with
  | nil => rfl
  | cons item items ih =>
      obtain ⟨hitem, hitems⟩ := List.forall_mem_cons.mp hitems
      cases items with
      | nil => rwa [List.intercalate_singleton]
      | cons next items =>
          rw [List.intercalate_cons_cons, breaks_append, breaks_append, hitem, hsep, ih hitems]

/-! ## Quoted texts -/

theorem digitChar_ne_newline {n : Nat} (h : n < 16) : n.digitChar ≠ '\n' := by
  revert n
  decide

/-- A number in hexadecimal digits is on one line. -/
theorem breaks_hexDigits (n : Nat) : breaks (hexDigits n) = 0 := by
  unfold hexDigits
  induction n using Nat.strongRecOn with
  | ind n ih =>
      rw [Nat.toDigits_eq_if (by decide)]
      split
      · rename_i hlt
        simp [digitChar_ne_newline hlt]
      · rw [breaks_append, ih (n / 16) (by omega)]
        simp [digitChar_ne_newline (Nat.mod_lt n (by decide))]

/-- A line break is escaped, and no other character is shown as one. -/
theorem breaks_escapeOne (c : Char) : breaks (escapeOne c) = 0 := by
  by_cases hc : c = '\n'
  · rw [hc]
    rfl
  · unfold escapeOne
    repeat' split
    all_goals simp [hc, breaks_hexDigits]

/-- **A quoted text** has no line breaks. -/
theorem breaks_quoted (cs : List Char) : breaks (quoted cs) = 0 := by
  have hescaped : breaks (cs.flatMap escapeOne) = 0 := by
    rw [breaks_flatMap, List.sum_eq_zero_iff_forall_eq_nat, List.forall_mem_map]
    exact fun c _ => breaks_escapeOne c
  simp [quoted, hescaped]

/-! ## Lines -/

/-- A line begins with its heading. -/
def Heads (heading line : String) : Prop :=
  heading.toList <+: line.toList

instance (heading line : String) : Decidable (Heads heading line) :=
  inferInstanceAs (Decidable (heading.toList <+: line.toList))

/-- A line that begins with its heading has it. -/
theorem heads_append (heading rest : String) : Heads heading (heading ++ rest) := by
  rw [Heads, String.toList_append]
  exact List.prefix_append _ _

/-- The text is one line for every heading, in their order: the lines begin with the headings, have no
line break in them, and are ended by one each. -/
def LinesUnder (headings : List String) (text : String) : Prop :=
  ∃ lines : List String, text = String.join (lines.map (· ++ "\n")) ∧
    (∀ line ∈ lines, '\n' ∉ line.toList) ∧ List.Forall₂ Heads headings lines

/-- Every line adds a line break to its own. -/
theorem breaks_lines (lines : List String) :
    breaks (String.join (lines.map (· ++ "\n"))).toList =
      lines.length + (lines.map fun line => breaks line.toList).sum := by
  have hend : breaks "\n".toList = 1 := by decide
  rw [String.toList_join, List.flatMap_map, breaks_flatMap]
  simp only [String.toList_append, breaks_append, hend]
  induction lines with
  | nil => rfl
  | cons line lines ih =>
      simp only [List.map_cons, List.sum_cons, List.length_cons, ih]
      omega

/-- There are as many line breaks as headings. -/
theorem LinesUnder.breaks_eq {headings : List String} {text : String}
    (h : LinesUnder headings text) : breaks text.toList = headings.length := by
  obtain ⟨lines, rfl, hlines, hheadings⟩ := h
  have hnone : (lines.map fun line => breaks line.toList).sum = 0 := by
    rw [List.sum_eq_zero_iff_forall_eq_nat, List.forall_mem_map]
    exact fun line hline => breaks_eq_zero_iff.mpr (hlines line hline)
  rw [breaks_lines, hnone, Nat.add_zero, hheadings.length_eq]

end ListingQuery.Text
