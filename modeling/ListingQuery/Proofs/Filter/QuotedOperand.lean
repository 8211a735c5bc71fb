import ListingQuery.Proofs.Filter.Written
import ListingQuery.Proofs.Limits

/-!
# Conditions with a quoted operand

An operand between double quotes is data: whatever stands between the quotes, the lexer, the search
for the operator and the removal of the quotes agree on where it begins and ends.

* `Quoted` are the texts of such conditions;
* `Quoted.lexes` is what the lexer makes of them, for each place where blanks can stand;
* `read_quoted` is what the reader of conditions makes of that;
* `quotedOperands_are_data` is the whole of it: no operand changes the structure of a filter.
-/

namespace ListingQuery

namespace Filter

open Token

/-- A text between double quotes. -/
def inQuotes (v : List Char) : List Char :=
  '"' :: (v ++ ['"'])

/-- A condition as it is written with a quoted operand, with or without blanks around the
operator.  The field asks for no type, or for a text. -/
inductive Quoted : Comparison → List Char → Prop
  | mk {field : Field} {op : Operator} {s : Spelling} {front back v : List Char}
      (hfield : field.declaredType = none ∨ field.declaredType = some .str)
      (hs : s ∈ Spelling.all) (hop : s.operator = some op) (hfront : Text.Blanks front)
      (hback : Text.Blanks back) (hv : '"' ∉ v) :
      Quoted ⟨field, op, String.ofList v, .str (String.ofList v)⟩
        (field.name.toList ++ front ++ s.chars ++ back ++ inQuotes v)

end Filter

/-! ## The reader of conditions -/

namespace Comparison

open ListingQuery.Filter

/-- No operator is found between quotes. -/
theorem operatorIn?_inQuotes {v : List Char} (hv : '"' ∉ v) : operatorIn? (inQuotes v) = none :=
  operatorIn?_of_covers (Region.covers_quoted (n := 0) hv rfl)

/-- Taking the quotes off leaves what stands between them. -/
theorem unquote_inQuotes (v : List Char) : unquote (inQuotes v) = (v, true) := by
  have hbetween : Text.between? '"' '"' (inQuotes v) = some v := by
    simp [Text.between?, inQuotes]
  simp [unquote, hbetween]

/-- A text in quotes neither begins nor ends with a blank. -/
theorem framed_inQuotes (v : List Char) : Text.Framed (inQuotes v) := by
  have hquote : Text.isBlank '"' = false := by decide
  constructor
  · intro c rest h
    cases h
    exact hquote
  · intro c rest h
    have hlast : ('"' :: v) ++ ['"'] = rest ++ [c] := h
    have hsame : '"' = c := (List.cons.inj (List.append_inj' hlast rfl).2).1
    rw [← hsame]
    exact hquote

/-- A quoted operand is taken as a text. -/
theorem operandValue?_quoted {field : Field} (op : Operator) (v : List Char)
    (hfield : field.declaredType = none ∨ field.declaredType = some .str) :
    operandValue? field op v true = some (.str (String.ofList v)) := by
  rcases hfield with hnone | hstr
  · simp [operandValue?, hnone]
  · simp [operandValue?, hstr, Value.castTo?]

/-- A condition with a quoted operand is read as it stands, however many words it has. -/
theorem read_quoted {field : Field} {op : Operator} {s : Spelling} {front back v : List Char}
    (hfield : field.declaredType = none ∨ field.declaredType = some .str)
    (hs : s ∈ Spelling.all) (hop : s.operator = some op) (hfront : Text.Blanks front)
    (hback : Text.Blanks back) (hv : '"' ∉ v) (words : Nat) :
    Comparison.read (field.name.toList ++ front ++ s.chars ++ back ++ inQuotes v) words =
      .ok ⟨field, op, String.ofList v, .str (String.ofList v)⟩ := by
  have hname := field.ofName?_trim_name hfront
  have hat : Spelling.at? (s.chars ++ (back ++ inQuotes v)) = some s := by
    cases back with
    | nil => exact Spelling.at?_chars_append hs (by decide) _
    | cons c back =>
        exact Spelling.at?_chars_append hs
          (Region.silent_of_isBlank (hback c List.mem_cons_self)).2.2 _
  have hcut : operatorIn? (field.name.toList ++ front ++ s.chars ++ back ++ inQuotes v) =
      some (field.name.toList ++ front, s, back ++ inQuotes v) := by
    rw [List.append_assoc, List.append_assoc]
    exact operatorIn?_behind_name field hfront hat
  have hoperand : Text.trim (back ++ inQuotes v) = inQuotes v := by
    have htrim := (framed_inQuotes v).trim (by simp [inQuotes]) hback Text.blanks_nil
    rwa [List.append_nil] at htrim
  unfold Comparison.read
  simp only [hcut, hop, hname, hoperand, operatorIn?_inQuotes hv,
    unquote_inQuotes, operandValue?_quoted op v hfield]
  simp

end Comparison

/-! ## The lexer -/

namespace Filter

open Token

/-- A word with a text in quotes behind it is no connective. -/
theorem ofWord_inQuotes (w v : List Char) :
    ofWord (w ++ inQuotes v) = fragment (w ++ inQuotes v) 1 :=
  ofWord_of_mem (c := '"') (by simp [inQuotes]) (by decide)

/-- No keyword has a character of an operator. -/
theorem asciiLower_not_keyword {c : Char} (hc : c ∈ Spelling.starts) :
    Text.asciiLower c ∉ keywordLetters := by
  have hletters : Spelling.starts.all (fun c => !keywordLetters.contains (Text.asciiLower c)) =
      true := by decide
  have hother := List.all_eq_true.mp hletters c hc
  rwa [Bool.not_eq_true', ← Bool.not_eq_true, List.contains_iff_mem] at hother

/-- A word with an operator in it is no connective. -/
theorem ofWord_spelling_append {s : Spelling} (hs : s ∈ Spelling.all) (w v : List Char) :
    ofWord (w ++ s.chars ++ v) = fragment (w ++ s.chars ++ v) 1 := by
  obtain ⟨c, cs, hchars⟩ := List.exists_cons_of_ne_nil (Spelling.chars_ne_nil s hs)
  have hstart := Spelling.mem_starts_of_mem_chars s hs c (by simp [hchars])
  exact ofWord_of_mem (c := c) (by simp [hchars]) (asciiLower_not_keyword hstart)

/-- A word with an operator behind it is no connective. -/
theorem ofWord_spelling {s : Spelling} (hs : s ∈ Spelling.all) (w : List Char) :
    ofWord (w ++ s.chars) = fragment (w ++ s.chars) 1 := by
  have hword := ofWord_spelling_append hs w []
  rwa [List.append_nil] at hword

/-- Where a quote may open, a text in quotes is taken into the word as a whole. -/
theorem scan_inQuotes {v : List Char} (hv : '"' ∉ v) {word : List Char}
    (hopens : Region.opensQuote word false = true) (rest : List Char) (out : List Token) :
    scan .outside word out (inQuotes v ++ rest) =
      scan .outside ((inQuotes v).reverse ++ word) out rest := by
  have hscan := scan_quoted hv hopens rest out
  simpa [inQuotes] using hscan

/-- A text in quotes is one token. -/
theorem scans_inQuotes {v : List Char} (hv : '"' ∉ v) :
    Scans (inQuotes v) [fragment (inQuotes v) 1] := by
  have hword : ofWord (inQuotes v) = fragment (inQuotes v) 1 := ofWord_inQuotes [] v
  rw [← hword]
  refine scans_word (by simp [inQuotes]) fun rest out => ?_
  have hscan := scan_inQuotes hv opensQuote_nil rest out
  rwa [List.append_nil] at hscan

/-- Letters with an operator behind them are collected as they stand. -/
theorem scan_letters_spelling {w : List Char} (hw : ∀ c ∈ w, IsLetter c) {s : Spelling}
    (hs : s ∈ Spelling.all) (rest : List Char) (out : List Token) :
    scan .outside [] out (w ++ s.chars ++ rest) =
      scan .outside (w ++ s.chars).reverse out rest := by
  rw [List.append_assoc, scan_plain (fun c hc => isPlain_of_isLetter (hw c hc)),
    scan_spelling hs]
  simp

/-- Letters with an operator behind them, and an operator alone, are one word. -/
theorem scans_letters_spelling {w : List Char} (hw : ∀ c ∈ w, IsLetter c) {s : Spelling}
    (hs : s ∈ Spelling.all) : Scans (w ++ s.chars) [fragment (w ++ s.chars) 1] := by
  rw [← ofWord_spelling hs]
  have hne : w ++ s.chars ≠ [] := by simp [Spelling.chars_ne_nil s hs]
  exact scans_word hne fun rest out => scan_letters_spelling hw hs rest out

theorem scans_spelling {s : Spelling} (hs : s ∈ Spelling.all) :
    Scans s.chars [fragment s.chars 1] :=
  scans_letters_spelling (w := []) (by simp) hs

/-- The operator and the operand, with the name in front of them if no blank stands between: they
are one word or two. -/
theorem scans_operand {w : List Char} (hw : ∀ c ∈ w, IsLetter c) {s : Spelling}
    (hs : s ∈ Spelling.all) {back v : List Char} (hback : Text.Blanks back) (hv : '"' ∉ v) :
    ∃ u us gap, Text.Blanks gap ∧ merged u us = w ++ s.chars ++ gap ++ inQuotes v ∧
      Scans (w ++ s.chars ++ back ++ inQuotes v) ((u :: us).map (fragment · 1)) := by
  have hchars := Spelling.chars_ne_nil s hs
  by_cases hne : back = []
  · subst hne
    refine ⟨w ++ s.chars ++ inQuotes v, [], [], Text.blanks_nil, by simp [merged], ?_⟩
    rw [List.append_nil, List.map_singleton, ← ofWord_inQuotes]
    refine scans_word (by simp [hchars]) fun rest out => ?_
    have hopens := opensQuote_spelling hs w.reverse
    rw [← List.reverse_append] at hopens
    rw [List.append_assoc, scan_letters_spelling hw hs, scan_inQuotes hv hopens]
    simp
  · refine ⟨w ++ s.chars, [inQuotes v], [' '], Text.blanks_space, by simp [merged], ?_⟩
    have hscans := (scans_letters_spelling hw hs).append_gap (scans_inQuotes hv) hback hne
    rwa [← List.append_assoc] at hscans

/-- A condition with a quoted operand is one token, whose text has the parts of the condition in
their order and at most single blanks between them. -/
theorem Quoted.lexes {c : Comparison} {cs : List Char} (h : Quoted c cs) :
    ∃ text words, Lexes cs [.fragment text words] ∧ Comparison.read text words = .ok c := by
  obtain @⟨field, op, s, front, back, v, hfield, hs, hop, hfront, hback, hv⟩ := h
  by_cases hne : front = []
  · subst hne
    obtain ⟨u, us, gap, hgap, hmerged, hscans⟩ :=
      scans_operand field.isLetter_of_mem_name hs hback hv
    refine ⟨_, _, lexes_words (by rwa [List.append_nil]), ?_⟩
    have hread := Comparison.read_quoted hfield hs hop Text.blanks_nil hgap hv (us.length + 1)
    rwa [List.append_nil, ← hmerged] at hread
  · have hnone : ∀ c ∈ ([] : List Char), IsLetter c := by
      intro c hc
      cases hc
    obtain ⟨u, us, gap, hgap, hmerged, hscans⟩ := scans_operand hnone hs hback hv
    have hall := field.scans_name.append_gap hscans hfront hne
    have hread := Comparison.read_quoted hfield hs hop Text.blanks_space hgap hv
      ((u :: us).length + 1)
    have hwords : Scans (field.name.toList ++ front ++ s.chars ++ back ++ inQuotes v)
        ((field.name.toList :: u :: us).map (fragment · 1)) := by simpa using hall
    exact ⟨_, _, lexes_words hwords, by simpa [merged, hmerged] using hread⟩

/-- Conditions with quoted operands are read wherever they stand. -/
theorem readsLeaves_quoted : ReadsLeaves Quoted := by
  refine ⟨fun c cs h => ?_, fun c cs h => h.lexes⟩
  obtain @⟨field, op, s, front, back, v, hfield, hs, hop, hfront, hback, hv⟩ := h
  obtain ⟨d, name, hname⟩ := List.exists_cons_of_ne_nil field.name_ne_nil
  have hletter := field.isLetter_of_mem_name d (by simp [hname])
  rw [hname]
  exact startsPlainly_of_isLetter hletter (name ++ front ++ s.chars ++ back ++ inQuotes v)

/-! ## Filters -/

/-- **Quoted operands are data.**  A filter that is written with parentheses around every
conjunction and disjunction, and with quoted operands, is read as exactly that filter, whatever
stands between the quotes.  The limits have to leave room for it: for its text, for its leaves, for
its runs of negations, and for its nesting, which is its height, since every negation, conjunction
and disjunction takes one level. -/
theorem quotedOperands_are_data {f : Filter} {cs : List Char} (h : Writes Quoted f cs)
    {limits : Limits}
    (hlength : (String.ofList cs).utf8ByteSize ≤
      min limits.filterLength.toNat Limits.maxFilterLength.toNat)
    (hheight : f.height ≤ min limits.filterDepth.toNat Limits.maxFilterDepth.toNat)
    (hrun : f.negationRun ≤ min limits.negationRun.toNat Limits.maxNegationRun.toNat)
    (hleaves : f.leaves.length ≤
      min limits.filterLeaves.toNat Limits.maxFilterLeaves.toNat) :
    read (String.ofList cs) limits = .ok f := by
  rw [← Limits.clamped_filterLength] at hlength
  rw [← Limits.clamped_filterDepth] at hheight
  rw [← Limits.clamped_negationRun] at hrun
  rw [← Limits.clamped_filterLeaves] at hleaves
  exact h.read readsLeaves_quoted hlength hheight hrun hleaves

/-- An operand that looks like the rest of a filter, and an empty one. -/
theorem read_lookalike_operand :
    read "NOT (ort == \") or [plz!='\" AND plz!=\"\")" Limits.standard =
      .ok (.not (.and [.test ⟨.ort, .eq, ") or [plz!='", .str ") or [plz!='"⟩,
        .test ⟨.plz, .ne, "", .str ""⟩])) := by
  have hort := Quoted.mk (s := ⟨['=', '='], some .eq⟩) (v := ") or [plz!='".toList)
    (Or.inl (rfl : Field.ort.declaredType = none)) (by decide) rfl Text.blanks_space
    Text.blanks_space (by decide)
  have hplz := Quoted.mk (s := ⟨['!', '='], some .ne⟩) (v := [])
    (Or.inr (rfl : Field.plz.declaredType = some .str)) (by decide) rfl Text.blanks_nil
    Text.blanks_nil (by decide)
  have hsigns : ∀ o ∈ [Clause.mk " AND ".toList (.test ⟨.plz, .ne, "", .str ""⟩)
      "plz!=\"\"".toList], Connective.conjunction.Written o.sign := by
    intro o ho
    rw [List.mem_singleton.mp ho]
    exact .word (w := ['A', 'N', 'D']) (by decide) Text.blanks_space (by simp)
      Text.blanks_space (by simp)
  have hothers : ∀ o ∈ [Clause.mk " AND ".toList (.test ⟨.plz, .ne, "", .str ""⟩)
      "plz!=\"\"".toList], Writes Quoted o.filter o.text := by
    intro o ho
    rw [List.mem_singleton.mp ho]
    exact .test hplz
  have hall := Writes.not (w := ['N', 'O', 'T']) (by decide) Text.blanks_space (Or.inr rfl)
    (.joined .conjunction (.test hort) (by simp) hsigns hothers)
  exact quotedOperands_are_data hall (by decide +kernel) (by decide) (by decide) (by decide)

end Filter

end ListingQuery
