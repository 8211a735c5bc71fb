import ListingQuery.Proofs.Filter.Joining

/-!
# Keywords and names

The words of a filter are keywords in letters of any case, names of fields, and everything else.

* `ofWord_connective` and `ofWord_not` read keywords, whatever their case;
* `ofWord_of_mem` says that a character which no keyword has makes the word part of a condition;
* the names of the fields consist of letters, none of them is a keyword, and each names one field;
* `Field.silent_of_name` is what the search for an operator has to pass in front of it, and
  `Comparison.operatorIn?_behind_name` the search in a condition.
-/

namespace ListingQuery

namespace Filter.Token

/-! ## Letters -/

/-- A letter, or the underscore between the words of a name. -/
def IsLetter (c : Char) : Prop :=
  65 ≤ c.toNat ∧ c.toNat ≤ 90 ∨ c.toNat = 95 ∨ 97 ≤ c.toNat ∧ c.toNat ≤ 122

instance (c : Char) : Decidable (IsLetter c) :=
  inferInstanceAs (Decidable (_ ∨ _))

/-- The letters of a word can be checked one after the other. -/
theorem isLetter_of_all {w : List Char} (h : w.all (fun c => decide (IsLetter c)) = true) :
    ∀ c ∈ w, IsLetter c :=
  fun c hc => of_decide_eq_true (List.all_eq_true.mp h c hc)

theorem not_isBlank_of_isLetter {c : Char} (hc : IsLetter c) : Text.isBlank c = false := by
  unfold IsLetter at hc
  simp [Text.isBlank]
  omega

/-- A letter is neither a quote nor a mark, and begins no operator. -/
theorem not_mem_marks_of_isLetter {c : Char} (hc : IsLetter c) :
    Region.isQuote c = false ∧ c ∉ marks ∧ c ∉ Spelling.starts := by
  have hall : ('"' :: '\'' :: (marks ++ Spelling.starts)).all (fun d => !decide (IsLetter d)) =
      true := by decide
  have hnot : c ∉ '"' :: '\'' :: (marks ++ Spelling.starts) := by
    intro hmem
    have hother := List.all_eq_true.mp hall c hmem
    simp [hc] at hother
  simp only [List.mem_cons, List.mem_append, not_or] at hnot
  obtain ⟨hdouble, hsingle, hmarks, hstart⟩ := hnot
  exact ⟨by simp [Region.isQuote, hdouble, hsingle], hmarks, hstart⟩

theorem isPlain_of_isLetter {c : Char} (hc : IsLetter c) : isPlain c = true := by
  obtain ⟨hquote, hmarks, _⟩ := not_mem_marks_of_isLetter hc
  simp [isPlain, hquote, hmarks, not_isBlank_of_isLetter hc]

theorem silent_of_isLetter {c : Char} (hc : IsLetter c) : Region.Silent c := by
  obtain ⟨hquote, hmarks, hstart⟩ := not_mem_marks_of_isLetter hc
  refine ⟨hquote, ?_, hstart⟩
  rintro rfl
  exact hmarks (by decide)

/-- A word in letters of any case has the letters of the word. -/
theorem map_asciiLower_of_sameLetters {w k : List Char} (h : Text.sameLetters w k = true) :
    w.map Text.asciiLower = k.map Text.asciiLower :=
  beq_iff_eq.mp h

/-- What is a letter in lower case is a letter. -/
theorem isLetter_of_asciiLower {c : Char}
    (hc : 97 ≤ (Text.asciiLower c).toNat ∧ (Text.asciiLower c).toNat ≤ 122) : IsLetter c := by
  unfold Text.asciiLower at hc
  split at hc
  · rename_i hcapital
    exact Or.inl hcapital
  · exact Or.inr (Or.inr hc)

/-- A word that has the letters of a keyword has nothing but letters. -/
theorem isLetter_of_sameLetters {w k : List Char}
    (hk : k.all (fun c => 97 ≤ (Text.asciiLower c).toNat && (Text.asciiLower c).toNat ≤ 122) = true)
    (h : Text.sameLetters w k = true) : ∀ c ∈ w, IsLetter c := by
  intro c hc
  have hmem : Text.asciiLower c ∈ k.map Text.asciiLower :=
    map_asciiLower_of_sameLetters h ▸ List.mem_map_of_mem hc
  obtain ⟨d, hd, hlower⟩ := List.mem_map.mp hmem
  have hletter := List.all_eq_true.mp hk d hd
  simp only [Bool.and_eq_true, decide_eq_true_eq, hlower] at hletter
  exact isLetter_of_asciiLower hletter

/-- Texts with the same letters have the same letters as others. -/
theorem sameLetters_congr {w k : List Char} (h : Text.sameLetters w k = true) (v : List Char) :
    Text.sameLetters w v = Text.sameLetters k v := by
  unfold Text.sameLetters
  rw [map_asciiLower_of_sameLetters h]

/-- A text with the letters of another is empty only if that is. -/
theorem ne_nil_of_sameLetters {w k : List Char} (hk : k ≠ [])
    (h : Text.sameLetters w k = true) : w ≠ [] := by
  rintro rfl
  have hmap := map_asciiLower_of_sameLetters h
  simp only [List.map_nil] at hmap
  exact hk (List.map_eq_nil_iff.mp hmap.symm)

/-! ## Words -/

/-- The word of a connective, in letters of any case, is its token. -/
theorem ofWord_connective {k : Connective} {w : List Char}
    (h : Text.sameLetters w k.word = true) : ofWord w = k.token := by
  unfold ofWord
  rw [sameLetters_congr h, sameLetters_congr h]
  cases k <;> rfl

/-- The word `not`, in letters of any case, is its token. -/
theorem ofWord_not {w : List Char} (h : Text.sameLetters w ['n', 'o', 't'] = true) :
    ofWord w = not := by
  unfold ofWord
  rw [sameLetters_congr h, sameLetters_congr h, sameLetters_congr h]
  rfl

/-- The letters that keywords have. -/
def keywordLetters : List Char :=
  ['a', 'n', 'd', 'o', 'r', 't']

/-- A word with a character that no keyword has belongs to a condition. -/
theorem ofWord_of_mem {c : Char} {w : List Char} (hmem : c ∈ w)
    (hc : Text.asciiLower c ∉ keywordLetters) : ofWord w = fragment w 1 := by
  have hnot : ∀ k : List Char, k.all (fun d => keywordLetters.contains (Text.asciiLower d)) = true →
      Text.sameLetters w k = false := by
    intro k hk
    cases hsame : Text.sameLetters w k with
    | false => rfl
    | true =>
        have hlower : Text.asciiLower c ∈ k.map Text.asciiLower :=
          map_asciiLower_of_sameLetters hsame ▸ List.mem_map_of_mem hmem
        obtain ⟨d, hd, heq⟩ := List.mem_map.mp hlower
        have hletter := List.all_eq_true.mp hk d hd
        rw [heq] at hletter
        exact absurd (List.contains_iff_mem.mp hletter) hc
  unfold ofWord
  rw [hnot _ (by decide), hnot _ (by decide), hnot _ (by decide)]
  rfl

/-- In front of something that ends it, a word in letters is one token. -/
theorem scans_letters {w : List Char} (hletters : ∀ c ∈ w, IsLetter c) (hne : w ≠ []) :
    Scans w [ofWord w] := by
  refine scans_word hne fun rest out => ?_
  have hcollects := scan_plain (fun c hc => isPlain_of_isLetter (hletters c hc)) [] rest out
  rwa [List.append_nil] at hcollects

end Filter.Token

/-! ## Names of fields -/

namespace Field

open Filter.Token

/-- The name of a field consists of letters. -/
theorem isLetter_of_mem_name (f : Field) : ∀ c ∈ f.name.toList, IsLetter c := by
  apply isLetter_of_all
  cases f <;> decide +kernel

theorem name_ne_nil (f : Field) : f.name.toList ≠ [] := by
  cases f <;> decide +kernel

/-- No field is named like a keyword. -/
theorem ofWord_name (f : Field) : ofWord f.name.toList = .fragment f.name.toList 1 := by
  cases f <;> rfl

/-- A name is the name of one field. -/
theorem ofName?_name (f : Field) : ofName? f.name.toList = some f := by
  cases f <;> rfl

/-- A name is that of a field exactly if it is the field's own. -/
theorem ofName?_eq_some_iff {name : List Char} {f : Field} :
    ofName? name = some f ↔ name = f.name.toList := by
  constructor
  · intro h
    exact (beq_iff_eq.mp (List.find?_some (p := fun g : Field => g.name.toList == name) h)).symm
  · rintro rfl
    exact ofName?_name f

/-- A name with blanks around it hides nothing behind it. -/
theorem silent_of_name {before : List Char} {f : Field}
    (hfield : ofName? (Text.trim before) = some f) : ∀ c ∈ before, Region.Silent c := by
  obtain ⟨front, back, hfront, hback, hbefore⟩ := Text.exists_trim before
  rw [ofName?_eq_some_iff.mp hfield] at hbefore
  intro c hc
  rw [hbefore] at hc
  rcases List.mem_append.mp hc with hc | hc
  · rcases List.mem_append.mp hc with hc | hc
    · exact Region.silent_of_isBlank (hfront c hc)
    · exact silent_of_isLetter (f.isLetter_of_mem_name c hc)
  · exact Region.silent_of_isBlank (hback c hc)

/-- In front of something that ends it a name is one word. -/
theorem scans_name (f : Field) : Scans f.name.toList [.fragment f.name.toList 1] :=
  f.ofWord_name ▸ scans_letters f.isLetter_of_mem_name f.name_ne_nil

/-- A name with blanks behind it is the name of its field. -/
theorem ofName?_trim_name (f : Field) {gap : List Char} (hgap : Text.Blanks gap) :
    ofName? (Text.trim (f.name.toList ++ gap)) = some f := by
  have hframed : Text.Framed f.name.toList := Text.framed_of_no_blank fun c hc =>
    not_isBlank_of_isLetter (f.isLetter_of_mem_name c hc)
  have htrim := hframed.trim f.name_ne_nil Text.blanks_nil hgap
  rw [List.nil_append] at htrim
  rw [htrim, f.ofName?_name]

end Field

/-- Behind the name of a field the search stops at the operator. -/
theorem Comparison.operatorIn?_behind_name (f : Field) {gap rest : List Char} {s : Spelling}
    (hgap : Text.Blanks gap) (hat : Spelling.at? (s.chars ++ rest) = some s) :
    operatorIn? (f.name.toList ++ gap ++ (s.chars ++ rest)) =
      some (f.name.toList ++ gap, s, rest) := by
  have hsilent := Field.silent_of_name (f.ofName?_trim_name hgap)
  rw [operatorIn?, cut_append_of_silent hsilent, cut_at hat]
  simp

end ListingQuery
