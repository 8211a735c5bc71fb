import ListingQuery.Proofs.Filter.PlainOperand
import ListingQuery.Proofs.Filter.Respelling

/-!
# Blanks around an operator

A condition can be written with blanks around its operator or without them.  Without them it is one
word, with them three.  The lexer joins the three words again, and the reader finds the operator in
the same place; but of a condition of several words it asks more, since two conditions may follow each
other without a connective: there must be no further operator in the operand.  So the two ways to
write a condition are read alike unless the operand spells an operator.

* `OneWord` are the operands that the lexer takes as they stand, whatever they spell;
* `Comparison.operatorIn?_eq_none_iff` says when the search for an operator finds none in them;
* `Comparison.read_apart` compares the two ways to write a condition, error by error;
* `spaced_condition_read_alike_iff` is the result for filters.
-/

namespace ListingQuery

/-- The longest spelling at the beginning of a text is the one that is found there. -/
theorem Spelling.at?_of_longest {s : Spelling} (hs : s ∈ all) {rest : List Char}
    (hlongest : ∀ t ∈ all, t.chars <+: s.chars ++ rest → t.chars.length ≤ s.chars.length) :
    at? (s.chars ++ rest) = some s := by
  have hsame : ∀ t ∈ all, t.chars.isPrefixOf (s.chars ++ rest) = t.chars.isPrefixOf s.chars := by
    intro t ht
    rw [Bool.eq_iff_iff, List.isPrefixOf_iff_prefix, List.isPrefixOf_iff_prefix]
    constructor
    · intro hprefix
      exact List.prefix_of_prefix_length_le hprefix (List.prefix_append _ _) (hlongest t ht hprefix)
    · exact fun hprefix => hprefix.trans (List.prefix_append _ _)
  calc at? (s.chars ++ rest) = at? s.chars := find?_congr hsame
    _ = some s := at?_chars s hs

namespace Filter

open Token

/-- A word that the lexer takes as it stands behind a blank: it is no keyword and does not begin with
an exclamation mark, and there is no blank, quote, bracket, parenthesis or symbol of a connective in
it.  Operators may be. -/
structure OneWord (v : List Char) : Prop where
  ne_nil : v ≠ []
  not_keyword : ∀ k ∈ keywords, Text.sameLetters v k = false
  not_marked : ∀ c ∈ v, Text.isBlank c = false ∧ c ∉ ['"', '\'', '(', ')', '[', ']']
  no_symbol : ∀ k : Connective, ¬ k.symbol <:+: v
  no_bang : v.head? ≠ some '!'

section Words

variable {v : List Char}

/-- One word has no quotes, blanks or brackets in it. -/
theorem OneWord.bare (hv : OneWord v) : Bare v := by
  intro c hc
  obtain ⟨hblank, hmarks⟩ := hv.not_marked c hc
  simp only [List.mem_cons, List.not_mem_nil, or_false, not_or] at hmarks
  obtain ⟨hdouble, hsingle, _, _, hopening, hclosing⟩ := hmarks
  exact ⟨by simp [Region.isQuote, hdouble, hsingle], hblank, hopening, hclosing⟩

/-- One word is a condition of one word, and no connective. -/
theorem OneWord.ofWord (hv : OneWord v) : ofWord v = fragment v 1 := by
  have hkeywords := hv.not_keyword
  simp only [keywords, List.forall_mem_cons] at hkeywords
  obtain ⟨hand, hor, hnot, _⟩ := hkeywords
  simp [Token.ofWord, hand, hor, hnot]

/-- Trimming takes the blanks in front of a word off. -/
theorem OneWord.trim (hv : OneWord v) {front : List Char} (hfront : Text.Blanks front) :
    Text.trim (front ++ v) = v := by
  have hframed := Text.framed_of_no_blank fun c hc => (hv.not_marked c hc).1
  have htrim := hframed.trim hv.ne_nil hfront Text.blanks_nil
  rwa [List.append_nil] at htrim

/-- At the end of a text the lexer takes a word as it stands if there is no mark in it and no symbol
of a connective, and no exclamation mark in front of it where no word has begun. -/
theorem scan_to_end (hmarks : ∀ c ∈ v, Text.isBlank c = false ∧ c ∉ ['"', '\'', '(', ')', '[', ']'])
    (hsymbol : ∀ k : Connective, ¬ k.symbol <:+: v) {word : List Char}
    (hbang : word = [] → v.head? ≠ some '!') (out : List Token) :
    scan .outside word out v = scan .outside (v.reverse ++ word) out [] := by
  induction v generalizing word with
  | nil => rfl
  | cons c v ih =>
      obtain ⟨hblank, hmark⟩ := hmarks c List.mem_cons_self
      simp only [List.mem_cons, List.not_mem_nil, or_false, not_or] at hmark
      obtain ⟨hdouble, hsingle, hopening, hclosing, hbracket, _⟩ := hmark
      have hquote : Region.isQuote c = false := by simp [Region.isQuote, hdouble, hsingle]
      have hstep : scan .outside word out (c :: v) = scan .outside (c :: word) out v := by
        refine scan_of_collected (Region.isOpen_outside hquote hbracket word) hblank
          ⟨hopening, hclosing⟩ ?_ ?_ out
        · rintro ⟨rfl, hword, _⟩
          exact hbang hword rfl
        · intro k more heq
          exact hsymbol k (heq ▸ (List.prefix_append _ _).isInfix)
      have hrest : ∀ k : Connective, ¬ k.symbol <:+: v :=
        fun k hin => hsymbol k (hin.trans (List.suffix_cons c v).isInfix)
      rw [hstep, ih (fun d hd => hmarks d (List.mem_cons_of_mem _ hd)) hrest (by simp)]
      simp

end Words

end Filter

namespace Comparison

open ListingQuery.Filter ListingQuery.Filter.Token

/-! ## Operators in an operand -/

/-- The search finds no operator in a word exactly if the word spells none. -/
theorem operatorIn?_eq_none_iff {v : List Char} (hv : OneWord v) :
    operatorIn? v = none ↔ ∀ s ∈ Spelling.all, ¬ s.chars <:+: v :=
  cut_eq_none_iff (fun c hc => ⟨(hv.bare c hc).1, (hv.bare c hc).2.2.1⟩) []

/-! ## Two ways to write a condition -/

/-- The text of a condition without blanks. -/
def tight (f : Field) (s : Spelling) (v : List Char) : List Char :=
  f.name.toList ++ s.chars ++ v

/-- The text of a condition with blanks around its operator. -/
def spaced (f : Field) (s : Spelling) (v : List Char) : List Char :=
  f.name.toList ++ ' ' :: (s.chars ++ ' ' :: v)

/-- What the reader says of a text in which it misses a connective. -/
def missesConnective (cs : List Char) : QueryError :=
  .malformedFilter ("expected AND or OR between conditions in '" ++ String.ofList cs ++ "'")

section Conditions

variable {f : Field} {s : Spelling} {v : List Char}

/-- Without blanks the text is cut at its operator, if that is the longest there. -/
theorem operatorIn?_tight (hs : s ∈ Spelling.all)
    (hlongest : ∀ t ∈ Spelling.all, t.chars <+: s.chars ++ v →
      t.chars.length ≤ s.chars.length) :
    operatorIn? (tight f s v) = some (f.name.toList, s, v) := by
  have hcut := operatorIn?_behind_name f Text.blanks_nil (Spelling.at?_of_longest hs hlongest)
  rwa [List.append_nil, ← List.append_assoc] at hcut

/-- With blanks the text is cut at its operator. -/
theorem operatorIn?_spaced (hs : s ∈ Spelling.all) :
    operatorIn? (spaced f s v) = some (f.name.toList ++ [' '], s, ' ' :: v) := by
  have hat : Spelling.at? (s.chars ++ ' ' :: v) = some s :=
    Spelling.at?_chars_append hs (by decide) v
  have hcut := operatorIn?_behind_name f Text.blanks_space hat
  rwa [List.append_assoc] at hcut

/-- **The two ways to write a condition** are read alike, error by error, unless the operator has a
meaning and the operand spells another one. -/
theorem read_apart (f : Field) (hs : s ∈ Spelling.all) (hv : OneWord v)
    (hlongest : ∀ t ∈ Spelling.all, t.chars <+: s.chars ++ v →
      t.chars.length ≤ s.chars.length) :
    Comparison.read (spaced f s v) 3 =
      if s.operator.isSome ∧ (operatorIn? v).isSome then .error (missesConnective (spaced f s v))
      else Comparison.read (tight f s v) 1 := by
  have hname := f.ofName?_trim_name Text.blanks_nil
  have hspacedName := f.ofName?_trim_name Text.blanks_space
  rw [List.append_nil] at hname
  have hoperand : Text.trim v = v := hv.trim Text.blanks_nil
  have hspacedOperand : Text.trim (' ' :: v) = v := hv.trim Text.blanks_space
  unfold Comparison.read
  simp only [operatorIn?_tight hs hlongest, operatorIn?_spaced hs, hname, hspacedName, hoperand,
    hspacedOperand, Nat.lt_irrefl, false_and, if_false]
  cases s.operator with
  | none => simp
  | some op =>
      by_cases hspells : (operatorIn? v).isSome = true
      · simp [hspells, missesConnective]
      · simp [hspells]

/-- A condition of one word misses no connective. -/
theorem read_one_ne (cs ds : List Char) :
    Comparison.read cs 1 ≠ .error (missesConnective ds) := by
  intro h
  unfold Comparison.read at h
  split at h
  · cases h
  · split at h
    · cases h
    · split at h
      · cases h
      · simp only [Nat.lt_irrefl, false_and, if_false] at h
        split at h <;> cases h

/-! ## The lexer -/

/-- Without blanks the text is a condition of one word. -/
theorem ofText_tight (f : Field) (hs : s ∈ Spelling.all) (hv : OneWord v) :
    ofText (tight f s v) = .ok [fragment (tight f s v) 1] := by
  have hne : f.name.toList ++ s.chars ≠ [] := by simp [f.name_ne_nil]
  have hscan : scan .outside [] [] (tight f s v) = .ok [fragment (tight f s v) 1] := by
    rw [tight, scan_letters_spelling f.isLetter_of_mem_name hs,
      scan_to_end hv.not_marked hv.no_symbol fun h => absurd (List.reverse_eq_nil_iff.mp h) hne,
      ← List.reverse_append, endsWord_nil, flush_reverse (by simp [hv.ne_nil]),
      ofWord_spelling_append hs, scan_end]
    rfl
  exact ofText_eq_ok_iff.mpr ⟨_, hscan, rfl⟩

/-- With blanks the text is a condition of three words. -/
theorem ofText_spaced (f : Field) (hs : s ∈ Spelling.all) (hv : OneWord v) :
    ofText (spaced f s v) = .ok [fragment (spaced f s v) 3] := by
  have hhead := f.scans_name.append_gap (scans_spelling hs) Text.blanks_space (by simp)
  have htext : spaced f s v = (f.name.toList ++ ([' '] ++ s.chars)) ++ ' ' :: v := by
    simp [spaced]
  have hscan : scan .outside [] [] (spaced f s v) =
      .ok ((f.name.toList :: [s.chars, v]).map (fragment · 1)) := by
    rw [htext, hhead _ _ (endsWord_blank (by decide) v), scan_blank (by decide), flush_nil,
      scan_to_end hv.not_marked hv.no_symbol fun _ => hv.no_bang, List.append_nil, endsWord_nil,
      flush_reverse hv.ne_nil, hv.ofWord, scan_end]
    rfl
  refine ofText_eq_ok_iff.mpr ⟨_, hscan, ?_⟩
  have hjoined := joined_words f.name.toList [s.chars, v] apart_nil
  rw [List.append_nil] at hjoined
  rw [hjoined]
  rfl

end Conditions

end Comparison

namespace Filter

open Comparison

/-- The operator of a condition has a meaning, and its operand spells an operator as well. -/
def TwoOperators (s : Spelling) (v : List Char) : Prop :=
  s.operator ≠ none ∧ ∃ t ∈ Spelling.all, t.chars <:+: v

/-- Whether the operand spells an operator as well is seen by searching it. -/
theorem twoOperators_iff {s : Spelling} {v : List Char} (hv : OneWord v) :
    TwoOperators s v ↔ s.operator.isSome = true ∧ (operatorIn? v).isSome = true := by
  have hspells : (operatorIn? v).isSome = true ↔ ∃ t ∈ Spelling.all, t.chars <:+: v := by
    rw [← Option.ne_none_iff_isSome, ne_eq, operatorIn?_eq_none_iff hv]
    simp
  rw [hspells, ← Option.ne_none_iff_isSome]
  rfl

/-- **Blanks around an operator** make no difference to a condition unless its operand spells an
operator as well.  If it does, the condition can only be written without the blanks: with them the
reader misses a connective. -/
theorem spaced_condition_read_alike_iff (f : Field) {s : Spelling} (hs : s ∈ Spelling.all)
    {v : List Char} (hv : OneWord v)
    (hlongest : ∀ t ∈ Spelling.all, t.chars <+: s.chars ++ v → t.chars.length ≤ s.chars.length)
    {limits : Limits}
    (htight : (String.ofList (tight f s v)).utf8ByteSize ≤
      min limits.filterLength.toNat Limits.maxFilterLength.toNat)
    (hspaced : (String.ofList (spaced f s v)).utf8ByteSize ≤
      min limits.filterLength.toNat Limits.maxFilterLength.toNat)
    (hleaves : 1 ≤ min limits.filterLeaves.toNat Limits.maxFilterLeaves.toNat) :
    (read (String.ofList (tight f s v)) limits = read (String.ofList (spaced f s v)) limits ↔
      ¬ TwoOperators s v) ∧
    (TwoOperators s v →
      read (String.ofList (spaced f s v)) limits = .error (missesConnective (spaced f s v))) := by
  rw [← Limits.clamped_filterLength] at htight hspaced
  rw [← Limits.clamped_filterLeaves] at hleaves
  have htightTokens : Token.ofText (String.ofList (tight f s v)).toList =
      .ok [.fragment (tight f s v) 1] := by
    rw [String.toList_ofList]
    exact ofText_tight f hs hv
  have hspacedTokens : Token.ofText (String.ofList (spaced f s v)).toList =
      .ok [.fragment (spaced f s v) 3] := by
    rw [String.toList_ofList]
    exact ofText_spaced f hs hv
  rw [read_fragment htight hleaves htightTokens, read_fragment hspaced hleaves hspacedTokens,
    read_apart f hs hv hlongest, twoOperators_iff hv]
  by_cases htwo : s.operator.isSome = true ∧ (operatorIn? v).isSome = true
  · rw [if_pos htwo]
    refine ⟨⟨fun hsame => ?_, fun hnot => absurd htwo hnot⟩, fun _ => rfl⟩
    -- without the blanks there may be an error, but not this one
    have herror := read_one_ne (tight f s v) (spaced f s v)
    cases hread : Comparison.read (tight f s v) 1 with
    | ok c =>
        rw [hread] at hsame
        cases hsame
    | error e =>
        rw [hread] at hsame herror
        exact absurd (congrArg Except.error (Except.error.inj hsame)) herror
  · rw [if_neg htwo]
    exact ⟨⟨fun _ => htwo, fun _ => rfl⟩, fun h => absurd h htwo⟩

/-- A number of rooms can be written with and without blanks. -/
theorem spaced_rooms_read :
    read (String.ofList (tight .zimmer ⟨['>', '='], some .ge⟩ ['3'])) Limits.standard =
      read (String.ofList (spaced .zimmer ⟨['>', '='], some .ge⟩ ['3'])) Limits.standard := by
  have hv : OneWord ['3'] :=
    ⟨by decide, by decide, not_marked_of_all (by decide), fun k => by cases k <;> decide, by decide⟩
  refine (spaced_condition_read_alike_iff .zimmer (by decide) hv (by decide) (by decide)
    (by decide) (by decide)).1.mpr ?_
  rintro ⟨_, t, ht, hin⟩
  revert t
  decide

/-- A town with an operator in its name is accepted without blanks, and with them it is not. -/
theorem spaced_town_refused :
    OneWord ['a', '<', 'b'] ∧
      (∀ t ∈ Spelling.all, t.chars <+: ['=', '='] ++ ['a', '<', 'b'] → t.chars.length ≤ 2) ∧
      tight .ort ⟨['=', '='], some .eq⟩ ['a', '<', 'b'] = "ort==a<b".toList ∧
      spaced .ort ⟨['=', '='], some .eq⟩ ['a', '<', 'b'] = "ort == a<b".toList ∧
      read "ort==a<b" Limits.standard = .ok (.test ⟨.ort, .eq, "a<b", .str "a<b"⟩) ∧
      read "ort == a<b" Limits.standard =
        .error (.malformedFilter "expected AND or OR between conditions in 'ort == a<b'") := by
  refine ⟨⟨by decide, by decide, not_marked_of_all (by decide), fun k => by cases k <;> decide,
    by decide⟩, by decide, by decide, by decide, eq_ok_of_toOption ?_, eq_error_of_failure? ?_⟩ <;>
    decide +kernel

end Filter

end ListingQuery
