import ListingQuery.Proofs.Filter.QuotedItems
import ListingQuery.Proofs.Filter.Refusal
import ListingQuery.Proofs.Filter.SingleCondition
import Mathlib.Tactic.Choose

/-!
# Lists of plain items

A list of plain words asks for one of them, as a disjunction of one comparison with each does.  The
two are taken apart in different ways: the list is cut at its semicolons and its items are cast by
themselves, while every comparison has an operand of its own.  For plain words both come to the same
values, so that the list is accepted exactly if the comparisons are, and they mean the same.

* `ItemWord` are the words, `itemValue?` is what a field takes one of them for;
* `operandValue?_items` and `operandValue?_item` say that the two ways cast the words alike;
* `accepted_membership_iff` and `accepted_equalities_iff` say when the two texts are accepted, and
  `read_membership` and `read_equalities` as which filters;
* `plainItems_mean_comparisons` is the result, for membership as for its negation.
-/

namespace ListingQuery.Filter

open Token

/-- A word without blanks, quotes, parentheses, brackets, semicolons and the characters of symbols for
connectives.  It may well be a keyword, and there may be an operator in it: both are text in an
operand. -/
structure ItemWord (w : List Char) : Prop where
  ne_nil : w ≠ []
  not_marked : ∀ c ∈ w, Text.isBlank c = false ∧
    c ∉ ['"', '\'', '(', ')', '[', ']', ';', '&', '|', '!']

/-! ## Texts -/

/-- A condition without blanks and quotes. -/
def bareText (f : Field) (op : Operator) (w : List Char) : List Char :=
  f.name.toList ++ op.token.toList ++ w

/-- The condition that a field is among the words of a list, or is not. -/
def membershipText (f : Field) (k : Choice) (ws : List (List Char)) : List Char :=
  bareText f k.onList (listOf ws)

/-- The comparison with a word, in parentheses. -/
def equalityText (f : Field) (k : Choice) (w : List Char) : List Char :=
  '(' :: (bareText f k.onOne w ++ [')'])

/-- The comparisons with a first word and with others, with the connective between them. -/
def equalitiesText (f : Field) (k : Choice) (first : List Char) (others : List (List Char)) :
    List Char :=
  equalityText f k first ++ others.flatMap fun w => signText k ++ equalityText f k w

/-! ## Words -/

/-- An item has no quotes, blanks or brackets in it. -/
theorem ItemWord.bare {w : List Char} (hw : ItemWord w) : Bare w := by
  intro c hc
  obtain ⟨hblank, hmarks⟩ := hw.not_marked c hc
  simp only [List.mem_cons, List.not_mem_nil, or_false, not_or] at hmarks
  simp [Region.isQuote, hblank, hmarks]

theorem ItemWord.isPlain {w : List Char} (hw : ItemWord w) : ∀ c ∈ w, isPlain c = true := by
  intro c hc
  obtain ⟨hblank, hmarks⟩ := hw.not_marked c hc
  simp only [List.mem_cons, List.not_mem_nil, or_false, not_or] at hmarks
  simp [Token.isPlain, Region.isQuote, marks, hblank, hmarks]

/-- An item neither begins nor ends with a blank. -/
theorem ItemWord.framed {w : List Char} (hw : ItemWord w) : Text.Framed w :=
  Text.framed_of_no_blank fun c hc => (hw.not_marked c hc).1

theorem ItemWord.trim {w : List Char} (hw : ItemWord w) : Text.trim w = w := by
  have htrim := hw.framed.trim hw.ne_nil Text.blanks_nil Text.blanks_nil
  simpa using htrim

/-- A text that does not begin with a quote or a bracket has none around it. -/
theorem ItemWord.between?_eq_none {w : List Char} (hw : ItemWord w) {opening closing : Char}
    (hopening : opening ∈ ['"', '\'', '[']) : Text.between? opening closing w = none := by
  obtain ⟨c, rest, rfl⟩ := List.exists_cons_of_ne_nil hw.ne_nil
  have hmarks := (hw.not_marked c List.mem_cons_self).2
  have hne : c ≠ opening := by
    rintro rfl
    apply hmarks
    simp only [List.mem_cons, List.not_mem_nil, or_false] at hopening ⊢
    grind
  simp [Text.between?, hne]

/-- An item has no quotes to take off. -/
theorem ItemWord.unquote {w : List Char} (hw : ItemWord w) :
    Comparison.unquote w = (w, false) := by
  simp [Comparison.unquote, hw.between?_eq_none]

/-! ## Values -/

/-- What a field takes a word for: a value of its type, or any value if it has none. -/
def itemValue? (f : Field) (w : List Char) : Option Value :=
  match f.declaredType with
  | none => some (Value.inferScalar w)
  | some t => Value.castTo? t w

/-- The operand of a comparison is a word alone. -/
theorem operandValue?_item (f : Field) (k : Choice) {w : List Char} (hw : ItemWord w) :
    Comparison.operandValue? f k.onOne w false = itemValue? f w := by
  have hone : k.onOne.wantsList = false := by cases k <;> rfl
  unfold Comparison.operandValue? itemValue?
  cases f.declaredType with
  | none => simp [Value.infer, hw.between?_eq_none]
  | some t => simp [hone]

/-- Words that are cast one by one are cast together. -/
theorem castItems?_of_values {t : ValueType} {ws : List (List Char)} {value : List Char → Value}
    (h : ∀ w ∈ ws, Value.castTo? t w = some (value w)) :
    Comparison.castItems? t ws = some (ws.map value) := by
  rw [Comparison.castItems?_eq_some_iff, List.map_map]
  exact List.map_congr_left h

/-- Words that are cast together can be cast one by one. -/
theorem exists_castTo?_of_castItems? {t : ValueType} {ws : List (List Char)} {vs : List Value}
    (h : Comparison.castItems? t ws = some vs) :
    ∀ w ∈ ws, ∃ v, Value.castTo? t w = some v := by
  intro w hw
  have hmem : Value.castTo? t w ∈ vs.map some := by
    rw [← Comparison.castItems?_eq_some_iff.mp h]
    exact List.mem_map_of_mem hw
  obtain ⟨v, -, hv⟩ := List.mem_map.mp hmem
  exact ⟨v, hv.symm⟩

section Items

variable {ws : List (List Char)}

/-- A list is cut into its words. -/
theorem items_listOf (hws : ∀ w ∈ ws, ItemWord w) (hne : ws ≠ []) :
    ((List.intercalate [';'] ws).splitOn ';').map Text.trim = ws := by
  have hseparator : ∀ w ∈ ws, ';' ∉ w := by
    intro w hw hmem
    exact ((hws w hw).not_marked ';' hmem).2 (by decide)
  rw [List.splitOn_intercalate ';' hseparator hne]
  exact (List.map_congr_left fun w hw => (hws w hw).trim).trans (List.map_id ws)

theorem isAllBlank_intercalate (hws : ∀ w ∈ ws, ItemWord w) (hne : ws ≠ []) :
    Text.isAllBlank (List.intercalate [';'] ws) = false := by
  obtain ⟨w, others, rfl⟩ := List.exists_cons_of_ne_nil hne
  have hw := hws w List.mem_cons_self
  obtain ⟨c, rest, rfl⟩ := List.exists_cons_of_ne_nil hw.ne_nil
  have hblank := (hw.not_marked c List.mem_cons_self).1
  cases others <;> simp [Text.isAllBlank, hblank]

/-- Without a type to go by, a list of words is the list of what the words are taken for. -/
theorem infer_listOf (hws : ∀ w ∈ ws, ItemWord w) (hne : ws ≠ []) :
    Value.infer (listOf ws) = .list (ws.map Value.inferScalar) := by
  have hvalues := congrArg (List.map Value.inferScalar) (items_listOf hws hne)
  rw [List.map_map] at hvalues
  simp only [Value.infer, between?_listOf, isAllBlank_intercalate hws hne, ← hvalues]
  rfl

/-- The operand of a list of words, by its parts. -/
theorem operandValue?_listOf_items (f : Field) (k : Choice) (hws : ∀ w ∈ ws, ItemWord w)
    (hne : ws ≠ []) : Comparison.operandValue? f k.onList (listOf ws) false =
      match f.declaredType with
      | none => some (.list (ws.map Value.inferScalar))
      | some t => (Comparison.castItems? t ws).map .list := by
  have hlist : k.onList.wantsList = true := by cases k <;> rfl
  have hitems := items_listOf hws hne
  unfold Comparison.operandValue?
  cases f.declaredType with
  | none => simp [infer_listOf hws hne]
  | some t =>
      have hkept : ws.filter (fun item => !item.isEmpty) = ws := by
        apply List.filter_eq_self.mpr
        intro w hw
        simp [(hws w hw).ne_nil]
      simp [hlist, Comparison.listItems?, between?_listOf, hitems, hkept]

/-- **The items of a list have the values of the words**, one by one. -/
theorem operandValue?_items (f : Field) (k : Choice) (hws : ∀ w ∈ ws, ItemWord w) (hne : ws ≠ [])
    {value : List Char → Value} (h : ∀ w ∈ ws, itemValue? f w = some (value w)) :
    Comparison.operandValue? f k.onList (listOf ws) false = some (.list (ws.map value)) := by
  rw [operandValue?_listOf_items f k hws hne]
  unfold itemValue? at h
  cases hf : f.declaredType with
  | none =>
      simp only [hf, Option.some.injEq] at h
      simp only [List.map_congr_left h]
  | some t =>
      simp only [hf] at h
      simp [castItems?_of_values h]

/-- A list with a value has items with values. -/
theorem exists_itemValue?_of_items {f : Field} {k : Choice} (hws : ∀ w ∈ ws, ItemWord w)
    (hne : ws ≠ []) {v : Value}
    (h : Comparison.operandValue? f k.onList (listOf ws) false = some v) :
    ∀ w ∈ ws, ∃ u, itemValue? f w = some u := by
  rw [operandValue?_listOf_items f k hws hne] at h
  unfold itemValue?
  cases hf : f.declaredType with
  | none => simp
  | some t =>
      simp only [hf, Option.map_eq_some_iff] at h
      obtain ⟨vs, hvs, _⟩ := h
      exact exists_castTo?_of_castItems? hvs

end Items

/-! ## Conditions -/

/-- A condition whose operand is collected as it stands is one word. -/
theorem lexes_bareText (f : Field) (op : Operator) {w : List Char}
    (hcollects : ∀ word rest out, scan .outside word out (w ++ rest) =
      scan .outside (w.reverse ++ word) out rest) :
    Lexes (bareText f op w) [.fragment (bareText f op w) 1] := by
  obtain ⟨s, hs, hchars, _⟩ := op.exists_spelling
  have hword : ofWord (bareText f op w) = fragment (bareText f op w) 1 := by
    rw [bareText, ← hchars]
    exact ofWord_spelling_append hs f.name.toList w
  suffices hscans : Scans (bareText f op w) ([bareText f op w].map (fragment · 1)) from
    lexes_words hscans
  rw [List.map_singleton, ← hword]
  have hne : bareText f op w ≠ [] := by
    simp [bareText, f.name_ne_nil]
  apply scans_word hne
  intro rest out
  rw [bareText, ← hchars, List.append_assoc, scan_letters_spelling f.isLetter_of_mem_name hs,
    hcollects]
  simp

/-- A condition of one word is read as its parts. -/
theorem read_bareText_iff (f : Field) {op : Operator} {s : Spelling}
    (hchars : s.chars = op.token.toList) (hop : s.operator = some op) {w : List Char}
    (hat : Spelling.at? (s.chars ++ w) = some s) (htrim : Text.trim w = w)
    (hquote : Comparison.unquote w = (w, false)) {c : Comparison} :
    Comparison.read (bareText f op w) 1 = .ok c ↔
      ∃ v, Comparison.operandValue? f op w false = some v ∧ c = ⟨f, op, String.ofList w, v⟩ := by
  have hfield := f.ofName?_trim_name Text.blanks_nil
  have hcut := Comparison.operatorIn?_behind_name f Text.blanks_nil hat
  rw [List.append_nil] at hfield hcut
  rw [hchars, ← List.append_assoc] at hcut
  unfold Comparison.read bareText
  simp only [hcut, hop, hfield, htrim, hquote, Nat.lt_irrefl, false_and, if_false]
  cases Comparison.operandValue? f op w false <;> simp [eq_comm]

/-- A comparison with an item is one token. -/
theorem lexes_equality (f : Field) (k : Choice) {w : List Char} (hw : ItemWord w) :
    Lexes (bareText f k.onOne w) [.fragment (bareText f k.onOne w) 1] :=
  lexes_bareText f k.onOne fun word rest out => scan_plain hw.isPlain word rest out

/-- A comparison with a word is accepted if the field takes the word for a value. -/
theorem read_equality_iff (f : Field) (k : Choice) {w : List Char} (hw : ItemWord w)
    {c : Comparison} : Comparison.read (bareText f k.onOne w) 1 = .ok c ↔
      ∃ v, itemValue? f w = some v ∧ c = ⟨f, k.onOne, String.ofList w, v⟩ := by
  rw [← operandValue?_item f k hw]
  cases k with
  | among => exact read_bareText_iff f (s := ⟨['=', '='], some .eq⟩) rfl rfl rfl hw.trim hw.unquote
  | notAmong =>
      exact read_bareText_iff f (s := ⟨['!', '='], some .ne⟩) rfl rfl rfl hw.trim hw.unquote

section Lists

variable {ws : List (List Char)}

/-- A condition with a list of items is one token. -/
theorem lexes_membership (f : Field) (k : Choice) (hws : ∀ w ∈ ws, ItemWord w) :
    Lexes (membershipText f k ws) [.fragment (membershipText f k ws) 1] := by
  have hbare := bare_intercalate fun w hw => (hws w hw).bare
  apply lexes_bareText
  intro word rest out
  have hlist := scan_list (fun c hc => ⟨(hbare c hc).1, (hbare c hc).2.2⟩) word rest out
  simpa [listOf] using hlist

/-- A condition with a list is read exactly if the list is a value for it. -/
theorem read_membership_iff (f : Field) (k : Choice) {c : Comparison} :
    Comparison.read (membershipText f k ws) 1 = .ok c ↔
      ∃ v, Comparison.operandValue? f k.onList (listOf ws) false = some v ∧
        c = ⟨f, k.onList, String.ofList (listOf ws), v⟩ := by
  obtain ⟨s, hs, hchars, hop⟩ := k.onList.exists_spelling
  have htrim : Text.trim (listOf ws) = listOf ws := by
    have hframed := (framed_listOf ws).trim (by simp [listOf]) Text.blanks_nil Text.blanks_nil
    simpa using hframed
  have hquote : Comparison.unquote (listOf ws) = (listOf ws, false) := by
    simp [Comparison.unquote, Text.between?, listOf]
  exact read_bareText_iff f hchars hop (Spelling.at?_chars_append hs (by decide) _) htrim hquote

end Lists

/-! ## The comparisons one by one -/

/-- A comparison with a word in parentheses, as an operand. -/
def equality (f : Field) (k : Choice) (w : List Char) : Phrase :=
  .group (.single (.condition (bareText f k.onOne w) 1))

/-- The comparisons with a first word and with others. -/
def equalities (f : Field) (k : Choice) (first : List Char) : List (List Char) → Sentence
  | [] => .single (equality f k first)
  | w :: ws => .joined (equality f k first) k.connective (equalities f k w ws)

/-- The conditions of the comparisons are one for each item. -/
theorem conditions_equalities (f : Field) (k : Choice) (first : List Char)
    (others : List (List Char)) : (equalities f k first others).conditions =
      (first :: others).map fun w => (bareText f k.onOne w, 1) := by
  induction others generalizing first with
  | nil => rfl
  | cons w ws ih =>
      rw [equalities, Sentence.conditions, ih]
      rfl

/-- The comparisons take one level of parentheses, and no negation. -/
theorem depths_equalities (f : Field) (k : Choice) (first : List Char)
    (others : List (List Char)) : (equalities f k first others).nesting = 1 ∧
      (equalities f k first others).negationRun = 0 := by
  induction others generalizing first with
  | nil => exact ⟨rfl, rfl⟩
  | cons w ws ih =>
      obtain ⟨hnesting, hrun⟩ := ih w
      have hmax : max 1 (equalities f k w ws).nesting = 1 ∧
          max 0 (equalities f k w ws).negationRun = 0 := by
        rw [hnesting, hrun]
        exact ⟨rfl, rfl⟩
      exact hmax

/-- The tokens of the comparisons have connectives between them. -/
theorem tokens_equalities (f : Field) (k : Choice) (first : List Char)
    (others : List (List Char)) : (equalities f k first others).tokens =
      (equality f k first).tokens ++
        others.flatMap fun w => k.connective.token :: (equality f k w).tokens := by
  induction others generalizing first with
  | nil => simp [equalities, Sentence.tokens]
  | cons w ws ih => rw [equalities, Sentence.tokens, ih, List.flatMap_cons, List.cons_append]

/-- The text of the comparisons has the tokens of the comparisons. -/
theorem lexes_equalities (f : Field) (k : Choice) {first : List Char} {others : List (List Char)}
    (hws : ∀ w ∈ first :: others, ItemWord w) :
    Lexes (equalitiesText f k first others) (equalities f k first others).tokens := by
  induction others generalizing first with
  | nil =>
      have hfirst := (lexes_equality f k (hws first List.mem_cons_self)).enclosed
      simpa [equalitiesText, equalityText, equalities, equality, Sentence.tokens, Phrase.tokens]
        using hfirst
  | cons w ws ih =>
      have hfirst := (lexes_equality f k (hws first List.mem_cons_self)).enclosed
      have hrest := ih fun v hv => hws v (List.mem_cons_of_mem _ hv)
      have hall := hfirst.connected (written_signText k).signs hrest
      simpa [equalitiesText, equalityText, equalities, equality, Sentence.tokens, Phrase.tokens]
        using hall

/-! ## The readings -/

section Reading

variable {f : Field} {k : Choice} {first : List Char} {others : List (List Char)}
  {limits : Limits}

/-- The limits leave room for the list and for the comparisons. -/
structure Admits (limits : Limits) (f : Field) (k : Choice) (first : List Char)
    (others : List (List Char)) : Prop where
  membership : (String.ofList (membershipText f k (first :: others))).utf8ByteSize ≤
    limits.clamped.filterLength.toNat
  equalities : (String.ofList (equalitiesText f k first others)).utf8ByteSize ≤
    limits.clamped.filterLength.toNat
  nesting : 1 ≤ limits.clamped.filterDepth.toNat
  conditions : others.length + 1 ≤ limits.clamped.filterLeaves.toNat

/-- The list is accepted exactly if the field takes every word for a value. -/
theorem accepted_membership_iff (hws : ∀ w ∈ first :: others, ItemWord w)
    (hlimits : Admits limits f k first others) :
    (∃ g, read (String.ofList (membershipText f k (first :: others))) limits = .ok g) ↔
      ∀ w ∈ first :: others, ∃ v, itemValue? f w = some v := by
  have hne : first :: others ≠ [] := List.cons_ne_nil _ _
  have htokens := (lexes_membership f k hws).ofText
  rw [← String.toList_ofList (l := membershipText f k (first :: others))] at htokens
  rw [accepted_iff (s := .single (.condition (membershipText f k (first :: others)) 1))
    (by rw [htokens, String.toList_ofList]; rfl)]
  have hroom := hlimits.conditions
  simp only [Sentence.negationRun, Phrase.negationRun, Sentence.conditions, Phrase.conditions,
    Sentence.nesting, Sentence.depth, Phrase.depth, List.length_singleton, List.forall_mem_singleton,
    Nat.zero_le, true_and, hlimits.membership, Readable, read_membership_iff]
  constructor
  · intro h
    obtain ⟨_, _, v, hv, _⟩ := h
    exact exists_itemValue?_of_items hws hne hv
  · intro h
    choose! value hvalue using h
    exact ⟨by omega, _, _, operandValue?_items f k hws hne hvalue, rfl⟩

theorem accepted_equalities_iff (hws : ∀ w ∈ first :: others, ItemWord w)
    (hlimits : Admits limits f k first others) :
    (∃ g, read (String.ofList (equalitiesText f k first others)) limits = .ok g) ↔
      ∀ w ∈ first :: others, ∃ v, itemValue? f w = some v := by
  obtain ⟨hnesting, hrun⟩ := depths_equalities f k first others
  have htokens := (lexes_equalities f k hws).ofText
  rw [← String.toList_ofList (l := equalitiesText f k first others)] at htokens
  rw [accepted_iff htokens, hnesting, hrun, conditions_equalities]
  have hroom := hlimits.conditions
  simp only [List.length_map, List.length_cons, List.forall_mem_map, Nat.zero_le, true_and,
    hlimits.equalities, hlimits.nesting, hroom, Readable]
  apply forall₂_congr
  intro w hw
  simp only [read_equality_iff f k (hws w hw)]
  constructor
  · intro h
    obtain ⟨_, v, hv, _⟩ := h
    exact ⟨v, hv⟩
  · intro h
    obtain ⟨v, hv⟩ := h
    exact ⟨_, v, hv, rfl⟩

variable {value : List Char → Value}

/-- The list is read as one condition with the values of the words. -/
theorem read_membership (hws : ∀ w ∈ first :: others, ItemWord w)
    (hlimits : Admits limits f k first others)
    (hvalue : ∀ w ∈ first :: others, itemValue? f w = some (value w)) :
    read (String.ofList (membershipText f k (first :: others))) limits =
      .ok (.test ⟨f, k.onList, String.ofList (listOf (first :: others)),
        .list ((first :: others).map value)⟩) := by
  have htokens := (lexes_membership f k hws).ofText
  have hroom := hlimits.conditions
  refine read_of_tokens hlimits.membership (by rw [String.toList_ofList]; exact htokens)
    (firstBreach?_fragment.mpr (by omega)) (ofTokens_fragment_iff.mpr ⟨_, ?_, rfl⟩)
  exact (read_membership_iff f k).mpr
    ⟨_, operandValue?_items f k hws (List.cons_ne_nil _ _) hvalue, rfl⟩

/-- The comparisons are read as comparisons with the same values. -/
theorem read_equalities (hws : ∀ w ∈ first :: others, ItemWord w)
    (hlimits : Admits limits f k first others)
    (hvalue : ∀ w ∈ first :: others, itemValue? f w = some (value w)) :
    read (String.ofList (equalitiesText f k first others)) limits =
      .ok (k.connective.gather (.test ⟨f, k.onOne, String.ofList first, value first⟩)
        (others.map fun w => .test ⟨f, k.onOne, String.ofList w, value w⟩)) := by
  obtain ⟨g, hread⟩ := (accepted_equalities_iff hws hlimits).mpr fun w hw => ⟨_, hvalue w hw⟩
  have htokens := (lexes_equalities f k hws).ofText
  have hderives : ∀ w ∈ first :: others, Derives 1 .negation (equality f k w).tokens
      (.test ⟨f, k.onOne, String.ofList w, value w⟩) := by
    intro w hw
    have hcondition : Derives 0 .primary [.fragment (bareText f k.onOne w) 1]
        (.test ⟨f, k.onOne, String.ofList w, value w⟩) :=
      .condition ((read_equality_iff f k (hws w hw)).mpr ⟨_, hvalue w hw, rfl⟩)
    exact .primary (.group (Derives.primary hcondition).conjunction_of_one.disjunction_of_one)
  have hothers : ∀ g ∈ others.map fun w =>
        (Filter.test ⟨f, k.onOne, String.ofList w, value w⟩, (equality f k w).tokens),
      Derives 1 .negation g.2 g.1 :=
    List.forall_mem_map.mpr fun w hw => hderives w (List.mem_cons_of_mem _ hw)
  have hjoined := Derives.joined k.connective (hderives first List.mem_cons_self) hothers
  rw [List.flatMap_map, List.map_map, ← tokens_equalities] at hjoined
  obtain ⟨_, ⟨hnone, _⟩ | ⟨t, ts, hsame, _, htree⟩⟩ := read_cases hread
  · rw [String.toList_ofList, htokens] at hnone
    exact absurd (Except.ok.inj hnone) (Sentence.tokens_ne_nil _)
  · rw [String.toList_ofList, htokens, Except.ok.injEq] at hsame
    rw [← hsame, ofTokens_iff_derives] at htree
    rw [hread, htree.unique hjoined]
    rfl

/-- **A list of plain items means the comparisons with its items.**  For every field and all words,
under limits that leave room for both texts, the list is accepted exactly if the comparisons are.
Then they give the same verdict on every listing, or both fail as a search in the field. -/
theorem plainItems_mean_comparisons (f : Field) (k : Choice) {first : List Char}
    {others : List (List Char)} (hws : ∀ w ∈ first :: others, ItemWord w) {limits : Limits}
    (hlimits : Admits limits f k first others) :
    ((∃ g, read (String.ofList (membershipText f k (first :: others))) limits = .ok g) ↔
      ∃ h, read (String.ofList (equalitiesText f k first others)) limits = .ok h) ∧
    ∀ g h, read (String.ofList (membershipText f k (first :: others))) limits = .ok g →
      read (String.ofList (equalitiesText f k first others)) limits = .ok h → ∀ l : Listing,
        (∃ b, g.evaluate l = .ok b ∧ h.evaluate l = .ok b) ∨
        ∃ token raw token' raw', g.evaluate l = .error (.sieving f.name token raw) ∧
          h.evaluate l = .error (.sieving f.name token' raw') := by
  rw [accepted_membership_iff hws hlimits, accepted_equalities_iff hws hlimits]
  refine ⟨Iff.rfl, ?_⟩
  intro g h hg hh l
  have hvalues := (accepted_membership_iff hws hlimits).mp ⟨g, hg⟩
  choose! value hvalue using hvalues
  rw [read_membership hws hlimits hvalue, Except.ok.injEq] at hg
  rw [read_equalities hws hlimits hvalue, Except.ok.injEq] at hh
  subst hg hh
  rw [evaluate]
  cases hfield : f.valueIn l with
  | error s =>
      right
      exact ⟨_, _, _, _, Comparison.evaluate_eq_error_iff.mpr ⟨⟨s, hfield⟩, rfl⟩,
        evaluate_oneByOne_of_missing k String.ofList value first others hfield⟩
  | ok present =>
      left
      exact ⟨_, evaluate_onList k _ _ hfield,
        evaluate_oneByOne k String.ofList value first others hfield⟩

end Reading

/-- Two postcodes without quotes, in a list. -/
def postcodeList : Filter :=
  .test ⟨.plz, .isIn, "[30159;30161]", .list [.str "30159", .str "30161"]⟩

/-- The same two postcodes, compared one by one. -/
def postcodePair : Filter :=
  .or [.test ⟨.plz, .eq, "30159", .str "30159"⟩, .test ⟨.plz, .eq, "30161", .str "30161"⟩]

/-- Without quotes the flat is found in the list, as it is by the comparisons, and where nothing is said
of a place both fail. -/
theorem plainItem_found :
    (∀ w ∈ ["30159".toList, "30161".toList], ItemWord w) ∧
      Admits Limits.standard .plz .among "30159".toList ["30161".toList] ∧
      read "plz∈[30159;30161]" Limits.standard = .ok postcodeList ∧
      read "(plz==30159) or (plz==30161)" Limits.standard = .ok postcodePair ∧
      (postcodeList.evaluate postcodeFlat = .ok true ∧
        postcodePair.evaluate postcodeFlat = .ok true) ∧
      postcodeList.evaluate Listing.empty = .error (.sieving "plz" "∈" "[30159;30161]") ∧
        postcodePair.evaluate Listing.empty = .error (.sieving "plz" "==" "30159") := by
  have hws : ∀ w ∈ ["30159".toList, "30161".toList], ItemWord w := by
    simp only [List.forall_mem_cons, List.not_mem_nil, false_implies, implies_true, and_true]
    exact ⟨⟨by decide, not_marked_of_all (by decide +kernel)⟩,
      ⟨by decide, not_marked_of_all (by decide +kernel)⟩⟩
  have hlimits : Admits Limits.standard .plz .among "30159".toList ["30161".toList] :=
    ⟨by decide +kernel, by decide +kernel, by decide, by decide⟩
  have hverdicts := (plainItems_mean_comparisons .plz .among hws hlimits).2
  have hmembership : String.ofList (membershipText .plz .among ["30159".toList, "30161".toList]) =
      "plz∈[30159;30161]" := by decide +kernel
  have hequalities : String.ofList (equalitiesText .plz .among "30159".toList ["30161".toList]) =
      "(plz==30159) or (plz==30161)" := by decide +kernel
  rw [hmembership, hequalities] at hverdicts
  have hlist : read "plz∈[30159;30161]" Limits.standard = .ok postcodeList :=
    eq_ok_of_toOption (by decide +kernel)
  have hpair : read "(plz==30159) or (plz==30161)" Limits.standard = .ok postcodePair :=
    eq_ok_of_toOption (by decide +kernel)
  refine ⟨hws, hlimits, hlist, hpair, ⟨rfl, ?_⟩, rfl, rfl⟩
  rcases hverdicts _ _ hlist hpair postcodeFlat with ⟨b, hfound, hone⟩ | ⟨_, _, _, _, hfailed, _⟩
  · have hb : b = true := Except.ok.inj (hfound.symm.trans rfl)
    rw [hone, hb]
  · cases hfailed.symm.trans rfl

end ListingQuery.Filter
