import ListingQuery.Proofs.Filter.Display
import ListingQuery.Proofs.Filter.PlainOperand
import ListingQuery.Proofs.Filter.ShortCircuit

/-!
# Lists with quoted items

A field can be asked for one of several texts in two ways: by a list of the texts in quotes, or by a
disjunction of one comparison with each.  Both are read whatever stands between the quotes.  But the
quotes of an item are not taken off as those of an operand are, and the list is cut at every
semicolon, those between quotes included.  So the two ask for different things.

* `Choice` are the two ways and their negations;
* `items` are the values of a list with quoted items, `quotedItems_read` says that it is read as these;
* `choiceTests` is the filter of the comparisons one by one, `comparisons_read` says the same of it;
* `quotedItems_mean_comparisons_iff` says for which listings the two give the same verdict.
-/

namespace ListingQuery.Filter

open Token

/-- A field is one of several texts, or none of them. -/
inductive Choice where
  | among
  | notAmong
deriving DecidableEq, Repr

namespace Choice

/-- The operator that takes the texts as a list. -/
def onList : Choice → Operator
  | among => .isIn
  | notAmong => .notIn

/-- The operator that takes one text. -/
def onOne : Choice → Operator
  | among => .eq
  | notAmong => .ne

/-- The connective between comparisons with one text each. -/
def connective : Choice → Connective
  | among => .disjunction
  | notAmong => .conjunction

/-- The verdict for a value that was found among the texts, or was not. -/
def verdict : Choice → Bool → Bool
  | among, found => found
  | notAmong, found => !found

end Choice

/-! ## Texts -/

/-- A condition that takes the texts as a list of quoted items. -/
def listText (f : Field) (k : Choice) (vs : List (List Char)) : List Char :=
  f.name.toList ++ k.onList.token.toList ++ listOf (vs.map inQuotes)

/-- A condition that takes one text. -/
def testText (f : Field) (k : Choice) (v : List Char) : List Char :=
  f.name.toList ++ k.onOne.token.toList ++ inQuotes v

/-- The word of a connective between blanks. -/
def signText (k : Choice) : List Char :=
  ' ' :: (k.connective.word ++ [' '])

/-- Conditions for a first text and for others, with the connective between them. -/
def testsText (f : Field) (k : Choice) (first : List Char) (others : List (List Char)) : List Char :=
  testText f k first ++ others.flatMap fun v => signText k ++ testText f k v

/-! ## Filters -/

/-- The pieces of an item between quotes: it is cut at semicolons. -/
def pieces (v : List Char) : List (List Char) :=
  ((inQuotes v).splitOn ';').map Text.trim

/-- The values that the field takes pieces for. -/
def pieceValues (f : Field) (ps : List (List Char)) : List Value :=
  match f.declaredType with
  | none => ps.map Value.inferScalar
  | some _ => (ps.filter fun piece => !piece.isEmpty).map fun piece => .str (String.ofList piece)

/-- The values of a list with quoted items. -/
def items (f : Field) (vs : List (List Char)) : List Value :=
  pieceValues f (vs.flatMap pieces)

/-- The condition that a list with quoted items is. -/
def listTest (f : Field) (k : Choice) (vs : List (List Char)) : Comparison :=
  ⟨f, k.onList, String.ofList (listOf (vs.map inQuotes)), .list (items f vs)⟩

/-- The comparison with one text. -/
def oneTest (f : Field) (k : Choice) (v : List Char) : Comparison :=
  ⟨f, k.onOne, String.ofList v, .str (String.ofList v)⟩

/-- The filter of the comparisons with each text. -/
def choiceTests (f : Field) (k : Choice) (first : List Char) (others : List (List Char)) : Filter :=
  k.connective.gather (.test (oneTest f k first)) (others.map fun v => .test (oneTest f k v))

/-- The comparisons behind the first one, as they are written. -/
def choiceClauses (f : Field) (k : Choice) (vs : List (List Char)) : List Clause :=
  vs.map fun v => ⟨signText k, .test (oneTest f k v), testText f k v⟩

/-! ## The list is one word -/

/-- Where an item begins, quoted items stand in their list. -/
theorem covers_items {vs : List (List Char)} (hvs : ∀ v ∈ vs, '"' ∉ v) {before : List Char}
    (hopens : Region.opensQuote before true = true) :
    Region.Covers ⟨none, 1⟩ before (List.intercalate [';'] (vs.map inQuotes)) ⟨none, 1⟩ := by
  induction vs generalizing before with
  | nil => exact .nil
  | cons v vs ih =>
      have hv : Region.Covers ⟨none, 1⟩ before (inQuotes v) ⟨none, 1⟩ :=
        Region.covers_quoted (n := 1) (hvs v List.mem_cons_self) hopens
      cases vs with
      | nil => simpa using hv
      | cons w ws =>
          rw [List.map_cons, List.map_cons, List.intercalate_cons_cons, List.append_assoc]
          have hrest : Region.Covers ⟨none, 1⟩ (';' :: ((inQuotes v).reverse ++ before))
              (List.intercalate [';'] ((w :: ws).map inQuotes)) ⟨none, 1⟩ :=
            ih (fun u hu => hvs u (List.mem_cons_of_mem _ hu)) rfl
          exact hv.append (.cons rfl hrest)

/-- A list of texts in quotes is passed over as a whole. -/
theorem covers_listOf {vs : List (List Char)} (hvs : ∀ v ∈ vs, '"' ∉ v) (before : List Char) :
    Region.Covers .outside before (listOf (vs.map inQuotes)) .outside :=
  (covers_items hvs rfl).brackets

/-- A list neither begins nor ends with a blank. -/
theorem framed_listOf (ws : List (List Char)) : Text.Framed (listOf ws) := by
  have hopening : Text.isBlank '[' = false := by decide
  have hclosing : Text.isBlank ']' = false := by decide
  constructor
  · intro c rest h
    cases h
    exact hopening
  · intro c rest h
    have hlast : ('[' :: List.intercalate [';'] ws) ++ [']'] = rest ++ [c] := h
    rw [← (List.cons.inj (List.append_inj' hlast rfl).2).1]
    exact hclosing

/-- A condition with a list is one word, whatever stands between the quotes of the items. -/
theorem lexes_listText (f : Field) (k : Choice) {vs : List (List Char)} (hvs : ∀ v ∈ vs, '"' ∉ v) :
    Lexes (listText f k vs) [.fragment (listText f k vs) 1] := by
  obtain ⟨s, hs, hchars, _⟩ := k.onList.exists_spelling
  have hword : ofWord (listText f k vs) = fragment (listText f k vs) 1 :=
    ofWord_of_mem (c := '[') (by simp [listText, listOf]) (by decide)
  suffices hscans : Scans (listText f k vs) ([listText f k vs].map (fragment · 1)) from
    lexes_words hscans
  rw [List.map_singleton, ← hword]
  refine scans_word (by simp [listText, listOf]) fun rest out => ?_
  rw [listText, ← hchars, List.append_assoc, scan_letters_spelling f.isLetter_of_mem_name hs,
    scan_of_covers (covers_listOf hvs _)]
  simp

/-! ## The values of the list -/

/-- A text that begins with a quote is nothing but a text. -/
theorem inferScalar_quote (cs : List Char) :
    Value.inferScalar ('"' :: cs) = .str (String.ofList ('"' :: cs)) := by
  have hint : Decimal.int64? ('"' :: cs) = none := by
    simp [Decimal.int64?, Decimal.int?, Decimal.nat?, Decimal.plain?, Decimal.isDigit]
  have hfloat : Numeral.finite? ('"' :: cs) = none := by
    simp [Numeral.finite?, Numeral.read?, Numeral.takeSign, Decimal.isDigit]
  have hbool : Value.readBool? ('"' :: cs) = none := by
    simp [Value.readBool?, Text.sameLetters, Text.asciiLower]
  have hyear : ∀ pattern, DateParts.unset.read? (.year :: pattern) ('"' :: cs) = none := by
    intro pattern
    have hblank : Text.isBlank '"' = false := by decide
    simp [DateParts.read?, DateParts.take?, Text.trimStart_cons hblank, DateParts.signedYear?,
      DateParts.number?, Decimal.isDigit]
  have hdate : Moment.read? ('"' :: cs) = none := by
    have hstrict : DateParts.exactNumber? 4 ('"' :: cs) = none := by
      simp [DateParts.exactNumber?, Decimal.isDigit]
    simp [Moment.read?, DatePart.momentPatterns, Moment.readBy?, DatePart.dayPattern, hyear,
      Moment.readStrict?, hstrict]
  simp [Value.inferScalar, hint, hfloat, hbool, hdate]

/-- The items of a list are cut one by one. -/
theorem splitOn_intercalate_quoted {vs : List (List Char)} (hne : vs ≠ []) :
    (List.intercalate [';'] (vs.map inQuotes)).splitOn ';' =
      vs.flatMap fun v => (inQuotes v).splitOn ';' := by
  induction vs with
  | nil => exact absurd rfl hne
  | cons v vs ih =>
      cases vs with
      | nil => simp
      | cons w ws =>
          rw [List.map_cons, List.map_cons, List.intercalate_cons_cons, List.append_assoc,
            List.singleton_append, List.splitOn_append_cons_self, List.flatMap_cons]
          exact congrArg _ (ih (List.cons_ne_nil _ _))

/-- Texts are cast to texts, whatever they are. -/
theorem castItems?_str (ps : List (List Char)) :
    Comparison.castItems? .str ps = some (ps.map fun piece => .str (String.ofList piece)) := by
  simp [Comparison.castItems?_eq_some_iff, Value.castTo?]

/-- A list is what stands between its brackets. -/
theorem between?_listOf (ws : List (List Char)) :
    Text.between? '[' ']' (listOf ws) = some (List.intercalate [';'] ws) := by
  simp [Text.between?, listOf]

/-- A list with quoted items has the values of their pieces. -/
theorem operandValue?_listOf {f : Field} (hf : f.declaredType = none ∨ f.declaredType = some .str)
    (k : Choice) {vs : List (List Char)} (hne : vs ≠ []) :
    Comparison.operandValue? f k.onList (listOf (vs.map inQuotes)) false =
      some (.list (items f vs)) := by
  have hpieces : ((List.intercalate [';'] (vs.map inQuotes)).splitOn ';').map Text.trim =
      vs.flatMap pieces := by
    rw [splitOn_intercalate_quoted hne, List.map_flatMap]
    rfl
  have hlist : k.onList.wantsList = true := by cases k <;> rfl
  rcases hf with hnone | hstr
  · have hnotBlank : Text.isAllBlank (List.intercalate [';'] (vs.map inQuotes)) = false := by
      obtain ⟨v, ws, rfl⟩ := List.exists_cons_of_ne_nil hne
      have hblank : Text.isBlank '"' = false := by decide
      cases ws <;> simp [Text.isAllBlank, inQuotes, hblank]
    have hvalues := congrArg (List.map Value.inferScalar) hpieces
    rw [List.map_map] at hvalues
    simp only [Comparison.operandValue?, hnone, Value.infer, between?_listOf, hnotBlank, items,
      pieceValues, ← hvalues]
    rfl
  · simp only [Comparison.operandValue?, hstr, hlist, Comparison.listItems?, between?_listOf,
      Option.map_some, hpieces, castItems?_str, items, pieceValues]
    rfl

/-- A condition with a list of quoted items is read as the pieces of the items. -/
theorem read_listText {f : Field} (hf : f.declaredType = none ∨ f.declaredType = some .str)
    (k : Choice) {vs : List (List Char)} (hne : vs ≠ []) :
    Comparison.read (listText f k vs) 1 = .ok (listTest f k vs) := by
  obtain ⟨s, hs, hchars, hop⟩ := k.onList.exists_spelling
  have hfield := f.ofName?_trim_name Text.blanks_nil
  rw [List.append_nil] at hfield
  have hoperand : Text.trim (listOf (vs.map inQuotes)) = listOf (vs.map inQuotes) := by
    have htrim := (framed_listOf (vs.map inQuotes)).trim (by simp [listOf]) Text.blanks_nil
      Text.blanks_nil
    simpa using htrim
  have hat : Spelling.at? (s.chars ++ listOf (vs.map inQuotes)) = some s :=
    Spelling.at?_chars_append hs (by decide) _
  have hcut := Comparison.operatorIn?_behind_name f Text.blanks_nil hat
  rw [List.append_nil, hchars, ← List.append_assoc] at hcut
  have hunquote : Comparison.unquote (listOf (vs.map inQuotes)) =
      (listOf (vs.map inQuotes), false) := by
    simp [Comparison.unquote, Text.between?, listOf]
  refine Comparison.read_eq_ok_iff.mpr ⟨_, s, _, hcut, hop, hfield, by simp, ?_⟩
  rw [Comparison.Takes, hoperand, hunquote]
  exact ⟨rfl, operandValue?_listOf hf k hne⟩

/-! ## The readings -/

/-- **A list with quoted items is read as the pieces of the items**, one condition for all. -/
theorem quotedItems_read {f : Field} (hf : f.declaredType = none ∨ f.declaredType = some .str)
    (k : Choice) {vs : List (List Char)} (hvs : ∀ v ∈ vs, '"' ∉ v) (hne : vs ≠ []) {limits : Limits}
    (hlength : (String.ofList (listText f k vs)).utf8ByteSize ≤ limits.clamped.filterLength.toNat)
    (hleaves : 1 ≤ limits.clamped.filterLeaves.toNat) :
    read (String.ofList (listText f k vs)) limits = .ok (.test (listTest f k vs)) := by
  have htokens := (lexes_listText f k hvs).ofText
  rw [← String.toList_ofList (l := listText f k vs)] at htokens
  have hbreach : firstBreach? limits.clamped Counts.zero [.fragment (listText f k vs) 1] = none :=
    firstBreach?_fragment.mpr hleaves
  rw [String.toList_ofList] at htokens
  refine read_of_tokens hlength (by rw [String.toList_ofList]; exact htokens) hbreach ?_
  exact ofTokens_fragment_iff.mpr ⟨_, read_listText hf k hne, rfl⟩

/-- A comparison with one text is written with a quoted operand. -/
theorem quoted_testText {f : Field} (hf : f.declaredType = none ∨ f.declaredType = some .str)
    (k : Choice) {v : List Char} (hv : '"' ∉ v) : Quoted (oneTest f k v) (testText f k v) := by
  obtain ⟨s, hs, hchars, hop⟩ := k.onOne.exists_spelling
  have hquoted := Quoted.mk hf hs hop Text.blanks_nil Text.blanks_nil hv
  rwa [List.append_nil, List.append_nil, hchars] at hquoted

/-- The connective between comparisons is written as a word. -/
theorem written_signText (k : Choice) : k.connective.Written (signText k) := by
  have hword : Text.sameLetters k.connective.word k.connective.word = true := by
    cases k <;> decide
  have hspace : [' '] ≠ [] := List.cons_ne_nil _ _
  exact .word hword Text.blanks_space hspace Text.blanks_space hspace

/-- Comparisons alone are not nested, and have one leaf each. -/
theorem measures_of_tests (cs : List Comparison) :
    heightOfAll (cs.map .test) = 0 ∧ negationRunOfAll (cs.map .test) = 0 ∧
      (leavesOfAll (cs.map .test)).length = cs.length := by
  induction cs with
  | nil => exact ⟨rfl, rfl, rfl⟩
  | cons c cs ih =>
      obtain ⟨hheight, hrun, hleaves⟩ := ih
      simp [heightOfAll, negationRunOfAll, leavesOfAll, height, negationRun, leaves, hheight, hrun,
        hleaves]

/-- **Comparisons one by one are read as the filter of these comparisons.** -/
theorem comparisons_read {f : Field} (hf : f.declaredType = none ∨ f.declaredType = some .str)
    (k : Choice) {first : List Char} {others : List (List Char)}
    (hvs : ∀ v ∈ first :: others, '"' ∉ v) {limits : Limits}
    (hlength : (String.ofList (testsText f k first others)).utf8ByteSize ≤
      limits.clamped.filterLength.toNat)
    (hleaves : others.length + 1 ≤ limits.clamped.filterLeaves.toNat) :
    read (String.ofList (testsText f k first others)) limits =
      .ok (choiceTests f k first others) := by
  obtain ⟨hfirst, hothers⟩ := List.forall_mem_cons.mp hvs
  have hfilters : (choiceClauses f k others).map (·.filter) =
      others.map fun v => .test (oneTest f k v) := by
    simp [choiceClauses]
  have htexts : (choiceClauses f k others).flatMap (fun o => o.sign ++ o.text) =
      others.flatMap fun v => signText k ++ testText f k v := by
    simp [choiceClauses, List.flatMap_map]
  have hsigns : ∀ o ∈ choiceClauses f k others, k.connective.Written o.sign := by
    intro o ho
    obtain ⟨v, _, rfl⟩ := List.mem_map.mp ho
    exact written_signText k
  have hwrites : ∀ o ∈ choiceClauses f k others, Writes Quoted o.filter o.text := by
    intro o ho
    obtain ⟨v, hv, rfl⟩ := List.mem_map.mp ho
    exact .test (quoted_testText hf k (hothers v hv))
  obtain ⟨hheight, hrun, hcount⟩ := measures_of_tests ((first :: others).map (oneTest f k))
  rw [List.map_map] at hheight hrun hcount
  have hread := Writes.read_joined limits readsLeaves_quoted k.connective
    (.test (quoted_testText hf k hfirst)) hsigns hwrites
  rw [hfilters, htexts] at hread
  refine hread hlength ?_ ?_ ?_
  · exact Nat.le_trans (Nat.le_of_eq hheight) (Nat.zero_le _)
  · exact Nat.le_trans (Nat.le_of_eq hrun) (Nat.zero_le _)
  · refine Nat.le_trans (Nat.le_of_eq hcount) ?_
    simpa using hleaves

/-! ## The verdicts -/

/-- Is a field that may be absent equal to one of the values? -/
def found (value : Option Value) (values : List Value) : Bool :=
  value.any fun v => values.any fun w => v.looseEq w

/-- A value is found in a list at its front or behind. -/
theorem found_cons (value : Option Value) (v : Value) (vs : List Value) :
    found value (v :: vs) = (found value [v] || found value vs) := by
  cases value <;> simp [found]

/-- A text that decides ends the search as an operand of its connective does. -/
theorem Choice.verdict_or (k : Choice) (a b : Bool) :
    k.verdict (a || b) =
      if k.verdict a = k.connective.decisive then k.verdict a else k.verdict b := by
  cases k <;> cases a <;> cases b <;> rfl

/-- Both ways tell found from not found. -/
theorem Choice.verdict_inj (k : Choice) {a b : Bool} : k.verdict a = k.verdict b ↔ a = b := by
  cases k <;> simp [verdict]

section Verdicts

variable {f : Field} {l : Listing} {value : Option Value}

/-- A condition with a list looks for the value in the list. -/
theorem evaluate_onList (k : Choice) (raw : String) (values : List Value)
    (h : f.valueIn l = .ok value) :
    (Comparison.mk f k.onList raw (.list values)).evaluate l =
      .ok (k.verdict (found value values)) := by
  cases value <;> cases k <;>
    simp [Comparison.evaluate, h, Choice.onList, Operator.apply, Operator.isNegated,
      Operator.verdict?, Value.memberOf?, Choice.verdict, found]

/-- A comparison with one text is whether the value is that text, or is not. -/
theorem evaluate_onOne (k : Choice) (raw : String) (v : Value) (h : f.valueIn l = .ok value) :
    (Comparison.mk f k.onOne raw v).evaluate l = .ok (k.verdict (found value [v])) := by
  cases value <;> cases k <;>
    simp [Comparison.evaluate, h, Choice.onOne, Operator.apply, Operator.isNegated,
      Operator.verdict?, Choice.verdict, found]

/-- Comparisons one by one look for the value among their operands. -/
theorem evaluate_oneByOne {α : Type} (k : Choice) (raw : α → String) (operand : α → Value)
    (first : α) (others : List α) (h : f.valueIn l = .ok value) :
    (k.connective.gather (.test ⟨f, k.onOne, raw first, operand first⟩)
      (others.map fun a => .test ⟨f, k.onOne, raw a, operand a⟩)).evaluate l =
      .ok (k.verdict (found value ((first :: others).map operand))) := by
  have hnode : ∀ as : List α,
      (k.connective.node (as.map fun a => .test ⟨f, k.onOne, raw a, operand a⟩)).evaluate l =
        .ok (k.verdict (found value (as.map operand))) := by
    intro as
    induction as with
    | nil =>
        rw [List.map_nil, evaluate_node_nil]
        cases k <;> cases value <;> rfl
    | cons a as ih =>
        rw [List.map_cons, evaluate_node_cons, ih, evaluate,
          evaluate_onOne k (raw a) (operand a) h, List.map_cons,
          found_cons value (operand a) (as.map operand), k.verdict_or]
        simp only [Except.bind]
        split <;> rfl
  rw [evaluate_gather]
  exact hnode (first :: others)

/-- A field without a value ends the comparisons with the error of the first. -/
theorem evaluate_oneByOne_of_missing {α : Type} (k : Choice) (raw : α → String)
    (operand : α → Value) (first : α) (others : List α) {s : Section}
    (h : f.valueIn l = .error s) :
    (k.connective.gather (.test ⟨f, k.onOne, raw first, operand first⟩)
      (others.map fun a => .test ⟨f, k.onOne, raw a, operand a⟩)).evaluate l =
      .error (.sieving f.name k.onOne.token (raw first)) := by
  have hfirst : (Comparison.mk f k.onOne (raw first) (operand first)).evaluate l =
      .error (.sieving f.name k.onOne.token (raw first)) :=
    Comparison.evaluate_eq_error_iff.mpr ⟨⟨s, h⟩, rfl⟩
  rw [evaluate_gather, evaluate_node_cons, evaluate, hfirst]
  rfl

/-- The list is evaluated to whether the value is among its pieces. -/
theorem evaluate_listTest (k : Choice) (vs : List (List Char)) (h : f.valueIn l = .ok value) :
    (listTest f k vs).evaluate l = .ok (k.verdict (found value (items f vs))) :=
  evaluate_onList k _ (items f vs) h

/-- The comparisons are evaluated to whether the value is among the texts. -/
theorem evaluate_choiceTests (k : Choice) (first : List Char) (others : List (List Char))
    (h : f.valueIn l = .ok value) :
    (choiceTests f k first others).evaluate l =
      .ok (k.verdict (found value ((first :: others).map fun v => .str (String.ofList v)))) :=
  evaluate_oneByOne k String.ofList (fun v => .str (String.ofList v)) first others h

/-- A field without a value ends both with an error. -/
theorem evaluate_of_missing (k : Choice) (first : List Char) (others : List (List Char)) {s : Section}
    (h : f.valueIn l = .error s) :
    (listTest f k (first :: others)).evaluate l = .error (listTest f k (first :: others)).failure ∧
      (choiceTests f k first others).evaluate l = .error (oneTest f k first).failure :=
  ⟨Comparison.evaluate_eq_error_iff.mpr ⟨⟨s, h⟩, rfl⟩,
    evaluate_oneByOne_of_missing k String.ofList (fun v => .str (String.ofList v)) first others h⟩

end Verdicts

/-! ## What the list stands for -/

/-- The first piece of an item begins with its quote. -/
theorem pieces_eq_cons (v : List Char) : ∃ p ps, pieces v = ('"' :: p) :: ps := by
  obtain ⟨p, ps, hsplit⟩ := List.exists_cons_of_ne_nil (List.splitOn_ne_nil ';' (v ++ ['"']))
  have hall : (inQuotes v).splitOn ';' = ('"' :: p) :: ps := by
    rw [List.splitOn] at hsplit
    rw [inQuotes, List.splitOn, List.splitOnP_cons_eq_if_modifyHead, hsplit]
    rfl
  obtain ⟨rest, hrest⟩ := Text.exists_trim_cons (c := '"') (by decide) p
  exact ⟨rest, ps.map Text.trim, by rw [pieces, hall, List.map_cons, hrest]⟩

/-- So the first value of the list has a quote. -/
theorem items_eq_cons (f : Field) (first : List Char) (others : List (List Char)) :
    ∃ p vs, items f (first :: others) = .str (String.ofList ('"' :: p)) :: vs := by
  obtain ⟨p, ps, hpieces⟩ := pieces_eq_cons first
  unfold items pieceValues
  rw [List.flatMap_cons, hpieces]
  cases f.declaredType with
  | none => exact ⟨p, _, by rw [List.cons_append, List.map_cons, inferScalar_quote]⟩
  | some t => exact ⟨p, _, rfl⟩

/-- The values of the list are never the texts. -/
theorem items_ne_texts (f : Field) {first : List Char} (hfirst : '"' ∉ first)
    (others : List (List Char)) :
    items f (first :: others) ≠ (first :: others).map fun v => .str (String.ofList v) := by
  obtain ⟨p, vs, hitems⟩ := items_eq_cons f first others
  intro h
  rw [hitems, List.map_cons] at h
  have hsame : '"' :: p = first := by
    have htext := Value.str.inj (List.cons.inj h).1
    rw [← String.toList_ofList (l := '"' :: p), htext, String.toList_ofList]
  exact hfirst (hsame ▸ List.mem_cons_self)

/-- **What a list with quoted items means.**  It is read as one condition, with the pieces of the
items, in their quotes, as its values, and these are never the texts between the quotes.  The
comparisons with the texts one by one are read as well, whatever the texts are.  On a listing the
two fail alike, and otherwise give the same verdict exactly if the value of the field is among the
pieces just when it is among the texts. -/
theorem quotedItems_mean_comparisons_iff {f : Field}
    (hf : f.declaredType = none ∨ f.declaredType = some .str) (k : Choice) {first : List Char}
    {others : List (List Char)} (hvs : ∀ v ∈ first :: others, '"' ∉ v) :
    (∀ limits : Limits, (String.ofList (listText f k (first :: others))).utf8ByteSize ≤
        limits.clamped.filterLength.toNat → 1 ≤ limits.clamped.filterLeaves.toNat →
      read (String.ofList (listText f k (first :: others))) limits =
        .ok (.test (listTest f k (first :: others)))) ∧
    (listTest f k (first :: others)).operand ≠
      .list ((first :: others).map fun v => .str (String.ofList v)) ∧
    (∀ limits : Limits, (String.ofList (testsText f k first others)).utf8ByteSize ≤
        limits.clamped.filterLength.toNat → others.length + 1 ≤ limits.clamped.filterLeaves.toNat →
      read (String.ofList (testsText f k first others)) limits = .ok (choiceTests f k first others)) ∧
    ∀ l : Listing, ((Filter.test (listTest f k (first :: others))).evaluate l).toOption =
        ((choiceTests f k first others).evaluate l).toOption ↔
      ∀ value, f.valueIn l = .ok value →
        found value (items f (first :: others)) =
          found value ((first :: others).map fun v => .str (String.ofList v)) := by
  refine ⟨fun limits hlength hleaves => ?_, fun h => ?_, fun limits hlength hleaves => ?_,
    fun l => ?_⟩
  · exact quotedItems_read hf k hvs (List.cons_ne_nil _ _) hlength hleaves
  · exact items_ne_texts f (hvs first List.mem_cons_self) others (Value.list.inj h)
  · exact comparisons_read hf k hvs hlength hleaves
  · rw [evaluate]
    cases hvalue : f.valueIn l with
    | error s =>
        obtain ⟨hlist, htests⟩ := evaluate_of_missing k first others hvalue
        simp [hlist, htests, Except.toOption]
    | ok value =>
        rw [evaluate_listTest k (first :: others) hvalue, evaluate_choiceTests k first others hvalue]
        simp only [Except.toOption, Option.some.injEq, k.verdict_inj, Except.ok.injEq, forall_eq']

/-- A flat of which the postcode is known. -/
def postcodeFlat : Listing :=
  { Listing.empty with geo := some ⟨some "30159", none, none, none, none, none, none, none⟩ }

/-- Two postcodes in quotes, as a list and one by one. -/
theorem postcodes_read :
    read "plz∈[\"30159\";\"30161\"]" Limits.standard =
        .ok (.test ⟨.plz, .isIn, "[\"30159\";\"30161\"]",
          .list [.str "\"30159\"", .str "\"30161\""]⟩) ∧
      read "plz==\"30159\" or plz==\"30161\"" Limits.standard =
        .ok (.or [.test ⟨.plz, .eq, "30159", .str "30159"⟩,
          .test ⟨.plz, .eq, "30161", .str "30161"⟩]) := by
  have hquotes : ∀ v ∈ ["30159".toList, "30161".toList], '"' ∉ v := by decide
  obtain ⟨hlist, -, htests, -⟩ :=
    quotedItems_mean_comparisons_iff (f := .plz) (Or.inr rfl) .among hquotes
  have hlistTest : listTest .plz .among ["30159".toList, "30161".toList] =
      ⟨.plz, .isIn, "[\"30159\";\"30161\"]", .list [.str "\"30159\"", .str "\"30161\""]⟩ := by
    decide +kernel
  have hchoice : choiceTests .plz .among "30159".toList ["30161".toList] =
      .or [.test ⟨.plz, .eq, "30159", .str "30159"⟩, .test ⟨.plz, .eq, "30161", .str "30161"⟩] := by
    decide +kernel
  rw [hlistTest] at hlist
  rw [hchoice] at htests
  exact ⟨hlist Limits.standard (by decide +kernel) (by decide),
    htests Limits.standard (by decide +kernel) (by decide)⟩

/-- The flat with the first postcode is not found in the list of both. -/
theorem quotedItem_missed :
    ∃ c g, read "plz∈[\"30159\";\"30161\"]" Limits.standard = .ok (.test c) ∧
      c.operand ≠ .list [.str "30159", .str "30161"] ∧
      read "plz==\"30159\" or plz==\"30161\"" Limits.standard = .ok g ∧
      (Filter.test c).evaluate postcodeFlat = .ok false ∧ g.evaluate postcodeFlat = .ok true := by
  refine ⟨⟨.plz, .isIn, "[\"30159\";\"30161\"]", .list [.str "\"30159\"", .str "\"30161\""]⟩,
    .or [.test ⟨.plz, .eq, "30159", .str "30159"⟩, .test ⟨.plz, .eq, "30161", .str "30161"⟩],
    eq_ok_of_toOption ?_, by decide, eq_ok_of_toOption ?_, rfl, rfl⟩ <;> decide +kernel

end ListingQuery.Filter
