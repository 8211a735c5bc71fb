import ListingQuery.Proofs.Filter.Display

/-!
# Conditions with a plain operand

A word without blanks, quotes, brackets, connectives and operators in it is displayed as it was
written, and so is a list of such words in brackets.  A filter with such operands is read back from
its displayed text as the same filter.

* `PlainWord` and `PlainOperand` are these operands;
* `PlainOperand.scans` and `PlainOperand.operatorIn?_eq_none` say that neither the lexer nor the
  search for an operator sees anything in them;
* `displayed_plain_filter_read` is the way of a filter through display and reader.
-/

namespace ListingQuery

namespace Filter

open Token

/-- A word that has no meaning of its own in a filter: it is no keyword in letters of any case, and
there is no blank, quote, parenthesis, bracket, exclamation mark, half of a connective's symbol or
operator in it. -/
structure PlainWord (w : List Char) : Prop where
  ne_nil : w ≠ []
  not_keyword : ∀ k ∈ [['a', 'n', 'd'], ['o', 'r'], ['n', 'o', 't']],
    Text.sameLetters w k = false
  not_marked : ∀ c ∈ w, Text.isBlank c = false ∧
    c ∉ ['"', '\'', '(', ')', '[', ']', '&', '|', '!']
  no_operator : ∀ s ∈ Spelling.all, ¬ s.chars <:+: w

theorem not_marked_of_all {w marks : List Char}
    (h : w.all (fun c => !Text.isBlank c && !(marks.contains c)) = true) :
    ∀ c ∈ w, Text.isBlank c = false ∧ c ∉ marks := by
  intro c hc
  have hchecked := List.all_eq_true.mp h c hc
  rw [Bool.and_eq_true, Bool.not_eq_true', Bool.not_eq_true', ← Bool.not_eq_true (List.contains _ c),
    List.contains_iff_mem] at hchecked
  exact hchecked

/-- A list of words in brackets. -/
def listOf (ws : List (List Char)) : List Char :=
  '[' :: (List.intercalate [';'] ws ++ [']'])

/-- A plain word, or a list of plain words. -/
inductive PlainOperand : List Char → Prop
  | word {w : List Char} (hw : PlainWord w) : PlainOperand w
  | list {ws : List (List Char)} (hws : ∀ w ∈ ws, PlainWord w) : PlainOperand (listOf ws)

/-! ## Words -/

/-- Neither quotes, blanks nor brackets. -/
def Bare (cs : List Char) : Prop :=
  ∀ c ∈ cs, Region.isQuote c = false ∧ Text.isBlank c = false ∧ c ≠ '[' ∧ c ≠ ']'

/-- A plain word has no quotes, blanks or brackets in it. -/
theorem PlainWord.bare {w : List Char} (hw : PlainWord w) : Bare w := by
  intro c hc
  obtain ⟨hblank, hmarks⟩ := hw.not_marked c hc
  simp only [List.mem_cons, List.not_mem_nil, or_false, not_or] at hmarks
  obtain ⟨hdouble, hsingle, _, _, hopening, hclosing, _⟩ := hmarks
  exact ⟨by simp [Region.isQuote, hdouble, hsingle], hblank, hopening, hclosing⟩

theorem PlainWord.isPlain {w : List Char} (hw : PlainWord w) : ∀ c ∈ w, isPlain c = true := by
  intro c hc
  obtain ⟨hblank, hmarks⟩ := hw.not_marked c hc
  simp only [List.mem_cons, List.not_mem_nil, or_false, not_or] at hmarks
  simp [Token.isPlain, Region.isQuote, marks, hblank, hmarks]

/-- A plain word is a condition of one word, and no connective. -/
theorem PlainWord.ofWord {w : List Char} (hw : PlainWord w) : ofWord w = fragment w 1 := by
  simp [Token.ofWord, hw.not_keyword]

/-- Bare words are bare with semicolons between them. -/
theorem bare_intercalate {ws : List (List Char)} (hws : ∀ w ∈ ws, Bare w) :
    Bare (List.intercalate [';'] ws) := by
  induction ws with
  | nil =>
      intro c hc
      cases hc
  | cons w ws ih =>
      have hw := hws w List.mem_cons_self
      have hrest := ih fun v hv => hws v (List.mem_cons_of_mem _ hv)
      cases ws with
      | nil =>
          rw [List.intercalate_singleton]
          exact hw
      | cons v ws =>
          rw [List.intercalate_cons_cons]
          intro c hc
          rcases List.mem_append.mp hc with hc | hc
          · rcases List.mem_append.mp hc with hc | hc
            · exact hw c hc
            · rw [List.mem_singleton.mp hc]
              decide
          · exact hrest c hc

/-! ## Operands -/

theorem PlainOperand.ne_nil {w : List Char} (h : PlainOperand w) : w ≠ [] := by
  cases h with
  | word hw => exact hw.ne_nil
  | list _ => exact List.cons_ne_nil _ _

/-- There is no blank in a plain operand, and no quote. -/
theorem PlainOperand.not_marked {w : List Char} (h : PlainOperand w) :
    ∀ c ∈ w, Region.isQuote c = false ∧ Text.isBlank c = false := by
  cases h with
  | word hw => exact fun c hc => ⟨(hw.bare c hc).1, (hw.bare c hc).2.1⟩
  | @list ws hws =>
      have hbare := bare_intercalate fun v hv => (hws v hv).bare
      intro c hc
      rcases List.mem_cons.mp hc with rfl | hc
      · decide
      · rcases List.mem_append.mp hc with hc | hc
        · exact ⟨(hbare c hc).1, (hbare c hc).2.1⟩
        · rw [List.mem_singleton.mp hc]
          decide

/-- The lexer reads a plain operand as one word. -/
theorem PlainOperand.scans {w : List Char} (h : PlainOperand w) : Scans w [fragment w 1] := by
  cases h with
  | word hw =>
      rw [← hw.ofWord]
      refine scans_word hw.ne_nil fun rest out => ?_
      rw [scan_plain hw.isPlain, List.append_nil]
  | @list ws hws =>
      have hbare := bare_intercalate fun v hv => (hws v hv).bare
      have hword : ofWord (listOf ws) = fragment (listOf ws) 1 :=
        ofWord_of_mem (c := '[') (by simp [listOf]) (by decide)
      rw [← hword]
      refine scans_word (List.cons_ne_nil _ _) fun rest out => ?_
      have hlist := scan_list
        (fun c hc => ⟨(hbare c hc).1, (hbare c hc).2.2⟩) [] rest out
      simpa [listOf] using hlist

/-- There is no operator in a plain operand. -/
theorem PlainOperand.operatorIn?_eq_none {w : List Char} (h : PlainOperand w) :
    Comparison.operatorIn? w = none := by
  cases h with
  | word hw =>
      exact (Comparison.cut_eq_none_iff
        (fun c hc => ⟨(hw.bare c hc).1, (hw.bare c hc).2.2.1⟩) []).mpr hw.no_operator
  | @list ws hws =>
      have hbare := bare_intercalate fun v hv => (hws v hv).bare
      exact Comparison.operatorIn?_of_covers
        (Region.covers_list (fun c hc => ⟨(hbare c hc).1, (hbare c hc).2.2⟩) _).brackets

/-- There are no quotes around a plain operand. -/
theorem PlainOperand.unquote {w : List Char} (h : PlainOperand w) :
    Comparison.unquote w = (w, false) := by
  obtain ⟨c, w, rfl⟩ := List.exists_cons_of_ne_nil h.ne_nil
  have hquote := (h.not_marked c List.mem_cons_self).1
  simp only [Region.isQuote, Bool.or_eq_false_iff, beq_eq_false_iff_ne] at hquote
  simp [Comparison.unquote, Text.between?, hquote]

/-- A plain operand neither begins nor ends with a blank. -/
theorem PlainOperand.framed {w : List Char} (h : PlainOperand w) : Text.Framed w :=
  Text.framed_of_no_blank fun c hc => (h.not_marked c hc).2

end Filter

/-! ## Conditions -/

namespace Comparison

open ListingQuery.Filter ListingQuery.Filter.Token

/-- A condition with a plain operand, which has the value that it has without quotes. -/
structure Plain (c : Comparison) : Prop where
  raw : PlainOperand c.raw.toList
  operand : operandValue? c.field c.op c.raw.toList false = some c.operand

/-- A comparison with a plain operand is shown with its raw text. -/
theorem Plain.text_eq {c : Comparison} (h : c.Plain) : c.text = c.head ++ ' ' :: c.raw.toList := by
  have hblank : c.raw.toList.any Text.isBlank = false :=
    List.any_eq_false.mpr fun d hd => by simp [(h.raw.not_marked d hd).2]
  rw [Comparison.text_eq, shown, hblank]
  rfl

/-- The displayed text of a plain condition is read as the condition. -/
theorem Plain.read {c : Comparison} (h : c.Plain) (words : Nat) :
    Comparison.read c.text words = .ok c := by
  have htrim : Text.trim (' ' :: c.raw.toList) = c.raw.toList := by
    have hframed := h.raw.framed.trim h.raw.ne_nil Text.blanks_space Text.blanks_nil
    rwa [List.append_nil] at hframed
  have hspace : ∀ d, (' ' :: c.raw.toList).head? = some d → d ∉ Spelling.starts := by
    intro d hd
    rw [← Option.some.inj hd]
    decide
  rw [h.text_eq, c.read_head_iff hspace, htrim, h.raw.operatorIn?_eq_none]
  refine ⟨rfl, rfl, by simp, ?_⟩
  simp [Takes, h.raw.unquote, h.operand]

/-- The lexer reads it as three words that follow each other. -/
theorem Plain.lexes {c : Comparison} (h : c.Plain) : Lexes c.text [fragment c.text 3] := by
  have hwords : Scans c.text ((c.field.name.toList :: [c.op.token.toList, c.raw.toList]).map
      (fragment · 1)) := by
    rw [h.text_eq]
    exact c.scans_head.append_gap h.raw.scans Text.blanks_space (by simp)
  have hmerged : merged c.field.name.toList [c.op.token.toList, c.raw.toList] = c.text := by
    simp [merged, h.text_eq, head]
  have hlexes := lexes_words hwords
  rwa [hmerged] at hlexes

end Comparison

namespace Filter

/-- Displayed conditions with plain operands are read wherever they stand. -/
theorem readsLeaves_plain : ReadsLeaves fun c cs => c.Plain ∧ cs = c.text := by
  refine ⟨?_, ?_⟩
  · rintro c _ ⟨_, rfl⟩
    obtain ⟨d, name, hname⟩ := List.exists_cons_of_ne_nil c.field.name_ne_nil
    have hletter := c.field.isLetter_of_mem_name d (by simp [hname])
    rw [c.text_eq, Comparison.head, hname]
    exact (startsPlainly_of_isLetter hletter (name ++ ' ' :: c.op.token.toList)).append _
  · rintro c _ ⟨hplain, rfl⟩
    exact ⟨c.text, 3, hplain.lexes, hplain.read 3⟩

/-- **Displayed filters with plain operands are read as themselves.**  The limits have to leave room
for the displayed text: for its bytes, for its conditions, for its runs of negations, and for its
nesting, which is the height of the filter, since every negation, conjunction and disjunction takes
one level. -/
theorem displayed_plain_filter_read {f : Filter} (hf : f.Branching)
    (hplain : ∀ c ∈ f.leaves, c.Plain) {limits : Limits}
    (hlength : (String.ofList f.text).utf8ByteSize ≤
      min limits.filterLength.toNat Limits.maxFilterLength.toNat)
    (hheight : f.height ≤ min limits.filterDepth.toNat Limits.maxFilterDepth.toNat)
    (hrun : f.negationRun ≤ min limits.negationRun.toNat Limits.maxNegationRun.toNat)
    (hleaves : f.leaves.length ≤
      min limits.filterLeaves.toNat Limits.maxFilterLeaves.toNat) :
    read (String.ofList f.text) limits = .ok f := by
  rw [← Limits.clamped_filterLength] at hlength
  rw [← Limits.clamped_filterDepth] at hheight
  rw [← Limits.clamped_negationRun] at hrun
  rw [← Limits.clamped_filterLeaves] at hleaves
  have hwrites : Writes (fun c cs => c.Plain ∧ cs = c.text) f f.text :=
    writes_text hf fun c hc => ⟨hplain c hc, rfl⟩
  exact hwrites.read readsLeaves_plain hlength hheight hrun hleaves

/-- A negated conjunction with a disjunction in it, and a list for one operand. -/
def negatedSearch : Filter :=
  .not (.and [.test ⟨.ort, .eq, "Hannover", .str "Hannover"⟩,
    .or [.test ⟨.plz, .isIn, "[30159;30161]", .list [.str "30159", .str "30161"]⟩,
      .test ⟨.zimmer, .ge, "3", .int 3⟩]])

/-- A negated search is displayed and read back. -/
theorem negatedSearch_displayed_read :
    String.ofList negatedSearch.text =
        "NOT (ort == Hannover AND (plz ∈ [30159;30161] OR zimmer >= 3))" ∧
      read (String.ofList negatedSearch.text) Limits.standard = .ok negatedSearch := by
  have hword : ∀ w ∈ ["Hannover".toList, "30159".toList, "30161".toList, "3".toList],
      PlainWord w := by
    intro w hw
    simp only [List.mem_cons, List.not_mem_nil, or_false] at hw
    rcases hw with rfl | rfl | rfl | rfl <;>
      exact ⟨by decide, by decide +kernel, not_marked_of_all (by decide +kernel),
        by decide +kernel⟩
  have hlist : PlainOperand (listOf ["30159".toList, "30161".toList]) := by
    refine .list fun w hw => hword w ?_
    simp only [List.mem_cons, List.not_mem_nil, or_false] at hw
    rcases hw with rfl | rfl <;> simp
  have htext : listOf ["30159".toList, "30161".toList] = "[30159;30161]".toList := by
    decide +kernel
  rw [htext] at hlist
  have hplain : ∀ c ∈ negatedSearch.leaves, c.Plain := by
    intro c hc
    simp only [negatedSearch, leaves, leavesOfAll, List.cons_append, List.nil_append,
      List.mem_cons, List.not_mem_nil, or_false] at hc
    rcases hc with rfl | rfl | rfl
    · exact ⟨.word (hword _ (by simp)), by decide +kernel⟩
    · exact ⟨hlist, by decide +kernel⟩
    · exact ⟨.word (hword _ (by simp)), by decide +kernel⟩
  have hbranching : negatedSearch.Branching := by
    simp [negatedSearch, Branching, AllBranching]
  exact ⟨by decide +kernel, displayed_plain_filter_read hbranching hplain (by decide +kernel)
    (by decide) (by decide) (by decide)⟩

end Filter

end ListingQuery
