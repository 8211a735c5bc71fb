import Mathlib.Logic.Relation
import ListingQuery.Proofs.Filter.Places
import ListingQuery.Proofs.Filter.Written

/-!
# Other spellings of a filter

How a filter is spaced and how its connectives are spelled is of no account.  Outside quotes and lists
a gap may be any other gap, next to a parenthesis or at an end of the text even none at all; keywords
may have letters of any case; and symbols may be words with blanks around them.  Whatever else the
text is, well formed or not, it has the same tokens afterwards or fails in the same way.

* `Respells` is a single replacement, at any place of any text that it applies to;
* `Respells.ofText_eq` says that one replacement keeps the tokens;
* `respelled_filters_read_alike` is the result for any number of them, forwards and backwards.
-/

namespace ListingQuery.Filter

namespace Token

/-- The words that stand for connectives and for a negation. -/
def keywords : List (List Char) :=
  [['a', 'n', 'd'], ['o', 'r'], ['n', 'o', 't']]

/-- The word, with the text `after` behind it, is a word of its own. -/
def IsWholeWord (word after : List Char) : Prop :=
  after = [] ∨ ∃ sep more, Separator word.reverse sep more ∧ after = sep ++ more

/-- One replacement in the text of a filter that is of no account. -/
inductive Respells : List Char → List Char → Prop
  | gap {before gap gap' after word : List Char}
      (hplace : Reaches before (gap ++ after) .outside word)
      (hgap : Text.Blanks gap) (hne : gap ≠ []) (hgap' : Text.Blanks gap') (hne' : gap' ≠ []) :
      Respells (before ++ (gap ++ after)) (before ++ (gap' ++ after))
  | front {gap gap' after : List Char} (hgap : Text.Blanks gap) (hgap' : Text.Blanks gap') :
      Respells (gap ++ after) (gap' ++ after)
  | back {before gap gap' : List Char} (hgap : Text.Blanks gap) (hgap' : Text.Blanks gap') :
      Respells (before ++ gap) (before ++ gap')
  | beforeParen {before gap gap' after word : List Char} {paren : Char}
      (hparen : paren = '(' ∨ paren = ')')
      (hplace : Reaches before (gap ++ paren :: after) .outside word)
      (hgap : Text.Blanks gap) (hgap' : Text.Blanks gap') :
      Respells (before ++ (gap ++ paren :: after)) (before ++ (gap' ++ paren :: after))
  | behindParen {before gap gap' after word : List Char} {paren : Char}
      (hparen : paren = '(' ∨ paren = ')')
      (hplace : Reaches before (paren :: (gap ++ after)) .outside word)
      (hgap : Text.Blanks gap) (hgap' : Text.Blanks gap') :
      Respells (before ++ paren :: (gap ++ after)) (before ++ paren :: (gap' ++ after))
  | letters {before after w w' k : List Char} (hk : k ∈ keywords)
      (hplace : Reaches before (w ++ after) .outside []) (hwhole : IsWholeWord w after)
      (hw : Text.sameLetters w k = true) (hw' : Text.sameLetters w' k = true) :
      Respells (before ++ (w ++ after)) (before ++ (w' ++ after))
  | symbol {before after front back w word : List Char} (k : Connective)
      (hplace : Reaches before (k.symbol ++ after) .outside word)
      (hw : Text.sameLetters w k.word = true)
      (hfront : Text.Blanks front) (hfrontNe : front ≠ [])
      (hback : Text.Blanks back) (hbackNe : back ≠ []) :
      Respells (before ++ (k.symbol ++ after)) (before ++ (front ++ (w ++ (back ++ after))))
  | negation {before after front back w : List Char}
      (hplace : Reaches before ('!' :: after) .outside []) (hop : beginsOperator after = false)
      (hw : Text.sameLetters w ['n', 'o', 't'] = true)
      (hfront : Text.Blanks front) (hfrontNe : front ≠ [])
      (hback : Text.Blanks back) (hbackNe : back ≠ []) :
      Respells (before ++ '!' :: after) (before ++ (front ++ (w ++ (back ++ after))))

/-! ## Gaps -/

/-- In front of a text that ends words a gap, be it empty, ends the word and leaves no trace. -/
theorem scan_gap_of_endsWord {gap rest : List Char} (hgap : Text.Blanks gap)
    (hrest : EndsWord rest) (word : List Char) (out : List Token) :
    scan .outside word out (gap ++ rest) = scan .outside [] (flush word out) rest := by
  cases gap with
  | nil => exact hrest word out
  | cons c gap =>
      rw [endsWord_gap hgap (List.cons_ne_nil _ _) rest word out, scan_blanks hgap]

/-- A gap that is not empty ends the word and leaves no trace. -/
theorem scan_gap {gap : List Char} (hgap : Text.Blanks gap) (hne : gap ≠ []) (rest word : List Char)
    (out : List Token) :
    scan .outside word out (gap ++ rest) = scan .outside [] (flush word out) rest := by
  rw [endsWord_gap hgap hne rest word out, scan_blanks hgap]

/-- Blanks stand apart from what is before them. -/
theorem unglued_gap {gap : List Char} (hgap : Text.Blanks gap) (hne : gap ≠ [])
    (rest : List Char) : Unglued (gap ++ rest) := by
  obtain ⟨c, gap, rfl⟩ := List.exists_cons_of_ne_nil hne
  exact unglued_cons (Text.not_mem_of_isBlank (by decide) (hgap c List.mem_cons_self)) _

/-- Where something is open, the word that is being read is of no account at the end. -/
theorem scan_nil_of_open {r : Region} (hr : r ≠ .outside) (word word' : List Char)
    (out : List Token) : scan r word out [] = scan r word' out [] := by
  obtain ⟨quote, brackets⟩ := r
  rw [scan_nil, scan_nil]
  cases quote with
  | some q => rfl
  | none =>
      have hbrackets : 0 < brackets := by
        rw [Nat.pos_iff_ne_zero]
        rintro rfl
        exact hr rfl
      simp [hbrackets]

/-- At the end of the text blanks are of no account, whatever is open there. -/
theorem scan_gap_end {r : Region} (hquote : ∀ q, r.quote = some q → Region.isQuote q = true)
    {gap : List Char} (hgap : Text.Blanks gap) (word : List Char) (out : List Token) :
    scan r word out gap = scan r word out [] := by
  by_cases hr : r = .outside
  · subst hr
    have hscan := scan_gap_of_endsWord hgap endsWord_nil word out
    rw [List.append_nil] at hscan
    rw [hscan]
    exact (endsWord_nil word out).symm
  · induction gap generalizing word with
    | nil => rfl
    | cons c gap ih =>
        have hclosed : r.isOpen word c = false :=
          Bool.eq_false_iff.mpr fun hopen => hr (Region.next_of_isOpen hopen).1
        rw [scan_of_not_isOpen hclosed, next_of_isBlank hquote (hgap c List.mem_cons_self),
          ih hgap.tail]
        exact scan_nil_of_open hr _ _ _

/-! ## Keywords -/

section Keywords

variable {k w : List Char}

/-- A keyword consists of letters, in whatever case. -/
theorem isLetter_of_keyword (hk : k ∈ keywords) (hw : Text.sameLetters w k = true) :
    ∀ c ∈ w, IsLetter c := by
  have hletters : ∀ k ∈ keywords, k.all (fun c =>
      97 ≤ (Text.asciiLower c).toNat && (Text.asciiLower c).toNat ≤ 122) = true := by decide
  exact isLetter_of_sameLetters (hletters k hk) hw

theorem ne_nil_of_keyword (hk : k ∈ keywords) (hw : Text.sameLetters w k = true) : w ≠ [] := by
  have hne : ∀ k ∈ keywords, k ≠ [] := by decide
  exact ne_nil_of_sameLetters (hne k hk) hw

/-- A keyword is the same token in letters of any case. -/
theorem ofWord_of_keyword (hk : k ∈ keywords) (hw : Text.sameLetters w k = true) :
    ofWord w = ofWord k := by
  simp only [keywords, List.mem_cons, List.not_mem_nil, or_false] at hk
  rcases hk with rfl | rfl | rfl
  · exact ofWord_connective (k := .conjunction) hw
  · exact ofWord_connective (k := .disjunction) hw
  · exact ofWord_not hw

/-- A keyword stands apart from what is before it. -/
theorem unglued_of_keyword (hk : k ∈ keywords) (hw : Text.sameLetters w k = true)
    (after : List Char) : Unglued (w ++ after) := by
  obtain ⟨c, w, rfl⟩ := List.exists_cons_of_ne_nil (ne_nil_of_keyword hk hw)
  have hletter := isLetter_of_keyword hk hw c List.mem_cons_self
  apply unglued_cons
  intro hmem
  have hall : ['=', '%', '~', '&', '|'].all (fun d => !decide (IsLetter d)) = true := by decide
  have hnot := List.all_eq_true.mp hall c hmem
  simp [hletter] at hnot

/-- A whole word ends in front of what is behind it. -/
theorem IsWholeWord.endsWord {after : List Char} (h : IsWholeWord w after) (hne : w ≠ []) :
    EndsWord after := by
  rcases h with rfl | ⟨sep, more, hsep, rfl⟩
  · exact endsWord_nil
  · cases hsep with
    | blank hblank => exact endsWord_blank hblank more
    | openParen => exact endsWord_openParen more
    | closeParen => exact endsWord_closeParen more
    | symbol k => exact endsWord_symbol k more
    | negation hword _ => exact absurd (List.reverse_eq_nil_iff.mp hword) hne

/-- A keyword on its own is its token. -/
theorem scan_keyword (hk : k ∈ keywords) (hw : Text.sameLetters w k = true) {after : List Char}
    (hafter : EndsWord after) (out : List Token) :
    scan .outside [] out (w ++ after) = scan .outside [] (ofWord k :: out) after := by
  rw [scans_letters (isLetter_of_keyword hk hw) (ne_nil_of_keyword hk hw) after out hafter,
    ofWord_of_keyword hk hw]
  rfl

/-- A keyword with blanks around it ends the word before it and is its token. -/
theorem scan_spaced_keyword (hk : k ∈ keywords) (hw : Text.sameLetters w k = true)
    {front back : List Char} (hfront : Text.Blanks front) (hfrontNe : front ≠ [])
    (hback : Text.Blanks back) (hbackNe : back ≠ []) (word after : List Char) (out : List Token) :
    scan .outside word out (front ++ (w ++ (back ++ after))) =
      scan .outside [] (ofWord k :: flush word out) after := by
  rw [scan_gap hfront hfrontNe, scan_keyword hk hw (endsWord_gap hback hbackNe after),
    scan_blanks hback]

end Keywords

/-! ## Replacements -/

theorem endsWord_paren {paren : Char} (h : paren = '(' ∨ paren = ')') (rest : List Char) :
    EndsWord (paren :: rest) := by
  rcases h with rfl | rfl
  · exact endsWord_openParen rest
  · exact endsWord_closeParen rest

/-- Behind a parenthesis blanks are of no account. -/
theorem scan_paren_gap {paren : Char} (h : paren = '(' ∨ paren = ')') {gap : List Char}
    (hgap : Text.Blanks gap) (word rest : List Char) (out : List Token) :
    scan .outside word out (paren :: (gap ++ rest)) = scan .outside word out (paren :: rest) := by
  rcases h with rfl | rfl
  · rw [scan_openParen, scan_blanks hgap, scan_openParen]
  · rw [scan_closeParen, scan_blanks hgap, scan_closeParen]

/-- **One replacement keeps the tokens**, or the way in which the text fails. -/
theorem Respells.ofText_eq {cs ds : List Char} (h : Respells cs ds) : ofText cs = ofText ds := by
  cases h with
  | @gap before gap gap' after word hplace hgap hne hgap' hne' =>
      refine hplace.ofText_eq ((unglued_gap hgap hne _).sameAhead (unglued_gap hgap' hne' _)) ?_
      intro out
      rw [scan_gap hgap hne, scan_gap hgap' hne']
  | @front gap gap' after hgap hgap' =>
      rw [Token.ofText_eq, Token.ofText_eq, scan_blanks hgap, scan_blanks hgap']
  | @back before gap gap' hgap hgap' =>
      have hunglued : ∀ {g}, Text.Blanks g → Unglued g := fun {g} hg => by
        simpa using unglued_gap_append hg unglued_nil
      obtain ⟨r, word, hplace⟩ := exists_reaches before (hunglued hgap)
      refine hplace.ofText_eq ((hunglued hgap).sameAhead (hunglued hgap')) fun out => ?_
      rw [scan_gap_end hplace.isQuote hgap, scan_gap_end hplace.isQuote hgap']
  | @beforeParen before gap gap' after word paren hparen hplace hgap hgap' =>
      have hunglued : Unglued (paren :: after) :=
        unglued_cons (by rcases hparen with rfl | rfl <;> decide) after
      refine hplace.ofText_eq ((unglued_gap_append hgap hunglued).sameAhead
        (unglued_gap_append hgap' hunglued)) fun out => ?_
      have hends := endsWord_paren hparen after
      rw [scan_gap_of_endsWord hgap hends, scan_gap_of_endsWord hgap' hends]
  | @behindParen before gap gap' after word paren hparen hplace hgap hgap' =>
      refine hplace.ofText_eq (SameAhead.cons paren _ _) fun out => ?_
      rw [scan_paren_gap hparen hgap, scan_paren_gap hparen hgap']
  | @letters before after w w' k hk hplace hwhole hw hw' =>
      refine hplace.ofText_eq ((unglued_of_keyword hk hw after).sameAhead
        (unglued_of_keyword hk hw' after)) fun out => ?_
      have hends := hwhole.endsWord (ne_nil_of_keyword hk hw)
      rw [scan_keyword hk hw hends, scan_keyword hk hw' hends]
  | @symbol before after front back w word k hplace hw hfront hfrontNe hback hbackNe =>
      have hk : k.word ∈ keywords := by cases k <;> decide
      have hop : beginsOperator (k.symbol ++ after) = false := by cases k <;> rfl
      refine hplace.ofText_eq (Or.inr ⟨hop, unglued_gap hfront hfrontNe _⟩) fun out => ?_
      have htoken : ofWord k.word = k.token := by cases k <;> rfl
      rw [scan_symbol, scan_spaced_keyword hk hw hfront hfrontNe hback hbackNe, htoken]
  | @negation before after front back w hplace hop hw hfront hfrontNe hback hbackNe =>
      refine hplace.ofText_eq (Or.inr ⟨rfl, unglued_gap hfront hfrontNe _⟩) fun out => ?_
      rw [scan_negation hop, scan_spaced_keyword (by decide) hw hfront hfrontNe hback hbackNe]
      rfl

/-- Any number of replacements keep the tokens. -/
theorem ofText_eq_of_eqvGen {cs ds : List Char} (h : Relation.EqvGen Respells cs ds) :
    ofText cs = ofText ds := by
  induction h with
  | rel _ _ hstep => exact hstep.ofText_eq
  | refl _ => rfl
  | symm _ _ _ ih => exact ih.symm
  | trans _ _ _ _ _ ih ih' => exact ih.trans ih'

end Token

open Token

/-- A text of a length that is allowed is read by its tokens. -/
theorem read_congr {a b : String} {limits : Limits} (htokens : ofText a.toList = ofText b.toList)
    (ha : a.utf8ByteSize ≤ limits.clamped.filterLength.toNat)
    (hb : b.utf8ByteSize ≤ limits.clamped.filterLength.toNat) : read a limits = read b limits := by
  simp only [read, Nat.not_lt.mpr ha, Nat.not_lt.mpr hb, if_false, htokens]

/-- **How a filter is spaced and how its connectives are spelled is of no account.**  Texts that come
from each other by replacements have the same tokens or fail in the same way, and they are read alike
wherever both have an allowed length. -/
theorem respelled_filters_read_alike (a b : String)
    (h : Relation.EqvGen Respells a.toList b.toList) :
    ofText a.toList = ofText b.toList ∧
      ∀ limits : Limits, a.utf8ByteSize ≤ limits.clamped.filterLength.toNat →
        b.utf8ByteSize ≤ limits.clamped.filterLength.toNat → read a limits = read b limits := by
  have htokens := ofText_eq_of_eqvGen h
  exact ⟨htokens, fun limits ha hb => read_congr htokens ha hb⟩

/-- At least three rooms, and not below the second floor. -/
def highRooms : Filter :=
  .and [.test ⟨.zimmer, .ge, "3", .int 3⟩, .not (.test ⟨.etage, .lt, "2", .int 2⟩)]

/-- The tokens of that filter: two fragments of one word each, and the connectives between them. -/
def highRoomsTokens : List Token :=
  [.fragment "zimmer>=3".toList 1, .and, .not, .fragment "etage<2".toList 1]

/-- Symbols and words, close together and far apart, are the same tokens and the same filter. -/
theorem spaced_rooms_read_alike :
    ofText "zimmer>=3&&!etage<2".toList = .ok highRoomsTokens ∧
      ofText "zimmer>=3  AND  not etage<2".toList = .ok highRoomsTokens ∧
      read "zimmer>=3&&!etage<2" Limits.standard = .ok highRooms ∧
      read "zimmer>=3  AND  not etage<2" Limits.standard = .ok highRooms ∧
      ∀ limits : Limits, "zimmer>=3&&!etage<2".utf8ByteSize ≤ limits.clamped.filterLength.toNat →
        "zimmer>=3  AND  not etage<2".utf8ByteSize ≤ limits.clamped.filterLength.toNat →
        read "zimmer>=3&&!etage<2" limits = read "zimmer>=3  AND  not etage<2" limits := by
  have hplain : "zimmer>=3".toList.all isPlain = true := by decide
  have hrooms : ∀ rest, Reaches "zimmer>=3".toList rest .outside "zimmer>=3".toList.reverse :=
    fun rest => (Reaches.start ("zimmer>=3".toList ++ rest)).plain (List.all_eq_true.mp hplain)
  have hbehind : ∀ rest, Reaches "zimmer>=3&&".toList rest .outside [] := fun rest =>
    .separator (hrooms (Connective.conjunction.symbol ++ rest)) (.symbol .conjunction)
  -- first the exclamation mark becomes a word, and then the symbol before it
  have hnot : Respells "zimmer>=3&&!etage<2".toList "zimmer>=3&& not etage<2".toList :=
    .negation (hbehind _) rfl (w := "not".toList) (by decide)
      Text.blanks_space (by decide) Text.blanks_space (by decide)
  have htwo : Text.Blanks [' ', ' '] := List.forall_mem_cons.mpr ⟨by decide, Text.blanks_space⟩
  have hand : Respells "zimmer>=3&& not etage<2".toList "zimmer>=3  AND  not etage<2".toList :=
    .symbol .conjunction (hrooms _) (w := "AND".toList) (by decide)
      htwo (by decide) Text.blanks_space (by decide)
  obtain ⟨htokens, hread⟩ :=
    respelled_filters_read_alike _ _ (.trans _ _ _ (.rel _ _ hnot) (.rel _ _ hand))
  have hclose : ofText "zimmer>=3&&!etage<2".toList = .ok highRoomsTokens :=
    eq_ok_of_toOption (by decide +kernel)
  have hfilter : read "zimmer>=3&&!etage<2" Limits.standard = .ok highRooms :=
    eq_ok_of_toOption (by decide +kernel)
  have hsame := hread Limits.standard (by decide +kernel) (by decide +kernel)
  exact ⟨hclose, htokens.symm.trans hclose, hfilter, hsame.symm.trans hfilter, hread⟩

end ListingQuery.Filter
