import ListingQuery.Proofs.Filter.Rescanning

/-!
# Places in the text of a filter

What a character of a filter means depends on its place: whether a quote or a list is open there, and
which word is being read.  A place is reached by a walk over the text in front of it.  The walk takes
a step for every letter of a word and for everything that stands between words, and it sees as much
of the text behind as the lexer does, which is one character.

* `Separator` is what stands between words, and `Reaches` is the walk;
* `SameAhead` are the texts that the walk cannot tell apart when they stand behind a place;
* `Reaches.scan` says that the lexer makes the same walk, whatever stands behind the place, and
  `Reaches.ofText_eq` that texts have the same tokens if they go on alike from one place;
* `exists_reaches` says that the walk comes to every place that does not cut a symbol into two.
-/

namespace ListingQuery.Filter.Token

/-! ## Walks -/

/-- The text `sep` stands between words if it comes behind a word, which is given in reverse, and in
front of the text `rest`: a blank, a parenthesis, the symbol of a connective, or an exclamation mark
that negates, since no word has begun and the text behind does not make it an operator. -/
inductive Separator (word : List Char) : (sep rest : List Char) → Prop
  | blank {c : Char} {rest : List Char} (hblank : Text.isBlank c = true) : Separator word [c] rest
  | openParen {rest : List Char} : Separator word ['('] rest
  | closeParen {rest : List Char} : Separator word [')'] rest
  | symbol (k : Connective) {rest : List Char} : Separator word k.symbol rest
  | negation {rest : List Char} (hword : word = []) (hop : beginsOperator rest = false) :
      Separator word ['!'] rest

/-- A walk over the text `before`, with the text `rest` behind it, comes to a place in a region, where
a word is being read, in reverse. -/
inductive Reaches : (before rest : List Char) → Region → (word : List Char) → Prop
  | start (rest : List Char) : Reaches [] rest .outside []
  | letter {before rest word : List Char} {c : Char} {r : Region}
      (h : Reaches before (c :: rest) r word)
      (hletter : r = .outside → ∀ sep more, Separator word sep more → c :: rest ≠ sep ++ more) :
      Reaches (before ++ [c]) rest (r.next word c) (c :: word)
  | separator {before sep rest word : List Char} (h : Reaches before (sep ++ rest) .outside word)
      (hsep : Separator word sep rest) : Reaches (before ++ sep) rest .outside []

/-! ## What the walk sees ahead -/

/-- The text does not make an operator or a symbol of a character before it. -/
def Unglued (tail : List Char) : Prop :=
  ∀ c, tail.head? = some c → c ∉ ['=', '%', '~', '&', '|']

/-- A walk that comes to a place with the text `rest` behind it comes to the same place with the text
`tail` behind it. -/
def SameAhead (rest tail : List Char) : Prop :=
  tail.head? = rest.head? ∨ beginsOperator rest = false ∧ Unglued tail

theorem SameAhead.cons (c : Char) (rest tail : List Char) : SameAhead (c :: rest) (c :: tail) :=
  Or.inl rfl

/-- The end of a text stands apart from what is before it. -/
theorem unglued_nil : Unglued [] := by
  intro c hc
  cases hc

/-- A text stands apart if it begins with none of the characters of operators and symbols. -/
theorem unglued_cons {c : Char} (hc : c ∉ ['=', '%', '~', '&', '|']) (tail : List Char) :
    Unglued (c :: tail) := by
  intro d hd
  rwa [← Option.some.inj hd]

/-- Blanks stand apart from what is before them. -/
theorem unglued_gap_append {gap rest : List Char} (hgap : Text.Blanks gap) (hrest : Unglued rest) :
    Unglued (gap ++ rest) := by
  cases gap with
  | nil => exact hrest
  | cons c gap =>
      exact unglued_cons (Text.not_mem_of_isBlank (by decide) (hgap c List.mem_cons_self)) _

/-- No operator begins where a text stands apart. -/
theorem Unglued.beginsOperator_eq_false {tail : List Char} (h : Unglued tail) :
    beginsOperator tail = false := by
  cases tail with
  | nil => rfl
  | cons c tail =>
      have hc := h c rfl
      simp only [List.mem_cons, List.not_mem_nil, or_false, not_or] at hc
      simp [beginsOperator, hc]

/-- Texts that both stand apart from what is before them look the same. -/
theorem Unglued.sameAhead {rest tail : List Char} (hrest : Unglued rest) (htail : Unglued tail) :
    SameAhead rest tail :=
  Or.inr ⟨hrest.beginsOperator_eq_false, htail⟩

/-- Where no operator begins none does for a text that looks the same. -/
theorem SameAhead.beginsOperator_eq_false {rest tail : List Char} (h : SameAhead rest tail)
    (hop : beginsOperator rest = false) : beginsOperator tail = false := by
  rcases h with hsame | ⟨_, hunglued⟩
  · rw [beginsOperator_congr hsame, hop]
  · exact hunglued.beginsOperator_eq_false

theorem Separator.ne_nil {word sep rest : List Char} (h : Separator word sep rest) : sep ≠ [] := by
  cases h with
  | symbol k => cases k <;> exact List.cons_ne_nil _ _
  | _ => exact List.cons_ne_nil _ _

/-- What stands between words begins with a character that has a meaning of its own. -/
theorem Separator.not_isPlain {word sep rest : List Char} (h : Separator word sep rest) :
    ∃ c, sep.head? = some c ∧ isPlain c = false := by
  cases h with
  | blank hblank => exact ⟨_, rfl, by simp [isPlain, hblank]⟩
  | symbol k => cases k <;> exact ⟨_, rfl, by decide⟩
  | _ => exact ⟨_, rfl, by decide⟩

/-- A letter stays one if what is behind it looks the same. -/
theorem SameAhead.letter {word rest tail : List Char} {c : Char} (hahead : SameAhead rest tail)
    (hletter : ∀ sep more, Separator word sep more → c :: rest ≠ sep ++ more) :
    ∀ sep more, Separator word sep more → c :: tail ≠ sep ++ more := by
  intro sep more hsep heq
  cases hsep with
  | blank hblank =>
      obtain ⟨rfl, _⟩ := List.cons.inj heq
      exact hletter _ rest (.blank hblank) rfl
  | openParen =>
      obtain ⟨rfl, _⟩ := List.cons.inj heq
      exact hletter _ rest .openParen rfl
  | closeParen =>
      obtain ⟨rfl, _⟩ := List.cons.inj heq
      exact hletter _ rest .closeParen rfl
  | symbol k =>
      obtain ⟨a, hk, ha⟩ : ∃ a, k.symbol = [a, a] ∧ a ∈ ['=', '%', '~', '&', '|'] := by
        cases k <;> exact ⟨_, rfl, by decide⟩
      rw [hk] at heq
      obtain ⟨rfl, rfl⟩ := List.cons.inj heq
      rcases hahead with hsame | ⟨_, hunglued⟩
      · cases rest with
        | nil => cases hsame
        | cons d rest =>
            cases hsame
            exact hletter _ rest (.symbol k) (by rw [hk]; rfl)
      · exact hunglued c rfl ha
  | negation hword hop =>
      obtain ⟨rfl, rfl⟩ := List.cons.inj heq
      have hrest : beginsOperator rest = false := by
        rcases hahead with hsame | ⟨hrest, _⟩
        · rw [← beginsOperator_congr hsame, hop]
        · exact hrest
      exact hletter _ rest (.negation hword hrest) rfl

/-! ## The lexer makes the walk -/

/-- The lexer takes a letter into the word. -/
theorem scan_letter {r : Region} {word rest : List Char} {c : Char}
    (hletter : r = .outside → ∀ sep more, Separator word sep more → c :: rest ≠ sep ++ more)
    (out : List Token) :
    scan r word out (c :: rest) = scan (r.next word c) (c :: word) out rest := by
  cases hopen : r.isOpen word c with
  | false => exact scan_of_not_isOpen hopen out
  | true =>
      obtain ⟨rfl, hnext⟩ := Region.next_of_isOpen hopen
      have hne := hletter rfl
      rw [hnext]
      refine scan_of_collected hopen ?_ ⟨?_, ?_⟩ ?_ ?_ out
      · exact Bool.eq_false_iff.mpr fun hblank => hne _ rest (.blank hblank) rfl
      · rintro rfl
        exact hne _ rest .openParen rfl
      · rintro rfl
        exact hne _ rest .closeParen rfl
      · rintro ⟨rfl, hword, hop⟩
        exact hne _ rest (.negation hword hop) rfl
      · exact fun k more => hne _ more (.symbol k)

/-- The lexer ends the word in front of what stands between words. -/
theorem Separator.scan {word sep rest : List Char} (h : Separator word sep rest) :
    ∃ marks : List Token, ∀ tail, SameAhead rest tail → ∀ out,
      Token.scan .outside word out (sep ++ tail) =
        Token.scan .outside [] (marks ++ flush word out) tail := by
  cases h with
  | blank hblank => exact ⟨[], fun tail _ out => scan_blank hblank word tail out⟩
  | openParen => exact ⟨[Token.openParen], fun tail _ out => scan_openParen word tail out⟩
  | closeParen => exact ⟨[Token.closeParen], fun tail _ out => scan_closeParen word tail out⟩
  | symbol k => exact ⟨[k.token], fun tail _ out => scan_symbol k word tail out⟩
  | negation hword hop =>
      subst hword
      exact ⟨[not], fun tail hahead out => scan_negation (hahead.beginsOperator_eq_false hop) out⟩

/-- **The lexer makes the walk**, and reads the same tokens on it, whatever stands behind the place
that it comes to. -/
theorem Reaches.scan {before rest word : List Char} {r : Region} (h : Reaches before rest r word) :
    ∃ out, ∀ tail, SameAhead rest tail →
      Token.scan .outside [] [] (before ++ tail) = Token.scan r word out tail := by
  induction h with
  | start rest => exact ⟨[], fun _ _ => rfl⟩
  | @letter before rest word c r _ hletter ih =>
      obtain ⟨out, hout⟩ := ih
      refine ⟨out, fun tail hahead => ?_⟩
      rw [List.append_assoc, List.singleton_append, hout _ (SameAhead.cons c rest tail)]
      exact scan_letter (fun hr => hahead.letter (hletter hr)) out
  | @separator before sep rest word _ hsep ih =>
      obtain ⟨out, hout⟩ := ih
      obtain ⟨marks, hmarks⟩ := hsep.scan
      refine ⟨marks ++ flush word out, fun tail hahead => ?_⟩
      have hsame : SameAhead (sep ++ rest) (sep ++ tail) := by
        obtain ⟨c, more, rfl⟩ := List.exists_cons_of_ne_nil hsep.ne_nil
        exact SameAhead.cons c _ _
      rw [List.append_assoc, hout _ hsame, hmarks tail hahead]

/-- **Texts that go on alike from one place have the same tokens.** -/
theorem Reaches.ofText_eq {before rest tail word : List Char} {r : Region}
    (h : Reaches before rest r word) (hahead : SameAhead rest tail)
    (hscan : ∀ out, Token.scan r word out rest = Token.scan r word out tail) :
    ofText (before ++ rest) = ofText (before ++ tail) := by
  obtain ⟨out, hout⟩ := h.scan
  rw [Token.ofText_eq, Token.ofText_eq, hout rest (Or.inl rfl), hout tail hahead, hscan]

/-! ## Places that are reached -/

/-- Only quotes are open as quotes. -/
theorem Reaches.isQuote {before rest word : List Char} {r : Region}
    (h : Reaches before rest r word) : ∀ q, r.quote = some q → Region.isQuote q = true := by
  induction h with
  | start _ => simp [Region.outside]
  | letter _ _ ih => exact isQuote_of_next ih _ _
  | separator _ _ _ => simp [Region.outside]

/-- What stands between words does not reach into a text that stands apart. -/
theorem Separator.within {word sep cs rest more : List Char} {c : Char}
    (h : Separator word sep more) (heq : c :: (cs ++ rest) = sep ++ more) (hrest : Unglued rest) :
    ∃ cs', c :: cs = sep ++ cs' ∧ more = cs' ++ rest := by
  cases h with
  | symbol k =>
      obtain ⟨a, hk, ha⟩ : ∃ a, k.symbol = [a, a] ∧ a ∈ ['=', '%', '~', '&', '|'] := by
        cases k <;> exact ⟨_, rfl, by decide⟩
      rw [hk] at heq ⊢
      obtain ⟨rfl, heq⟩ := List.cons.inj heq
      cases cs with
      | nil =>
          rw [List.nil_append] at heq
          exact absurd ha (hrest c (by rw [heq]; rfl))
      | cons d cs =>
          obtain ⟨rfl, rfl⟩ := List.cons.inj heq
          exact ⟨cs, rfl, rfl⟩
  | _ =>
      obtain ⟨rfl, rfl⟩ := List.cons.inj heq
      exact ⟨cs, rfl, rfl⟩

/-- From a place the walk goes on to the next one that does not cut a symbol. -/
theorem Reaches.onward {before cs rest word : List Char} {r : Region}
    (h : Reaches before (cs ++ rest) r word) (hrest : Unglued rest) :
    ∃ s w, Reaches (before ++ cs) rest s w := by
  induction hn : cs.length using Nat.strongRecOn generalizing before cs r word with
  | ind n ih =>
      cases cs with
      | nil => exact ⟨r, word, by simpa using h⟩
      | cons c cs =>
          rw [List.length_cons] at hn
          by_cases hsep : r = .outside ∧
              ∃ sep more, Separator word sep more ∧ c :: (cs ++ rest) = sep ++ more
          · obtain ⟨rfl, sep, more, hsep, heq⟩ := hsep
            obtain ⟨cs', hcs, rfl⟩ := hsep.within heq hrest
            have hshorter : cs'.length < n := by
              have hlength := congrArg List.length hcs
              have hpos := List.length_pos_iff.mpr hsep.ne_nil
              rw [List.length_cons, List.length_append] at hlength
              omega
            rw [hcs, List.append_assoc] at h
            rw [hcs, ← List.append_assoc]
            exact ih _ hshorter (.separator h hsep) rfl
          · rw [List.append_cons]
            refine ih cs.length (by omega) (.letter h ?_) rfl
            exact fun hr sep more hmore heq => hsep ⟨hr, sep, more, hmore, heq⟩

/-- **The walk comes to every place that does not cut a symbol.** -/
theorem exists_reaches (before : List Char) {rest : List Char} (hrest : Unglued rest) :
    ∃ r word, Reaches before rest r word :=
  (Reaches.start (before ++ rest)).onward hrest

/-- Outside, a character that has no meaning of its own leaves the place outside. -/
theorem next_of_isPlain {c : Char} (hplain : isPlain c = true) (word : List Char) :
    Region.outside.next word c = .outside := by
  simp only [isPlain, marks, Bool.and_eq_true, Bool.not_eq_true', List.contains_eq_mem,
    decide_eq_false_iff_not, List.mem_cons, not_or] at hplain
  obtain ⟨⟨hquote, _⟩, hbracket, _⟩ := hplain
  exact (Region.next_of_isOpen (Region.isOpen_outside hquote hbracket word)).2

/-- Outside, the walk passes over characters that have no meaning of their own. -/
theorem Reaches.plain {before cs rest word : List Char}
    (h : Reaches before (cs ++ rest) .outside word) (hplain : ∀ c ∈ cs, isPlain c = true) :
    Reaches (before ++ cs) rest .outside (cs.reverse ++ word) := by
  induction cs generalizing before word with
  | nil => simpa using h
  | cons c cs ih =>
      have hc := hplain c List.mem_cons_self
      have hletter : ∀ sep more, Separator word sep more → c :: (cs ++ rest) ≠ sep ++ more := by
        intro sep more hsep heq
        obtain ⟨d, hd, hnot⟩ := hsep.not_isPlain
        have hhead := congrArg List.head? heq
        rw [List.head?_append, hd] at hhead
        rw [← Option.some.inj hhead, hc] at hnot
        cases hnot
      have hstep := Reaches.letter h fun _ => hletter
      rw [next_of_isPlain hc] at hstep
      have hrest := ih hstep fun d hd => hplain d (List.mem_cons_of_mem _ hd)
      simpa using hrest

end ListingQuery.Filter.Token
