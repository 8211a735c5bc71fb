import ListingQuery.Proofs.Filter.Reader
import ListingQuery.Proofs.Filter.Region
import ListingQuery.Proofs.Text.Blank

/-!
# How the text of a filter falls into tokens

The lexer collects characters into a word until something ends the word.  One lemma says what each
kind of character does to the word and to the tokens so far; texts are put together from these.

* `EndsWord` is the property of a text that every word ends in front of it;
* `scan_plain`, `scan_spelling`, `scan_quoted` and `scan_list` are the pieces that a word is
  collected from, the quoted one whatever stands between the quotes;
* `scan_blanks`, `scan_symbol` and the lemmas beside them are what stands between words.
-/

namespace ListingQuery.Filter.Token

/-! ## Characters -/

/-- The characters that can have a meaning of their own, the quotes apart. -/
def marks : List Char :=
  ['[', '(', ')', '!', '&', '|']

/-- A character that a word collects wherever no quote and no list is open. -/
def isPlain (c : Char) : Bool :=
  !Region.isQuote c && !Text.isBlank c && !marks.contains c

/-- At the end of the text nothing may be open. -/
theorem scan_nil (r : Region) (word : List Char) (out : List Token) :
    scan r word out [] =
      match r.quote with
      | some q => .error (.malformedFilter ("unterminated " ++ String.singleton q ++ " quote"))
      | none =>
        if 0 < r.brackets then .error (.malformedFilter "unterminated list literal")
        else .ok (flush word out).reverse := rfl

/-- What the lexer does with a character, whatever follows. -/
theorem scan_cons (r : Region) (word rest : List Char) (c : Char) (out : List Token) :
    scan r word out (c :: rest) =
      if r.isOpen word c then
        if Text.isBlank c then scan r [] (flush word out) rest
        else if c = '(' then scan r [] (openParen :: flush word out) rest
        else if c = ')' then scan r [] (closeParen :: flush word out) rest
        else if c = '!' ∧ word = [] ∧ beginsOperator rest = false then scan r [] (not :: out) rest
        else
          match rest with
          | [] => scan r (c :: word) out []
          | d :: more =>
            if c = '&' ∧ d = '&' then scan r [] (and :: flush word out) more
            else if c = '|' ∧ d = '|' then scan r [] (or :: flush word out) more
            else scan r (c :: word) out (d :: more)
      else scan (r.next word c) (c :: word) out rest := by
  cases rest <;> rfl

/-- A character inside a quote or a list, or one that opens them, belongs to the word. -/
theorem scan_of_not_isOpen {r : Region} {word rest : List Char} {c : Char}
    (hopen : r.isOpen word c = false) (out : List Token) :
    scan r word out (c :: rest) = scan (r.next word c) (c :: word) out rest := by
  rw [scan_cons, hopen]
  rfl

/-- Outside, a character belongs to the word unless it, or it with the next one, is a token of its
own or a blank. -/
theorem scan_of_collected {word rest : List Char} {c : Char}
    (hopen : Region.outside.isOpen word c = true) (hblank : Text.isBlank c = false)
    (hparens : c ≠ '(' ∧ c ≠ ')')
    (hbang : ¬ (c = '!' ∧ word = [] ∧ beginsOperator rest = false))
    (hsymbol : ∀ (k : Connective) more, c :: rest ≠ k.symbol ++ more) (out : List Token) :
    scan .outside word out (c :: rest) = scan .outside (c :: word) out rest := by
  rw [scan_cons, hopen]
  cases rest with
  | nil => simp [hblank, hparens, hbang]
  | cons d more =>
      have hand : ¬ (c = '&' ∧ d = '&') := by
        rintro ⟨rfl, rfl⟩
        exact hsymbol .conjunction more rfl
      have hor : ¬ (c = '|' ∧ d = '|') := by
        rintro ⟨rfl, rfl⟩
        exact hsymbol .disjunction more rfl
      simp [hblank, hparens, hbang, hand, hor]

/-- Outside, a character that has no meaning of its own belongs to the word. -/
theorem scan_of_plain {c : Char} (hplain : isPlain c = true) (word rest : List Char)
    (out : List Token) :
    scan .outside word out (c :: rest) = scan .outside (c :: word) out rest := by
  simp only [isPlain, marks, Bool.and_eq_true, Bool.not_eq_true', List.contains_eq_mem,
    decide_eq_false_iff_not, List.mem_cons, List.not_mem_nil, or_false, not_or] at hplain
  obtain ⟨⟨hquote, hblank⟩, hbracket, hopening, hclosing, hbang, hand, hor⟩ := hplain
  refine scan_of_collected (Region.isOpen_outside hquote hbracket word) hblank
    ⟨hopening, hclosing⟩ (fun h => hbang h.1) (fun k more heq => ?_) out
  cases k with
  | conjunction => exact hand (List.cons.inj heq).1
  | disjunction => exact hor (List.cons.inj heq).1

/-- Plain characters are taken into the word. -/
theorem scan_plain {cs : List Char} (hplain : ∀ c ∈ cs, isPlain c = true)
    (word rest : List Char) (out : List Token) :
    scan .outside word out (cs ++ rest) = scan .outside (cs.reverse ++ word) out rest := by
  induction cs generalizing word with
  | nil => rfl
  | cons c cs ih =>
      rw [List.cons_append, scan_of_plain (hplain c List.mem_cons_self),
        ih fun d hd => hplain d (List.mem_cons_of_mem _ hd)]
      simp

/-- An exclamation mark that begins an operator belongs to the word. -/
theorem scan_bang {rest : List Char} (hop : beginsOperator rest = true) (word : List Char)
    (out : List Token) :
    scan .outside word out ('!' :: rest) = scan .outside ('!' :: word) out rest := by
  refine scan_of_collected (Region.isOpen_outside rfl (by decide) word) (by decide) (by decide)
    (fun h => by simp [hop] at h) (fun k more heq => ?_) out
  cases k <;> simp [Connective.symbol] at heq

/-- A spelling of an operator is either plain, or it is an exclamation mark before a plain
character that makes it an operator. -/
theorem spelling_plain_or_bang : ∀ s ∈ Spelling.all,
    s.chars.all isPlain = true ∨
      (s.chars = ['!', '='] ∨ s.chars = ['!', '%'] ∨ s.chars = ['!', '~']) := by
  decide

/-- No spelling of an operator ends a word or is cut into two. -/
theorem scan_spelling {s : Spelling} (hs : s ∈ Spelling.all) (word rest : List Char)
    (out : List Token) :
    scan .outside word out (s.chars ++ rest) =
      scan .outside (s.chars.reverse ++ word) out rest := by
  rcases spelling_plain_or_bang s hs with hplain | hbang
  · exact scan_plain (fun c hc => List.all_eq_true.mp hplain c hc) word rest out
  · rcases hbang with hchars | hchars | hchars <;>
      rw [hchars] <;>
      exact (scan_bang rfl word out).trans (scan_of_plain (by decide) _ rest out)

/-! ## Quotes and lists -/

/-- Quotes and lists belong to the word as a whole. -/
theorem scan_of_covers {r s : Region} {word cs : List Char} (h : Region.Covers r word cs s)
    (rest : List Char) (out : List Token) :
    scan r word out (cs ++ rest) = scan s (cs.reverse ++ word) out rest := by
  induction h with
  | nil => rfl
  | cons hclosed _ ih =>
      rw [List.cons_append, scan_of_not_isOpen hclosed, ih]
      simp

/-- Where a quote opens, the word goes on to the quote that closes it, whatever stands between. -/
theorem scan_quoted {v : List Char} (hv : '"' ∉ v) {word : List Char}
    (hopens : Region.opensQuote word false = true) (rest : List Char) (out : List Token) :
    scan .outside word out ('"' :: (v ++ '"' :: rest)) =
      scan .outside ('"' :: (v.reverse ++ '"' :: word)) out rest := by
  have hscan := scan_of_covers (Region.covers_quoted (n := 0) hv hopens) rest out
  simpa [Region.outside] using hscan

/-- A quote opens at the beginning of a word. -/
theorem opensQuote_nil : Region.opensQuote [] false = true := rfl

/-- A quote opens behind a spelling of an operator. -/
theorem opensQuote_spelling {s : Spelling} (hs : s ∈ Spelling.all) (before : List Char) :
    Region.opensQuote (s.chars.reverse ++ before) false = true := by
  have hlast : ∀ s ∈ Spelling.all, s.chars.reverse.head?.any (!Text.isBlank ·) = true := by
    decide
  have hends : Spelling.endsReversed (s.chars.reverse ++ before) = true :=
    List.any_eq_true.mpr ⟨s, hs, by simp⟩
  have hnone := hlast s hs
  cases hchars : s.chars.reverse with
  | nil => simp [hchars] at hnone
  | cons c cs =>
      simp only [hchars, List.head?_cons, Option.any_some, Bool.not_eq_true'] at hnone
      rw [hchars, List.cons_append] at hends
      simp [Region.opensQuote, Text.trimStart, hnone, hends]

/-- A list belongs to the word as a whole, whatever its items are made of apart from quotes and
brackets. -/
theorem scan_list {v : List Char}
    (hv : ∀ c ∈ v, Region.isQuote c = false ∧ c ≠ '[' ∧ c ≠ ']') (word rest : List Char)
    (out : List Token) :
    scan .outside word out ('[' :: (v ++ ']' :: rest)) =
      scan .outside (']' :: (v.reverse ++ '[' :: word)) out rest := by
  have hscan := scan_of_covers (Region.covers_list hv ('[' :: word)).brackets rest out
  simpa using hscan

/-! ## The ends of words -/

theorem flush_nil (out : List Token) : flush [] out = out := rfl

theorem flush_reverse {w : List Char} (hw : w ≠ []) (out : List Token) :
    flush w.reverse out = ofWord w :: out := by
  simp [flush, hw]

/-- Whatever word is being read, it ends in front of the text. -/
def EndsWord (rest : List Char) : Prop :=
  ∀ word out, scan .outside word out rest = scan .outside [] (flush word out) rest

/-- At the end of the text the tokens so far are all. -/
theorem scan_end (out : List Token) : scan .outside [] out [] = .ok out.reverse := rfl

/-- The end of a text ends a word. -/
theorem endsWord_nil : EndsWord [] := fun _ _ => rfl

theorem scan_blank {c : Char} (hblank : Text.isBlank c = true) (word rest : List Char)
    (out : List Token) :
    scan .outside word out (c :: rest) = scan .outside [] (flush word out) rest := by
  obtain ⟨hquote, hbracket, _⟩ := Region.silent_of_isBlank hblank
  rw [scan_cons, Region.isOpen_outside hquote hbracket]
  simp [hblank]

/-- A parenthesis that opens ends the word and is a token. -/
theorem scan_openParen (word rest : List Char) (out : List Token) :
    scan .outside word out ('(' :: rest) =
      scan .outside [] (openParen :: flush word out) rest := by
  rw [scan_cons, Region.isOpen_outside rfl (by decide)]
  rfl

/-- A parenthesis that closes ends the word and is a token. -/
theorem scan_closeParen (word rest : List Char) (out : List Token) :
    scan .outside word out (')' :: rest) =
      scan .outside [] (closeParen :: flush word out) rest := by
  rw [scan_cons, Region.isOpen_outside rfl (by decide)]
  rfl

/-- An exclamation mark before a text that does not make it an operator is a negation. -/
theorem scan_negation {rest : List Char} (hop : beginsOperator rest = false)
    (out : List Token) :
    scan .outside [] out ('!' :: rest) = scan .outside [] (not :: out) rest := by
  have hblank : Text.isBlank '!' = false := by decide
  rw [scan_cons, Region.isOpen_outside rfl (by decide)]
  simp [hblank, hop]

/-- The symbol of a connective ends a word. -/
theorem scan_symbol (k : Connective) (word rest : List Char) (out : List Token) :
    scan .outside word out (k.symbol ++ rest) =
      scan .outside [] (k.token :: flush word out) rest := by
  have hblank : Text.isBlank '&' = false ∧ Text.isBlank '|' = false := by decide
  cases k <;>
    rw [Connective.symbol, List.cons_append, scan_cons, Region.isOpen_outside rfl (by decide)] <;>
    simp [hblank, Connective.token]

theorem endsWord_blank {c : Char} (hblank : Text.isBlank c = true) (rest : List Char) :
    EndsWord (c :: rest) := by
  intro word out
  rw [scan_blank hblank, scan_blank hblank, flush_nil]

theorem endsWord_openParen (rest : List Char) : EndsWord ('(' :: rest) := by
  intro word out
  rw [scan_openParen, scan_openParen, flush_nil]

theorem endsWord_closeParen (rest : List Char) : EndsWord (')' :: rest) := by
  intro word out
  rw [scan_closeParen, scan_closeParen, flush_nil]

theorem endsWord_symbol (k : Connective) (rest : List Char) : EndsWord (k.symbol ++ rest) := by
  intro word out
  rw [scan_symbol, scan_symbol, flush_nil]

theorem scan_blanks {gap : List Char} (hgap : Text.Blanks gap) (rest : List Char)
    (out : List Token) : scan .outside [] out (gap ++ rest) = scan .outside [] out rest := by
  induction gap with
  | nil => rfl
  | cons c gap ih =>
      rw [List.cons_append, scan_blank (hgap c List.mem_cons_self), flush_nil,
        ih hgap.tail]

theorem endsWord_gap {gap : List Char} (hgap : Text.Blanks gap) (hne : gap ≠ [])
    (rest : List Char) : EndsWord (gap ++ rest) := by
  obtain ⟨c, gap, rfl⟩ := List.exists_cons_of_ne_nil hne
  exact endsWord_blank (hgap c List.mem_cons_self) _

end ListingQuery.Filter.Token
