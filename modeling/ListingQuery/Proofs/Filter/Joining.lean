import ListingQuery.Proofs.Filter.Lexing

/-!
# Putting the tokens of a text together

The lexer reads one token for every word and then joins words that follow each other, with single
blanks between them.  A text that stands between connectives and parentheses is therefore read on
its own.

* `joined_words` is what becomes of the words of a condition;
* `Scans` says which words a text is read as wherever it stands, and `Lexes` which tokens these
  become where no condition follows immediately;
* `Lexes.connected`, `Lexes.negated` and `Lexes.enclosed` put texts together as filters do.
-/

namespace ListingQuery.Filter.Token

/-! ## Joining words -/

/-- The second pass of the lexer. -/
def joined (words : List Token) : List Token :=
  words.foldr join []

theorem ofText_eq (cs : List Char) : ofText cs = (scan .outside [] [] cs).map joined := rfl

/-- A text has tokens exactly if its words can be joined to them. -/
theorem ofText_eq_ok_iff {cs : List Char} {ts : List Token} :
    ofText cs = .ok ts ↔ ∃ words, scan .outside [] [] cs = .ok words ∧ joined words = ts := by
  rw [ofText_eq]
  cases scan .outside [] [] cs <;> simp [Except.map]

theorem joined_cons (t : Token) (ts : List Token) : joined (t :: ts) = join t (joined ts) := rfl

/-- The tokens do not begin with a condition. -/
def Apart (ts : List Token) : Prop :=
  ∀ t, ts.head? = some t → t.isFragment = false

theorem apart_nil : Apart [] := by
  intro t ht
  cases ht

/-- A token that is no condition is apart from what is before it. -/
theorem apart_cons {t : Token} (ht : t.isFragment = false) (ts : List Token) :
    Apart (t :: ts) := by
  intro u hu
  rw [← Option.some.inj hu]
  exact ht

/-- Only a condition joins what follows it. -/
theorem joined_cons_of_not_fragment {t : Token} (ht : t.isFragment = false) (ts : List Token) :
    joined (t :: ts) = t :: joined ts := by
  cases t with
  | fragment _ _ => cases ht
  | _ => rfl

/-- A condition before tokens that are apart is not joined to them. -/
theorem join_of_apart {ts : List Token} (hts : Apart ts) (w : List Char) (n : Nat) :
    join (fragment w n) ts = fragment w n :: ts := by
  cases ts with
  | nil => rfl
  | cons t ts =>
      cases t with
      | fragment _ _ => exact absurd (hts _ rfl) (by simp [isFragment])
      | _ => rfl

/-- Joined tokens are apart if the words were. -/
theorem apart_joined {ts : List Token} (hts : Apart ts) : Apart (joined ts) := by
  cases ts with
  | nil => exact apart_nil
  | cons t ts =>
      have ht := hts t rfl
      rw [joined_cons_of_not_fragment ht]
      exact apart_cons ht _

/-- The text of a condition that was written in several words. -/
def merged (w : List Char) : List (List Char) → List Char
  | [] => w
  | v :: ws => w ++ ' ' :: merged v ws

/-- Words that follow each other become one condition. -/
theorem joined_words (w : List Char) (ws : List (List Char)) {rest : List Token}
    (hrest : Apart rest) :
    joined ((w :: ws).map (fragment · 1) ++ rest) =
      fragment (merged w ws) (ws.length + 1) :: joined rest := by
  induction ws generalizing w with
  | nil =>
      rw [List.map_cons, List.map_nil, List.singleton_append, joined_cons,
        join_of_apart (apart_joined hrest)]
      rfl
  | cons v ws ih =>
      rw [List.map_cons, List.cons_append, joined_cons, ih]
      simp [join, merged, Nat.add_comm]

/-! ## Texts as words -/

/-- The words that a text is read as where no word reaches into it from either side. -/
def Scans (cs : List Char) (words : List Token) : Prop :=
  ∀ rest out, EndsWord rest →
    scan .outside [] out (cs ++ rest) = scan .outside [] (words.reverse ++ out) rest

/-- A text that is collected as it stands is one word. -/
theorem scans_word {w : List Char} (hne : w ≠ [])
    (hcollects : ∀ rest out, scan .outside [] out (w ++ rest) = scan .outside w.reverse out rest) :
    Scans w [ofWord w] := by
  intro rest out hrest
  rw [hcollects, hrest, flush_reverse hne]
  rfl

theorem Scans.append_gap {as bs gap : List Char} {ws vs : List Token} (ha : Scans as ws)
    (hb : Scans bs vs) (hgap : Text.Blanks gap) (hne : gap ≠ []) :
    Scans (as ++ (gap ++ bs)) (ws ++ vs) := by
  intro rest out hrest
  have hends : EndsWord (gap ++ (bs ++ rest)) := endsWord_gap hgap hne _
  calc scan .outside [] out (as ++ (gap ++ bs) ++ rest)
      = scan .outside [] out (as ++ (gap ++ (bs ++ rest))) := by simp
    _ = scan .outside [] (ws.reverse ++ out) (bs ++ rest) := by
        rw [ha _ _ hends, scan_blanks hgap]
    _ = scan .outside [] ((ws ++ vs).reverse ++ out) rest := by
        rw [hb _ _ hrest]
        simp

/-! ## Texts as tokens -/

/-- The tokens that a text is read as where no word reaches into it from either side and no
condition follows immediately. -/
def Lexes (cs : List Char) (ts : List Token) : Prop :=
  ∃ words, Scans cs words ∧ ∀ rest, Apart rest → joined (words ++ rest) = ts ++ joined rest

/-- Standing alone, the text has these tokens. -/
theorem Lexes.ofText {cs : List Char} {ts : List Token} (h : Lexes cs ts) : ofText cs = .ok ts := by
  obtain ⟨words, hscans, hjoined⟩ := h
  have hscan := hscans [] [] endsWord_nil
  have htokens := hjoined [] apart_nil
  simp only [List.append_nil] at hscan htokens
  rw [ofText_eq, hscan, scan_end, List.reverse_reverse]
  exact congrArg Except.ok (htokens.trans (List.append_nil ts))

/-- Words with blanks between them are one condition. -/
theorem lexes_words {cs w : List Char} {ws : List (List Char)}
    (h : Scans cs ((w :: ws).map (fragment · 1))) :
    Lexes cs [fragment (merged w ws) (ws.length + 1)] :=
  ⟨_, h, fun _ hrest => joined_words w ws hrest⟩

/-- Blanks around a text leave no trace. -/
theorem Lexes.padded {cs front back : List Char} {ts : List Token} (h : Lexes cs ts)
    (hfront : Text.Blanks front) (hback : Text.Blanks back) : Lexes (front ++ cs ++ back) ts := by
  obtain ⟨words, hscans, hjoined⟩ := h
  refine ⟨words, ?_, hjoined⟩
  intro rest out hrest
  have hends : EndsWord (back ++ rest) := by
    cases back with
    | nil => exact hrest
    | cons c back => exact endsWord_gap hback (List.cons_ne_nil _ _) rest
  rw [List.append_assoc, List.append_assoc, scan_blanks hfront, hscans _ _ hends,
    scan_blanks hback]

/-- A text that stands for a connective. -/
structure Signs (k : Connective) (sign : List Char) : Prop where
  endsWord : ∀ rest, EndsWord (sign ++ rest)
  scan : ∀ rest out, scan .outside [] out (sign ++ rest) = scan .outside [] (k.token :: out) rest

/-- Two texts with a connective between them. -/
theorem Lexes.connected {as bs sign : List Char} {ts us : List Token} {k : Connective}
    (ha : Lexes as ts) (hsign : Signs k sign) (hb : Lexes bs us) :
    Lexes (as ++ (sign ++ bs)) (ts ++ k.token :: us) := by
  obtain ⟨ws, hscansA, hjoinedA⟩ := ha
  obtain ⟨vs, hscansB, hjoinedB⟩ := hb
  refine ⟨ws ++ k.token :: vs, ?_, ?_⟩
  · intro rest out hrest
    calc Token.scan .outside [] out (as ++ (sign ++ bs) ++ rest)
        = Token.scan .outside [] out (as ++ (sign ++ (bs ++ rest))) := by simp
      _ = Token.scan .outside [] (k.token :: (ws.reverse ++ out)) (bs ++ rest) := by
          rw [hscansA _ _ (hsign.endsWord _), hsign.scan]
      _ = Token.scan .outside [] ((ws ++ k.token :: vs).reverse ++ out) rest := by
          rw [hscansB _ _ hrest]
          simp
  · intro rest hrest
    rw [List.append_assoc, List.cons_append, hjoinedA _ (apart_cons k.token_isFragment _),
      joined_cons_of_not_fragment k.token_isFragment, hjoinedB _ hrest]
    simp

/-- A text in parentheses. -/
theorem Lexes.enclosed {cs : List Char} {ts : List Token} (h : Lexes cs ts) :
    Lexes ('(' :: (cs ++ [')'])) (openParen :: (ts ++ [closeParen])) := by
  obtain ⟨words, hscans, hjoined⟩ := h
  refine ⟨openParen :: (words ++ [closeParen]), ?_, ?_⟩
  · intro rest out _
    have hends : EndsWord (')' :: rest) := endsWord_closeParen rest
    calc scan .outside [] out ('(' :: (cs ++ [')']) ++ rest)
        = scan .outside [] out ('(' :: (cs ++ ')' :: rest)) := by simp
      _ = scan .outside [] (words.reverse ++ openParen :: out) (')' :: rest) := by
          rw [scan_openParen, flush_nil, hscans _ _ hends]
      _ = scan .outside [] ((openParen :: (words ++ [closeParen])).reverse ++ out) rest := by
          rw [scan_closeParen, flush_nil]
          simp
  · intro rest hrest
    have hclose : (closeParen).isFragment = false := rfl
    rw [List.cons_append, joined_cons_of_not_fragment rfl, List.append_assoc, List.singleton_append,
      hjoined _ (apart_cons hclose _), joined_cons_of_not_fragment hclose]
    simp

/-- A text behind a sign of negation. -/
theorem Lexes.negated {cs sign : List Char} {ts : List Token} (h : Lexes cs ts)
    (hsign : ∀ rest out, scan .outside [] out (sign ++ (cs ++ rest)) =
      scan .outside [] (not :: out) (cs ++ rest)) :
    Lexes (sign ++ cs) (not :: ts) := by
  obtain ⟨words, hscans, hjoined⟩ := h
  refine ⟨not :: words, ?_, ?_⟩
  · intro rest out hrest
    rw [List.append_assoc, hsign, hscans _ _ hrest]
    simp
  · intro rest hrest
    rw [List.cons_append, joined_cons_of_not_fragment rfl, hjoined _ hrest, List.cons_append]

end ListingQuery.Filter.Token
