import ListingQuery.Proofs.Filter.Joining

/-!
# Texts behind each other

A text that can be lexed on its own has the same tokens in front of a blank or of a parenthesis
that closes.  Only the words at the seam are joined, because a blank between two words of a
condition looks the same.

* `scan_cases` is everything that one step of the lexer can do, the text behind being of no account
  as long as it is `Detached`: the character goes into the word, or it ends the word;
* `scan_induction` is the induction over a whole run that follows from it; by it `scan_eq_ok` says
  what a run adds, and `scan_append_detached` is a text with another one behind it;
* `joined_append` is the second pass over the words of both, and `joined_append_of_apart` the case
  in which nothing joins at the seam.
-/

namespace ListingQuery.Filter.Token

/-- The text cannot join a symbol or a word of the text before it: it is at an end, or it begins
with a blank or with a parenthesis that closes. -/
def Detached (tail : List Char) : Prop :=
  ∀ c, tail.head? = some c → Text.isBlank c = true ∨ c = ')'

theorem detached_nil : Detached [] := by
  intro c hc
  cases hc

theorem detached_space (cs : List Char) : Detached (' ' :: cs) := by
  intro c hc
  rw [← Option.some.inj hc]
  exact Or.inl (by decide)

theorem detached_closeParen (cs : List Char) : Detached (')' :: cs) := by
  intro c hc
  exact Or.inr (Option.some.inj hc).symm

/-- A detached text begins with no character of an operator or a symbol. -/
theorem Detached.head_ne {tail : List Char} (h : Detached tail) {d : Char} {rest : List Char}
    (htail : tail = d :: rest) : d ∉ ['=', '%', '~', '&', '|'] := by
  rcases h d (by rw [htail]; rfl) with hblank | rfl
  · exact Text.not_mem_of_isBlank (by decide) hblank
  · decide

/-- A detached text ends the word before it. -/
theorem Detached.endsWord {tail : List Char} (h : Detached tail) : EndsWord tail := by
  cases tail with
  | nil => exact endsWord_nil
  | cons c tail =>
      rcases h c rfl with hblank | rfl
      · exact endsWord_blank hblank tail
      · exact endsWord_closeParen tail

/-- Whether an operator begins is not changed by a detached text behind it. -/
theorem Detached.beginsOperator_append {tail : List Char} (h : Detached tail) (rest : List Char) :
    beginsOperator (rest ++ tail) = beginsOperator rest := by
  cases rest with
  | cons c rest => rfl
  | nil =>
      cases tail with
      | nil => rfl
      | cons d tail =>
          have hne := h.head_ne rfl
          simp only [List.mem_cons, List.not_mem_nil, or_false, not_or] at hne
          simp [beginsOperator, hne]

/-- A condition among the tokens has a word at least. -/
def Counted : Token → Prop
  | fragment _ words => 1 ≤ words
  | _ => True

/-- What is no condition is counted. -/
theorem counted_of_not_fragment {t : Token} (ht : t.isFragment = false) : Counted t := by
  cases t with
  | fragment _ _ => cases ht
  | _ => trivial

/-- A word that is a condition is one of one word. -/
theorem counted_ofWord (w : List Char) : Counted (ofWord w) := by
  unfold ofWord
  split
  · trivial
  · split
    · trivial
    · split
      · trivial
      · exact Nat.le_refl 1

/-- The tokens that a word is flushed to do not depend on those before it. -/
theorem counted_flush (word : List Char) :
    ∃ new, (∀ out, flush word out = new ++ out) ∧ ∀ t ∈ new, Counted t := by
  cases word with
  | nil => exact ⟨[], fun _ => rfl, by simp⟩
  | cons c word =>
      refine ⟨[ofWord (c :: word).reverse], fun _ => rfl, ?_⟩
      intro t ht
      rw [List.mem_singleton.mp ht]
      exact counted_ofWord _

/-- The lexer decides on a character by the next one at most. -/
theorem beginsOperator_congr {rest tail : List Char} (h : tail.head? = rest.head?) :
    beginsOperator tail = beginsOperator rest := by
  cases tail <;> cases rest <;> cases h <;> rfl

/-- The text `tail` looks to the lexer like the text `rest` that stands behind the word: it begins
with the same character, or it is detached, and the word is no exclamation mark that needs the
text behind it to be an operator. -/
def LooksLike (word rest tail : List Char) : Prop :=
  tail.head? = rest.head? ∨ Detached tail ∧ ¬ (word = ['!'] ∧ beginsOperator rest = true)

/-- The character goes into the word, whatever stands behind the next one. -/
structure Collects (r : Region) (word : List Char) (c : Char) (rest : List Char) : Prop where
  not_blank : r.isOpen word c = true → Text.isBlank c = false
  step : ∀ tail out, LooksLike (c :: word) rest tail →
    scan r word out (c :: tail) = scan (r.next word c) (c :: word) out tail

/-- The character ends the word.  It stands for the tokens `marks`, in reverse, if it is not just a
blank, and the lexer goes on with the text `rest'`. -/
structure Ends (word : List Char) (c : Char) (rest : List Char) (marks : List Token)
    (rest' : List Char) : Prop where
  shorter : rest'.length ≤ rest.length
  not_operator : c ∉ ['=', '%', '~']
  not_fragment : ∀ t ∈ marks, t.isFragment = false
  blank : marks = [] → Text.isBlank c = true
  step : ∀ tail out, Detached tail →
    scan .outside word out (c :: (rest ++ tail)) =
      scan .outside [] (marks ++ flush word out) (rest' ++ tail)

/-- Outside, a character that is neither a blank nor a token of its own goes into the word. -/
theorem collects_of_no_mark {word rest : List Char} {c : Char}
    (hopen : Region.outside.isOpen word c = true) (hblank : Text.isBlank c = false)
    (hparens : c ≠ '(' ∧ c ≠ ')')
    (hbang : ¬ (c = '!' ∧ word = [] ∧ beginsOperator rest = false))
    (hsymbol : ∀ (k : Connective) more, c :: rest ≠ k.symbol ++ more) :
    Collects .outside word c rest := by
  refine ⟨fun _ => hblank, fun tail out hsight => ?_⟩
  rw [(Region.next_of_isOpen hopen).2]
  refine scan_of_collected hopen hblank hparens ?_ (fun k more heq => ?_) out
  · rintro ⟨rfl, rfl, hop⟩
    rcases hsight with hsame | ⟨_, hne⟩
    · rw [beginsOperator_congr hsame] at hop
      exact hbang ⟨rfl, rfl, hop⟩
    · exact hbang ⟨rfl, rfl, by simpa using hne⟩
  · rcases hsight with hsame | ⟨hdetached, _⟩
    · obtain ⟨a, hk⟩ : ∃ a, k.symbol = [a, a] := by cases k <;> exact ⟨_, rfl⟩
      rw [hk] at heq
      obtain ⟨rfl, rfl⟩ := List.cons.inj heq
      cases rest with
      | nil => cases hsame
      | cons d rest =>
          cases hsame
          exact hsymbol k rest (by rw [hk]; rfl)
    · cases k <;> exact hdetached.head_ne (List.cons.inj heq).2 (by decide)

/-- **A step of the lexer** takes the character into the word or ends the word, which it does
outside quotes and lists only. -/
theorem scan_cases (r : Region) (word : List Char) (c : Char) (rest : List Char) :
    Collects r word c rest ∨
      r = .outside ∧ ∃ marks rest', Ends word c rest marks rest' := by
  cases hopen : r.isOpen word c with
  | false =>
      exact Or.inl ⟨fun h => by simp [hopen] at h, fun tail out _ => scan_of_not_isOpen hopen out⟩
  | true =>
      obtain ⟨rfl, _⟩ := Region.next_of_isOpen hopen
      by_cases hblank : Text.isBlank c = true
      · refine Or.inr ⟨rfl, [], rest, Nat.le_refl _, Text.not_mem_of_isBlank (by decide) hblank,
          by simp, fun _ => hblank, fun tail out _ => ?_⟩
        exact scan_blank hblank _ _ _
      by_cases hopening : c = '('
      · subst hopening
        exact Or.inr ⟨rfl, [openParen], rest, Nat.le_refl _, by decide, by simp [isFragment],
          by simp, fun tail out _ => scan_openParen _ _ _⟩
      by_cases hclosing : c = ')'
      · subst hclosing
        exact Or.inr ⟨rfl, [closeParen], rest, Nat.le_refl _, by decide, by simp [isFragment],
          by simp, fun tail out _ => scan_closeParen _ _ _⟩
      by_cases hbang : c = '!' ∧ word = [] ∧ beginsOperator rest = false
      · obtain ⟨rfl, rfl, hop⟩ := hbang
        exact Or.inr ⟨rfl, [not], rest, Nat.le_refl _, by decide, by simp [isFragment],
          by simp, fun tail out htail =>
            scan_negation (by rw [htail.beginsOperator_append, hop]) _⟩
      by_cases hsymbol : ∃ (k : Connective) (more : List Char), c :: rest = k.symbol ++ more
      · obtain ⟨k, more, hcs⟩ := hsymbol
        have hlength := congrArg List.length hcs
        have hsize : k.symbol.length = 2 := by cases k <;> rfl
        rw [List.length_cons, List.length_append, hsize] at hlength
        have hc : c ∉ ['=', '%', '~'] := by
          cases k <;> rw [(List.cons.inj hcs).1] <;> decide
        refine Or.inr ⟨rfl, [k.token], more, by omega, hc, by simp, by simp,
          fun tail out _ => ?_⟩
        rw [← List.cons_append, hcs, List.append_assoc]
        exact scan_symbol _ _ _ _
      · exact Or.inl (collects_of_no_mark hopen (by simpa using hblank) ⟨hopening, hclosing⟩ hbang
          fun k more heq => hsymbol ⟨k, more, heq⟩)

/-- A detached text behind looks like the end of the text. -/
theorem looksLike_append {tail : List Char} (htail : Detached tail) (word rest : List Char) :
    LooksLike word rest (rest ++ tail) := by
  cases rest with
  | nil => exact Or.inr ⟨htail, fun h => by simp [beginsOperator] at h⟩
  | cons d rest => exact Or.inl rfl

/-- At the end of a text nothing is open. -/
theorem scan_nil_eq_ok_iff {r : Region} {word : List Char} {out ws : List Token} :
    scan r word out [] = .ok ws ↔ r = .outside ∧ ws = (flush word out).reverse := by
  obtain ⟨quote, brackets⟩ := r
  rw [scan_nil]
  cases quote with
  | some q => simp [Region.outside]
  | none =>
      by_cases hbrackets : 0 < brackets
      · simp only [hbrackets, if_true, reduceCtorEq, Region.outside, Region.mk.injEq, true_and,
          false_iff, not_and]
        omega
      · have hzero : brackets = 0 := by omega
        simp [hzero, Region.outside, eq_comm]

/-- **Induction over a run of the lexer** on a text that it can lex: the text ends, or its first
character goes into the word, or it ends the word. -/
theorem scan_induction
    {motive : Region → List Char → List Token → List Char → List Token → Prop}
    (stop : ∀ word out, motive .outside word out [] (flush word out).reverse)
    (collect : ∀ {r word out c rest ws}, Collects r word c rest →
      motive (r.next word c) (c :: word) out rest ws → motive r word out (c :: rest) ws)
    (finish : ∀ {word out c rest marks rest' ws}, Ends word c rest marks rest' →
      scan .outside [] (marks ++ flush word out) rest' = .ok ws →
      motive .outside [] (marks ++ flush word out) rest' ws →
      motive .outside word out (c :: rest) ws)
    {r : Region} {word cs : List Char} {out ws : List Token}
    (h : scan r word out cs = .ok ws) : motive r word out cs ws := by
  induction hn : cs.length using Nat.strongRecOn generalizing r word cs out with
  | ind n ih =>
      cases cs with
      | nil =>
          obtain ⟨rfl, rfl⟩ := scan_nil_eq_ok_iff.mp h
          exact stop word out
      | cons c rest =>
          rw [List.length_cons] at hn
          rcases scan_cases r word c rest with hcollects | ⟨rfl, marks, rest', hends⟩
          · rw [hcollects.step rest out (Or.inl rfl)] at h
            exact collect hcollects (ih _ (by omega) h rfl)
          · have hstep := hends.step [] out detached_nil
            have hshorter := hends.shorter
            rw [List.append_nil, List.append_nil] at hstep
            rw [hstep] at h
            exact finish hends h (ih _ (by omega) h rfl)

/-- **A run of the lexer** on a text that it can lex adds its tokens, whatever tokens were there
before and whatever detached text stands behind. -/
theorem scan_eq_ok {r : Region} {word cs : List Char} {out ws : List Token}
    (h : scan r word out cs = .ok ws) :
    ∃ new, ws = out.reverse ++ new ∧ (∀ t ∈ new, Counted t) ∧
      ∀ out tail, Detached tail →
        scan r word out (cs ++ tail) = scan .outside [] (new.reverse ++ out) tail := by
  refine scan_induction (motive := fun r word out cs ws =>
    ∃ new, ws = out.reverse ++ new ∧ (∀ t ∈ new, Counted t) ∧
      ∀ out tail, Detached tail →
        scan r word out (cs ++ tail) = scan .outside [] (new.reverse ++ out) tail) ?_ ?_ ?_ h
  · intro word out
    obtain ⟨flushed, hflush, hflushed⟩ := counted_flush word
    refine ⟨flushed.reverse, by simp [hflush],
      fun t ht => hflushed t (List.mem_reverse.mp ht), fun out tail htail => ?_⟩
    rw [List.nil_append, htail.endsWord, hflush, List.reverse_reverse]
  · rintro r word out c rest ws hcollects ⟨new, hws, hnew, hrun⟩
    refine ⟨new, hws, hnew, fun out tail htail => ?_⟩
    rw [List.cons_append, hcollects.step _ _ (looksLike_append htail _ _), hrun out tail htail]
  · rintro word out c rest marks rest' ws hends _ ⟨new, hws, hnew, hrun⟩
    obtain ⟨flushed, hflush, hflushed⟩ := counted_flush word
    refine ⟨(marks ++ flushed).reverse ++ new, by simp [hws, hflush], ?_, fun out tail htail => ?_⟩
    · intro t ht
      rw [List.mem_append, List.mem_reverse, List.mem_append] at ht
      rcases ht with (ht | ht) | ht
      · exact counted_of_not_fragment (hends.not_fragment t ht)
      · exact hflushed t ht
      · exact hnew t ht
    · rw [List.cons_append, hends.step tail out htail, hrun _ tail htail, hflush]
      simp

/-- A text that can be lexed on its own has the same words in front of a detached one. -/
theorem scan_append_detached {cs tail : List Char} {ws : List Token}
    (h : scan .outside [] [] cs = .ok ws) (htail : Detached tail) (out : List Token) :
    scan .outside [] out (cs ++ tail) = scan .outside [] (ws.reverse ++ out) tail := by
  obtain ⟨new, rfl, _, hrun⟩ := scan_eq_ok h
  exact hrun out tail htail

/-- The tokens before are kept. -/
theorem scan_out {cs : List Char} {ws : List Token} (h : scan .outside [] [] cs = .ok ws)
    (out : List Token) : scan .outside [] out cs = .ok (out.reverse ++ ws) := by
  have hrun := scan_append_detached h detached_nil out
  rw [List.append_nil, scan_end] at hrun
  rw [hrun]
  simp

/-- Only the tokens before are added to those of the text alone. -/
theorem scan_out_eq_ok {cs : List Char} {out ws : List Token}
    (h : scan .outside [] out cs = .ok ws) :
    ∃ new, ws = out.reverse ++ new ∧ scan .outside [] [] cs = .ok new := by
  obtain ⟨new, hws, _, hrun⟩ := scan_eq_ok h
  have halone := hrun [] [] detached_nil
  rw [List.append_nil, scan_end] at halone
  exact ⟨new, hws, by simpa using halone⟩

/-- Two texts with a blank between them have the words of both. -/
theorem scan_append_blank {as bs : List Char} {ws vs : List Token}
    (ha : scan .outside [] [] as = .ok ws) (hb : scan .outside [] [] bs = .ok vs) :
    scan .outside [] [] (as ++ ' ' :: bs) = .ok (ws ++ vs) := by
  rw [scan_append_detached ha (detached_space bs), scan_blank (by decide), flush_nil, scan_out hb]
  simp

/-! ## The seam -/

/-- Joining words that were joined before makes no difference. -/
theorem join_join (t u : Token) (ts : List Token) :
    join t (join u ts) = (join t [u]).foldr join ts := by
  cases t with
  | fragment a m =>
      cases u with
      | fragment b n =>
          cases ts with
          | nil => rfl
          | cons v ts =>
              cases v with
              | fragment c l => simp [join, Nat.add_assoc]
              | _ => rfl
      | _ => rfl
  | _ => rfl

/-- A token joins the first of others at most. -/
theorem join_cons (t u : Token) (ts : List Token) : join t (u :: ts) = join t [u] ++ ts := by
  cases t with
  | fragment a m => cases u <;> rfl
  | _ => rfl

/-- The tokens of two texts are joined at the seam only. -/
theorem joined_append (ws vs : List Token) :
    joined (ws ++ vs) = (joined ws).foldr join (joined vs) := by
  have hfoldr : ∀ t ts us, join t (List.foldr join us ts) = (join t ts).foldr join us := by
    intro t ts us
    cases ts with
    | nil => cases t <;> rfl
    | cons u ts => rw [List.foldr_cons, join_join, join_cons t u ts, List.foldr_append]
  induction ws with
  | nil => rfl
  | cons t ws ih => rw [List.cons_append, joined_cons, joined_cons, ih, hfoldr]

/-- Nothing joins at the seam in front of a text that does not begin with a condition. -/
theorem joined_append_of_apart (ws : List Token) {vs : List Token} (hvs : Apart vs) :
    joined (ws ++ vs) = joined ws ++ joined vs := by
  induction ws with
  | nil => rfl
  | cons t ws ih =>
      rw [List.cons_append, joined_cons, ih, joined_cons]
      cases hws : joined ws with
      | nil => cases t with
        | fragment w n => rw [List.nil_append, join_of_apart (apart_joined hvs)]; rfl
        | _ => rfl
      | cons u us => rw [List.cons_append, join_cons, join_cons t u us, List.append_assoc]

/-- A token that is joined to others is counted if they are. -/
theorem counted_join {t : Token} {ts : List Token} (ht : Counted t)
    (hts : ∀ u ∈ ts, Counted u) : ∀ u ∈ join t ts, Counted u := by
  cases ts with
  | nil =>
      intro u hu
      have hsame : u = t := by cases t <;> exact List.mem_singleton.mp hu
      rw [hsame]
      exact ht
  | cons v ts =>
      intro u hu
      rw [join_cons] at hu
      rcases List.mem_append.mp hu with hu | hu
      · have hv := hts v List.mem_cons_self
        have hpair : ∀ w ∈ [t, v], Counted w := by
          intro w hw
          rcases List.mem_cons.mp hw with rfl | hw
          · exact ht
          · rwa [List.mem_singleton.mp hw]
        cases t with
        | fragment a m =>
            cases v with
            | fragment b n =>
                rw [List.mem_singleton.mp hu]
                exact Nat.le_add_right_of_le ht
            | _ => exact hpair u hu
        | _ => exact hpair u hu
      · exact hts u (List.mem_cons_of_mem _ hu)

/-- Joined tokens are counted if the words were. -/
theorem counted_joined {ws : List Token} (hws : ∀ t ∈ ws, Counted t) :
    ∀ t ∈ joined ws, Counted t := by
  induction ws with
  | nil => simp [joined]
  | cons t ws ih =>
      exact counted_join (hws t List.mem_cons_self)
        (ih fun u hu => hws u (List.mem_cons_of_mem _ hu))

end ListingQuery.Filter.Token
