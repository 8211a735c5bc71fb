import ListingQuery.Proofs.Filter.Juxtaposition

/-!
# Words on their own

A word of a condition that the lexer finds in a text is found again when it stands alone, or with
single blanks between it and other such words.  The tokens of a text are therefore texts that can
be lexed themselves.

* `Pending` is what is known of a word while it is being read, and `Pending.collect` says that a
  character more keeps it;
* `singles_of_scan` is the run over a whole text, and `scan_merged` lexes several words again;
* `first_word` says where the first word of a text ends at the earliest and at the latest.
-/

namespace ListingQuery.Filter.Token

/-! ## A word while it is being read -/

/-- A word of a condition: alone it is that word, and it has no blanks around it. -/
structure IsWord (w : List Char) : Prop where
  ne_nil : w ≠ []
  framed : Text.Framed w
  scan : scan .outside [] [] w = .ok [fragment w 1]

/-- What is known of a word, given in reverse, that has been read up to a place with the text `rest`
behind it: only quotes are open as quotes, there is no blank in front or, if nothing is open, at the
back, and the lexer comes to the same place from the beginning of the word. -/
structure Pending (r : Region) (word rest : List Char) : Prop where
  quote : ∀ q, r.quote = some q → Region.isQuote q = true
  start : word = [] → r = .outside
  first : ∀ c front, word = front ++ [c] → Text.isBlank c = false
  last : r = .outside → ∀ c back, word = c :: back → Text.isBlank c = false
  rescans : ∀ tail out, LooksLike word rest tail →
    Token.scan .outside [] out (word.reverse ++ tail) = Token.scan r word out tail

theorem pending_nil (rest : List Char) : Pending .outside [] rest where
  quote := by simp [Region.outside]
  start := fun _ => rfl
  first := by simp
  last := by simp
  rescans := fun _ _ _ => rfl

theorem next_of_isBlank {r : Region} (hquote : ∀ q, r.quote = some q → Region.isQuote q = true)
    {c : Char} (hblank : Text.isBlank c = true) (before : List Char) : r.next before c = r := by
  obtain ⟨hc, hopening, _⟩ := Region.silent_of_isBlank hblank
  have hclosing : c ≠ ']' := by
    rintro rfl
    exact absurd hblank (by decide)
  unfold Region.next
  cases hr : r.quote with
  | some q =>
      have hne : c ≠ q := by
        rintro rfl
        rw [hquote c hr] at hc
        cases hc
      simp [hne]
  | none => simp [hc, hopening, hclosing]

theorem isQuote_of_next {r : Region} (hquote : ∀ q, r.quote = some q → Region.isQuote q = true)
    (before : List Char) (c : Char) :
    ∀ q, (r.next before c).quote = some q → Region.isQuote q = true := by
  intro q hq
  unfold Region.next at hq
  split at hq
  · split at hq
    · cases hq
    · exact hquote q hq
  · rename_i hnone
    split at hq
    · rename_i hopens
      rw [← Option.some.inj hq]
      exact (Bool.and_eq_true _ _ ▸ hopens).1
    · split at hq
      · exact hquote q hq
      · split at hq
        · exact hquote q hq
        · exact hquote q hq

/-- **A character more.** -/
theorem Pending.collect {r : Region} {word rest : List Char} {c : Char}
    (h : Pending r word (c :: rest)) (hcollects : Collects r word c rest) :
    Pending (r.next word c) (c :: word) rest := by
  -- outside a blank would end the word, and where something is open it does not close it
  have hblank : r = .outside → Text.isBlank c = false := by
    rintro rfl
    cases hc : Text.isBlank c with
    | false => rfl
    | true =>
        obtain ⟨hquote, hbracket, _⟩ := Region.silent_of_isBlank hc
        rw [← hc]
        exact hcollects.not_blank (Region.isOpen_outside hquote hbracket word)
  refine ⟨isQuote_of_next h.quote word c, by simp, ?_, ?_, ?_⟩
  · intro d front hword
    cases front with
    | nil =>
        obtain ⟨rfl, rfl⟩ := List.cons.inj hword
        exact hblank (h.start rfl)
    | cons e front => exact h.first d front (List.cons.inj hword).2
  · intro hnext d back hword
    obtain ⟨rfl, rfl⟩ := List.cons.inj hword
    cases hc : Text.isBlank c with
    | false => rfl
    | true =>
        rw [next_of_isBlank h.quote hc] at hnext
        rw [← hc]
        exact hblank hnext
  · intro tail out hlooks
    have hsame : LooksLike word (c :: rest) (c :: tail) := Or.inl rfl
    rw [List.reverse_cons, List.append_assoc, List.singleton_append, h.rescans _ _ hsame,
      hcollects.step tail out hlooks]

/-- A token that is a word of its own, if it is a condition at all. -/
def Single (t : Token) : Prop :=
  ∀ w n, t = fragment w n → n = 1 ∧ IsWord w

/-- What is no condition is single. -/
theorem single_of_not_fragment {t : Token} (ht : t.isFragment = false) : Single t := by
  rintro w n rfl
  cases ht

/-- A word that is a condition is that condition, of one word. -/
theorem eq_of_ofWord {v w : List Char} {n : Nat} (h : ofWord v = fragment w n) :
    w = v ∧ n = 1 := by
  unfold ofWord at h
  split at h
  · cases h
  · split at h
    · cases h
    · split at h
      · cases h
      · cases h
        exact ⟨rfl, rfl⟩

/-- A word that ends here is one of its own. -/
theorem Pending.single {word rest : List Char} (h : Pending .outside word rest) (hne : word ≠ [])
    (hrest : beginsOperator rest = false) : Single (ofWord word.reverse) := by
  intro w n hword
  obtain ⟨rfl, rfl⟩ := eq_of_ofWord hword
  refine ⟨rfl, by simpa using hne, ⟨?_, ?_⟩, ?_⟩
  · intro c back heq
    exact h.first c back.reverse (by rw [← List.reverse_inj, heq]; simp)
  · intro c front heq
    exact h.last rfl c front.reverse (by rw [← List.reverse_inj, heq]; simp)
  · have hscan := h.rescans [] [] (Or.inr ⟨detached_nil, fun hop => by simp [hrest] at hop⟩)
    rw [List.append_nil] at hscan
    rw [hscan, scan_nil_eq_ok_iff]
    exact ⟨rfl, by simp [flush, hne, hword]⟩

/-- Behind a pending word that ends here all tokens are single. -/
theorem singles_flush {word rest : List Char} {out : List Token}
    (h : Pending .outside word rest) (hrest : beginsOperator rest = false)
    (hout : ∀ t ∈ out, Single t) : ∀ t ∈ flush word out, Single t := by
  cases word with
  | nil => exact hout
  | cons c word =>
      intro t ht
      rcases List.mem_cons.mp ht with rfl | ht
      · exact h.single (List.cons_ne_nil _ _) hrest
      · exact hout t ht

/-- **The words of a text** are words of their own. -/
theorem singles_of_scan {r : Region} {word cs : List Char} {out ws : List Token}
    (h : Token.scan r word out cs = .ok ws) (hpending : Pending r word cs)
    (hout : ∀ t ∈ out, Single t) : ∀ t ∈ ws, Single t := by
  refine scan_induction (motive := fun r word out cs ws =>
    Pending r word cs → (∀ t ∈ out, Single t) → ∀ t ∈ ws, Single t) ?_ ?_ ?_ h hpending hout
  · intro word out hpending hout t ht
    exact singles_flush hpending rfl hout t (List.mem_reverse.mp ht)
  · intro r word out c rest ws hcollects ih hpending hout
    exact ih (hpending.collect hcollects) hout
  · intro word out c rest marks rest' ws hends _ ih hpending hout
    have hop : beginsOperator (c :: rest) = false := by
      simpa [beginsOperator, and_assoc] using hends.not_operator
    refine ih (pending_nil rest') fun t ht => ?_
    rcases List.mem_append.mp ht with ht | ht
    · exact single_of_not_fragment (hends.not_fragment t ht)
    · exact singles_flush hpending hop hout t ht

/-! ## Several words -/

/-- Words with single blanks between them are these words. -/
theorem scan_merged {w : List Char} {ws : List (List Char)} (h : ∀ v ∈ w :: ws, IsWord v) :
    Token.scan .outside [] [] (merged w ws) = .ok ((w :: ws).map (fragment · 1)) := by
  induction ws generalizing w with
  | nil => exact (h w List.mem_cons_self).scan
  | cons v ws ih =>
      exact scan_append_blank (h w List.mem_cons_self).scan
        (ih fun u hu => h u (List.mem_cons_of_mem _ hu))

/-- Merged words are not empty. -/
theorem merged_ne_nil {w : List Char} (hw : w ≠ []) (ws : List (List Char)) :
    merged w ws ≠ [] := by
  cases ws with
  | nil => exact hw
  | cons v ws => simp [merged]

theorem framed_merged {w : List Char} {ws : List (List Char)} (h : ∀ v ∈ w :: ws, IsWord v) :
    Text.Framed (merged w ws) := by
  induction ws generalizing w with
  | nil => exact (h w List.mem_cons_self).framed
  | cons v ws ih =>
      have hw := h w List.mem_cons_self
      have hrest := ih fun u hu => h u (List.mem_cons_of_mem _ hu)
      have hne := merged_ne_nil (h v (by simp)).ne_nil ws
      constructor
      · intro c rest heq
        obtain ⟨d, w, rfl⟩ := List.exists_cons_of_ne_nil hw.ne_nil
        rw [← (List.cons.inj heq).1]
        exact hw.framed.first d w rfl
      · intro c rest heq
        obtain ⟨front, d, hmerged⟩ := (List.eq_nil_or_concat (merged v ws)).resolve_left hne
        rw [List.concat_eq_append] at hmerged
        have hall : (w ++ ' ' :: front) ++ [d] = rest ++ [c] := by
          rw [← heq, merged, hmerged]
          simp
        rw [← (List.cons.inj (List.append_inj' hall rfl).2).1]
        exact hrest.last d front hmerged

/-! ## The first word -/

/-- The word that is being read has what was read of it at its beginning, and goes on with the text
behind. -/
theorem first_word {r : Region} {word cs : List Char} (hne : word ≠ []) {ws : List Token}
    (h : Token.scan r word [] cs = .ok ws) :
    ∃ w more, ws = ofWord w :: more ∧ word.reverse <+: w ∧ w <+: word.reverse ++ cs := by
  have hflush : ∀ word : List Char, word ≠ [] → flush word [] = [ofWord word.reverse] := by
    intro word hne
    simp [flush, hne]
  refine scan_induction (motive := fun _ word out cs ws => word ≠ [] → out = [] →
    ∃ w more, ws = ofWord w :: more ∧ word.reverse <+: w ∧ w <+: word.reverse ++ cs)
    ?_ ?_ ?_ h hne rfl
  · rintro word _ hne rfl
    rw [hflush word hne]
    exact ⟨word.reverse, [], rfl, List.prefix_rfl, List.prefix_append _ _⟩
  · rintro r word _ c rest ws hcollects ih hne rfl
    obtain ⟨w, more, hws, hfront, hback⟩ := ih (List.cons_ne_nil c word) rfl
    rw [List.reverse_cons] at hfront hback
    refine ⟨w, more, hws, (List.prefix_append _ _).trans hfront, ?_⟩
    rwa [List.append_assoc] at hback
  · rintro word _ c rest marks rest' ws hends hscan _ hne rfl
    obtain ⟨new, rfl, _⟩ := scan_eq_ok hscan
    rw [hflush word hne]
    exact ⟨word.reverse, marks.reverse ++ new, by simp, List.prefix_rfl, List.prefix_append _ _⟩

/-- A text that does not begin with a blank begins with its first word, if that is a condition. -/
theorem prefix_of_scan {cs w : List Char} {n : Nat} {more : List Token}
    (hblank : ∀ c, cs.head? = some c → Text.isBlank c = false)
    (h : Token.scan .outside [] [] cs = .ok (fragment w n :: more)) : w <+: cs := by
  cases cs with
  | nil => cases h
  | cons c rest =>
      rcases scan_cases .outside [] c rest with hcollects | ⟨_, marks, rest', hends⟩
      · rw [hcollects.step rest [] (Or.inl rfl)] at h
        obtain ⟨v, others, hws, _, hback⟩ := first_word (List.cons_ne_nil c []) h
        rw [(eq_of_ofWord (List.cons.inj hws).1.symm).1]
        exact hback
      · have hmarks : marks ≠ [] := by
          intro hnil
          have hsame := hends.blank hnil
          rw [hblank c rfl] at hsame
          cases hsame
        have hstep := hends.step [] [] detached_nil
        rw [List.append_nil, List.append_nil] at hstep
        rw [hstep, flush_nil, List.append_nil] at h
        obtain ⟨new, hws, _⟩ := scan_eq_ok h
        obtain ⟨front, t, hlast⟩ := (List.eq_nil_or_concat marks).resolve_left hmarks
        rw [List.concat_eq_append] at hlast
        have ht := hends.not_fragment t (by simp [hlast])
        rw [hlast, List.reverse_append, List.reverse_singleton, List.singleton_append,
          List.cons_append] at hws
        rw [← (List.cons.inj hws).1] at ht
        cases ht

/-- Quotes go into the word wherever they stand. -/
theorem scan_quotes (n : Nat) (r : Region) (word cs : List Char) (out : List Token) :
    ∃ r', Token.scan r word out (List.replicate n '"' ++ cs) =
      Token.scan r' (List.replicate n '"' ++ word) out cs := by
  induction n generalizing r word with
  | zero => exact ⟨r, rfl⟩
  | succ n ih =>
      have hquote : ∀ rest, Token.scan r word out ('"' :: rest) =
          Token.scan (r.next word '"') ('"' :: word) out rest := by
        intro rest
        cases hopen : r.isOpen word '"' with
        | false => exact scan_of_not_isOpen hopen out
        | true =>
            obtain ⟨rfl, hnext⟩ := Region.next_of_isOpen hopen
            rw [hnext]
            exact scan_of_collected hopen (by decide) (by decide) (by simp)
              (fun k more heq => by cases k <;> simp [Connective.symbol] at heq) out
      obtain ⟨r', hrun⟩ := ih (r.next word '"') ('"' :: word)
      refine ⟨r', ?_⟩
      rw [List.replicate_succ, List.cons_append, hquote, hrun]
      congr 1
      rw [← List.singleton_append, ← List.append_assoc, ← List.replicate_succ',
        List.replicate_succ]

end ListingQuery.Filter.Token
