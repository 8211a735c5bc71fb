import ListingQuery.Proofs.Filter.Sentence
import ListingQuery.Proofs.Limits

/-!
# What is refused as an attack

A filter that breaks a limit is to be refused as an attack, whatever else is wrong with it.  For
the length of the text, the number of conditions, the runs of negations and the nesting of
parentheses this holds, because the scan of the tokens comes first.  The nesting of parentheses and
negations together is only noticed by the reader of the tree, which has by then read the conditions
in front.

* `Phrase.firstBreach?_iff` and `Sentence.firstBreach?_iff` say what the scan of the tokens sees;
* `accepted_iff` says for every grammatical filter when it is accepted, and `refused_as_attack_iff`
  when it is refused as an attack;
* `deep_negation_behind_unknown_field` is a filter that is nested too deep and not refused as such.
-/

namespace ListingQuery.Filter

/-! ## The scan of the tokens -/

/-- Counts that have broken no limit, with a depth that has been counted. -/
structure Counts.Kept (limits : Limits) (n : Counts) : Prop where
  depth : n.depth ≤ n.deepest
  deepest : n.deepest ≤ limits.filterDepth.toNat
  negations : n.negations ≤ limits.negationRun.toNat
  leaves : n.leaves ≤ limits.filterLeaves.toNat

/-- The counts behind an operand or several: the depth is as before, and no negation is pending. -/
def Counts.behind (n : Counts) (depth leaves : Nat) : Counts :=
  ⟨n.depth, max n.deepest (n.depth + depth), 0, n.leaves + leaves⟩

/-- Counts are kept behind tokens that stay within the limits. -/
theorem Counts.Kept.behind {limits : Limits} {n : Counts} (h : n.Kept limits) {depth leaves : Nat}
    (hdepth : n.depth + depth ≤ limits.filterDepth.toNat)
    (hleaves : n.leaves + leaves ≤ limits.filterLeaves.toNat) :
    (n.behind depth leaves).Kept limits where
  depth := Nat.le_trans (Nat.le_add_right _ _) (Nat.le_max_right _ _)
  deepest := Nat.max_le.mpr ⟨h.deepest, hdepth⟩
  negations := Nat.zero_le _
  leaves := hleaves

/-- Counts behind one text and another are those behind both. -/
theorem Counts.behind_behind (n : Counts) (d₁ d₂ l₁ l₂ : Nat) :
    (n.behind d₁ l₁).behind d₂ l₂ = n.behind (max d₁ d₂) (l₁ + l₂) := by
  simp only [Counts.behind]
  congr 1 <;> omega

/-- The counts behind a filter in parentheses. -/
theorem Counts.behind_group (n : Counts) (depth leaves : Nat) :
    ((n.add .openParen).behind depth leaves).add .closeParen = n.behind (depth + 1) leaves := by
  simp only [Counts.add, Counts.behind]
  congr 1
  omega

/-- A run of negations is not shorter than its beginning. -/
theorem Phrase.le_negationRun : ∀ (p : Phrase) (before : Nat), before ≤ p.negationRun before
  | .condition _ _, _ => Nat.le_refl _
  | .negation p, before => Nat.le_of_succ_le (p.le_negationRun (before + 1))
  | .group _, _ => Nat.le_max_left _ _

section Scan

variable {limits : Limits}

/-- Counts that are kept breach nothing. -/
theorem Counts.Kept.breach? {n : Counts} (h : n.Kept limits) : n.breach? limits = none :=
  Counts.breach?_eq_none_iff.mpr ⟨h.deepest, h.negations, h.leaves⟩

/-- A connective between two operands is no step of its own. -/
theorem firstBreach?_connective {n : Counts} (hkept : n.Kept limits) (hzero : n.negations = 0)
    (k : Connective) (ts : List Token) :
    firstBreach? limits n (k.token :: ts) = none ↔ firstBreach? limits n ts = none := by
  have hadd : n.add k.token = n := by
    cases k <;> simp [Counts.add, Connective.token, ← hzero]
  rw [firstBreach?_cons_eq_none_iff, hadd]
  exact and_iff_right hkept.breach?

mutual

/-- What the scan of the tokens asks of an operand. -/
theorem Phrase.firstBreach?_iff : ∀ (p : Phrase) {n : Counts} (rest : List Token),
    n.Kept limits →
    (firstBreach? limits n (p.tokens ++ rest) = none ↔
      (n.depth + p.depth 0 ≤ limits.filterDepth.toNat ∧
        p.negationRun n.negations ≤ limits.negationRun.toNat ∧
        n.leaves + p.conditions.length ≤ limits.filterLeaves.toNat) ∧
      firstBreach? limits (n.behind (p.depth 0) p.conditions.length) rest = none)
  | .condition text words, n, rest, hkept => by
      obtain ⟨hdepth, hdeepest, hnegations, _⟩ := hkept
      have hbehind : n.add (.fragment text words) = n.behind 0 1 := by
        simp [Counts.add, Counts.behind, hdepth]
      simp only [Phrase.tokens, Phrase.depth, Phrase.negationRun, Phrase.conditions,
        List.singleton_append, List.length_singleton]
      rw [firstBreach?_cons_eq_none_iff, Counts.breach?_eq_none_iff, hbehind]
      simp only [Counts.behind, Nat.add_zero, Nat.max_eq_left hdepth]
      exact and_congr_left' (by omega)
  | .negation p, n, rest, hkept => by
      simp only [Phrase.tokens, Phrase.depth, Phrase.negationRun, Phrase.conditions,
        List.cons_append, Nat.add_zero]
      rw [firstBreach?_cons_eq_none_iff, Counts.breach?_eq_none_iff]
      by_cases hrun : n.negations + 1 ≤ limits.negationRun.toNat
      · have hadd : (n.add .not).Kept limits := ⟨hkept.depth, hkept.deepest, hrun, hkept.leaves⟩
        rw [p.firstBreach?_iff _ hadd]
        exact and_iff_right ⟨hkept.deepest, hrun, hkept.leaves⟩
      · have hlong := p.le_negationRun (n.negations + 1)
        simp only [Counts.add]
        omega
  | .group s, n, rest, hkept => by
      simp only [Phrase.tokens, Phrase.depth, Phrase.negationRun, Phrase.conditions,
        List.cons_append, List.append_assoc, List.nil_append]
      rw [firstBreach?_cons_eq_none_iff, Counts.breach?_eq_none_iff]
      by_cases hopen : n.depth + 1 ≤ limits.filterDepth.toNat
      · have hadd : (n.add .openParen).Kept limits :=
          ⟨Nat.le_max_right _ _, Nat.max_le.mpr ⟨hkept.deepest, hopen⟩, Nat.zero_le _,
            hkept.leaves⟩
        rw [s.firstBreach?_iff _ hadd rfl, firstBreach?_cons_eq_none_iff, Counts.behind_group]
        constructor
        · rintro ⟨_, ⟨hdepth, hrun, hleaves⟩, _, hrest⟩
          simp only [Counts.add] at hdepth hleaves
          exact ⟨⟨by omega, Nat.max_le.mpr ⟨hkept.negations, hrun⟩, hleaves⟩, hrest⟩
        · rintro ⟨⟨hdepth, hrun, hleaves⟩, hrest⟩
          have hinner : (n.add .openParen).depth + s.depth 0 ≤ limits.filterDepth.toNat := by
            simp only [Counts.add]
            omega
          exact ⟨⟨hadd.deepest, hadd.negations, hadd.leaves⟩,
            ⟨hinner, (Nat.max_le.mp hrun).2, hleaves⟩, (hkept.behind hdepth hleaves).breach?, hrest⟩
      · simp only [Counts.add]
        omega

/-- **The tokens of a sentence breach no limit** exactly if the sentence is within them, and what
follows breaches none. -/
theorem Sentence.firstBreach?_iff : ∀ (s : Sentence) {n : Counts} (rest : List Token),
    n.Kept limits → n.negations = 0 →
    (firstBreach? limits n (s.tokens ++ rest) = none ↔
      (n.depth + s.depth 0 ≤ limits.filterDepth.toNat ∧
        s.negationRun ≤ limits.negationRun.toNat ∧
        n.leaves + s.conditions.length ≤ limits.filterLeaves.toNat) ∧
      firstBreach? limits (n.behind (s.depth 0) s.conditions.length) rest = none)
  | .single p, n, rest, hkept, hzero => by
      have hfirst := p.firstBreach?_iff rest hkept
      rw [hzero] at hfirst
      exact hfirst
  | .joined p k s, n, rest, hkept, hzero => by
      have hfirst := p.firstBreach?_iff (k.token :: (s.tokens ++ rest)) hkept
      rw [hzero] at hfirst
      simp only [Sentence.tokens, Sentence.depth, Sentence.negationRun, Sentence.conditions,
        List.append_assoc, List.cons_append, List.length_append]
      rw [hfirst]
      constructor
      · rintro ⟨⟨hdepth, hrun, hleaves⟩, hrest⟩
        have hbehind := hkept.behind hdepth hleaves
        rw [firstBreach?_connective hbehind rfl, s.firstBreach?_iff _ hbehind rfl,
          Counts.behind_behind] at hrest
        obtain ⟨⟨hdepth', hrun', hleaves'⟩, hrest⟩ := hrest
        simp only [Counts.behind] at hdepth' hleaves'
        exact ⟨⟨by omega, Nat.max_le.mpr ⟨hrun, hrun'⟩, by omega⟩, hrest⟩
      · rintro ⟨⟨hdepth, hrun, hleaves⟩, hrest⟩
        obtain ⟨hrunFirst, hrunRest⟩ := Nat.max_le.mp hrun
        have hfirstDepth : n.depth + p.depth 0 ≤ limits.filterDepth.toNat := by omega
        have hfirstLeaves : n.leaves + p.conditions.length ≤ limits.filterLeaves.toNat := by omega
        have hbehind := hkept.behind hfirstDepth hfirstLeaves
        refine ⟨⟨hfirstDepth, hrunFirst, hfirstLeaves⟩, ?_⟩
        rw [firstBreach?_connective hbehind rfl, s.firstBreach?_iff _ hbehind rfl,
          Counts.behind_behind]
        refine ⟨⟨?_, hrunRest, ?_⟩, hrest⟩
        · simp only [Counts.behind]
          omega
        · simp only [Counts.behind]
          omega

end

/-- The scan of all tokens of a filter. -/
theorem Sentence.firstBreach?_tokens_iff (s : Sentence) :
    firstBreach? limits Counts.zero s.tokens = none ↔
      s.parentheses ≤ limits.filterDepth.toNat ∧ s.negationRun ≤ limits.negationRun.toNat ∧
        s.conditions.length ≤ limits.filterLeaves.toNat := by
  have hzero : Counts.zero.Kept limits :=
    ⟨Nat.le_refl _, Nat.zero_le _, Nat.zero_le _, Nat.zero_le _⟩
  have hscan := s.firstBreach?_iff [] hzero rfl
  rw [List.append_nil] at hscan
  simpa [Counts.zero, firstBreach?] using hscan

end Scan

/-! ## The whole text -/

mutual

/-- A phrase is deeper within more parentheses. -/
theorem Phrase.depth_mono {w v : Nat} (h : w ≤ v) : ∀ p : Phrase, p.depth w ≤ p.depth v
  | .condition _ _ => Nat.le_refl _
  | .negation p => Nat.add_le_add (p.depth_mono h) h
  | .group s => Nat.succ_le_succ (s.depth_mono h)

/-- Counting negations makes no place less deep. -/
theorem Sentence.depth_mono {w v : Nat} (h : w ≤ v) : ∀ s : Sentence, s.depth w ≤ s.depth v
  | .single p => p.depth_mono h
  | .joined p _ s => by
      have hfirst := p.depth_mono h
      have hrest := s.depth_mono h
      simp only [Sentence.depth]
      omega

end

theorem Phrase.tokens_ne_nil (p : Phrase) : p.tokens ≠ [] := by
  cases p <;> simp [Phrase.tokens]

theorem Sentence.tokens_ne_nil (s : Sentence) : s.tokens ≠ [] := by
  cases s with
  | single p => exact p.tokens_ne_nil
  | joined p k s => simp [Sentence.tokens]

/-- The three places where a text can be refused as an attack. -/
theorem breached_read_iff {source : String} {limits : Limits} {ts : List Token}
    (htokens : Token.ofText source.toList = .ok ts) (hne : ts ≠ []) :
    Breached (read source limits) ↔
      limits.clamped.filterLength.toNat < source.utf8ByteSize ∨
      firstBreach? limits.clamped Counts.zero ts ≠ none ∨
      Breached (ofTokens limits.clamped.filterDepth.toNat ts) := by
  obtain ⟨t, ts, rfl⟩ := List.exists_cons_of_ne_nil hne
  unfold read
  by_cases hlong : limits.clamped.filterLength.toNat < source.utf8ByteSize
  · simp only [hlong, true_or, iff_true]
    exact breached_error _
  · simp only [hlong, false_or, htokens]
    cases hbreach : firstBreach? limits.clamped Counts.zero (t :: ts) with
    | none => simp
    | some b => simpa using breached_error b

/-- **When a filter is accepted.**  A grammatical filter is accepted exactly if it keeps all limits
and every condition can be read. -/
theorem accepted_iff {source : String} {limits : Limits} {s : Sentence}
    (htokens : Token.ofText source.toList = .ok s.tokens) :
    (∃ f, read source limits = .ok f) ↔
      source.utf8ByteSize ≤ limits.clamped.filterLength.toNat ∧
      (s.negationRun ≤ limits.clamped.negationRun.toNat ∧
        s.conditions.length ≤ limits.clamped.filterLeaves.toNat) ∧
      s.nesting ≤ limits.clamped.filterDepth.toNat ∧ ∀ c ∈ s.conditions, Readable c := by
  have hnesting : s.parentheses ≤ s.nesting := s.depth_mono (Nat.zero_le 1)
  obtain ⟨t, ts, hts⟩ := List.exists_cons_of_ne_nil s.tokens_ne_nil
  rw [← s.exists_ofTokens_iff]
  constructor
  · intro h
    obtain ⟨f, hread⟩ := h
    obtain ⟨hlength, ⟨hnone, _⟩ | ⟨u, us, hsame, hbreach, htree⟩⟩ := read_cases hread
    · rw [htokens, hts] at hnone
      cases hnone
    · rw [htokens, Except.ok.injEq] at hsame
      rw [← hsame] at hbreach htree
      exact ⟨hlength, (s.firstBreach?_tokens_iff.mp hbreach).2, f, htree⟩
  · intro h
    obtain ⟨hlength, hcounts, f, htree⟩ := h
    have hdeep := ((s.exists_ofTokens_iff _).mp ⟨f, htree⟩).1
    have hbreach := s.firstBreach?_tokens_iff.mpr ⟨Nat.le_trans hnesting hdeep, hcounts⟩
    rw [hts] at htokens hbreach htree
    exact ⟨f, read_of_tokens hlength htokens hbreach htree⟩

/-- **When a filter is refused as an attack.**  A grammatical filter is refused as an attack
exactly if its text is too long, it has too many conditions or too long a run of negations, or it is
nested too deep, where parentheses and negations count alike; but in the last case only if the
parentheses alone are nested too deep, or every condition in front of the first place that is too
deep can be read. -/
theorem refused_as_attack_iff {source : String} {limits : Limits} {s : Sentence}
    (htokens : Token.ofText source.toList = .ok s.tokens) :
    Breached (read source limits) ↔
      min limits.filterLength.toNat Limits.maxFilterLength.toNat < source.utf8ByteSize ∨
      min limits.filterLeaves.toNat Limits.maxFilterLeaves.toNat < s.conditions.length ∨
      min limits.negationRun.toNat Limits.maxNegationRun.toNat < s.negationRun ∨
      min limits.filterDepth.toNat Limits.maxFilterDepth.toNat < s.nesting ∧
        (min limits.filterDepth.toNat Limits.maxFilterDepth.toNat < s.parentheses ∨
          ∀ c ∈ s.reached (min limits.filterDepth.toNat Limits.maxFilterDepth.toNat),
            Readable c) := by
  rw [← Limits.clamped_filterLength, ← Limits.clamped_filterLeaves, ← Limits.clamped_negationRun,
    ← Limits.clamped_filterDepth]
  have hnesting : s.parentheses ≤ s.nesting := s.depth_mono (Nat.zero_le 1)
  rw [breached_read_iff htokens s.tokens_ne_nil, s.breached_ofTokens_iff,
    s.problem?_eq_breach_iff, Ne, s.firstBreach?_tokens_iff]
  constructor
  · rintro (hlong | hscan | ⟨hdeep, hreadable⟩)
    · exact Or.inl hlong
    · by_cases hleaves : s.conditions.length ≤ limits.clamped.filterLeaves.toNat
      · by_cases hrun : s.negationRun ≤ limits.clamped.negationRun.toNat
        · have hparens : limits.clamped.filterDepth.toNat < s.parentheses :=
            Nat.lt_of_not_le fun hle => hscan ⟨hle, hrun, hleaves⟩
          exact Or.inr (Or.inr (Or.inr ⟨Nat.lt_of_lt_of_le hparens hnesting, Or.inl hparens⟩))
        · exact Or.inr (Or.inr (Or.inl (Nat.lt_of_not_le hrun)))
      · exact Or.inr (Or.inl (Nat.lt_of_not_le hleaves))
    · exact Or.inr (Or.inr (Or.inr ⟨hdeep, Or.inr hreadable⟩))
  · rintro (hlong | hleaves | hrun | ⟨hdeep, hparens | hreadable⟩)
    · exact Or.inl hlong
    · exact Or.inr (Or.inl fun hkept => Nat.not_le_of_lt hleaves hkept.2.2)
    · exact Or.inr (Or.inl fun hkept => Nat.not_le_of_lt hrun hkept.2.1)
    · exact Or.inr (Or.inl fun hkept => Nat.not_le_of_lt hparens hkept.1)
    · exact Or.inr (Or.inr ⟨hdeep, hreadable⟩)

/-- The filter `first and not (second)` of two conditions of one word each. -/
def andNot (first second : String) : Sentence :=
  .joined (.condition first.toList 1) .conjunction
    (.single (.negation (.group (.single (.condition second.toList 1)))))

/-- An unknown field behind a negated parenthesis is not reached, where one level is allowed. -/
theorem refused_before_unknown_field :
    Breached (read "zimmer>=3 and not (pool==1)" { Limits.standard with filterDepth := 1 }) := by
  have htokens : Token.ofText "zimmer>=3 and not (pool==1)".toList =
      .ok (andNot "zimmer>=3" "pool==1").tokens := eq_ok_of_toOption (by decide +kernel)
  have hreached : (andNot "zimmer>=3" "pool==1").reached (min 1 Limits.maxFilterDepth.toNat) =
      [("zimmer>=3".toList, 1)] := rfl
  refine (refused_as_attack_iff htokens).mpr (Or.inr (Or.inr (Or.inr ⟨by decide, Or.inr ?_⟩)))
  intro c hc
  have hfirst : c ∈ [("zimmer>=3".toList, 1)] := hreached ▸ hc
  rw [List.mem_singleton.mp hfirst]
  exact ⟨⟨.zimmer, .ge, "3", .int 3⟩, eq_ok_of_toOption (by decide +kernel)⟩

/-- An unknown field in front of a negated parenthesis is found first, although the nesting of two
levels is more than the one that is allowed. -/
theorem deep_negation_behind_unknown_field :
    Token.ofText "pool==1 and not (zimmer>=3)".toList = .ok (andNot "pool==1" "zimmer>=3").tokens ∧
      1 < (andNot "pool==1" "zimmer>=3").nesting ∧
      read "pool==1 and not (zimmer>=3)" { Limits.standard with filterDepth := 1 } =
        .error (.invalidFilterOption "pool") :=
  ⟨eq_ok_of_toOption (by decide +kernel), by decide, eq_error_of_failure? (by decide +kernel)⟩

end ListingQuery.Filter
