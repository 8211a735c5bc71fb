import ListingQuery.Filter.Reading

/-!
# What the reader of filters does

One inversion lemma for each function of the reader says everything that a successful call can have
done; the other modules argue from these lemmas and do not unfold the reader.

* `Further` is the loop behind a first operand: as long as the connective follows, one more operand
  is read.  The reader bounds the loop by the number of tokens, and `readFurther_iff` says that the
  bound is never felt, since every operand uses up a token;
* `readJoined_iff` is one operand or several with a connective between them;
* `readOperand_cases` is the operand: a condition, a negation or a filter in parentheses, where each
  of the last two uses up one level of nesting, and `readOperand_induction` the induction over the
  levels that follows from it;
* `read_cases` is the whole of it, from the text to the filter.
-/

namespace ListingQuery.Filter

/-- Is the token a condition? -/
def Token.isFragment : Token → Bool
  | .fragment _ _ => true
  | _ => false

/-- The two connectives between operands. -/
inductive Connective where
  | conjunction
  | disjunction
deriving DecidableEq, Repr

namespace Connective

/-- The token of a connective. -/
def token : Connective → Token
  | conjunction => .and
  | disjunction => .or

/-- The symbol that a connective can be written as. -/
def symbol : Connective → List Char
  | conjunction => ['&', '&']
  | disjunction => ['|', '|']

/-- The word that a connective can be written as, in letters of any case. -/
def word : Connective → List Char
  | conjunction => ['a', 'n', 'd']
  | disjunction => ['o', 'r']

/-- The filter of operands with the connective between them. -/
def node : Connective → List Filter → Filter
  | conjunction => .and
  | disjunction => .or

/-- What is read from a first operand and those behind it; one operand alone is itself. -/
def gather (k : Connective) (first : Filter) : List Filter → Filter
  | [] => first
  | second :: others => k.node (first :: second :: others)

@[simp] theorem token_isFragment (k : Connective) : k.token.isFragment = false := by
  cases k <;> rfl

end Connective

/-- The operands behind a first one: each stands behind a connective, and they end where no
connective follows. -/
inductive Further (k : Connective) (operand : List Token → Reading Filter) :
    List Token → List Filter → List Token → Prop
  | stop {ts : List Token} (hstop : ts.head? ≠ some k.token) : Further k operand ts [] ts
  | more {ts mid rest : List Token} {f : Filter} {fs : List Filter}
      (hread : operand ts = .ok (f, mid))
      (hfurther : Further k operand mid fs rest) :
      Further k operand (k.token :: ts) (f :: fs) rest

/-- A reader that uses up tokens whenever it succeeds. -/
def Shortens (operand : List Token → Reading Filter) : Prop :=
  ∀ ts f rest, operand ts = .ok (f, rest) → rest.length < ts.length

variable {k : Connective} {operand : List Token → Reading Filter}

/-- Further operands leave no more tokens than there were. -/
theorem Further.length_le (hshort : Shortens operand) {ts rest : List Token} {fs : List Filter}
    (h : Further k operand ts fs rest) : rest.length ≤ ts.length := by
  induction h with
  | stop _ => exact Nat.le_refl _
  | @more ts mid rest f fs hread _ ih =>
      have hlt := hshort _ _ _ hread
      simp only [List.length_cons]
      omega

/-- The bound on the number of further operands is never felt. -/
theorem readFurther_iff (hshort : Shortens operand) {n : Nat} {ts : List Token}
    (hn : ts.length ≤ n) {fs : List Filter} {rest : List Token} :
    readFurther k.token operand n ts = .ok (fs, rest) ↔ Further k operand ts fs rest := by
  induction n generalizing ts fs with
  | zero =>
      have hnil : ts = [] := List.length_eq_zero_iff.mp (Nat.le_zero.mp hn)
      subst hnil
      constructor
      · intro h
        cases h
        exact .stop (by simp)
      · intro h
        cases h with
        | stop _ => rfl
  | succ n ih =>
      cases ts with
      | nil =>
          constructor
          · intro h
            cases h
            exact .stop (by simp)
          · intro h
            cases h with
            | stop _ => rfl
      | cons t ts =>
          by_cases ht : t = k.token
          · subst ht
            rw [readFurther, if_pos rfl]
            constructor
            · intro h
              cases hread : operand ts with
              | error e => simp [hread] at h
              | ok first =>
                  obtain ⟨f, mid⟩ := first
                  cases hrest : readFurther k.token operand n mid with
                  | error e => simp [hread, hrest] at h
                  | ok others =>
                      obtain ⟨gs, rest'⟩ := others
                      simp only [hread, hrest, Except.ok.injEq, Prod.mk.injEq] at h
                      obtain ⟨rfl, rfl⟩ := h
                      have hlt := hshort _ _ _ hread
                      simp only [List.length_cons] at hn
                      exact .more hread ((ih (by omega)).mp hrest)
            · intro h
              cases h with
              | stop hstop => simp at hstop
              | @more _ mid _ f fs hread hfurther =>
                  have hlt := hshort _ _ _ hread
                  simp only [List.length_cons] at hn
                  simp [hread, (ih (by omega)).mpr hfurther]
          · rw [readFurther, if_neg ht]
            constructor
            · intro h
              cases h
              exact .stop (by simpa using ht)
            · intro h
              cases h with
              | stop _ => rfl
              | more _ _ => exact absurd rfl ht

/-- One operand, or several with the connective between them. -/
theorem readJoined_iff (hshort : Shortens operand) {ts rest : List Token} {f : Filter} :
    readJoined k.token k.node operand ts = .ok (f, rest) ↔
      ∃ first mid others, operand ts = .ok (first, mid) ∧
        Further k operand mid others rest ∧ f = k.gather first others := by
  unfold readJoined
  constructor
  · intro h
    cases hread : operand ts with
    | error e => simp [hread] at h
    | ok head =>
        obtain ⟨first, mid⟩ := head
        cases hrest : readFurther k.token operand mid.length mid with
        | error e => simp [hread, hrest] at h
        | ok tail =>
            obtain ⟨others, rest'⟩ := tail
            refine ⟨first, mid, others, rfl, ?_⟩
            cases others with
            | nil =>
                simp only [hread, hrest, Except.ok.injEq, Prod.mk.injEq] at h
                obtain ⟨rfl, rfl⟩ := h
                exact ⟨(readFurther_iff hshort (Nat.le_refl _)).mp hrest, rfl⟩
            | cons second others =>
                simp only [hread, hrest, Except.ok.injEq, Prod.mk.injEq] at h
                obtain ⟨rfl, rfl⟩ := h
                exact ⟨(readFurther_iff hshort (Nat.le_refl _)).mp hrest, rfl⟩
  · rintro ⟨first, mid, others, hread, hfurther, rfl⟩
    have hrest := (readFurther_iff hshort (Nat.le_refl _)).mpr hfurther
    cases others <;> simp [hread, hrest, Connective.gather]

/-- Operands with connectives between them use up tokens. -/
theorem shortens_readJoined (hshort : Shortens operand) :
    Shortens (readJoined k.token k.node operand) := by
  intro ts f rest h
  obtain ⟨first, mid, others, hread, hfurther, _⟩ := (readJoined_iff hshort).mp h
  exact Nat.lt_of_le_of_lt (hfurther.length_le hshort) (hshort _ _ _ hread)

/-- A disjunction of conjunctions, by the connectives. -/
theorem readDisjunction_eq (operand : List Token → Reading Filter) :
    readDisjunction operand =
      readJoined Connective.disjunction.token Connective.disjunction.node
        (readJoined Connective.conjunction.token Connective.conjunction.node operand) := rfl

/-- A disjunction uses up tokens. -/
theorem shortens_readDisjunction (hshort : Shortens operand) :
    Shortens (readDisjunction operand) := by
  rw [readDisjunction_eq]
  exact shortens_readJoined (shortens_readJoined hshort)

/-- A filter is closed by a parenthesis that closes, and by nothing else. -/
theorem closeParen_iff {f g : Filter} {ts rest : List Token} :
    closeParen f ts = .ok (g, rest) ↔ g = f ∧ ts = .closeParen :: rest := by
  cases ts with
  | nil => simp [closeParen]
  | cons t ts => cases t <;> simp [closeParen, eq_comm]

/-- What an operand can be: a condition, a negation, or a filter in parentheses. -/
theorem readOperand_cases {limit levels : Nat} {ts rest : List Token} {f : Filter}
    (h : readOperand limit levels ts = .ok (f, rest)) :
    (∃ text words c, ts = .fragment text words :: rest ∧
      Comparison.read text words = .ok c ∧ f = .test c) ∨
    (∃ n ts' g, levels = n + 1 ∧ ts = .not :: ts' ∧
      readOperand limit n ts' = .ok (g, rest) ∧ f = .not g) ∨
    (∃ n ts', levels = n + 1 ∧ ts = .openParen :: ts' ∧
      readDisjunction (readOperand limit n) ts' = .ok (f, .closeParen :: rest)) := by
  cases ts with
  | nil => simp [readOperand] at h
  | cons t ts =>
      cases t with
      | fragment text words =>
          left
          cases hread : Comparison.read text words with
          | error e => simp [readOperand, hread] at h
          | ok c =>
              simp only [readOperand, hread, Except.ok.injEq, Prod.mk.injEq] at h
              obtain ⟨rfl, rfl⟩ := h
              exact ⟨text, words, c, rfl, hread, rfl⟩
      | not =>
          right; left
          cases levels with
          | zero => simp [readOperand] at h
          | succ n =>
              cases hread : readOperand limit n ts with
              | error e => simp [readOperand, hread] at h
              | ok inner =>
                  obtain ⟨g, rest'⟩ := inner
                  simp only [readOperand, hread, Except.ok.injEq, Prod.mk.injEq] at h
                  obtain ⟨rfl, rfl⟩ := h
                  exact ⟨n, ts, g, rfl, rfl, hread, rfl⟩
      | openParen =>
          right; right
          cases levels with
          | zero => simp [readOperand] at h
          | succ n =>
              cases hread : readDisjunction (readOperand limit n) ts with
              | error e => simp [readOperand, hread] at h
              | ok inner =>
                  obtain ⟨g, rest'⟩ := inner
                  simp only [readOperand, hread] at h
                  obtain ⟨rfl, rfl⟩ := closeParen_iff.mp h
                  exact ⟨n, ts, rfl, rfl, hread⟩
      | closeParen => simp [readOperand] at h
      | and => simp [readOperand] at h
      | or => simp [readOperand] at h

/-- **Induction over operands** that are read: a condition, the negation of an operand, or a filter
in parentheses, where the level inside gives what is known of every operand there. -/
theorem readOperand_induction {limit : Nat}
    {motive : Nat → List Token → Filter → List Token → Prop}
    (condition : ∀ {levels text words c rest}, Comparison.read text words = .ok c →
      motive levels (.fragment text words :: rest) (.test c) rest)
    (negation : ∀ {levels ts f rest}, motive levels ts f rest →
      motive (levels + 1) (.not :: ts) (.not f) rest)
    (group : ∀ {levels ts f rest},
      (∀ ts f rest, readOperand limit levels ts = .ok (f, rest) → motive levels ts f rest) →
      readDisjunction (readOperand limit levels) ts = .ok (f, .closeParen :: rest) →
      motive (levels + 1) (.openParen :: ts) f rest)
    {levels : Nat} {ts rest : List Token} {f : Filter}
    (h : readOperand limit levels ts = .ok (f, rest)) : motive levels ts f rest := by
  induction levels generalizing ts f rest with
  | zero =>
      rcases readOperand_cases h with
        ⟨text, words, c, rfl, hread, rfl⟩ | ⟨n, _, _, hn, _⟩ | ⟨n, _, hn, _⟩
      · exact condition hread
      · omega
      · omega
  | succ levels ih =>
      rcases readOperand_cases h with
        ⟨text, words, c, rfl, hread, rfl⟩ | ⟨n, ts', g, hn, rfl, hread, rfl⟩ |
        ⟨n, ts', hn, rfl, hread⟩
      · exact condition hread
      · obtain rfl : n = levels := by omega
        exact negation (ih hread)
      · obtain rfl : n = levels := by omega
        exact group (fun _ _ _ h => ih h) hread

/-- Every operand uses up a token. -/
theorem shortens_readOperand (limit levels : Nat) : Shortens (readOperand limit levels) := by
  intro ts f rest h
  refine readOperand_induction (motive := fun _ ts _ rest => rest.length < ts.length)
    ?_ ?_ ?_ h
  · intro levels text words c rest _
    exact Nat.lt_succ_self _
  · intro levels ts f rest ih
    exact Nat.lt_succ_of_lt ih
  · intro levels ts f rest ih hread
    have hlt := shortens_readDisjunction ih _ _ _ hread
    simp only [List.length_cons] at hlt ⊢
    omega

/-- A whole filter is a disjunction that no token is left behind. -/
theorem ofTokens_iff {limit : Nat} {ts : List Token} {f : Filter} :
    ofTokens limit ts = .ok f ↔ readDisjunction (readOperand limit limit) ts = .ok (f, []) := by
  unfold ofTokens
  cases hread : readDisjunction (readOperand limit limit) ts with
  | error e => simp
  | ok inner =>
      obtain ⟨g, rest⟩ := inner
      cases rest <;> simp

/-- What a text has passed that is accepted as a filter: the length, and then either nothing but
blanks, or the scan of the tokens and the reader. -/
theorem read_cases {source : String} {limits : Limits} {f : Filter}
    (hread : read source limits = .ok f) :
    source.utf8ByteSize ≤ limits.clamped.filterLength.toNat ∧
      ((Token.ofText source.toList = .ok [] ∧ f = .always) ∨
       ∃ t ts, Token.ofText source.toList = .ok (t :: ts) ∧
         firstBreach? limits.clamped Counts.zero (t :: ts) = none ∧
         ofTokens limits.clamped.filterDepth.toNat (t :: ts) = .ok f) := by
  unfold read at hread
  simp only at hread
  split at hread
  · cases hread
  · rename_i hlength
    refine ⟨by omega, ?_⟩
    cases htokens : Token.ofText source.toList with
    | error e => simp [htokens] at hread
    | ok tokens =>
        cases tokens with
        | nil =>
            simp only [htokens, Except.ok.injEq] at hread
            exact Or.inl ⟨rfl, hread.symm⟩
        | cons t ts =>
            right
            cases hbreach : firstBreach? limits.clamped Counts.zero (t :: ts) with
            | some b => simp [htokens, hbreach] at hread
            | none =>
                simp only [htokens, hbreach] at hread
                exact ⟨t, ts, rfl, hbreach, hread⟩

/-- A text that passes the length, the scan of the tokens and the reader is accepted. -/
theorem read_of_tokens {source : String} {limits : Limits} {t : Token} {ts : List Token}
    {f : Filter} (hlength : source.utf8ByteSize ≤ limits.clamped.filterLength.toNat)
    (htokens : Token.ofText source.toList = .ok (t :: ts))
    (hbreach : firstBreach? limits.clamped Counts.zero (t :: ts) = none)
    (htree : ofTokens limits.clamped.filterDepth.toNat (t :: ts) = .ok f) :
    read source limits = .ok f := by
  unfold read
  simp only [if_neg (Nat.not_lt.mpr hlength), htokens, hbreach, htree]

/-- The limits are kept by counts that are not above them. -/
theorem Counts.breach?_eq_none_iff {n : Counts} {limits : Limits} :
    n.breach? limits = none ↔ n.deepest ≤ limits.filterDepth.toNat ∧
      n.negations ≤ limits.negationRun.toNat ∧ n.leaves ≤ limits.filterLeaves.toNat := by
  unfold breach?
  split
  · simp
    omega
  · split
    · simp
      omega
    · split
      · simp
        omega
      · simp
        omega

/-- The first breach lies behind every token that breaks no limit. -/
theorem firstBreach?_cons_eq_none_iff {limits : Limits} {n : Counts} {t : Token}
    {ts : List Token} : firstBreach? limits n (t :: ts) = none ↔
      (n.add t).breach? limits = none ∧ firstBreach? limits (n.add t) ts = none := by
  rw [firstBreach?]
  cases (n.add t).breach? limits <;> simp

/-- The answer is a refusal as an attack. -/
def Breached {α : Type} (answer : Except QueryError α) : Prop :=
  ∃ b, answer = .error (.securityBreach b)

/-- A breach is a refusal as an attack. -/
theorem breached_error {α : Type} (b : Breach) :
    Breached (.error (.securityBreach b) : Except QueryError α) :=
  ⟨b, rfl⟩

/-- A successful answer, from an evaluation that only looks at successes. -/
theorem eq_ok_of_toOption {α ε : Type} {answer : Except ε α} {a : α}
    (h : answer.toOption = some a) : answer = .ok a := by
  cases answer with
  | error _ => cases h
  | ok b => exact congrArg Except.ok (Option.some.inj h)

/-- The error of an answer, if it is one. -/
def failure? {α ε : Type} : Except ε α → Option ε
  | .error e => some e
  | .ok _ => none

/-- A failure, from an evaluation that only looks at failures. -/
theorem eq_error_of_failure? {α ε : Type} {answer : Except ε α} {e : ε}
    (h : failure? answer = some e) : answer = .error e := by
  cases answer with
  | error _ => exact congrArg Except.error (Option.some.inj h)
  | ok _ => cases h

end ListingQuery.Filter
