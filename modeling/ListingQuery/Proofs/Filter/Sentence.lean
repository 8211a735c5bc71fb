import ListingQuery.Proofs.Filter.Reader

/-!
# Filters as they are built from tokens

The tokens of a filter are grammatical when they are operands with connectives between them, where
an operand is a condition, the negation of an operand, or operands in parentheses.  Nothing is asked
of the conditions, so that this is the shape of filters with mistakes in them as well.

* `Phrase` and `Sentence` are the grammar, as trees; `Sentence.tokens` writes them down;
* `Sentence.depth`, `Sentence.negationRun` and `Sentence.conditions` measure what the limits bound;
* `Sentence.problem?` is the first thing that a reader meets and cannot read: a condition with a
  mistake, or a place that is nested too deep;
* `Sentence.leftover_read` says that the reader of filters stops at exactly this problem, and reads
  all tokens if there is none.  As far as that is concerned the loops over `and` and over `or` are
  one loop (`leftover_readDisjunction_connective`).
-/

namespace ListingQuery

/-- No text of a condition is refused as an attack. -/
theorem Comparison.read_ne_breach (text : List Char) (words : Nat) (b : Breach) :
    Comparison.read text words ≠ .error (.securityBreach b) := by
  unfold Comparison.read
  split
  · simp
  · split
    · simp
    · split
      · simp
      · dsimp only
        split
        · simp
        · split <;> simp

namespace Filter

/-! ## The grammar -/

mutual

/-- An operand as it is written. -/
inductive Phrase where
  | condition (text : List Char) (words : Nat)
  | negation (p : Phrase)
  | group (s : Sentence)

/-- Operands with connectives between them. -/
inductive Sentence where
  | single (p : Phrase)
  | joined (p : Phrase) (k : Connective) (s : Sentence)

end

mutual

/-- The tokens of an operand. -/
def Phrase.tokens : Phrase → List Token
  | .condition text words => [.fragment text words]
  | .negation p => .not :: p.tokens
  | .group s => .openParen :: (s.tokens ++ [.closeParen])

/-- The tokens of operands with connectives between them. -/
def Sentence.tokens : Sentence → List Token
  | .single p => p.tokens
  | .joined p k s => p.tokens ++ k.token :: s.tokens

end

mutual

/-- The deepest place of an operand, where every parenthesis counts one level and every negation
as many levels as `weight` says. -/
def Phrase.depth (weight : Nat) : Phrase → Nat
  | .condition _ _ => 0
  | .negation p => p.depth weight + weight
  | .group s => s.depth weight + 1

/-- The deepest place of several operands. -/
def Sentence.depth (weight : Nat) : Sentence → Nat
  | .single p => p.depth weight
  | .joined p _ s => max (p.depth weight) (s.depth weight)

end

/-- The nesting of parentheses and negations together. -/
abbrev Sentence.nesting (s : Sentence) : Nat := s.depth 1

/-- The nesting of parentheses alone. -/
abbrev Sentence.parentheses (s : Sentence) : Nat := s.depth 0

mutual

/-- The longest run of negations in an operand that has `before` negations in front of it. -/
def Phrase.negationRun (before : Nat) : Phrase → Nat
  | .condition _ _ => before
  | .negation p => p.negationRun (before + 1)
  | .group s => max before s.negationRun

/-- The longest run of negations in several operands. -/
def Sentence.negationRun : Sentence → Nat
  | .single p => p.negationRun 0
  | .joined p _ s => max (p.negationRun 0) s.negationRun

end

mutual

/-- The conditions of an operand, each with its text and the number of its words. -/
def Phrase.conditions : Phrase → List (List Char × Nat)
  | .condition text words => [(text, words)]
  | .negation p => p.conditions
  | .group s => s.conditions

/-- The conditions of several operands. -/
def Sentence.conditions : Sentence → List (List Char × Nat)
  | .single p => p.conditions
  | .joined p _ s => p.conditions ++ s.conditions

end

mutual

/-- The conditions of an operand in front of the first place that is nested deeper than `levels`. -/
def Phrase.reached : Nat → Phrase → List (List Char × Nat)
  | _, .condition text words => [(text, words)]
  | 0, .negation _ => []
  | levels + 1, .negation p => p.reached levels
  | 0, .group _ => []
  | levels + 1, .group s => s.reached levels

/-- The conditions of several operands in front of the first place that is nested too deep. -/
def Sentence.reached : Nat → Sentence → List (List Char × Nat)
  | levels, .single p => p.reached levels
  | levels, .joined p _ s =>
    if p.depth 1 ≤ levels then p.conditions ++ s.reached levels else p.reached levels

end

mutual

/-- The first problem that a reader with so many levels left meets in an operand. -/
def Phrase.problem? (limit : Nat) : Nat → Phrase → Option QueryError
  | _, .condition text words =>
    match Comparison.read text words with
    | .error e => some e
    | .ok _ => none
  | 0, .negation _ => some (.securityBreach (.tooDeep limit))
  | levels + 1, .negation p => p.problem? limit levels
  | 0, .group _ => some (.securityBreach (.tooDeep limit))
  | levels + 1, .group s => s.problem? limit levels

/-- The first problem in several operands. -/
def Sentence.problem? (limit : Nat) : Nat → Sentence → Option QueryError
  | levels, .single p => p.problem? limit levels
  | levels, .joined p _ s =>
    match p.problem? limit levels with
    | some e => some e
    | none => s.problem? limit levels

end

/-! ## Which problem it is -/

/-- The text of a condition can be read. -/
def Readable (c : List Char × Nat) : Prop :=
  ∃ x, Comparison.read c.1 c.2 = .ok x

mutual

/-- There is no problem exactly where nothing is too deep and every condition can be read. -/
theorem Phrase.problem?_eq_none_iff (limit : Nat) : ∀ (p : Phrase) (levels : Nat),
    p.problem? limit levels = none ↔
      p.depth 1 ≤ levels ∧ ∀ c ∈ p.conditions, Readable c
  | .condition text words, levels => by
      cases hread : Comparison.read text words <;>
        simp [Phrase.problem?, Phrase.depth, Phrase.conditions, Readable, hread]
  | .negation p, 0 => by simp [Phrase.problem?, Phrase.depth]
  | .negation p, levels + 1 => by
      simp [Phrase.problem?, Phrase.depth, Phrase.conditions, p.problem?_eq_none_iff limit levels]
  | .group s, 0 => by simp [Phrase.problem?, Phrase.depth]
  | .group s, levels + 1 => by
      simp [Phrase.problem?, Phrase.depth, Phrase.conditions, s.problem?_eq_none_iff limit levels]

/-- **Nothing is wrong with a sentence** exactly if there are levels for its depth and its
conditions can be read. -/
theorem Sentence.problem?_eq_none_iff (limit : Nat) : ∀ (s : Sentence) (levels : Nat),
    s.problem? limit levels = none ↔
      s.depth 1 ≤ levels ∧ ∀ c ∈ s.conditions, Readable c
  | .single p, levels => by
      simp only [Sentence.problem?, Sentence.depth, Sentence.conditions]
      exact p.problem?_eq_none_iff limit levels
  | .joined p k s, levels => by
      have hfirst := p.problem?_eq_none_iff limit levels
      have hrest := s.problem?_eq_none_iff limit levels
      simp only [Sentence.problem?, Sentence.depth, Sentence.conditions, List.forall_mem_append,
        Nat.max_le]
      cases hproblem : p.problem? limit levels with
      | none => grind
      | some e => grind

end

mutual

/-- The problem is a refusal as an attack exactly where something is too deep and every condition
in front of it can be read. -/
theorem Phrase.problem?_eq_breach_iff (limit : Nat) : ∀ (p : Phrase) (levels : Nat),
    (∃ b, p.problem? limit levels = some (.securityBreach b)) ↔
      levels < p.depth 1 ∧ ∀ c ∈ p.reached levels, Readable c
  | .condition text words, levels => by
      cases hread : Comparison.read text words with
      | error e =>
          have hnever : ∀ b, e ≠ .securityBreach b := by
            rintro b rfl
            exact Comparison.read_ne_breach text words b hread
          simp [Phrase.problem?, Phrase.depth, hread, hnever]
      | ok c => simp [Phrase.problem?, Phrase.depth, hread]
  | .negation p, 0 => by simp [Phrase.problem?, Phrase.depth, Phrase.reached]
  | .negation p, levels + 1 => by
      simp [Phrase.problem?, Phrase.depth, Phrase.reached, p.problem?_eq_breach_iff limit levels]
  | .group s, 0 => by simp [Phrase.problem?, Phrase.depth, Phrase.reached]
  | .group s, levels + 1 => by
      simp [Phrase.problem?, Phrase.depth, Phrase.reached, s.problem?_eq_breach_iff limit levels]

/-- **The depth is what is wrong with a sentence** exactly if there are too few levels and the
conditions up to there can be read. -/
theorem Sentence.problem?_eq_breach_iff (limit : Nat) : ∀ (s : Sentence) (levels : Nat),
    (∃ b, s.problem? limit levels = some (.securityBreach b)) ↔
      levels < s.depth 1 ∧ ∀ c ∈ s.reached levels, Readable c
  | .single p, levels => by
      simp only [Sentence.problem?, Sentence.depth, Sentence.reached]
      exact p.problem?_eq_breach_iff limit levels
  | .joined p k s, levels => by
      have hnone := p.problem?_eq_none_iff limit levels
      have hfirst := p.problem?_eq_breach_iff limit levels
      have hrest := s.problem?_eq_breach_iff limit levels
      simp only [Sentence.problem?, Sentence.depth, Sentence.reached]
      by_cases hdepth : p.depth 1 ≤ levels
      · rw [if_pos hdepth, List.forall_mem_append]
        cases hproblem : p.problem? limit levels with
        | none => grind
        | some e => grind
      · rw [if_neg hdepth]
        cases hproblem : p.problem? limit levels with
        | none => grind
        | some e => grind

end

/-! ## Reading to the first problem -/

/-- What an answer of the reader leaves to be read. -/
def leftover {α : Type} (answer : Reading α) : Except QueryError (List Token) :=
  answer.map Prod.snd

/-- A reader that stops at its problem, and leaves the tokens `rest` if it has none. -/
def stopsAt (problem : Option QueryError) (rest : List Token) : Except QueryError (List Token) :=
  match problem with
  | some e => .error e
  | none => .ok rest

section Loops

variable {operand : List Token → Reading Filter}

/-- The bound on the number of further operands makes no difference, to errors neither. -/
theorem readFurther_congr (hshort : Shortens operand) (connective : Token) {n m : Nat}
    {ts : List Token} (hn : ts.length ≤ n) (hm : ts.length ≤ m) :
    readFurther connective operand n ts = readFurther connective operand m ts := by
  induction n generalizing m ts with
  | zero =>
      have hnil : ts = [] := List.length_eq_zero_iff.mp (Nat.le_zero.mp hn)
      subst hnil
      cases m <;> rfl
  | succ n ih =>
      cases ts with
      | nil => cases m <;> rfl
      | cons t ts =>
          obtain ⟨m, rfl⟩ : ∃ k, m = k + 1 := ⟨m - 1, by simp at hm; omega⟩
          simp only [List.length_cons, Nat.add_le_add_iff_right] at hn hm
          unfold readFurther
          by_cases ht : t = connective
          · rw [if_pos ht, if_pos ht]
            cases hread : operand ts with
            | error e => rfl
            | ok first =>
                obtain ⟨f, rest⟩ := first
                have hlt := hshort _ _ _ hread
                simp only
                rw [ih (m := m) (by omega) (by omega)]
          · rw [if_neg ht, if_neg ht]

/-- What is left behind the further operands. -/
def furtherLeft (connective : Token) (operand : List Token → Reading Filter) (ts : List Token) :
    Except QueryError (List Token) :=
  leftover (readFurther connective operand ts.length ts)

/-- Behind a connective an operand is read, and then the loop goes on. -/
theorem furtherLeft_connective (hshort : Shortens operand) (connective : Token)
    (ts : List Token) :
    furtherLeft connective operand (connective :: ts) =
      (leftover (operand ts)).bind (furtherLeft connective operand) := by
  unfold furtherLeft
  rw [List.length_cons, readFurther, if_pos rfl]
  cases hread : operand ts with
  | error e => rfl
  | ok first =>
      obtain ⟨f, rest⟩ := first
      have hlt := hshort _ _ _ hread
      simp only [leftover, Except.map, Except.bind]
      rw [readFurther_congr hshort connective (Nat.le_of_lt hlt) (Nat.le_refl _)]
      cases readFurther connective operand rest.length rest <;> rfl

/-- Where no connective follows the loop ends. -/
theorem furtherLeft_stop {connective : Token} {ts : List Token}
    (hstop : ts.head? ≠ some connective) : furtherLeft connective operand ts = .ok ts := by
  cases ts with
  | nil => rfl
  | cons t ts =>
      have ht : t ≠ connective := by simpa using hstop
      simp [furtherLeft, leftover, readFurther, ht, Except.map]

/-- What is left of operands with connectives is left of the first, and then of the others. -/
theorem leftover_readJoined (connective : Token) (node : List Filter → Filter)
    (ts : List Token) :
    leftover (readJoined connective node operand ts) =
      (leftover (operand ts)).bind (furtherLeft connective operand) := by
  unfold readJoined furtherLeft leftover
  cases operand ts with
  | error e => rfl
  | ok first =>
      obtain ⟨f, rest⟩ := first
      simp only [Except.map, Except.bind]
      cases readFurther connective operand rest.length rest with
      | error e => rfl
      | ok others =>
          obtain ⟨fs, last⟩ := others
          cases fs <;> rfl

/-- **The two loops are one.**  Behind an operand and a connective the reader goes on as if it
began there, as far as what it leaves is concerned. -/
theorem leftover_readDisjunction_connective (hshort : Shortens operand) (k : Connective)
    {ts rest : List Token} {f : Filter} (hread : operand ts = .ok (f, k.token :: rest)) :
    leftover (readDisjunction operand ts) = leftover (readDisjunction operand rest) := by
  have hshortJoined : Shortens (readJoined .and .and operand) :=
    shortens_readJoined (k := .conjunction) hshort
  have hleft : leftover (operand ts) = .ok (k.token :: rest) := by
    rw [hread]
    rfl
  unfold readDisjunction
  rw [leftover_readJoined, leftover_readJoined, leftover_readJoined, leftover_readJoined, hleft]
  cases k with
  | conjunction =>
      change (furtherLeft .and operand (.and :: rest)).bind _ = _
      rw [furtherLeft_connective hshort]
  | disjunction =>
      -- the loop over `and` ends here, and the one over `or` begins the next conjunction
      change (furtherLeft .and operand (.or :: rest)).bind _ = _
      rw [furtherLeft_stop (by simp)]
      change furtherLeft .or _ (.or :: rest) = _
      rw [furtherLeft_connective hshortJoined, leftover_readJoined]

/-- Behind an operand and no connective the reader stops. -/
theorem leftover_readDisjunction_stop {ts rest : List Token} {f : Filter}
    (hread : operand ts = .ok (f, rest)) (hstop : ∀ k : Connective, rest.head? ≠ some k.token) :
    leftover (readDisjunction operand ts) = .ok rest := by
  unfold readDisjunction
  have hand : furtherLeft .and operand rest = .ok rest := furtherLeft_stop (hstop .conjunction)
  have hor : furtherLeft .or (readJoined .and .and operand) rest = .ok rest :=
    furtherLeft_stop (hstop .disjunction)
  rw [leftover_readJoined, leftover_readJoined, hread]
  simp [leftover, Except.map, Except.bind, hand, hor]

/-- A disjunction whose first operand fails leaves nothing. -/
theorem leftover_readDisjunction_error {ts : List Token} {e : QueryError}
    (hread : operand ts = .error e) : leftover (readDisjunction operand ts) = .error e := by
  unfold readDisjunction
  rw [leftover_readJoined, leftover_readJoined, hread]
  rfl

end Loops

/-- An answer that leaves tokens is a filter and these tokens. -/
theorem leftover_eq_ok_iff {α : Type} {answer : Reading α} {rest : List Token} :
    leftover answer = .ok rest ↔ ∃ a, answer = .ok (a, rest) := by
  cases answer with
  | error e => simp [leftover, Except.map]
  | ok a =>
      obtain ⟨a, last⟩ := a
      simp [leftover, Except.map]

/-- What is left tells the failure. -/
theorem leftover_eq_error_iff {α : Type} {answer : Reading α} {e : QueryError} :
    leftover answer = .error e ↔ answer = .error e := by
  cases answer <;> simp [leftover, Except.map]

mutual

/-- **An operand is read to its first problem**, whatever stands behind it. -/
theorem Phrase.leftover_read (limit : Nat) : ∀ (p : Phrase) (levels : Nat) (rest : List Token),
    leftover (readOperand limit levels (p.tokens ++ rest)) =
      stopsAt (p.problem? limit levels) rest
  | .condition text words, levels, rest => by
      cases hread : Comparison.read text words <;> cases levels <;>
        simp [Phrase.tokens, Phrase.problem?, readOperand, hread, leftover, stopsAt, Except.map]
  | .negation p, 0, rest => rfl
  | .negation p, levels + 1, rest => by
      have hinner := p.leftover_read limit levels rest
      simp only [Phrase.tokens, Phrase.problem?, List.cons_append, readOperand]
      rw [← hinner]
      cases readOperand limit levels (p.tokens ++ rest) <;> rfl
  | .group s, 0, rest => rfl
  | .group s, levels + 1, rest => by
      have hclose : ∀ k : Connective, (Token.closeParen :: rest).head? ≠ some k.token := by
        intro k
        cases k <;> simp [Connective.token]
      have hinner := s.leftover_read limit levels hclose
      simp only [Phrase.tokens, Phrase.problem?, List.cons_append, List.append_assoc,
        List.nil_append, readOperand]
      cases hproblem : s.problem? limit levels with
      | some e =>
          rw [hproblem] at hinner
          rw [leftover_eq_error_iff.mp hinner]
          rfl
      | none =>
          rw [hproblem] at hinner
          obtain ⟨f, hread⟩ := leftover_eq_ok_iff.mp hinner
          rw [hread]
          rfl

/-- **Operands are read to their first problem**, if no further connective stands behind them. -/
theorem Sentence.leftover_read (limit : Nat) : ∀ (s : Sentence) (levels : Nat)
    {rest : List Token}, (∀ k : Connective, rest.head? ≠ some k.token) →
    leftover (readDisjunction (readOperand limit levels) (s.tokens ++ rest)) =
      stopsAt (s.problem? limit levels) rest
  | .single p, levels, rest, hstop => by
      have hfirst := p.leftover_read limit levels rest
      simp only [Sentence.tokens, Sentence.problem?]
      cases hproblem : p.problem? limit levels with
      | some e =>
          rw [hproblem] at hfirst
          exact leftover_readDisjunction_error (leftover_eq_error_iff.mp hfirst)
      | none =>
          rw [hproblem] at hfirst
          obtain ⟨f, hread⟩ := leftover_eq_ok_iff.mp hfirst
          exact leftover_readDisjunction_stop hread hstop
  | .joined p k s, levels, rest, hstop => by
      have hfirst := p.leftover_read limit levels (k.token :: (s.tokens ++ rest))
      simp only [Sentence.tokens, Sentence.problem?, List.append_assoc, List.cons_append]
      cases hproblem : p.problem? limit levels with
      | some e =>
          rw [hproblem] at hfirst
          exact leftover_readDisjunction_error (leftover_eq_error_iff.mp hfirst)
      | none =>
          rw [hproblem] at hfirst
          obtain ⟨f, hread⟩ := leftover_eq_ok_iff.mp hfirst
          rw [leftover_readDisjunction_connective (shortens_readOperand limit levels) k hread]
          exact s.leftover_read limit levels hstop

end

/-- A whole filter is refused as an attack exactly if its first problem is one. -/
theorem Sentence.breached_ofTokens_iff (limit : Nat) (s : Sentence) :
    Breached (ofTokens limit s.tokens) ↔
      ∃ b, s.problem? limit limit = some (.securityBreach b) := by
  have hend : ∀ k : Connective, ([] : List Token).head? ≠ some k.token := by simp
  have hread := s.leftover_read limit limit hend
  rw [List.append_nil] at hread
  unfold ofTokens Breached
  cases hproblem : s.problem? limit limit with
  | some e =>
      rw [hproblem] at hread
      simp [leftover_eq_error_iff.mp hread]
  | none =>
      rw [hproblem] at hread
      obtain ⟨f, hread⟩ := leftover_eq_ok_iff.mp hread
      simp [hread]

/-- A whole filter is read exactly if nothing is too deep and every condition can be read. -/
theorem Sentence.exists_ofTokens_iff (limit : Nat) (s : Sentence) :
    (∃ f, ofTokens limit s.tokens = .ok f) ↔
      s.nesting ≤ limit ∧ ∀ c ∈ s.conditions, Readable c := by
  have hend : ∀ k : Connective, ([] : List Token).head? ≠ some k.token := by simp
  have hread := s.leftover_read limit limit hend
  rw [List.append_nil] at hread
  rw [← s.problem?_eq_none_iff limit limit]
  simp only [ofTokens_iff]
  cases hproblem : s.problem? limit limit with
  | some e =>
      rw [hproblem] at hread
      simp [leftover_eq_error_iff.mp hread]
  | none =>
      rw [hproblem] at hread
      simpa using leftover_eq_ok_iff.mp hread

end Filter

end ListingQuery
