import ListingQuery.Proofs.Filter.Reader

/-!
# Filters of one condition

A text that is accepted as a single condition is that condition with any number of parentheses
around it.

* `enclosed` are the tokens of such a text, and `readOperand_test` says that there are no others;
* `behind_enclosed` says where the reader of filters stops in front of more tokens, so that nothing
  can follow without a connective;
* `Comparison.castItems?_eq_some_iff` says what the values of a list are;
* `Comparison.read_eq_ok_iff` is everything that the reader of conditions asks of the text.
-/

namespace ListingQuery

namespace Filter

/-! ## Parentheses -/

/-- The tokens of a condition with parentheses around it. -/
def enclosed (depth : Nat) (text : List Char) (words : Nat) : List Token :=
  List.replicate depth .openParen ++
    (.fragment text words :: List.replicate depth .closeParen)

/-- One more pair of parentheses is one before and one behind. -/
theorem enclosed_succ (depth : Nat) (text : List Char) (words : Nat) (rest : List Token) :
    enclosed (depth + 1) text words ++ rest =
      .openParen :: (enclosed depth text words ++ .closeParen :: rest) := by
  have hback : List.replicate (depth + 1) Token.closeParen =
      List.replicate depth Token.closeParen ++ [Token.closeParen] := List.replicate_succ'
  simp [enclosed, hback, List.replicate_succ (n := depth) (a := Token.openParen)]

/-- Without parentheses there is one token. -/
theorem enclosed_eq_singleton {depth : Nat} {text t : List Char} {words n : Nat}
    (h : enclosed depth text words = [.fragment t n]) : depth = 0 ∧ t = text ∧ n = words := by
  cases depth with
  | zero =>
      cases h
      exact ⟨rfl, rfl, rfl⟩
  | succ depth => cases h

/-- A condition in parentheses does not begin with a connective. -/
theorem head_enclosed (depth : Nat) (text : List Char) (words : Nat) (k : Connective) :
    (enclosed depth text words).head? ≠ some k.token := by
  cases depth <;> cases k <;> simp [enclosed, List.replicate_succ, Connective.token]

variable {k : Connective} {operand : List Token → Reading Filter}

/-- Where no connective follows there are no further operands. -/
theorem Further.eq_of_stop {ts rest : List Token} {fs : List Filter}
    (h : Further k operand ts fs rest) (hstop : ts.head? ≠ some k.token) :
    fs = [] ∧ rest = ts := by
  cases h with
  | stop _ => exact ⟨rfl, rfl⟩
  | more _ _ => exact absurd rfl hstop

/-- What is read as a single condition is so without a connective. -/
theorem readJoined_test (hshort : Shortens operand) {ts rest : List Token} {c : Comparison}
    (h : readJoined k.token k.node operand ts = .ok (.test c, rest)) :
    operand ts = .ok (.test c, rest) := by
  obtain ⟨first, mid, others, hread, hfurther, hgather⟩ := (readJoined_iff hshort).mp h
  cases hfurther with
  | stop _ =>
      rw [show first = .test c from hgather.symm] at hread
      exact hread
  | more _ _ => cases k <;> cases hgather

/-- A disjunction that is read as one condition is its only operand. -/
theorem readDisjunction_test (hshort : Shortens operand) {ts rest : List Token} {c : Comparison}
    (h : readDisjunction operand ts = .ok (.test c, rest)) :
    operand ts = .ok (.test c, rest) := by
  rw [readDisjunction_eq] at h
  exact readJoined_test hshort (readJoined_test (shortens_readJoined hshort) h)

/-- A single condition is one in parentheses. -/
theorem readOperand_test {limit levels : Nat} {ts rest : List Token} {c : Comparison}
    (h : readOperand limit levels ts = .ok (.test c, rest)) :
    ∃ depth text words, ts = enclosed depth text words ++ rest ∧
      Comparison.read text words = .ok c := by
  refine readOperand_induction (motive := fun _ ts f rest => ∀ c, f = .test c →
    ∃ depth text words, ts = enclosed depth text words ++ rest ∧
      Comparison.read text words = .ok c) ?_ ?_ ?_ h c rfl
  · rintro levels text words c rest hread _ ⟨⟩
    exact ⟨0, text, words, rfl, hread⟩
  · rintro levels ts f rest _ c ⟨⟩
  · rintro levels ts f rest ih hinner c rfl
    obtain ⟨depth, text, words, rfl, hread⟩ :=
      ih _ _ _ (readDisjunction_test (shortens_readOperand limit levels) hinner) c rfl
    exact ⟨depth + 1, text, words, (enclosed_succ depth text words rest).symm, hread⟩

/-- Where an operand stops and no connective follows, a filter stops as well. -/
theorem readDisjunction_stop (hshort : Shortens operand) {ts stop rest : List Token} {f : Filter}
    (hstop : ∀ g mid, operand ts = .ok (g, mid) → mid = stop)
    (hconnective : ∀ k : Connective, stop.head? ≠ some k.token)
    (h : readDisjunction operand ts = .ok (f, rest)) : rest = stop := by
  rw [readDisjunction_eq] at h
  obtain ⟨_, mid, _, hconjunction, hor, _⟩ := (readJoined_iff (shortens_readJoined hshort)).mp h
  obtain ⟨_, inner, _, hoperand, hand, _⟩ := (readJoined_iff hshort).mp hconjunction
  obtain rfl := hstop _ _ hoperand
  obtain ⟨_, rfl⟩ := hand.eq_of_stop (hconnective .conjunction)
  exact (hor.eq_of_stop (hconnective .disjunction)).2

/-- The reader of operands stops behind a condition in parentheses. -/
theorem behind_enclosed {limit levels depth : Nat} {text : List Char} {words : Nat}
    {rest mid : List Token} {f : Filter}
    (h : readOperand limit levels (enclosed depth text words ++ rest) = .ok (f, mid)) :
    mid = rest := by
  induction depth generalizing levels rest mid f with
  | zero =>
      rcases readOperand_cases h with
        ⟨_, _, _, hts, _, _⟩ | ⟨_, _, _, _, hts, _⟩ | ⟨_, _, _, hts, _⟩
      · exact (List.cons.inj hts).2.symm
      · cases hts
      · cases hts
  | succ depth ih =>
      rw [enclosed_succ] at h
      rcases readOperand_cases h with
        ⟨_, _, _, hts, _, _⟩ | ⟨_, _, _, _, hts, _⟩ | ⟨n, ts', _, hts, hinner⟩
      · cases hts
      · cases hts
      · obtain rfl := (List.cons.inj hts).2
        have hstop := readDisjunction_stop (shortens_readOperand limit n)
          (fun g mid hread => ih hread) (fun k => by cases k <;> simp [Connective.token]) hinner
        exact (List.cons.inj hstop).2

/-- Behind a condition in parentheses a filter ends, or a connective follows. -/
theorem ofTokens_enclosed {limit depth : Nat} {text : List Char} {words : Nat}
    {rest : List Token} {f : Filter} (hconnective : ∀ k : Connective, rest.head? ≠ some k.token)
    (h : ofTokens limit (enclosed depth text words ++ rest) = .ok f) : rest = [] := by
  have hread := ofTokens_iff.mp h
  exact (readDisjunction_stop (shortens_readOperand limit limit)
    (fun _ _ hread => behind_enclosed hread) hconnective hread).symm

/-- One fragment is read as one condition. -/
theorem ofTokens_fragment (limit : Nat) (text : List Char) (words : Nat) :
    ofTokens limit [.fragment text words] = (Comparison.read text words).map .test := by
  have hoperand : readOperand limit limit [.fragment text words] =
      (Comparison.read text words).map fun c => (.test c, []) := by
    cases limit <;> cases hread : Comparison.read text words <;>
      simp [readOperand, hread, Except.map]
  unfold ofTokens readDisjunction readJoined
  rw [hoperand]
  cases Comparison.read text words <;> simp [Except.map, readFurther]

/-- A single condition is read as itself. -/
theorem ofTokens_fragment_iff {limit : Nat} {text : List Char} {words : Nat} {f : Filter} :
    ofTokens limit [.fragment text words] = .ok f ↔
      ∃ c, Comparison.read text words = .ok c ∧ f = .test c := by
  rw [ofTokens_fragment]
  cases Comparison.read text words <;> simp [Except.map, eq_comm]

/-- It breaks no limit if one condition is allowed. -/
theorem firstBreach?_fragment {limits : Limits} {text : List Char} {words : Nat} :
    firstBreach? limits Counts.zero [.fragment text words] = none ↔
      1 ≤ limits.filterLeaves.toNat := by
  rw [firstBreach?_cons_eq_none_iff, Counts.breach?_eq_none_iff]
  simp [Counts.add, Counts.zero, firstBreach?]

/-- A text with one fragment for its tokens is read as that condition. -/
theorem read_fragment {source : String} {limits : Limits} {text : List Char} {words : Nat}
    (hlength : source.utf8ByteSize ≤ limits.clamped.filterLength.toNat)
    (hleaves : 1 ≤ limits.clamped.filterLeaves.toNat)
    (htokens : Token.ofText source.toList = .ok [.fragment text words]) :
    read source limits = (Comparison.read text words).map .test := by
  simp only [read, if_neg (Nat.not_lt.mpr hlength), htokens, firstBreach?_fragment.mpr hleaves,
    ofTokens_fragment]

/-- The tokens of a text that is accepted as a single condition. -/
theorem read_test {source : String} {limits : Limits} {c : Comparison}
    (h : read source limits = .ok (.test c)) :
    ∃ depth text words, Token.ofText source.toList = .ok (enclosed depth text words) ∧
      Comparison.read text words = .ok c := by
  obtain ⟨_, ⟨_, hnever⟩ | ⟨t, ts, htokens, _, htree⟩⟩ := read_cases h
  · cases hnever
  · have hread := ofTokens_iff.mp htree
    obtain ⟨depth, text, words, hts, hcondition⟩ :=
      readOperand_test (readDisjunction_test (shortens_readOperand _ _) hread)
    rw [List.append_nil] at hts
    exact ⟨depth, text, words, by rw [htokens, hts], hcondition⟩

end Filter

/-! ## Conditions -/

namespace Comparison

/-- A list is cast item by item. -/
theorem castItems?_eq_some_iff {t : ValueType} {items : List (List Char)} {vs : List Value} :
    castItems? t items = some vs ↔ items.map (Value.castTo? t) = vs.map some := by
  induction items generalizing vs with
  | nil => cases vs <;> simp [castItems?]
  | cons item items ih =>
      cases hcast : Value.castTo? t item with
      | none => cases vs <;> simp [castItems?, hcast]
      | some v =>
          cases vs with
          | nil => simp [castItems?, hcast]
          | cons w ws => simpa [castItems?, hcast, ih] using and_comm

/-- The text is an operand that the field and the operator of the comparison take, and its value is
that of the comparison. -/
def Takes (c : Comparison) (text : List Char) : Prop :=
  c.raw = String.ofList (unquote text).1 ∧
    operandValue? c.field c.op (unquote text).1 (unquote text).2 = some c.operand

/-- What a text has to be in order to be read as a given condition. -/
theorem read_eq_ok_iff {cs : List Char} {words : Nat} {c : Comparison} :
    Comparison.read cs words = .ok c ↔
      ∃ before s behind, operatorIn? cs = some (before, s, behind) ∧ s.operator = some c.op ∧
        Field.ofName? (Text.trim before) = some c.field ∧
        ¬ (1 < words ∧ (operatorIn? (Text.trim behind)).isSome = true) ∧
        c.Takes (Text.trim behind) := by
  obtain ⟨field, op, raw, operand⟩ := c
  unfold Comparison.read Takes
  constructor
  · intro h
    split at h
    · cases h
    · rename_i before s behind hcut
      split at h
      · cases h
      · rename_i op' hop
        split at h
        · cases h
        · rename_i field' hfield
          simp only at h
          split at h
          · cases h
          · rename_i hmissing
            split at h
            · rename_i operand' hvalue
              cases h
              exact ⟨before, s, behind, hcut, hop, hfield, hmissing, rfl, hvalue⟩
            · cases h
  · rintro ⟨before, s, behind, hcut, hop, hfield, hmissing, hraw, hvalue⟩
    have hsame : raw = String.ofList (unquote (Text.trim behind)).1 := hraw
    subst hsame
    simp only [hcut, hop, hfield, if_neg hmissing, hvalue]

end Comparison

end ListingQuery
