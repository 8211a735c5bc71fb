import ListingQuery.Proofs.Filter.Reader
import ListingQuery.Proofs.Filter.Tree

/-!
# The conditions of accepted filters

The leaves of an accepted filter are the conditions among its tokens, each of them read, in the
order in which they stand.

* `readings` are the conditions among tokens, read one by one;
* `Accounts` is the invariant of a reader: the leaves of what it returns, and the readings of the
  tokens behind, are the readings of the tokens that it was given;
* `readings_of_ofTokens` is what follows for a whole filter.
-/

namespace ListingQuery.Filter

/-- What the conditions among tokens are read as, from left to right. -/
def readings (ts : List Token) : List (Except QueryError Comparison) :=
  ts.filterMap fun t =>
    match t with
    | .fragment text words => some (Comparison.read text words)
    | _ => none

/-- A condition is read with those behind it. -/
theorem readings_fragment (text : List Char) (words : Nat) (ts : List Token) :
    readings (.fragment text words :: ts) = Comparison.read text words :: readings ts := rfl

/-- What is no condition is not read. -/
theorem readings_of_not_fragment {t : Token} (ht : t.isFragment = false) (ts : List Token) :
    readings (t :: ts) = readings ts := by
  cases t with
  | fragment _ _ => cases ht
  | _ => rfl

/-- The leaves of what is read are the readings of the tokens that were used up. -/
def Accounts (operand : List Token → Reading Filter) : Prop :=
  ∀ ts f rest, operand ts = .ok (f, rest) →
    readings ts = f.leaves.map Except.ok ++ readings rest

variable {operand : List Token → Reading Filter}

/-- Further operands account for the conditions that they have used up. -/
theorem Accounts.further (h : Accounts operand) {k : Connective} {ts rest : List Token}
    {fs : List Filter} (hfurther : Further k operand ts fs rest) :
    readings ts = (leavesOfAll fs).map Except.ok ++ readings rest := by
  induction hfurther with
  | stop _ => rfl
  | more hread _ ih =>
      rw [readings_of_not_fragment (Connective.token_isFragment _), h _ _ _ hread, ih, leavesOfAll,
        List.map_append, List.append_assoc]

/-- Operands with connectives between them account for their conditions. -/
theorem Accounts.readJoined (h : Accounts operand) (hshort : Shortens operand) (k : Connective) :
    Accounts (readJoined k.token k.node operand) := by
  intro ts f rest hread
  obtain ⟨first, mid, others, hfirst, hfurther, rfl⟩ := (readJoined_iff hshort).mp hread
  have hleaves : (k.gather first others).leaves = first.leaves ++ leavesOfAll others := by
    cases others with
    | nil => simp [Connective.gather, leavesOfAll]
    | cons second others => cases k <;> rfl
  rw [h _ _ _ hfirst, h.further hfurther, hleaves, List.map_append, List.append_assoc]

/-- A disjunction accounts for its conditions. -/
theorem Accounts.readDisjunction (h : Accounts operand) (hshort : Shortens operand) :
    Accounts (readDisjunction operand) := by
  rw [readDisjunction_eq]
  exact (h.readJoined hshort .conjunction).readJoined (shortens_readJoined hshort) .disjunction

/-- **The reader accounts for every condition**: it is a leaf, in its place. -/
theorem accounts_readOperand (limit levels : Nat) : Accounts (readOperand limit levels) := by
  intro ts f rest hread
  refine readOperand_induction (motive := fun _ ts f rest =>
    readings ts = f.leaves.map Except.ok ++ readings rest) ?_ ?_ ?_ hread
  · intro levels text words c rest hc
    rw [readings_fragment, hc]
    rfl
  · intro levels ts f rest ih
    exact (readings_of_not_fragment (t := .not) rfl ts).trans ih
  · intro levels ts f rest ih hinner
    have hall := Accounts.readDisjunction ih (shortens_readOperand limit levels) _ _ _ hinner
    rw [readings_of_not_fragment (t := .closeParen) rfl] at hall
    exact (readings_of_not_fragment (t := .openParen) rfl ts).trans hall

/-- **The leaves of a filter are its conditions**, read one by one and in order. -/
theorem readings_of_ofTokens {limit : Nat} {ts : List Token} {f : Filter}
    (h : ofTokens limit ts = .ok f) : readings ts = f.leaves.map Except.ok := by
  have hread := (accounts_readOperand limit limit).readDisjunction (shortens_readOperand _ _) _ _ _
    (ofTokens_iff.mp h)
  rw [hread]
  exact List.append_nil _

end ListingQuery.Filter
