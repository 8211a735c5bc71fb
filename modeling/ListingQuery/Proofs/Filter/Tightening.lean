import ListingQuery.Proofs.Filter.Reader
import ListingQuery.Proofs.Limits

/-!
# Tighter limits

The limits of filters are only ever compared with: no bound is part of a tree, and none decides
which of two errors is found first.  A reading that is not refused as an attack is therefore
replayed token for token under looser limits, and gives the same filter or the same error.

* `Limits.Within` is the order of limits that counts, with every bound cut at its ceiling, and
  `Limits.merged_within` says that the settings of a query document only go down in it;
* `Tightens` relates the answers of two readings; each function of the reader keeps it, from one
  operand up to a whole filter;
* `looser_limits_agree` is the statement about texts.
-/

namespace ListingQuery

namespace Limits

/-- Every bound of filters, cut at its ceiling, is at most that of the other limits. -/
structure Within (strict loose : Limits) : Prop where
  filterLength : strict.clamped.filterLength.toNat ≤ loose.clamped.filterLength.toNat
  filterDepth : strict.clamped.filterDepth.toNat ≤ loose.clamped.filterDepth.toNat
  filterLeaves : strict.clamped.filterLeaves.toNat ≤ loose.clamped.filterLeaves.toNat
  negationRun : strict.clamped.negationRun.toNat ≤ loose.clamped.negationRun.toNat

theorem toNat_tightened_le (bound : UInt64) (setting : Option UInt64) :
    (tightened bound setting).toNat ≤ bound.toNat := by
  cases setting with
  | none => exact Nat.le_refl _
  | some s =>
      rw [tightened, toNat_smaller]
      exact Nat.min_le_left _ _

/-- A bound that is tightened and cut at its ceiling stays below the bound cut at its ceiling, also
when it is cut once more. -/
theorem toNat_clamp_tightened_le (bound ceiling : UInt64) (setting : Option UInt64) :
    (smaller (smaller (tightened bound setting) ceiling) ceiling).toNat ≤
      (smaller bound ceiling).toNat := by
  have hle := toNat_tightened_le bound setting
  rw [toNat_smaller, toNat_smaller, toNat_smaller]
  omega

/-- The settings of a query document can only tighten the bounds of filters. -/
theorem merged_within (l : Limits) (patch : LimitsPatch) : (l.merged patch).Within l where
  filterLength := toNat_clamp_tightened_le _ _ _
  filterDepth := toNat_clamp_tightened_le _ _ _
  filterLeaves := toNat_clamp_tightened_le _ _ _
  negationRun := toNat_clamp_tightened_le _ _ _

end Limits

namespace Filter

/-- The first answer is a refusal as an attack, or the second one is the same. -/
def Tightens {α : Type} (strict loose : Except QueryError α) : Prop :=
  Breached strict ∨ loose = strict

/-- Every answer tightens itself. -/
theorem Tightens.refl {α : Type} (answer : Except QueryError α) : Tightens answer answer :=
  Or.inr rfl

/-! ## The reader -/

section Reader

variable {strict loose : List Token → Reading Filter}

/-- Further operands: the first one that is refused refuses them all. -/
theorem Tightens.readFurther (h : ∀ ts, Tightens (strict ts) (loose ts)) (connective : Token)
    (n : Nat) (ts : List Token) :
    Tightens (readFurther connective strict n ts) (readFurther connective loose n ts) := by
  induction n generalizing ts with
  | zero => exact .refl _
  | succ n ih =>
      cases ts with
      | nil => exact .refl _
      | cons t ts =>
          unfold Filter.readFurther
          by_cases ht : t = connective
          · rw [if_pos ht, if_pos ht]
            rcases h ts with ⟨b, hb⟩ | hsame
            · rw [hb]
              exact Or.inl (breached_error b)
            · rw [hsame]
              cases hread : strict ts with
              | error e => exact .refl _
              | ok first =>
                  obtain ⟨f, rest⟩ := first
                  rcases ih rest with ⟨b, hb⟩ | hothers
                  · simp only [hb]
                    exact Or.inl (breached_error b)
                  · simp only [hothers]
                    exact .refl _
          · rw [if_neg ht, if_neg ht]
            exact .refl _

/-- Operands with connectives between them are tightened with the operands. -/
theorem Tightens.readJoined (h : ∀ ts, Tightens (strict ts) (loose ts)) (connective : Token)
    (node : List Filter → Filter) (ts : List Token) :
    Tightens (readJoined connective node strict ts) (readJoined connective node loose ts) := by
  unfold Filter.readJoined
  rcases h ts with ⟨b, hb⟩ | hsame
  · rw [hb]
    exact Or.inl (breached_error b)
  · rw [hsame]
    cases hread : strict ts with
    | error e => exact .refl _
    | ok first =>
        obtain ⟨f, rest⟩ := first
        rcases Tightens.readFurther h connective rest.length rest with ⟨b, hb⟩ | hothers
        · simp only [hb]
          exact Or.inl (breached_error b)
        · simp only [hothers]
          exact .refl _

/-- A disjunction is tightened with its operands. -/
theorem Tightens.readDisjunction (h : ∀ ts, Tightens (strict ts) (loose ts)) (ts : List Token) :
    Tightens (readDisjunction strict ts) (readDisjunction loose ts) :=
  .readJoined (fun ts => .readJoined h .and .and ts) .or .or ts

end Reader

/-- **Operands.**  With more levels of nesting allowed, whatever is not refused as too deep is read
as before. -/
theorem tightens_readOperand (limit limit' : Nat) {levels levels' : Nat}
    (hlevels : levels ≤ levels') (ts : List Token) :
    Tightens (readOperand limit levels ts) (readOperand limit' levels' ts) := by
  induction levels generalizing levels' ts with
  | zero =>
      cases ts with
      | nil => cases levels' <;> exact .refl _
      | cons t ts =>
          cases t with
          | not => exact Or.inl (breached_error _)
          | openParen => exact Or.inl (breached_error _)
          | fragment text words => cases levels' <;> exact .refl _
          | _ => cases levels' <;> exact .refl _
  | succ n ih =>
      obtain ⟨n', rfl⟩ : ∃ n', levels' = n' + 1 := ⟨levels' - 1, by omega⟩
      have hinner : ∀ ts, Tightens (readOperand limit n ts) (readOperand limit' n' ts) :=
        fun ts => ih (by omega) ts
      cases ts with
      | nil => exact .refl _
      | cons t ts =>
          cases t with
          | not =>
              unfold readOperand
              rcases hinner ts with ⟨b, hb⟩ | hsame
              · rw [hb]
                exact Or.inl (breached_error b)
              · rw [hsame]
                exact .refl _
          | openParen =>
              unfold readOperand
              rcases Tightens.readDisjunction hinner ts with ⟨b, hb⟩ | hsame
              · rw [hb]
                exact Or.inl (breached_error b)
              · rw [hsame]
                exact .refl _
          | fragment text words => exact .refl _
          | _ => exact .refl _

/-- A lower limit tightens the reading of tokens. -/
theorem tightens_ofTokens {limit limit' : Nat} (hlimit : limit ≤ limit') (ts : List Token) :
    Tightens (ofTokens limit ts) (ofTokens limit' ts) := by
  unfold ofTokens
  rcases Tightens.readDisjunction (tightens_readOperand limit limit' hlimit) ts with
    ⟨b, hb⟩ | hsame
  · rw [hb]
    exact Or.inl (breached_error b)
  · rw [hsame]
    exact .refl _

/-- Tokens that break no limit break no looser one. -/
theorem firstBreach?_eq_none_of_within {strict loose : Limits}
    (hwithin : strict.Within loose) {n : Counts} {ts : List Token}
    (hnone : firstBreach? strict.clamped n ts = none) :
    firstBreach? loose.clamped n ts = none := by
  induction ts generalizing n with
  | nil => rfl
  | cons t ts ih =>
      obtain ⟨hbreach, hrest⟩ := firstBreach?_cons_eq_none_iff.mp hnone
      obtain ⟨hdeepest, hnegations, hleaves⟩ := Counts.breach?_eq_none_iff.mp hbreach
      refine firstBreach?_cons_eq_none_iff.mpr ⟨Counts.breach?_eq_none_iff.mpr ?_, ih hrest⟩
      exact ⟨Nat.le_trans hdeepest hwithin.filterDepth,
        Nat.le_trans hnegations hwithin.negationRun, Nat.le_trans hleaves hwithin.filterLeaves⟩

/-! ## Texts -/

/-- **Tighter limits tighten the reading of a text.** -/
theorem tightens_read {strict loose : Limits} (hwithin : strict.Within loose) (source : String) :
    Tightens (read source strict) (read source loose) := by
  unfold read
  by_cases hlong : strict.clamped.filterLength.toNat < source.utf8ByteSize
  · exact Or.inl (by simp only [if_pos hlong]; exact breached_error _)
  · have hlong' : ¬ loose.clamped.filterLength.toNat < source.utf8ByteSize := fun h =>
      hlong (Nat.lt_of_le_of_lt hwithin.filterLength h)
    simp only [if_neg hlong, if_neg hlong']
    cases Token.ofText source.toList with
    | error e => exact .refl _
    | ok tokens =>
        cases tokens with
        | nil => exact .refl _
        | cons t ts =>
            cases hbreach : firstBreach? strict.clamped Counts.zero (t :: ts) with
            | some b => exact Or.inl (by simp only [hbreach]; exact breached_error b)
            | none =>
                simp only [hbreach, firstBreach?_eq_none_of_within hwithin hbreach]
                exact tightens_ofTokens hwithin.filterDepth (t :: ts)

/-- **Looser limits agree.**  Whatever a text gives under limits, apart from a refusal as an
attack, it gives under all looser ones, be it a filter or an error.  The settings of a query
document can therefore turn no text into an accepted filter that the limits refuse, and none into a
different filter. -/
theorem looser_limits_agree (source : String) :
    (∀ strict loose : Limits, strict.Within loose →
      (∀ b, read source strict ≠ .error (.securityBreach b)) →
      read source loose = read source strict) ∧
    ∀ (l : Limits) (patch : LimitsPatch) (f : Filter),
      read source (l.merged patch) = .ok f → read source l = .ok f := by
  constructor
  · intro strict loose hwithin hsafe
    rcases tightens_read hwithin source with ⟨b, hb⟩ | hsame
    · exact absurd hb (hsafe b)
    · exact hsame
  · intro l patch f hread
    rcases tightens_read (l.merged_within patch) source with ⟨b, hb⟩ | hsame
    · rw [hb] at hread
      cases hread
    · rw [hsame, hread]

/-- An unknown field where just enough nesting is allowed, and a condition under a query document
that allows one negation only. -/
theorem negated_condition_under_looser_limits :
    read "not (pool==1)" Limits.standard = .error (.invalidFilterOption "pool") ∧
      read "not plz==30159" Limits.standard =
        .ok (.not (.test ⟨.plz, .eq, "30159", .str "30159"⟩)) := by
  have hunknown : read "not (pool==1)" { Limits.standard with filterDepth := 2 } =
      .error (.invalidFilterOption "pool") := eq_error_of_failure? (by decide +kernel)
  have hmerged : read "not plz==30159"
      (Limits.standard.merged { LimitsPatch.unset with negationRun := some 1 }) =
        .ok (.not (.test ⟨.plz, .eq, "30159", .str "30159"⟩)) :=
    eq_ok_of_toOption (by decide +kernel)
  have hwithin : ({ Limits.standard with filterDepth := 2 } : Limits).Within Limits.standard :=
    ⟨by decide, by decide, by decide, by decide⟩
  constructor
  · rw [(looser_limits_agree _).1 _ _ hwithin (by simp [hunknown]), hunknown]
  · exact (looser_limits_agree _).2 _ _ _ hmerged

end Filter

end ListingQuery
