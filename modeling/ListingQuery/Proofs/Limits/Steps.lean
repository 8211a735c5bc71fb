import Mathlib.Data.List.Induction
import ListingQuery.Proofs.Limits

/-!
# Limits after several steps

Limits are made in steps: they are read from the environment, settings of a query document or of the
operator are laid over them, or they are clamped.  The four bounds of filters and the two caps behave
differently, but all bounds alike and both caps alike, so that a step is described by what it does to
any bound and to any cap.

* `bound_merged`, `cap_merged` and their like say what every operation does to a bound and to a cap;
* `bound_apply_le` says that no step leaves a bound above its ceiling, and `bound_afterSteps_le` that
  no run of steps does;
* `bound_merged_comm` and `merged_merged` compare two documents in either order and one laid over
  itself;
* `capInForce` are the last settings of a cap since the environment was read, and `cap_afterSteps` says
  that they decide;
* `limits_after_steps` is all of this for the limits after any run of steps.
-/

namespace ListingQuery

/-! ## Bounds and caps -/

/-- The bounds of filters, which have ceilings. -/
inductive Bound where
  | filterLength
  | filterDepth
  | filterLeaves
  | negationRun
deriving DecidableEq, Repr

/-- The caps of what is delivered, which have no ceilings and may be missing. -/
inductive Cap where
  | bytes
  | pageSize
deriving DecidableEq, Repr

/-- The ceiling of a bound. -/
def Bound.ceiling : Bound → UInt64
  | filterLength => Limits.maxFilterLength
  | filterDepth => Limits.maxFilterDepth
  | filterLeaves => Limits.maxFilterLeaves
  | negationRun => Limits.maxNegationRun

/-- The variable that sets a cap. -/
def Cap.variableName : Cap → String
  | bytes => "IMMOSIEVE_ATTACHMENT_BYTE_CAP"
  | pageSize => "IMMOSIEVE_MAX_PAGE_SIZE"

namespace LimitsPatch

/-- The setting of a bound. -/
def bound (p : LimitsPatch) : Bound → Option UInt64
  | .filterLength => p.filterLength
  | .filterDepth => p.filterDepth
  | .filterLeaves => p.filterLeaves
  | .negationRun => p.negationRun

/-- The setting of a cap. -/
def cap (p : LimitsPatch) : Cap → Option UInt64
  | .bytes => p.byteCap
  | .pageSize => p.pageSize

end LimitsPatch

namespace Limits

/-- A bound of the limits. -/
def bound (l : Limits) : Bound → UInt64
  | .filterLength => l.filterLength
  | .filterDepth => l.filterDepth
  | .filterLeaves => l.filterLeaves
  | .negationRun => l.negationRun

/-- A cap of the limits. -/
def cap (l : Limits) : Cap → Option UInt64
  | .bytes => l.byteCap
  | .pageSize => l.pageSize

variable {l m : Limits} {p q : LimitsPatch}

/-- Limits with the same bounds and caps are the same. -/
theorem eq_of_bound_of_cap (hbound : ∀ b, l.bound b = m.bound b) (hcap : ∀ c, l.cap c = m.cap c) :
    l = m := by
  cases l
  cases m
  simp only [Limits.mk.injEq]
  exact ⟨hbound .filterLength, hbound .filterDepth, hbound .filterLeaves, hbound .negationRun,
    hcap .bytes, hcap .pageSize⟩

/-! ## Smaller words -/

/-- The smaller of two words is at most the first. -/
theorem smaller_le_left (a b : UInt64) : smaller a b ≤ a := by
  rw [UInt64.le_iff_toNat_le, toNat_smaller]
  omega

/-- The smaller of two words is at most the second. -/
theorem smaller_le_right (a b : UInt64) : smaller a b ≤ b := by
  rw [UInt64.le_iff_toNat_le, toNat_smaller]
  omega

/-- The smaller of two words in order is the first. -/
theorem smaller_of_le {a b : UInt64} (h : a ≤ b) : smaller a b = a :=
  if_pos h

/-- To tighten a word does not raise it. -/
theorem tightened_le (a : UInt64) (setting : Option UInt64) : tightened a setting ≤ a := by
  cases setting with
  | none => exact UInt64.le_refl a
  | some n => exact smaller_le_left a n

/-! ## What the operations do -/

/-- To clamp limits cuts each bound at its ceiling. -/
theorem bound_clamped (l : Limits) (b : Bound) :
    l.clamped.bound b = smaller (l.bound b) b.ceiling := by
  cases b <;> rfl

/-- Behind clamping no bound is above its ceiling. -/
theorem bound_clamped_le (l : Limits) (b : Bound) : l.clamped.bound b ≤ b.ceiling := by
  rw [bound_clamped]
  exact smaller_le_right _ _

/-- A document tightens each bound, and cuts it at its ceiling. -/
theorem bound_merged (l : Limits) (p : LimitsPatch) (b : Bound) :
    (l.merged p).bound b = smaller (tightened (l.bound b) (p.bound b)) b.ceiling := by
  cases b <;> rfl

/-- To clamp limits leaves the caps as they are. -/
theorem cap_clamped (l : Limits) (c : Cap) : l.clamped.cap c = l.cap c := by
  cases c <;> rfl

/-- A cap that a document sets replaces the one before. -/
theorem cap_merged (l : Limits) (p : LimitsPatch) (c : Cap) :
    (l.merged p).cap c = (p.cap c <|> l.cap c) := by
  cases c <;> rfl

/-- A cap that flags set replaces the one before. -/
theorem cap_overridden (l : Limits) (p : LimitsPatch) (c : Cap) :
    (l.overridden p).cap c = (p.cap c <|> l.cap c) := by
  cases c <;> rfl

/-- The environment sets a cap by its variable alone. -/
theorem cap_ofEnvironment (lookup : String → Option String) (c : Cap) :
    (ofEnvironment lookup).cap c = settingOf? lookup c.variableName := by
  have hstandard : standard.cap c = none := by cases c <;> rfl
  have hpatch : (environmentPatch lookup).cap c = settingOf? lookup c.variableName := by
    cases c <;> rfl
  rw [ofEnvironment, cap_overridden, hstandard, hpatch]
  simp

/-! ## Documents -/

/-- **A document loosens no bound.** -/
theorem bound_merged_le (l : Limits) (p : LimitsPatch) (b : Bound) :
    (l.merged p).bound b ≤ l.bound b := by
  rw [bound_merged]
  exact UInt64.le_trans (smaller_le_left _ _) (tightened_le _ _)

/-- What a document does not set stays as it is, if no bound was above its ceiling. -/
theorem bound_merged_of_unset {b : Bound} (hl : l.bound b ≤ b.ceiling) (hp : p.bound b = none) :
    (l.merged p).bound b = l.bound b := by
  rw [bound_merged, hp]
  exact smaller_of_le hl

/-- A cap that a document does not set stays as it is. -/
theorem cap_merged_of_unset {c : Cap} (hp : p.cap c = none) : (l.merged p).cap c = l.cap c := by
  rw [cap_merged, hp]
  rfl

/-- **Two documents** give the same bounds in either order. -/
theorem bound_merged_comm (l : Limits) (p q : LimitsPatch) (b : Bound) :
    ((l.merged p).merged q).bound b = ((l.merged q).merged p).bound b := by
  simp only [bound_merged]
  apply UInt64.toNat_inj.mp
  cases p.bound b <;> cases q.bound b <;> simp only [tightened, toNat_smaller] <;> omega

/-- **A document laid over itself** changes nothing. -/
theorem merged_merged (l : Limits) (p : LimitsPatch) : (l.merged p).merged p = l.merged p := by
  refine eq_of_bound_of_cap (fun b => ?_) fun c => ?_
  · simp only [bound_merged]
    apply UInt64.toNat_inj.mp
    cases p.bound b <;> simp only [tightened, toNat_smaller] <;> omega
  · simp only [cap_merged]
    cases p.cap c <;> rfl

end Limits

/-! ## Steps -/

/-- A step in the making of limits. -/
inductive LimitsStep where
  | environment (lookup : String → Option String)
  | merged (patch : LimitsPatch)
  | overridden (patch : LimitsPatch)
  | clamped

namespace LimitsStep

/-- The limits after a step. -/
def apply (l : Limits) : LimitsStep → Limits
  | environment lookup => Limits.ofEnvironment lookup
  | merged patch => l.merged patch
  | overridden patch => l.overridden patch
  | clamped => l.clamped

/-- The variables that a step reads the limits from. -/
def lookup? : LimitsStep → Option (String → Option String)
  | environment lookup => some lookup
  | _ => none

/-- The setting of a cap that a step lays over the limits. -/
def capSetting? (c : Cap) : LimitsStep → Option UInt64
  | merged patch | overridden patch => patch.cap c
  | environment _ | clamped => none

/-- **No step** leaves a bound above its ceiling: whatever it does, it clamps the bounds last. -/
theorem bound_apply_le (l : Limits) (s : LimitsStep) (b : Bound) :
    (s.apply l).bound b ≤ b.ceiling := by
  cases s with
  | environment lookup => exact Limits.bound_clamped_le _ b
  | merged patch => exact Limits.bound_clamped_le _ b
  | overridden patch => exact Limits.bound_clamped_le _ b
  | clamped => exact Limits.bound_clamped_le _ b

/-- **A step that reads no variables** sets a cap or keeps it. -/
theorem cap_apply {s : LimitsStep} (hs : s.lookup? = none) (l : Limits) (c : Cap) :
    (s.apply l).cap c = (s.capSetting? c <|> l.cap c) := by
  cases s with
  | environment lookup => cases hs
  | merged patch => exact l.cap_merged patch c
  | overridden patch => exact l.cap_overridden patch c
  | clamped => exact l.cap_clamped c

end LimitsStep

namespace Limits

open LimitsStep (lookup? capSetting?)

/-- The limits after several steps, from where nothing is set. -/
def afterSteps (steps : List LimitsStep) : Limits :=
  steps.foldl LimitsStep.apply standard

/-- One more step is made behind the others. -/
theorem afterSteps_concat (steps : List LimitsStep) (s : LimitsStep) :
    afterSteps (steps ++ [s]) = s.apply (afterSteps steps) := by
  simp [afterSteps]

/-- **No run of steps** leaves a bound above its ceiling. -/
theorem bound_afterSteps_le (steps : List LimitsStep) (b : Bound) :
    (afterSteps steps).bound b ≤ b.ceiling := by
  rcases List.eq_nil_or_concat steps with rfl | ⟨front, s, hsteps⟩
  · cases b <;> decide
  · rw [hsteps, List.concat_eq_append, afterSteps_concat]
    exact s.bound_apply_le _ b

/-- The steps since the environment was read last, the latest first. -/
def sinceEnvironment (steps : List LimitsStep) : List LimitsStep :=
  steps.reverse.takeWhile fun s => s.lookup?.isNone

/-- The cap that the last reading of the environment gives; without one, where nothing is set. -/
def environmentCap (c : Cap) (steps : List LimitsStep) : Option UInt64 :=
  match steps.reverse.findSome? lookup? with
  | some lookup => settingOf? lookup c.variableName
  | none => standard.cap c

/-- The last setting of a cap since the environment was read, or else the one that was read. -/
def capInForce (c : Cap) (steps : List LimitsStep) : Option UInt64 :=
  (sinceEnvironment steps).findSome? (capSetting? c) <|> environmentCap c steps

/-- The environment decides on a cap alone. -/
theorem capInForce_environment (c : Cap) (steps : List LimitsStep)
    (lookup : String → Option String) :
    capInForce c (steps ++ [.environment lookup]) = settingOf? lookup c.variableName := by
  simp [capInForce, sinceEnvironment, environmentCap, List.findSome?_cons, lookup?]

/-- Another step sets a cap, or leaves the one in force. -/
theorem capInForce_concat (c : Cap) (steps : List LimitsStep) {s : LimitsStep}
    (hs : s.lookup? = none) :
    capInForce c (steps ++ [s]) = (s.capSetting? c <|> capInForce c steps) := by
  cases hsetting : s.capSetting? c <;>
    simp [capInForce, sinceEnvironment, environmentCap, hs, hsetting]

/-- **The cap in force** is the one of the limits. -/
theorem cap_afterSteps (steps : List LimitsStep) (c : Cap) :
    (afterSteps steps).cap c = capInForce c steps := by
  induction steps using List.reverseRecOn with
  | nil => rfl
  | append_singleton steps s ih =>
      rw [afterSteps_concat]
      cases hs : s.lookup? with
      | none => rw [s.cap_apply hs, capInForce_concat c steps hs, ih]
      | some lookup =>
          cases s <;> cases hs
          rw [capInForce_environment]
          exact cap_ofEnvironment lookup c

/-- **Limits after any steps.**  No bound of filters is above its ceiling.  A document raises no bound
and changes nothing that it does not set; two documents give the same bounds in either order, and one
laid over itself changes nothing.  The caps are those of the last step that set them since the
environment was read, or else those that were read. -/
theorem limits_after_steps (steps : List LimitsStep) :
    (∀ b : Bound, (afterSteps steps).bound b ≤ b.ceiling) ∧
    (∀ (p : LimitsPatch) (b : Bound),
      ((afterSteps steps).merged p).bound b ≤ (afterSteps steps).bound b) ∧
    (∀ p : LimitsPatch,
      (∀ b, p.bound b = none →
        ((afterSteps steps).merged p).bound b = (afterSteps steps).bound b) ∧
      (∀ c, p.cap c = none → ((afterSteps steps).merged p).cap c = (afterSteps steps).cap c)) ∧
    (∀ (p q : LimitsPatch) (b : Bound),
      (((afterSteps steps).merged p).merged q).bound b =
        (((afterSteps steps).merged q).merged p).bound b) ∧
    (∀ p : LimitsPatch,
      ((afterSteps steps).merged p).merged p = (afterSteps steps).merged p) ∧
    ∀ c : Cap, (afterSteps steps).cap c = capInForce c steps := by
  have hceiling := bound_afterSteps_le steps
  refine ⟨hceiling, bound_merged_le _, fun p => ⟨fun b => ?_, fun c => ?_⟩, bound_merged_comm _,
    merged_merged _, cap_afterSteps steps⟩
  · exact bound_merged_of_unset (hceiling b)
  · exact cap_merged_of_unset

/-- An environment with a byte cap and a nesting far above its ceiling, then a document that tightens
the nesting, then settings of the operator. -/
def tightenedThenRaised : List LimitsStep :=
  [.environment fun name =>
      if name = "IMMOSIEVE_ATTACHMENT_BYTE_CAP" then some " 1048576 "
      else if name = "IMMOSIEVE_MAX_FILTER_DEPTH" then some "1000000" else none,
    .merged { LimitsPatch.unset with filterDepth := some 8 },
    .overridden { LimitsPatch.unset with filterLeaves := some 5000, pageSize := some 50 },
    .clamped]

/-- The byte cap of the environment and the page of the operator are in force, and a document that sets
nothing but the run of negations leaves the nesting as the other document left it. -/
theorem tightenedThenRaised_limits :
    (afterSteps tightenedThenRaised).cap .bytes = some 1048576 ∧
      (afterSteps tightenedThenRaised).cap .pageSize = some 50 ∧
      (afterSteps tightenedThenRaised).bound .filterLeaves = maxFilterLeaves ∧
      ((afterSteps tightenedThenRaised).merged
        { LimitsPatch.unset with negationRun := some 2 }).bound .filterDepth = 8 := by
  obtain ⟨-, -, hunset, -, -, hcap⟩ := limits_after_steps tightenedThenRaised
  refine ⟨?_, ?_, rfl, ?_⟩
  · rw [hcap]
    rfl
  · rw [hcap]
    rfl
  · rw [(hunset _).1 .filterDepth rfl]
    rfl

end Limits

end ListingQuery
