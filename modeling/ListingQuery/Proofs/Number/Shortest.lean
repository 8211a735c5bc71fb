import Mathlib.Algebra.Order.Field.Power
import Mathlib.Algebra.Order.Field.Rat
import Mathlib.Data.List.TakeWhile
import Mathlib.Tactic.FieldSimp
import Mathlib.Tactic.Linarith
import Mathlib.Tactic.NormNum
import Mathlib.Tactic.Positivity
import Mathlib.Tactic.Ring
import ListingQuery.Number.Shortest
import ListingQuery.Proofs.Number.Decimal

/-!
# Shortest decimals

The shortest decimal of a number lies in the interval that is read back as the number, and no decimal
lies in the intervals of two numbers.  So the decimal tells the number, its sign apart.

The ends of the intervals are whole multiples of a quarter of the smallest number, counted by
`lowerSteps` and `upperSteps` for every pattern: the upper end of one pattern is the lower end of the
next one (`upperSteps_eq`), and of two neighbours only the even one owns the end between them.

* `ReadsBack` says that a value is read back as a number, and `ReadsBack.unique` that it is so as one
  number only;
* `exists_onGrid?` says that 17 digits always suffice;
* `readsBack_shortest` is the shortest decimal of a number.
-/

namespace ListingQuery

/-- A power with an integer exponent is a quotient of two powers. -/
theorem zpow_mul_pow_toNat {b : ℚ} (hb : b ≠ 0) (i : ℤ) :
    b ^ i * b ^ (-i).toNat = b ^ i.toNat := by
  rw [← zpow_natCast, ← zpow_natCast, ← zpow_add₀ hb]
  congr 1
  omega

namespace Binary64

/-- The weight of the hidden bit as a number. -/
theorem fieldWeight_eq : fieldWeight = 4503599627370496 := rfl

/-! ## Intervals -/

/-- The lower end of the interval that is read back as the number, its sign apart. -/
def lowerBound (x : Binary64) : ℚ :=
  x.lowerEnd * 2 ^ (x.exponent - 2)

/-- The upper end of the interval. -/
def upperBound (x : Binary64) : ℚ :=
  x.upperEnd * 2 ^ (x.exponent - 2)

/-- The value lies in the interval of the number.  The ends belong to it where the significand is
even. -/
structure ReadsBack (x : Binary64) (v : ℚ) : Prop where
  lower : x.lowerBound ≤ v
  upper : v ≤ x.upperBound
  ends : x.significand % 2 = 1 → x.lowerBound ≠ v ∧ v ≠ x.upperBound

/-- The significand that goes with a pattern. -/
def significandOf (m : Nat) : Nat :=
  if m / fieldWeight = 0 then m % fieldWeight else fieldWeight + m % fieldWeight

/-- The lower end of the interval of a pattern, in quarters of the smallest number. -/
def lowerSteps (m : Nat) : Nat :=
  (if significandOf m = fieldWeight ∧ fieldWeight < m then 4 * significandOf m - 1
    else 4 * significandOf m - 2) * 2 ^ (m / fieldWeight - 1)

/-- The upper end of the interval of a pattern. -/
def upperSteps (m : Nat) : Nat :=
  (4 * significandOf m + 2) * 2 ^ (m / fieldWeight - 1)

/-- The significand is that of the magnitude. -/
theorem significand_eq (x : Binary64) : x.significand = significandOf x.magnitude := rfl

/-- A significand is below twice the weight of the hidden bit. -/
theorem significandOf_lt (m : Nat) : significandOf m < 2 * fieldWeight := by
  have hlt : m % fieldWeight < fieldWeight := Nat.mod_lt m (by decide)
  unfold significandOf
  split <;> omega

/-- The pattern and its significand are even together. -/
theorem significandOf_mod_two (m : Nat) : significandOf m % 2 = m % 2 := by
  unfold significandOf
  rw [fieldWeight_eq]
  split <;> omega

/-- A quarter of the smallest number. -/
def smallestQuarter : ℚ :=
  2 ^ (-1076 : ℤ)

theorem smallestQuarter_pos : 0 < smallestQuarter :=
  zpow_pos two_pos _

/-- The unit of the ends in quarters of the smallest number. -/
theorem zpow_exponent (x : Binary64) :
    (2 : ℚ) ^ (x.exponent - 2) =
      (2 ^ (x.magnitude / fieldWeight - 1) : ℕ) * smallestQuarter := by
  have hexponent : x.exponent - 2 = ((x.magnitude / fieldWeight - 1 : ℕ) : ℤ) + -1076 := by
    unfold exponent
    generalize x.magnitude / fieldWeight = field
    dsimp only
    split <;> omega
  rw [hexponent, zpow_add₀ two_ne_zero, zpow_natCast, Nat.cast_pow, Nat.cast_ofNat,
    smallestQuarter]

/-- The lower bound of a number is so many of the smallest quarters. -/
theorem lowerBound_eq (x : Binary64) :
    x.lowerBound = lowerSteps x.magnitude * smallestQuarter := by
  have hend : x.lowerEnd * 2 ^ (x.magnitude / fieldWeight - 1) = lowerSteps x.magnitude := rfl
  rw [lowerBound, zpow_exponent, ← mul_assoc, ← Nat.cast_mul, hend]

/-- The upper bound of a number is so many of the smallest quarters. -/
theorem upperBound_eq (x : Binary64) :
    x.upperBound = upperSteps x.magnitude * smallestQuarter := by
  have hend : x.upperEnd * 2 ^ (x.magnitude / fieldWeight - 1) = upperSteps x.magnitude := rfl
  rw [upperBound, zpow_exponent, ← mul_assoc, ← Nat.cast_mul, hend]

/-- **One interval ends where the next one begins.** -/
theorem upperSteps_eq (m : Nat) : upperSteps m = lowerSteps (m + 1) := by
  have hmod : m % fieldWeight < fieldWeight := Nat.mod_lt m (by decide)
  unfold upperSteps lowerSteps
  by_cases hlast : m % fieldWeight + 1 = fieldWeight
  · -- the significand is carried into the next field
    have hfield : (m + 1) / fieldWeight = m / fieldWeight + 1 := by
      rw [fieldWeight_eq] at hlast ⊢
      omega
    have hrest : (m + 1) % fieldWeight = 0 := by
      rw [fieldWeight_eq] at hlast ⊢
      omega
    have hnext : significandOf (m + 1) = fieldWeight := by
      simp [significandOf, hfield, hrest]
    by_cases hzero : m / fieldWeight = 0
    · have hsame : significandOf m = m % fieldWeight := by simp [significandOf, hzero]
      have hnot : ¬ fieldWeight < m + 1 := by
        rw [fieldWeight_eq] at hlast hzero ⊢
        omega
      rw [hnext, hfield, hsame, hzero, if_neg (fun h => hnot h.2)]
      omega
    · have hsame : significandOf m = fieldWeight + m % fieldWeight := by
        simp [significandOf, hzero]
      have hbeyond : fieldWeight < m + 1 := by
        rw [fieldWeight_eq] at hlast hzero ⊢
        omega
      have hpow : 2 ^ (m / fieldWeight) = 2 * 2 ^ (m / fieldWeight - 1) := by
        rw [← pow_succ', Nat.sub_add_cancel (Nat.pos_of_ne_zero hzero)]
      rw [hnext, hfield, hsame, if_pos ⟨rfl, hbeyond⟩, Nat.add_sub_cancel, hpow, ← mul_assoc]
      congr 1
      omega
  · have hfield : (m + 1) / fieldWeight = m / fieldWeight := by
      rw [fieldWeight_eq] at hlast hmod ⊢
      omega
    have hrest : (m + 1) % fieldWeight = m % fieldWeight + 1 := by
      rw [fieldWeight_eq] at hlast hmod ⊢
      omega
    have hnext : significandOf (m + 1) = significandOf m + 1 := by
      unfold significandOf
      rw [hfield, hrest]
      split <;> omega
    have hnot : ¬ (significandOf (m + 1) = fieldWeight ∧ fieldWeight < m + 1) := by
      rw [hnext]
      unfold significandOf
      rw [fieldWeight_eq]
      split <;> omega
    rw [if_neg hnot, hfield, hnext]
    congr 1

/-- No interval is empty. -/
theorem lowerSteps_lt_upperSteps (m : Nat) : lowerSteps m < upperSteps m := by
  have hpos : 0 < 2 ^ (m / fieldWeight - 1) := Nat.pow_pos (by decide)
  apply Nat.mul_lt_mul_of_pos_right ?_ hpos
  split <;> omega

/-- The lower bounds rise with the magnitude. -/
theorem strictMono_lowerSteps : StrictMono lowerSteps := by
  apply strictMono_nat_of_lt_succ
  intro m
  rw [← upperSteps_eq]
  exact lowerSteps_lt_upperSteps m

/-- A value in the interval of a number is in that of no larger one. -/
theorem ReadsBack.not_lt {x y : Binary64} {v : ℚ} (hx : x.ReadsBack v) (hy : y.ReadsBack v) :
    ¬ x.magnitude < y.magnitude := by
  intro hlt
  have hunit := smallestQuarter_pos
  have hsteps : upperSteps x.magnitude ≤ lowerSteps y.magnitude := by
    rw [upperSteps_eq]
    exact strictMono_lowerSteps.monotone hlt
  have hbounds : x.upperBound ≤ y.lowerBound := by
    rw [upperBound_eq, lowerBound_eq]
    exact mul_le_mul_of_nonneg_right (by exact_mod_cast hsteps) hunit.le
  have hupper : v = x.upperBound := le_antisymm hx.upper (hbounds.trans hy.lower)
  have hlower : y.lowerBound = v := le_antisymm hy.lower (hx.upper.trans hbounds)
  -- so the two are neighbours, and one of their significands is odd
  have hsame : upperSteps x.magnitude = lowerSteps y.magnitude := by
    have hequal := hlower.trans hupper
    rw [upperBound_eq, lowerBound_eq, mul_left_inj' hunit.ne'] at hequal
    exact_mod_cast hequal.symm
  rw [upperSteps_eq] at hsame
  have hnext : x.magnitude + 1 = y.magnitude := strictMono_lowerSteps.injective hsame
  have hparity := significandOf_mod_two x.magnitude
  have hparity' := significandOf_mod_two y.magnitude
  rw [← significand_eq] at hparity hparity'
  by_cases hodd : x.significand % 2 = 1
  · exact (hx.ends hodd).2 hupper
  · exact (hy.ends (by omega)).1 hlower

/-- **A value is read back as one number only**, its sign apart. -/
theorem ReadsBack.unique {x y : Binary64} {v : ℚ} (hx : x.ReadsBack v) (hy : y.ReadsBack v) :
    x.magnitude = y.magnitude := by
  have hxy := hx.not_lt hy
  have hyx := hy.not_lt hx
  omega

/-! ## Grids -/

/-- The unit of the ends, in common with the step of a grid of decimals. -/
def gridUnit (two ten : ℤ) : Nat :=
  Nat.pow 2 two.toNat * Nat.pow 10 (-ten).toNat

/-- The step of the grid. -/
def gridStep (two ten : ℤ) : Nat :=
  Nat.pow 10 ten.toNat * Nat.pow 2 (-two).toNat

/-- Unit and step are the powers, up to a common factor. -/
theorem grid_eq (two ten : ℤ) : ∃ k : ℚ, 0 < k ∧ (gridUnit two ten : ℚ) = 2 ^ two * k ∧
    (gridStep two ten : ℚ) = 10 ^ ten * k := by
  have htwo := zpow_mul_pow_toNat (b := 2) two_ne_zero two
  have hten := zpow_mul_pow_toNat (b := 10) (by norm_num) ten
  refine ⟨2 ^ (-two).toNat * 10 ^ (-ten).toNat, by positivity, ?_, ?_⟩
  · rw [← mul_assoc, htwo]
    simp [gridUnit]
  · rw [mul_comm (2 ^ (-two).toNat), ← mul_assoc, hten]
    simp [gridStep]

section Comparing

variable (two ten : ℤ) (a b : Nat)

/-- Units and steps are compared on the grid as the numbers that they stand for. -/
theorem unit_le_step_iff :
    a * gridUnit two ten ≤ b * gridStep two ten ↔ (a : ℚ) * 2 ^ two ≤ b * 10 ^ ten := by
  obtain ⟨k, hk, hunit, hstep⟩ := grid_eq two ten
  rw [← mul_le_mul_iff_left₀ hk, mul_assoc, mul_assoc, ← hunit, ← hstep]
  exact_mod_cast Iff.rfl

/-- Steps and units are compared on the grid as the numbers that they stand for. -/
theorem step_le_unit_iff :
    b * gridStep two ten ≤ a * gridUnit two ten ↔ (b : ℚ) * 10 ^ ten ≤ a * 2 ^ two := by
  obtain ⟨k, hk, hunit, hstep⟩ := grid_eq two ten
  rw [← mul_le_mul_iff_left₀ hk, mul_assoc, mul_assoc, ← hunit, ← hstep]
  exact_mod_cast Iff.rfl

end Comparing

/-- A decimal of the grid lies in the interval. -/
def isInside (x : Binary64) (ten : ℤ) (d : Nat) : Bool :=
  let unit := gridUnit (x.exponent - 2) ten
  let step := gridStep (x.exponent - 2) ten
  if x.significand % 2 = 0 then x.lowerEnd * unit ≤ d * step && d * step ≤ x.upperEnd * unit
  else x.lowerEnd * unit < d * step && d * step < x.upperEnd * unit

/-- The decimal of the grid below the number. -/
def below (x : Binary64) (ten : ℤ) : Nat :=
  x.center * gridUnit (x.exponent - 2) ten / gridStep (x.exponent - 2) ten

/-- **What is inside the interval reads back.** -/
theorem readsBack_of_isInside {x : Binary64} {ten : ℤ} {d : Nat} (h : x.isInside ten d = true) :
    x.ReadsBack (d * 10 ^ ten) := by
  unfold isInside at h
  dsimp only at h
  by_cases heven : x.significand % 2 = 0
  · rw [if_pos heven, Bool.and_eq_true, decide_eq_true_eq, decide_eq_true_eq, unit_le_step_iff,
      step_le_unit_iff] at h
    exact ⟨h.1, h.2, fun hodd => by omega⟩
  · rw [if_neg heven, Bool.and_eq_true, decide_eq_true_eq, decide_eq_true_eq, ← not_le, ← not_le,
      unit_le_step_iff, step_le_unit_iff, not_le, not_le] at h
    exact ⟨h.1.le, h.2.le, fun _ => ⟨h.1.ne, h.2.ne⟩⟩

/-- The search on a grid tries the decimals below and above the number. -/
theorem onGrid?_eq (x : Binary64) (tie : Tie) (log10 : ℤ) (count : Nat) :
    x.onGrid? tie log10 count =
      let ten := log10 - count + 1
      let unit := gridUnit (x.exponent - 2) ten
      let step := gridStep (x.exponent - 2) ten
      let rest := x.center * unit % step
      match x.isInside ten (x.below ten), x.isInside ten (x.below ten + 1) with
      | false, false => none
      | true, false => some (x.below ten)
      | false, true => some (x.below ten + 1)
      | true, true =>
        if 2 * rest < step then some (x.below ten)
        else if step < 2 * rest then some (x.below ten + 1)
        else
          match tie with
          | .up => some (x.below ten + 1)
          | .toEven => some (if x.below ten % 2 = 0 then x.below ten else x.below ten + 1) :=
  rfl

/-- What is found on a grid lies in the interval. -/
theorem isInside_of_onGrid? {x : Binary64} {tie : Tie} {log10 : ℤ} {count d : Nat}
    (h : x.onGrid? tie log10 count = some d) : x.isInside (log10 - count + 1) d = true := by
  rw [onGrid?_eq] at h
  generalize log10 - (count : ℤ) + 1 = ten at h ⊢
  cases hlow : x.isInside ten (x.below ten) <;> cases hhigh : x.isInside ten (x.below ten + 1) <;>
    simp only [hlow, hhigh] at h
  · cases h
  · exact Option.some.inj h ▸ hhigh
  · exact Option.some.inj h ▸ hlow
  · split at h
    · exact Option.some.inj h ▸ hlow
    · split at h
      · exact Option.some.inj h ▸ hhigh
      · cases tie with
        | up => exact Option.some.inj h ▸ hhigh
        | toEven =>
            dsimp only at h
            split at h
            · exact Option.some.inj h ▸ hlow
            · exact Option.some.inj h ▸ hhigh

/-- A decimal in the interval beside the number is found. -/
theorem exists_onGrid?_of_isInside {x : Binary64} (tie : Tie) {log10 : ℤ} {count : Nat}
    (h : x.isInside (log10 - count + 1) (x.below (log10 - count + 1)) = true ∨
      x.isInside (log10 - count + 1) (x.below (log10 - count + 1) + 1) = true) :
    ∃ d, x.onGrid? tie log10 count = some d := by
  rw [onGrid?_eq]
  generalize log10 - (count : ℤ) + 1 = ten at h ⊢
  cases hlow : x.isInside ten (x.below ten) <;> cases hhigh : x.isInside ten (x.below ten + 1) <;>
    simp only [hlow, hhigh]
  · simp [hlow, hhigh] at h
  · exact ⟨_, rfl⟩
  · exact ⟨_, rfl⟩
  · split
    · exact ⟨_, rfl⟩
    · split
      · exact ⟨_, rfl⟩
      · cases tie <;> exact ⟨_, rfl⟩

/-! ## Seventeen digits -/

/-- The lower end of the interval is positive and below the number. -/
theorem lowerEnd_lt_center {x : Binary64} (hx : 0 < x.significand) :
    0 < x.lowerEnd ∧ x.lowerEnd < x.center := by
  unfold lowerEnd center
  split <;> omega

/-- A step of the grid is a positive number. -/
theorem gridStep_pos (two ten : ℤ) : 0 < gridStep two ten :=
  Nat.mul_pos (Nat.pow_pos (by decide)) (Nat.pow_pos (by decide))

/-- A grid that is finer than the interval has a decimal beside the number in it. -/
theorem isInside_of_fine {x : Binary64} {ten : ℤ} (hx : 0 < x.significand)
    (hfine : (10 : ℚ) ^ ten + x.lowerBound < x.upperBound) :
    x.isInside ten (x.below ten) = true ∨ x.isInside ten (x.below ten + 1) = true := by
  have hfineSteps : gridStep (x.exponent - 2) ten + x.lowerEnd * gridUnit (x.exponent - 2) ten <
      x.upperEnd * gridUnit (x.exponent - 2) ten := by
    obtain ⟨k, hk, hunit, hstep⟩ := grid_eq (x.exponent - 2) ten
    have hscaled := mul_lt_mul_of_pos_right hfine hk
    rw [add_mul, lowerBound, upperBound, mul_assoc, mul_assoc, ← hunit, ← hstep] at hscaled
    exact_mod_cast hscaled
  have hends := (lowerEnd_lt_center hx).2
  have hunit : 0 < gridUnit (x.exponent - 2) ten :=
    Nat.mul_pos (Nat.pow_pos (by decide)) (Nat.pow_pos (by decide))
  have hcenter : x.center < x.upperEnd := by
    unfold upperEnd
    omega
  have hlower := Nat.mul_lt_mul_of_pos_right hends hunit
  have hupper := Nat.mul_lt_mul_of_pos_right hcenter hunit
  have hdivided := Nat.div_add_mod (x.center * gridUnit (x.exponent - 2) ten)
    (gridStep (x.exponent - 2) ten)
  have hrest := Nat.mod_lt (x.center * gridUnit (x.exponent - 2) ten)
    (gridStep_pos (x.exponent - 2) ten)
  rw [mul_comm, ← below] at hdivided
  unfold isInside
  dsimp only
  -- the decimal below the number can lie below the interval, and then one step leads into it
  by_cases hlow : x.lowerEnd * gridUnit (x.exponent - 2) ten <
      x.below ten * gridStep (x.exponent - 2) ten
  · left
    split <;> rw [Bool.and_eq_true, decide_eq_true_eq, decide_eq_true_eq] <;> omega
  · right
    rw [Nat.succ_mul]
    split <;> rw [Bool.and_eq_true, decide_eq_true_eq, decide_eq_true_eq] <;> omega

/-- A number has no more digits than its size asks for. -/
theorem pow_length_digits_le {n : Nat} (hn : 0 < n) :
    10 ^ (Decimal.digits n).length ≤ 10 * n := by
  induction n using Decimal.digits.induct with
  | case1 n h =>
      rw [Decimal.digits_of_lt h, List.length_singleton]
      omega
  | case2 n h ih =>
      rw [Decimal.digits_of_not_lt h, List.length_append, List.length_singleton, pow_succ]
      have hfront := ih (by omega)
      omega

/-- A number is below the power of ten that its digits count. -/
theorem lt_pow_length_digits (n : Nat) : n < 10 ^ (Decimal.digits n).length := by
  induction n using Decimal.digits.induct with
  | case1 n h =>
      rw [Decimal.digits_of_lt h, List.length_singleton]
      omega
  | case2 n h ih =>
      rw [Decimal.digits_of_not_lt h, List.length_append, List.length_singleton, pow_succ]
      omega

/-- The decimal exponent is not beyond the quotient. -/
theorem zpow_ratioLog10_le {num : Nat} (den : Nat) (hnum : 0 < num) :
    (10 : ℚ) ^ DecimalDigits.ratioLog10 num den * den ≤ num := by
  unfold DecimalDigits.ratioLog10
  dsimp only
  generalize hk : ((Decimal.digits num).length : ℤ) - (Decimal.digits den).length = k
  by_cases hreaches : DecimalDigits.reachesPower num den k = true
  · rw [if_pos hreaches]
    have hpos : (0 : ℚ) < 10 ^ (-k).toNat := by positivity
    have hten := zpow_mul_pow_toNat (b := 10) (by norm_num) k
    have hle : (den * 10 ^ k.toNat : ℚ) ≤ num * 10 ^ (-k).toNat := by
      exact_mod_cast of_decide_eq_true hreaches
    rw [← hten, mul_comm, mul_assoc, mul_comm _ (den : ℚ), ← mul_assoc] at hle
    exact le_of_mul_le_mul_right hle hpos
  · rw [if_neg hreaches]
    have hlow : ((10 ^ (Decimal.digits num).length : ℕ) : ℚ) ≤ (10 * num : ℕ) :=
      Nat.cast_le.mpr (pow_length_digits_le hnum)
    have hhigh : (den : ℚ) ≤ (10 ^ (Decimal.digits den).length : ℕ) :=
      Nat.cast_le.mpr (lt_pow_length_digits den).le
    push_cast at hlow hhigh
    have hsplit : (10 : ℚ) ^ (k - 1) * 10 ^ (Decimal.digits den).length * 10 =
        10 ^ (Decimal.digits num).length := by
      rw [← zpow_natCast, ← zpow_natCast, ← zpow_add₀ (by norm_num), ← zpow_add_one₀ (by norm_num)]
      congr 1
      omega
    have hstep : (10 : ℚ) ^ (k - 1) * den ≤ 10 ^ (k - 1) * 10 ^ (Decimal.digits den).length :=
      mul_le_mul_of_nonneg_left hhigh (by positivity)
    linarith

/-- Numerator and denominator are the number. -/
theorem numerator_eq (x : Binary64) :
    (x.numerator : ℚ) = x.significand * 2 ^ x.exponent * x.denominator := by
  rw [mul_assoc]
  unfold numerator denominator
  push_cast [Nat.pow_eq]
  rw [zpow_mul_pow_toNat two_ne_zero]

theorem denominator_pos (x : Binary64) : 0 < x.denominator :=
  Nat.pow_pos (by decide)

/-- The decimal exponent of a number. -/
def log10 (x : Binary64) : ℤ :=
  DecimalDigits.ratioLog10 x.numerator x.denominator

/-- The power of ten that is taken for a number is at most the number. -/
theorem zpow_log10_le {x : Binary64} (hx : 0 < x.significand) :
    (10 : ℚ) ^ x.log10 ≤ x.significand * 2 ^ x.exponent := by
  have hpos : (0 : ℚ) < x.denominator := by exact_mod_cast x.denominator_pos
  have hnumerator : 0 < x.numerator := Nat.mul_pos hx (Nat.pow_pos (by decide))
  have hle := zpow_ratioLog10_le x.denominator hnumerator
  rw [numerator_eq] at hle
  exact le_of_mul_le_mul_right hle hpos

/-- **The grid of 17 digits is finer than any interval.** -/
theorem fine_seventeen {x : Binary64} (hx : 0 < x.significand) :
    (10 : ℚ) ^ (x.log10 - (17 : ℕ) + 1) + x.lowerBound < x.upperBound := by
  -- an interval is three quarters of the number's unit wide or more, and a number has 53 bits
  have hends : 4 * x.significand + x.lowerEnd * 10 ^ 16 < x.upperEnd * 10 ^ 16 := by
    have hlt := significandOf_lt x.magnitude
    rw [← significand_eq] at hlt
    unfold upperEnd lowerEnd center
    rw [fieldWeight_eq] at hlt ⊢
    split <;> omega
  have hends' : (4 * x.significand + x.lowerEnd * 10 ^ 16 : ℚ) < x.upperEnd * 10 ^ 16 := by
    exact_mod_cast hends
  have hquarter : (0 : ℚ) < 2 ^ (x.exponent - 2) := by positivity
  have hscaled := mul_lt_mul_of_pos_right hends' hquarter
  have hstep : (10 : ℚ) ^ (x.log10 - (17 : ℕ) + 1) * 10 ^ 16 = 10 ^ x.log10 := by
    rw [← zpow_natCast, ← zpow_add₀ (by norm_num)]
    congr 1
    omega
  have hexponent : (2 : ℚ) ^ x.exponent = 4 * 2 ^ (x.exponent - 2) := by
    rw [zpow_sub₀ two_ne_zero]
    norm_num
    ring
  have hlog := zpow_log10_le hx
  rw [hexponent] at hlog
  unfold upperBound lowerBound
  nlinarith

/-- **Seventeen digits are enough.**  On a grid of seventeen digits some numeral is inside the
interval. -/
theorem exists_onGrid? {x : Binary64} (tie : Tie) (hx : 0 < x.significand) :
    ∃ d, x.onGrid? tie x.log10 17 = some d :=
  exists_onGrid?_of_isInside tie (isInside_of_fine hx (fine_seventeen hx))

end Binary64

/-! ## The shortest decimal -/

namespace DecimalDigits

/-- The number that the digits stand for. -/
def value (d : DecimalDigits) : ℚ :=
  Decimal.ofDigits d.digits * 10 ^ (d.point - d.digits.length)

/-- Zeros at the end are dropped and nothing else. -/
theorem exists_dropZeros_append (cs : List Char) :
    ∃ k, cs = dropZeros cs ++ List.replicate k '0' := by
  refine ⟨(cs.reverse.takeWhile (· == '0')).length, ?_⟩
  have hzeros : cs.reverse.takeWhile (· == '0') =
      List.replicate (cs.reverse.takeWhile (· == '0')).length '0' := by
    apply List.eq_replicate_of_mem
    intro c hc
    exact eq_of_beq (List.mem_takeWhile_imp (p := (· == '0')) hc)
  have hsplit := List.takeWhile_append_dropWhile (p := (· == '0')) (l := cs.reverse)
  rw [hzeros] at hsplit
  rw [dropZeros, ← List.reverse_inj, List.reverse_append, List.reverse_reverse,
    List.reverse_replicate, hsplit]

/-- Zeros at the end multiply a number by ten each. -/
theorem ofDigits_append_zeros (cs : List Char) (k : Nat) :
    Decimal.ofDigits (cs ++ List.replicate k '0') = Decimal.ofDigits cs * 10 ^ k := by
  induction k with
  | zero => simp
  | succ k ih =>
      have hzero : Decimal.digitValue '0' = 0 := rfl
      rw [List.replicate_succ', ← List.append_assoc, Decimal.ofDigits_concat, ih, hzero, pow_succ]
      ring

/-- Zeros at the end of the digits do not count. -/
theorem value_dropZeros (d : Nat) (ten : ℤ) :
    value ⟨dropZeros (Decimal.digits d), ten + (Decimal.digits d).length⟩ = d * 10 ^ ten := by
  obtain ⟨k, hk⟩ := exists_dropZeros_append (Decimal.digits d)
  have hd := Decimal.ofDigits_digits d
  rw [hk, ofDigits_append_zeros] at hd
  have hlength := congrArg List.length hk
  rw [List.length_append, List.length_replicate] at hlength
  have hpoint : ten + (Decimal.digits d).length - (dropZeros (Decimal.digits d)).length =
      ten + (k : ℕ) := by omega
  have hd' : (Decimal.ofDigits (dropZeros (Decimal.digits d)) * 10 ^ k : ℚ) = d := by
    exact_mod_cast hd
  unfold value
  rw [hpoint, zpow_add₀ (by norm_num), zpow_natCast, ← hd']
  ring

end DecimalDigits

namespace Binary64

/-- The search ends at a grid with a decimal, if there is one to come. -/
theorem exists_firstGrid_eq (x : Binary64) (tie : Tie) (log10 : ℤ) {more count last : Nat}
    (hfirst : count ≤ last) (hlast : last < count + more)
    (hfound : ∃ d, x.onGrid? tie log10 last = some d) :
    ∃ (c d : Nat), x.onGrid? tie log10 c = some d ∧ x.firstGrid tie log10 count more =
      ⟨DecimalDigits.dropZeros (Decimal.digits d),
        log10 - (c : ℤ) + 1 + (Decimal.digits d).length⟩ := by
  induction more generalizing count with
  | zero => omega
  | succ more ih =>
      cases hhere : x.onGrid? tie log10 count with
      | some d => exact ⟨count, d, hhere, by simp only [firstGrid, hhere]⟩
      | none =>
          have hne : count ≠ last := by
            intro heq
            obtain ⟨d, hd⟩ := hfound
            rw [heq, hd] at hhere
            cases hhere
          have hrest := @ih (count + 1) (by omega) (by omega)
          simpa only [firstGrid, hhere] using hrest

/-- The shortest digits are those of a numeral on some grid, without the zeros at the end. -/
theorem exists_shortest_eq {x : Binary64} (tie : Tie) (hx : 0 < x.significand) :
    ∃ (c d : Nat), x.onGrid? tie x.log10 c = some d ∧ x.shortest tie =
      ⟨DecimalDigits.dropZeros (Decimal.digits d),
        x.log10 - (c : ℤ) + 1 + (Decimal.digits d).length⟩ :=
  exists_firstGrid_eq x tie x.log10 (by omega) (by omega) (exists_onGrid? tie hx)

/-- **The shortest decimal of a number is read back as the number.** -/
theorem readsBack_shortest {x : Binary64} (tie : Tie) (hx : 0 < x.significand) :
    x.ReadsBack (x.shortest tie).value := by
  obtain ⟨c, d, hd, hshortest⟩ := exists_shortest_eq tie hx
  rw [hshortest, DecimalDigits.value_dropZeros]
  exact readsBack_of_isInside (isInside_of_onGrid? hd)

theorem isDigit_of_mem_shortest {x : Binary64} (tie : Tie) (hx : 0 < x.significand) :
    ∀ c ∈ (x.shortest tie).digits, Decimal.isDigit c = true := by
  obtain ⟨n, d, hd, hshortest⟩ := exists_shortest_eq tie hx
  intro c hc
  rw [hshortest] at hc
  obtain ⟨k, hk⟩ := DecimalDigits.exists_dropZeros_append (Decimal.digits d)
  apply Decimal.isDigit_of_mem_digits d
  rw [hk]
  exact List.mem_append_left _ hc

/-- The shortest decimal is not zero, so there is a digit. -/
theorem shortest_value_pos {x : Binary64} (tie : Tie) (hx : 0 < x.significand) :
    0 < (x.shortest tie).value := by
  apply lt_of_lt_of_le ?_ (readsBack_shortest tie hx).lower
  have hend : (0 : ℚ) < x.lowerEnd := by exact_mod_cast (lowerEnd_lt_center hx).1
  unfold lowerBound
  positivity

end Binary64

end ListingQuery
