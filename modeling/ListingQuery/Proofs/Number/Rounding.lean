import Mathlib.Algebra.Group.Nat.Defs
import ListingQuery.Number.Binary64

/-!
# Rounding integers

An integer is rounded to the nearest number of the format.  Rounding keeps the order: within the
integers of one length in bits because a quotient of a larger number is not rounded to a smaller one,
and from one length to the next because the pattern of the shorter number can be carried at most to the
first pattern of the longer one.

* `divideToEven_mono` is the order of quotients;
* `wholePattern` is the pattern of a positive integer, and `wholePattern_mono` its order;
* `key_ofInt_mono` and `isNaN_ofInt` are what comes out for integers of either sign.
-/

namespace ListingQuery.Binary64

/-! ## Quotients -/

/-- A quotient is rounded to one of its two neighbours. -/
theorem divideToEven_bounds (num den : Nat) :
    num / den ≤ divideToEven num den ∧ divideToEven num den ≤ num / den + 1 := by
  unfold divideToEven
  dsimp only
  split <;> omega

/-- Of two quotients the larger one is not rounded to the smaller integer. -/
theorem divideToEven_mono {a b den : Nat} (h : a ≤ b) :
    divideToEven a den ≤ divideToEven b den := by
  have hquotients : a / den ≤ b / den := Nat.div_le_div_right h
  by_cases hsame : a / den = b / den
  · -- with one quotient the larger number has the larger remainder
    have ha := Nat.div_add_mod a den
    have hb := Nat.div_add_mod b den
    rw [← hsame] at hb
    unfold divideToEven
    dsimp only
    rw [← hsame]
    generalize den * (a / den) = base at ha hb
    split <;> split <;> omega
  · have hlow := (divideToEven_bounds a den).2
    have hhigh := (divideToEven_bounds b den).1
    omega

/-! ## Patterns -/

/-- The significand of a positive integer on the grid of 53 bits; up to `2 ^ 53`, since it can be
carried. -/
def wholeSignificand (n : Nat) : Nat :=
  divideToEven (n * 2 ^ (52 - n.log2)) (2 ^ (n.log2 - 52))

/-- The pattern of a positive integer, whatever its size. -/
def wholePattern (n : Nat) : Nat :=
  (n.log2 + 1022) * fieldWeight + wholeSignificand n

/-- A positive integer has 53 bits on its grid, or one more if it is carried. -/
theorem wholeSignificand_bounds {n : Nat} (hn : n ≠ 0) :
    fieldWeight ≤ wholeSignificand n ∧ wholeSignificand n ≤ 2 * fieldWeight := by
  have hpos : 0 < 2 ^ (n.log2 - 52) := Nat.pow_pos (by decide)
  have hlow := Nat.log2_self_le hn
  have hhigh : n < 2 ^ (n.log2 + 1) := Nat.lt_log2_self
  have hweight : fieldWeight = 2 ^ 52 := rfl
  have hbounds := divideToEven_bounds (n * 2 ^ (52 - n.log2)) (2 ^ (n.log2 - 52))
  have hquotientLow : 2 ^ 52 ≤ n * 2 ^ (52 - n.log2) / 2 ^ (n.log2 - 52) := by
    rw [Nat.le_div_iff_mul_le hpos, ← Nat.pow_add]
    calc 2 ^ (52 + (n.log2 - 52)) = 2 ^ n.log2 * 2 ^ (52 - n.log2) := by
          rw [← Nat.pow_add]
          congr 1
          omega
      _ ≤ n * 2 ^ (52 - n.log2) := Nat.mul_le_mul_right _ hlow
  have hquotientHigh : n * 2 ^ (52 - n.log2) / 2 ^ (n.log2 - 52) < 2 ^ 53 := by
    rw [Nat.div_lt_iff_lt_mul hpos, ← Nat.pow_add]
    calc n * 2 ^ (52 - n.log2) < 2 ^ (n.log2 + 1) * 2 ^ (52 - n.log2) :=
          Nat.mul_lt_mul_of_pos_right hhigh (Nat.pow_pos (by decide))
      _ = 2 ^ (53 + (n.log2 - 52)) := by
          rw [← Nat.pow_add]
          congr 1
          omega
  unfold wholeSignificand
  omega

/-- The larger of two positive integers has the larger pattern, or the same. -/
theorem wholePattern_mono {a b : Nat} (ha : a ≠ 0) (h : a ≤ b) :
    wholePattern a ≤ wholePattern b := by
  have hb : b ≠ 0 := by omega
  have hlength : a.log2 ≤ b.log2 := by
    rw [Nat.le_log2 hb]
    exact Nat.le_trans (Nat.log2_self_le ha) h
  unfold wholePattern
  rcases Nat.eq_or_lt_of_le hlength with hsame | hshorter
  · have hsignificands : wholeSignificand a ≤ wholeSignificand b := by
      unfold wholeSignificand
      rw [hsame]
      exact divideToEven_mono (Nat.mul_le_mul_right _ h)
    rw [hsame]
    omega
  · have hshort := (wholeSignificand_bounds ha).2
    have hlong := (wholeSignificand_bounds hb).1
    have hfields : (a.log2 + 1022 + 1) * fieldWeight ≤ (b.log2 + 1022) * fieldWeight :=
      Nat.mul_le_mul_right _ (by omega)
    rw [Nat.succ_mul] at hfields
    omega

/-- The binary order of a whole number is its own logarithm. -/
theorem ratioLog2_one {n : Nat} (hn : n ≠ 0) : ratioLog2 n 1 = n.log2 := by
  have hone : Nat.log2 1 = 0 := rfl
  have hreaches : reachesPower n 1 n.log2 = true := by
    simpa [reachesPower] using Nat.log2_self_le hn
  simp [ratioLog2, hone, hreaches]

/-- The pattern of a whole number is its pattern on the grid, or infinity if it is too large. -/
theorem patternOfRatio_one {n : Nat} (hn : n ≠ 0) :
    patternOfRatio n 1 = min infinityPattern (wholePattern n) := by
  have hexponent : max (-1074) ((n.log2 : Int) - 52) = (n.log2 : Int) - 52 := by omega
  have hdown : (-((n.log2 : Int) - 52)).toNat = 52 - n.log2 := by omega
  have hup : ((n.log2 : Int) - 52).toNat = n.log2 - 52 := by omega
  have hfield : ((n.log2 : Int) - 52 + 1074).toNat = n.log2 + 1022 := by omega
  unfold patternOfRatio wholePattern wholeSignificand
  rw [if_neg hn, ratioLog2_one hn]
  simp only [hexponent, hdown, hup, hfield, Nat.one_mul, Nat.pow_eq]

/-- No pattern is above infinity. -/
theorem patternOfRatio_le (num den : Nat) : patternOfRatio num den ≤ infinityPattern := by
  unfold patternOfRatio
  split
  · exact Nat.zero_le _
  · exact Nat.min_le_left _ _

/-- **Rounding keeps the order of whole numbers.** -/
theorem patternOfRatio_one_mono {a b : Nat} (h : a ≤ b) :
    patternOfRatio a 1 ≤ patternOfRatio b 1 := by
  by_cases ha : a = 0
  · subst ha
    exact Nat.zero_le _
  · have hmono := wholePattern_mono ha h
    rw [patternOfRatio_one ha, patternOfRatio_one (by omega)]
    omega

/-! ## Numbers -/

section Parts

variable {m : Nat} (negative : Bool)

/-- The bits of a number are its sign and its pattern. -/
theorem toNat_bits_ofParts (hm : m < signWeight) :
    (ofParts negative m).bits.toNat = (if negative then signWeight else 0) + m := by
  have hweight : signWeight = 2 ^ 63 := rfl
  unfold ofParts
  rw [UInt64.toNat_ofNat']
  apply Nat.mod_eq_of_lt
  split <;> omega

/-- The magnitude of a number is its pattern without the sign. -/
theorem magnitude_ofParts (hm : m < signWeight) : (ofParts negative m).magnitude = m := by
  unfold magnitude
  rw [toNat_bits_ofParts negative hm]
  cases negative <;> simp [Nat.mod_eq_of_lt hm]

/-- A number made of its parts has the sign that it was made with. -/
theorem isNegative_ofParts (hm : m < signWeight) : (ofParts negative m).isNegative = negative := by
  unfold isNegative
  rw [toNat_bits_ofParts negative hm]
  cases negative <;> simp [hm]

end Parts

/-- The pattern of a ratio leaves the bit of the sign free. -/
theorem patternOfRatio_lt (num den : Nat) : patternOfRatio num den < signWeight :=
  Nat.lt_of_le_of_lt (patternOfRatio_le num den) (by decide)

theorem isNaN_ofRatio (negative : Bool) (num den : Nat) :
    (ofRatio negative num den).isNaN = false := by
  unfold isNaN ofRatio
  rw [magnitude_ofParts negative (patternOfRatio_lt num den)]
  simpa using patternOfRatio_le num den

theorem isNaN_ofInt (i : Int) : (ofInt i).isNaN = false :=
  isNaN_ofRatio _ _ _

/-- The key of a rounded integer is its pattern, or the negative of it. -/
theorem key_ofInt (i : Int) :
    (ofInt i).key =
      if i < 0 then -(patternOfRatio i.natAbs 1 : Int) else patternOfRatio i.natAbs 1 := by
  have hlt := patternOfRatio_lt i.natAbs 1
  unfold key ofInt ofRatio
  rw [magnitude_ofParts _ hlt, isNegative_ofParts _ hlt]
  simp

/-- **Rounding keeps the order of integers**, though different ones can be rounded to the same
number. -/
theorem key_ofInt_mono {i j : Int} (h : i ≤ j) : (ofInt i).key ≤ (ofInt j).key := by
  rw [key_ofInt, key_ofInt]
  split
  · split
    · have hsizes : j.natAbs ≤ i.natAbs := by omega
      have hmono := patternOfRatio_one_mono hsizes
      omega
    · omega
  · have hsizes : i.natAbs ≤ j.natAbs := by omega
    have hmono := patternOfRatio_one_mono hsizes
    split <;> omega

end ListingQuery.Binary64
