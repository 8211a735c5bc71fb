import ListingQuery.Limits

/-!
# Limits as natural numbers

The bounds of filters are words; here they are read as the natural numbers that texts and trees are
measured in.  A clamped bound is the smaller of the setting and its ceiling.
-/

namespace ListingQuery.Limits

/-- The smaller of two words is the smaller number. -/
theorem toNat_smaller (a b : UInt64) : (smaller a b).toNat = min a.toNat b.toNat := by
  unfold smaller
  by_cases hle : a ≤ b
  · have hnat := UInt64.le_iff_toNat_le.mp hle
    rw [if_pos hle]
    omega
  · have hnat := mt UInt64.le_iff_toNat_le.mpr hle
    rw [if_neg hle]
    omega

variable (l : Limits)

/-- The length of a filter is cut at its ceiling. -/
theorem clamped_filterLength :
    l.clamped.filterLength.toNat = min l.filterLength.toNat maxFilterLength.toNat :=
  toNat_smaller _ _

/-- The depth of a filter is cut at its ceiling. -/
theorem clamped_filterDepth :
    l.clamped.filterDepth.toNat = min l.filterDepth.toNat maxFilterDepth.toNat :=
  toNat_smaller _ _

/-- The number of leaves is cut at its ceiling. -/
theorem clamped_filterLeaves :
    l.clamped.filterLeaves.toNat = min l.filterLeaves.toNat maxFilterLeaves.toNat :=
  toNat_smaller _ _

/-- The run of negations is cut at its ceiling. -/
theorem clamped_negationRun :
    l.clamped.negationRun.toNat = min l.negationRun.toNat maxNegationRun.toNat :=
  toNat_smaller _ _

end ListingQuery.Limits
