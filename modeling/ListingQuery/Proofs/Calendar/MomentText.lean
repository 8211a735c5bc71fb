import ListingQuery.Proofs.Calendar.DateText

/-!
# Texts of moments

The text of a moment in data has its parts in fixed places: the date ends at the letter between date
and time, the time of day is eight characters long, and the length of the fraction says how many
digits were left out.  A leap second is told from the second before it since only second 59 may run
on into one.

The text of a moment in filters is the first pattern that operands are tried with, whatever the year.

* `TimeOfDay.fraction_eq` reads the fraction from its text;
* `Moment.isoText_injective` says that different moments have different texts in data;
* `Moment.read?_text` says that a moment of whole seconds is read as filters write it.
-/

namespace ListingQuery

namespace Decimal

/-- Numbers of one width are told apart by their digits. -/
theorem padded_injective {w n m : Nat} (h : padded w n = padded w m) : n = m := by
  rw [← ofDigits_padded w n, h, ofDigits_padded]

end Decimal

/-- There is no letter in a date. -/
theorem Date.ne_letter_of_mem_text (d : Date) : ∀ c ∈ d.text, c ≠ 'T' := by
  have hdigits : ∀ w n, ∀ c ∈ Decimal.padded w n, c ≠ 'T' := by
    rintro w n c hc rfl
    exact absurd (Decimal.isDigit_of_mem_padded w n _ hc) (by decide)
  have hyear : ∀ c ∈ yearText d.year, c ≠ 'T' := by
    intro c hc
    unfold yearText at hc
    split at hc
    · exact hdigits _ _ c hc
    · rcases List.mem_cons.mp hc with rfl | hc
      · split <;> decide
      · exact hdigits _ _ c hc
  intro c hc
  simp only [Date.text, List.mem_append, List.mem_cons] at hc
  rcases hc with (hc | rfl | hc) | rfl | hc
  · exact hyear c hc
  · decide
  · exact hdigits _ _ c hc
  · decide
  · exact hdigits _ _ c hc

namespace TimeOfDay

section Bounds

variable (t : TimeOfDay)

/-- The bounds of a time of day; only the last second of a minute can be a leap second. -/
theorem bounds : t.hour < 24 ∧ t.minute < 60 ∧ t.second < 60 ∧
    (t.nanosecond < 1000000000 ∨ (t.second = 59 ∧ t.nanosecond < 2000000000)) := by
  have hvalid := t.isTimeOfDay
  simp only [ListingQuery.isTimeOfDay, Bool.and_eq_true, Bool.or_eq_true, decide_eq_true_eq,
    beq_iff_eq] at hvalid
  exact ⟨hvalid.1.1.1, hvalid.1.1.2, hvalid.1.2, hvalid.2⟩

/-- The second as it is written is sixty at most. -/
theorem writtenSecond_le : t.writtenSecond ≤ 60 := by
  have hbounds := t.bounds
  unfold writtenSecond
  split <;> omega

/-- Two digits each for the hour, the minute and the second, with colons between them. -/
theorem length_text : t.text.length = 8 := by
  have hbounds := t.bounds
  have hsecond := t.writtenSecond_le
  simp only [TimeOfDay.text, List.length_append, List.length_cons]
  rw [Decimal.length_padded (by decide) (by omega), Decimal.length_padded (by decide) (by omega),
    Decimal.length_padded (by decide) (by omega)]

/-- The fraction is what its digits spell, in the place that their number gives them. -/
theorem fraction_eq :
    t.fraction = Decimal.ofDigits t.fractionText.tail * 10 ^ (10 - t.fractionText.length) := by
  have hlt : t.fraction < 1000000000 := Nat.mod_lt _ (by decide)
  unfold fractionText
  by_cases hzero : t.fraction = 0
  · rw [if_pos hzero, hzero]
    rfl
  rw [if_neg hzero]
  by_cases hmillis : t.fraction % 1000000 = 0
  · rw [if_pos hmillis, List.tail_cons, List.length_cons, Decimal.ofDigits_padded,
      Decimal.length_padded (by decide) (by omega)]
    omega
  rw [if_neg hmillis]
  by_cases hmicros : t.fraction % 1000 = 0
  · rw [if_pos hmicros, List.tail_cons, List.length_cons, Decimal.ofDigits_padded,
      Decimal.length_padded (by decide) (by omega)]
    omega
  rw [if_neg hmicros, List.tail_cons, List.length_cons, Decimal.ofDigits_padded,
    Decimal.length_padded (by decide) (by omega)]
  omega

end Bounds

/-- The written second and the fraction are the second and the nanosecond. -/
theorem second_eq_of_written {t u : TimeOfDay} (hsecond : t.writtenSecond = u.writtenSecond)
    (hfraction : t.fraction = u.fraction) : t.second = u.second ∧ t.nanosecond = u.nanosecond := by
  have ht := t.bounds
  have hu := u.bounds
  unfold writtenSecond at hsecond
  unfold fraction at hfraction
  split at hsecond <;> split at hsecond <;> omega

/-- Different times of day have different texts. -/
theorem eq_of_texts {t u : TimeOfDay} (htext : t.text = u.text)
    (hfraction : t.fractionText = u.fractionText) : t = u := by
  have ht := t.bounds
  have hu := u.bounds
  have hwidth : ∀ n, n < 100 → (Decimal.padded 2 n).length = 2 :=
    fun n hn => Decimal.length_padded (by decide) hn
  obtain ⟨hfront, hsecond⟩ := List.append_inj htext (by
    simp only [List.length_append, List.length_cons]
    rw [hwidth _ (by omega), hwidth _ (by omega), hwidth _ (by omega), hwidth _ (by omega)])
  obtain ⟨hhour, hminute⟩ := List.append_inj hfront (by
    rw [hwidth _ (by omega), hwidth _ (by omega)])
  have hsecond := Decimal.padded_injective (List.cons.inj hsecond).2
  have hminute := Decimal.padded_injective (List.cons.inj hminute).2
  have hhour := Decimal.padded_injective hhour
  have hparts := second_eq_of_written hsecond (by
    rw [t.fraction_eq, u.fraction_eq, hfraction])
  cases t
  cases u
  simp only at hhour hminute hparts
  simp only [mk.injEq]
  exact ⟨hhour, hminute, hparts⟩

end TimeOfDay

/-- **Different moments have different texts in data.** -/
theorem Moment.isoText_injective {m n : Moment} (h : m.isoText = n.isoText) : m = n := by
  have hdate : ∀ d : Date, ∀ c ∈ d.text, (c != 'T') = true := fun d c hc =>
    bne_iff_ne.mpr (d.ne_letter_of_mem_text c hc)
  have hletter : ∀ cs c, ('T' :: cs).head? = some c → (c != 'T') = false := by
    intro cs c hc
    rw [← Option.some.inj hc]
    rfl
  unfold Moment.isoText Moment.text at h
  rw [List.append_assoc, List.append_assoc] at h
  obtain ⟨hdates, hrest⟩ :=
    Text.run_unique (hdate m.date) (hletter _) (hdate n.date) (hletter _) h
  obtain ⟨htext, hfraction⟩ := List.append_inj (List.cons.inj hrest).2 (by
    rw [TimeOfDay.length_text, TimeOfDay.length_text])
  have hread := m.date.readIso?_text
  rw [hdates, n.date.readIso?_text, Option.some.injEq] at hread
  cases m
  cases n
  exact congrArg₂ Moment.mk hread.symm (TimeOfDay.eq_of_texts htext hfraction)

/-! ## Moments read back -/

/-- A time of day of whole seconds, no leap second, is the one with its written parts. -/
theorem TimeOfDay.ofWritten?_eq {t : TimeOfDay} (h : t.nanosecond = 0) :
    TimeOfDay.ofWritten? t.hour t.minute t.writtenSecond 0 = some t := by
  obtain ⟨hour, minute, second, nanosecond, hvalid⟩ := t
  obtain rfl : nanosecond = 0 := h
  have hsecond : second < 60 := (bounds ⟨hour, minute, second, 0, hvalid⟩).2.2.1
  change TimeOfDay.ofWritten? hour minute second 0 = _
  rw [TimeOfDay.ofWritten?, if_neg (by omega), TimeOfDay.of?, dif_pos hvalid]

namespace Moment

open DateParts in
/-- A moment is taken apart into the numbers that are written. -/
theorem parts_text (m : Moment) :
    DateParts.unset.read? (DatePart.dayPattern ++ .literal 'T' :: DatePart.secondPattern) m.text =
      some ⟨m.date.year, m.date.month, m.date.day, m.time.hour, m.time.minute,
        m.time.writtenSecond, 0⟩ := by
  have hbounds := m.time.bounds
  have hyear := fun rest => signedYear?_yearText m.date.year (endsNumber_hyphen rest)
  have hmonth := fun rest => number?_two (n := m.date.month) (by have := m.date.month_le; omega)
    (endsNumber_hyphen rest)
  have hday := fun rest => number?_two (n := m.date.day) (by have := m.date.day_le; omega)
    (endsNumber_cons (c := 'T') (by decide) rest)
  have hcolon := endsNumber_cons (c := ':') (by decide)
  have hhour := fun rest => number?_two (n := m.time.hour) (by omega) (hcolon rest)
  have hminute := fun rest => number?_two (n := m.time.minute) (by omega) (hcolon rest)
  have hsecond := number?_two (n := m.time.writtenSecond)
    (by have := m.time.writtenSecond_le; omega) endsNumber_nil
  rw [List.append_nil] at hsecond
  simp [DatePart.dayPattern, DatePart.secondPattern, DatePart.minutePattern, DateParts.read?,
    DateParts.take?, Moment.text, Date.text, TimeOfDay.text, trimStart_yearText, hyear, hmonth, hday,
    hhour, hminute, hsecond, DateParts.unset]

/-- **A moment of whole seconds is read as it was written.** -/
theorem read?_text {m : Moment} (h : m.time.nanosecond = 0) : Moment.read? m.text = some m := by
  have hparts : DateParts.moment? ⟨m.date.year, m.date.month, m.date.day, m.time.hour,
      m.time.minute, m.time.writtenSecond, 0⟩ = some m := by
    simp only [DateParts.moment?, DateParts.date?, m.date.of?_eq, TimeOfDay.ofWritten?_eq h]
  have hfirst : readBy? (DatePart.dayPattern ++ .literal 'T' :: DatePart.secondPattern) m.text =
      some m := by
    rw [readBy?, parts_text, Option.bind_some, hparts]
  rw [read?, DatePart.momentPatterns, List.findSome?_cons, hfirst]

end Moment

end ListingQuery
