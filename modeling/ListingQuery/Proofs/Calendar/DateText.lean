import ListingQuery.Calendar.Reading
import ListingQuery.Calendar.Writing
import ListingQuery.Proofs.Number.Decimal

/-!
# Dates read back

A date is written as year, month and day, with zeros in front; a year that has not four digits carries
a sign.  The reader takes each number up to the next hyphen.

* `Decimal.ofDigits_padded` and `Decimal.length_padded` are the numbers with zeros in front;
* `signedYear?_yearText` is the year, with or without a sign;
* `Date.readIso?_text` says that every date is read as it was written.
-/

namespace ListingQuery

namespace Decimal

/-! ## Numbers with zeros in front -/

/-- A number below a power of ten has no more digits than that. -/
theorem length_digits_le {n w : Nat} (hw : 0 < w) (h : n < 10 ^ w) : (digits n).length ≤ w := by
  induction w generalizing n with
  | zero => omega
  | succ w ih =>
      by_cases hsmall : n < 10
      · rw [digits_of_lt hsmall]
        exact hw
      · have hpow : 10 ^ (w + 1) = 10 ^ w * 10 := pow_succ 10 w
        have hrest : n / 10 < 10 ^ w := by omega
        have hpos : 0 < w := by
          refine Nat.pos_of_ne_zero fun hzero => hsmall ?_
          rw [hzero] at h
          exact h
        rw [digits_of_not_lt hsmall, List.length_append, List.length_singleton]
        exact Nat.succ_le_succ (ih hpos hrest)

/-- A number that fits is written with the given width. -/
theorem length_padded {n w : Nat} (hw : 0 < w) (h : n < 10 ^ w) : (padded w n).length = w := by
  have hle := length_digits_le hw h
  simp only [padded, List.length_append, List.length_replicate]
  omega

theorem ofDigits_zeros (k : Nat) (cs : List Char) :
    ofDigits (List.replicate k '0' ++ cs) = ofDigits cs := by
  induction k with
  | zero => rfl
  | succ k ih => exact ih

/-- A padded number is read as the number. -/
theorem ofDigits_padded (w n : Nat) : ofDigits (padded w n) = n := by
  rw [padded, ofDigits_zeros, ofDigits_digits]

theorem isDigit_of_mem_padded (w n : Nat) : ∀ c ∈ padded w n, isDigit c = true := by
  intro c hc
  rcases List.mem_append.mp hc with hzero | hdigit
  · rw [List.eq_of_mem_replicate hzero]
    decide
  · exact isDigit_of_mem_digits n c hdigit

theorem padded_ne_nil (w n : Nat) : padded w n ≠ [] := by
  obtain ⟨c, cs, hdigits⟩ := exists_digits_eq_cons n
  simp [padded, hdigits]

end Decimal

namespace DateParts

open Decimal (isDigit)

/-- No digit goes on with a number in front of the text. -/
def EndsNumber (rest : List Char) : Prop :=
  ∀ c, rest.head? = some c → isDigit c = false

/-- The end of a text ends a number. -/
theorem endsNumber_nil : EndsNumber [] := nofun

/-- A character that is no digit ends a number. -/
theorem endsNumber_cons {c : Char} (hc : isDigit c = false) (rest : List Char) :
    EndsNumber (c :: rest) := by
  intro d hd
  rw [← Option.some.inj hd]
  exact hc

theorem endsNumber_hyphen (rest : List Char) : EndsNumber ('-' :: rest) :=
  endsNumber_cons (by decide) rest

/-- A number is taken up to what ends it. -/
theorem number?_padded {most w n : Nat} (hlength : (Decimal.padded w n).length ≤ most)
    {rest : List Char} (hrest : EndsNumber rest) :
    number? most (Decimal.padded w n ++ rest) = some (n, rest) := by
  obtain ⟨htake, -⟩ := Decimal.span_isDigit (Decimal.isDigit_of_mem_padded w n) hrest
  have hnonempty : (Decimal.padded w n).isEmpty = false := by
    simpa using Decimal.padded_ne_nil w n
  simp only [number?, htake, List.take_of_length_le hlength, hnonempty, Decimal.ofDigits_padded,
    List.drop_left]
  rfl

/-- There is no blank in front of a number. -/
theorem trimStart_padded (w n : Nat) (rest : List Char) :
    Text.trimStart (Decimal.padded w n ++ rest) = Decimal.padded w n ++ rest := by
  obtain ⟨c, cs, hcons⟩ := List.exists_cons_of_ne_nil (Decimal.padded_ne_nil w n)
  have hdigit := Decimal.isDigit_of_mem_padded w n c (by simp [hcons])
  rw [hcons, List.cons_append]
  exact Text.trimStart_cons (Decimal.isBlank_of_isDigit hdigit) _

/-- A number of two digits is taken up to what ends it. -/
theorem number?_two {n : Nat} (hn : n < 100) {rest : List Char} (hrest : EndsNumber rest) :
    number? 2 (Text.trimStart (Decimal.padded 2 n ++ rest)) = some (n, rest) := by
  rw [trimStart_padded]
  exact number?_padded (Nat.le_of_eq (Decimal.length_padded (by decide) hn)) hrest

/-- A year of four digits is taken as it stands, any other one by its sign. -/
theorem signedYear?_yearText (y : Int) {rest : List Char} (hrest : EndsNumber rest) :
    signedYear? (yearText y ++ rest) = some (y, rest) := by
  unfold yearText
  split
  · rename_i hfour
    have hlength : (Decimal.padded 4 y.natAbs).length ≤ 4 :=
      Nat.le_of_eq (Decimal.length_padded (by decide) (by omega))
    obtain ⟨c, cs, hcons⟩ := List.exists_cons_of_ne_nil (Decimal.padded_ne_nil 4 y.natAbs)
    have hdigit := Decimal.isDigit_of_mem_padded 4 y.natAbs c (by simp [hcons])
    have hunsigned : signedYear? (Decimal.padded 4 y.natAbs ++ rest) =
        (number? 4 (Decimal.padded 4 y.natAbs ++ rest)).map fun r => ((r.1 : Int), r.2) := by
      rw [hcons, List.cons_append]
      unfold signedYear?
      split
      · rename_i heq
        cases heq
        exact absurd hdigit (by decide)
      · rename_i heq
        cases heq
        exact absurd hdigit (by decide)
      · rfl
    have hyear : (y.natAbs : Int) = y := Int.natAbs_of_nonneg hfour.1
    rw [hunsigned, number?_padded hlength hrest, Option.map_some, hyear]
  · have hlength : (Decimal.padded 4 y.natAbs).length ≤
        (Decimal.padded 4 y.natAbs ++ rest).length := by
      simp
    have hnumber := number?_padded hlength hrest
    split
    · have hyear : -(y.natAbs : Int) = y := by omega
      simp only [List.cons_append, signedYear?, hnumber, Option.map_some, hyear]
    · have hyear : (y.natAbs : Int) = y := by omega
      simp only [List.cons_append, signedYear?, hnumber, Option.map_some, hyear]

/-- There is no blank in front of a year. -/
theorem trimStart_yearText (y : Int) (rest : List Char) :
    Text.trimStart (yearText y ++ rest) = yearText y ++ rest := by
  unfold yearText
  split
  · exact trimStart_padded 4 y.natAbs rest
  · split <;> exact Text.trimStart_cons (by decide) _

end DateParts

namespace Date

theorem month_le (d : Date) : d.month ≤ 12 := by
  have hvalid := d.isDate
  simp only [ListingQuery.isDate, Bool.and_eq_true, decide_eq_true_eq] at hvalid
  have hdays : 1 ≤ daysInMonth d.year d.month := Nat.le_trans hvalid.1.2 hvalid.2
  unfold daysInMonth at hdays
  split at hdays <;> omega

theorem day_le (d : Date) : d.day ≤ 31 := by
  have hvalid := d.isDate
  simp only [ListingQuery.isDate, Bool.and_eq_true, decide_eq_true_eq] at hvalid
  have hdays : daysInMonth d.year d.month ≤ 31 := by
    have hfebruary : (if isLeapYear d.year then 29 else 28) ≤ 31 := by
      split <;> omega
    unfold daysInMonth
    split <;> first | exact hfebruary | omega
  exact Nat.le_trans hvalid.2 hdays

/-- A date is the one with its year, month and day. -/
theorem of?_eq (d : Date) : Date.of? d.year d.month d.day = some d := by
  rw [Date.of?, dif_pos d.isDate]

open DateParts in
/-- **Every date is read as it was written.** -/
theorem readIso?_text (d : Date) : Date.readIso? d.text = some d := by
  have hyear := fun rest => signedYear?_yearText d.year (endsNumber_hyphen rest)
  have hmonth := fun rest => number?_two (n := d.month) (by have := d.month_le; omega)
    (endsNumber_hyphen rest)
  have hday := number?_two (n := d.day) (by have := d.day_le; omega) endsNumber_nil
  rw [List.append_nil] at hday
  have hhyphen : ∀ cs, Text.trimStart ('-' :: cs) = '-' :: cs :=
    fun cs => Text.trimStart_cons (by decide) cs
  have hend : Text.trimStart [] = [] := rfl
  have hparts : DateParts.unset.read? DatePart.isoDayPattern d.text =
      some ⟨d.year, d.month, d.day, 0, 0, 0, 0⟩ := by
    simp [DatePart.isoDayPattern, DateParts.read?, DateParts.take?, Date.text, trimStart_yearText,
      hyear, hmonth, hday, hhyphen, hend, DateParts.unset]
  rw [Date.readIso?, hparts]
  exact d.of?_eq

end Date

end ListingQuery
