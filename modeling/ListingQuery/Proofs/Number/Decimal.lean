import Mathlib.Algebra.Group.Nat.Defs
import ListingQuery.Number.Decimal
import ListingQuery.Proofs.Text.Blank

/-!
# Digits read back

The digits of a number spell the number.  They are ASCII digits, so no sign and no blank is among
them, and a number of paging is read as what was written.

* `ofDigits_digits` is the number that the digits spell;
* `int?_ofInt` is an integer that is written and read, and `int64?_ofInt64` a word;
* `framed_ofInt` says that there is no blank at the ends of an integer, so that trimming leaves it as
  it is.
-/

namespace ListingQuery.Decimal

/-- A digit of a number below ten is a digit. -/
theorem isDigit_digit {n : Nat} (h : n < 10) : isDigit (digit n) = true := by
  revert n
  decide

/-- The value of a digit is the number that it was made of. -/
theorem digitValue_digit {n : Nat} (h : n < 10) : digitValue (digit n) = n := by
  revert n
  decide

/-- A number below ten is one digit. -/
theorem digits_of_lt {n : Nat} (h : n < 10) : digits n = [digit n] := by
  rw [digits, if_pos h]

/-- Other numbers are the digits of their tens, and the last one. -/
theorem digits_of_not_lt {n : Nat} (h : ¬ n < 10) : digits n = digits (n / 10) ++ [digit (n % 10)] := by
  rw [digits, if_neg h]

theorem exists_digits_eq_cons (n : Nat) : ∃ c cs, digits n = c :: cs := by
  by_cases h : n < 10
  · exact ⟨_, _, digits_of_lt h⟩
  · rw [digits_of_not_lt h]
    exact List.exists_cons_of_ne_nil (by simp)

theorem isDigit_of_mem_digits (n : Nat) : ∀ c ∈ digits n, isDigit c = true := by
  induction n using digits.induct with
  | case1 n h =>
      intro c hc
      rw [digits_of_lt h] at hc
      rw [List.mem_singleton.mp hc]
      exact isDigit_digit h
  | case2 n h ih =>
      intro c hc
      rw [digits_of_not_lt h] at hc
      rcases List.mem_append.mp hc with hfront | hlast
      · exact ih c hfront
      · rw [List.mem_singleton.mp hlast]
        exact isDigit_digit (Nat.mod_lt n (by omega))

/-- Only zero is written with a zero in front. -/
theorem eq_zero_of_head_digits {n : Nat} (h : (digits n).head? = some '0') : n = 0 := by
  induction n using digits.induct with
  | case1 n hlt =>
      rw [digits_of_lt hlt, List.head?_cons, Option.some.injEq] at h
      have hvalue := digitValue_digit hlt
      rw [h] at hvalue
      exact hvalue.symm
  | case2 n hnot ih =>
      obtain ⟨c, cs, hcons⟩ := exists_digits_eq_cons (n / 10)
      rw [digits_of_not_lt hnot, hcons, List.cons_append, List.head?_cons] at h
      have hzero := ih (by rw [hcons, List.head?_cons, h])
      omega

/-- A run of digits ends where something else begins. -/
theorem span_isDigit {ds rest : List Char} (hds : ∀ c ∈ ds, isDigit c = true)
    (hrest : ∀ c, rest.head? = some c → isDigit c = false) :
    (ds ++ rest).takeWhile isDigit = ds ∧ (ds ++ rest).dropWhile isDigit = rest :=
  Text.span_run hds hrest

/-- One more digit makes ten times as much, and its own value. -/
theorem ofDigits_concat (cs : List Char) (c : Char) :
    ofDigits (cs ++ [c]) = 10 * ofDigits cs + digitValue c := by
  simp [ofDigits]

/-- **The digits of a number spell it.** -/
theorem ofDigits_digits (n : Nat) : ofDigits (digits n) = n := by
  induction n using digits.induct with
  | case1 n h =>
      rw [digits_of_lt h]
      simp [ofDigits, digitValue_digit h]
  | case2 n h ih =>
      rw [digits_of_not_lt h, ofDigits_concat, ih, digitValue_digit (Nat.mod_lt n (by omega))]
      omega

/-- The digits of a number are read as the number. -/
theorem plain?_digits (n : Nat) : plain? (digits n) = some n := by
  obtain ⟨c, cs, hdigits⟩ := exists_digits_eq_cons n
  have hnonempty : (digits n).isEmpty = false := by rw [hdigits]; rfl
  have hall : (digits n).all isDigit = true := List.all_eq_true.mpr (isDigit_of_mem_digits n)
  unfold plain?
  rw [hnonempty, hall, ofDigits_digits]
  rfl

/-- A digit is no sign, so that a text that begins with one is read as plain digits. -/
theorem int?_digits (n : Nat) : int? (digits n) = some (n : Int) := by
  obtain ⟨c, cs, hdigits⟩ := exists_digits_eq_cons n
  have hplain := plain?_digits n
  have hdigit : isDigit c = true := isDigit_of_mem_digits n c (by rw [hdigits]; simp)
  rw [hdigits] at hplain ⊢
  have hminus : c ≠ '-' := by
    intro h
    rw [h] at hdigit
    exact absurd hdigit (by decide)
  have hplus : c ≠ '+' := by
    intro h
    rw [h] at hdigit
    exact absurd hdigit (by decide)
  simp [int?, nat?, hminus, hplus, hplain]

/-- An integer is read as it was written, with a minus sign or without one. -/
theorem int?_ofInt (i : Int) : int? (ofInt i) = some i := by
  unfold ofInt
  by_cases hneg : i < 0
  · have hsize : -(i.natAbs : Int) = i := by omega
    rw [if_pos hneg]
    simp only [int?, plain?_digits]
    exact congrArg some hsize
  · have hsize : (i.natAbs : Int) = i := by omega
    rw [if_neg hneg, int?_digits, hsize]

/-- What is written of an integer are digits, behind a minus sign if there is one. -/
theorem mem_ofInt {i : Int} {c : Char} (hc : c ∈ ofInt i) : c = '-' ∨ isDigit c = true := by
  unfold ofInt at hc
  split at hc
  · rcases List.mem_cons.mp hc with rfl | hc
    · exact Or.inl rfl
    · exact Or.inr (isDigit_of_mem_digits _ c hc)
  · exact Or.inr (isDigit_of_mem_digits _ c hc)

/-- The text of a word is read as the word. -/
theorem int64?_ofInt64 (i : Int64) : int64? (ofInt64 i) = some i := by
  have hrange : Int64.minValue.toInt ≤ i.toInt ∧ i.toInt ≤ Int64.maxValue.toInt :=
    ⟨Int64.minValue_le_toInt i, Int64.toInt_le i⟩
  rw [int64?, ofInt64, int?_ofInt, Option.bind_some, toInt64?, if_pos hrange, Int64.ofInt_toInt]

theorem isBlank_of_isDigit {c : Char} (h : isDigit c = true) : Text.isBlank c = false := by
  simp only [isDigit, Bool.and_eq_true, decide_eq_true_eq] at h
  simp only [Text.isBlank, Bool.or_eq_false_iff, Bool.and_eq_false_iff, decide_eq_false_iff_not,
    beq_eq_false_iff_ne]
  omega

theorem ofInt_ne_nil (i : Int) : ofInt i ≠ [] := by
  obtain ⟨c, cs, hdigits⟩ := exists_digits_eq_cons i.natAbs
  unfold ofInt
  rw [hdigits]
  split <;> exact List.cons_ne_nil _ _

theorem framed_ofInt (i : Int) : Text.Framed (ofInt i) := by
  refine Text.framed_of_no_blank fun c hc => ?_
  rcases mem_ofInt hc with rfl | hdigit
  · rfl
  · exact isBlank_of_isDigit hdigit

/-- A natural number is written without a sign. -/
theorem ofInt_natCast (n : Nat) : ofInt n = digits n := by
  rw [ofInt, if_neg (by omega), Int.natAbs_natCast]

theorem trim_digits (n : Nat) : Text.trim (digits n) = digits n := by
  rw [← ofInt_natCast]
  exact (framed_ofInt n).trim_padded (ofInt_ne_nil n) (Text.padded_self _)

end ListingQuery.Decimal
