import Mathlib.Algebra.Group.Int.Defs
import ListingQuery.Json.Reader
import ListingQuery.Json.Writer
import ListingQuery.Proofs.Number.Decimal

/-!
# Scalars in JSON text

A text is written with escapes and an integer in digits; both are read back as they were.  Whatever is
read as a number has no character in it that would end a word.

* `strToken?_escaped` is a text between its quotes;
* `number?_ofInt` is an integer that 64 bits hold, with a sign or without one;
* `not_endsWord_of_number?` says that a number is one word.
-/

namespace ListingQuery.Json

/-! ## Texts -/

/-- A hexadecimal digit is read as its value. -/
theorem hexValue?_hexDigit {n : Nat} (h : n < 16) : hexValue? (hexDigit n) = some n := by
  revert n
  decide

/-- The escape of a control character gives its code. -/
theorem hexValue4?_hexDigits {n : Nat} (h : n < 32) :
    hexValue4? '0' '0' (hexDigit (n / 16)) (hexDigit (n % 16)) = some n := by
  have hzero : hexValue? '0' = some 0 := rfl
  have hsum : ((0 * 16 + 0) * 16 + n / 16) * 16 + n % 16 = n := by omega
  simp only [hexValue4?, hzero, hexValue?_hexDigit (show n / 16 < 16 by omega),
    hexValue?_hexDigit (Nat.mod_lt n (by decide)), hsum]

/-- A character is known by its number. -/
theorem char_eq_of_toNat {c d : Char} (h : c.toNat = d.toNat) : c = d := by
  rw [← Char.ofNat_toNat c, h, Char.ofNat_toNat]

/-- However it is written, a character is read back. -/
theorem textUnits?_escapeOne (c : Char) (rest : List Char) :
    textUnits? (escapeOne c ++ rest) = (textUnits? rest).map (TextUnit.char c :: ·) := by
  unfold escapeOne
  split
  · subst_vars
    simp [textUnits?, shortEscape?]
  split
  · subst_vars
    simp [textUnits?, shortEscape?]
  split
  · rename_i hcontrol
    split
    · rename_i hcode
      simp [textUnits?, shortEscape?, char_eq_of_toNat (d := Char.ofNat 0x08) hcode]
    split
    · rename_i hcode
      simp [textUnits?, shortEscape?, char_eq_of_toNat (d := '\t') hcode]
    split
    · rename_i hcode
      simp [textUnits?, shortEscape?, char_eq_of_toNat (d := '\n') hcode]
    split
    · rename_i hcode
      simp [textUnits?, shortEscape?, char_eq_of_toNat (d := Char.ofNat 0x0C) hcode]
    split
    · rename_i hcode
      simp [textUnits?, shortEscape?, char_eq_of_toNat (d := '\r') hcode]
    · have hunit : TextUnit.ofCode c.toNat = .char c := by
        rw [TextUnit.ofCode, if_neg (by omega), if_neg (by omega), Char.ofNat_toNat]
      simp [textUnits?, hexValue4?_hexDigits hcontrol, hunit]
  · rename_i hquote hbackslash hcontrol
    simp [textUnits?, hbackslash, hcontrol]

/-- An escaped text is read character by character. -/
theorem textUnits?_escaped (cs : List Char) :
    textUnits? (cs.flatMap escapeOne) = some (cs.map .char) := by
  induction cs with
  | nil => rfl
  | cons c cs ih =>
      rw [List.flatMap_cons, textUnits?_escapeOne, ih]
      rfl

/-- Characters are joined to their text. -/
theorem joinUnits?_chars (cs : List Char) : joinUnits? (cs.map .char) = some cs := by
  induction cs with
  | nil => rfl
  | cons c cs ih => simp [joinUnits?, ih]

/-- **What stands between the quotes of a text is the text.** -/
theorem strToken?_escaped (s : String) :
    strToken? (s.toList.flatMap escapeOne) = some (.str (some s)) := by
  simp [strToken?, textUnits?_escaped, joinUnits?_chars]

/-! ## Integers -/

/-- Digits alone are a number without fraction and exponent. -/
theorem unsigned?_digits (negative : Bool) (n : Nat) :
    unsigned? negative (Decimal.digits n) = some (ofWhole negative (Decimal.digits n)) := by
  have hend : ∀ c, ([] : List Char).head? = some c → Decimal.isDigit c = false := nofun
  obtain ⟨htake, hdrop⟩ := Decimal.span_isDigit (Decimal.isDigit_of_mem_digits n) hend
  rw [List.append_nil] at htake hdrop
  have hleading : ((Decimal.digits n).isEmpty ||
      ((Decimal.digits n).length != 1 && (Decimal.digits n).head? == some '0')) = false := by
    by_cases hzero : (Decimal.digits n).head? = some '0'
    · rw [Decimal.eq_zero_of_head_digits hzero, Decimal.digits_of_lt (by decide)]
      rfl
    · obtain ⟨c, cs, hcons⟩ := Decimal.exists_digits_eq_cons n
      rw [hcons, List.head?_cons, Option.some.injEq] at hzero
      simp [hcons, hzero]
  unfold unsigned?
  simp only [htake, hdrop, hleading]
  rfl

/-- The digits of a word are read as an integer. -/
theorem number?_digits {n : Nat} (h : n < 2 ^ 64) : number? (Decimal.digits n) = some (.int n) := by
  obtain ⟨c, cs, hcons⟩ := Decimal.exists_digits_eq_cons n
  have hminus : c ≠ '-' := by
    intro hc
    have hdigit := Decimal.isDigit_of_mem_digits n c (by simp [hcons])
    rw [hc] at hdigit
    exact absurd hdigit (by decide)
  have hunsigned : number? (Decimal.digits n) = unsigned? false (Decimal.digits n) := by
    rw [hcons]
    simp [number?, hminus]
  have hword : n < Nat.pow 2 64 := h
  rw [hunsigned, unsigned?_digits, ofWhole, Decimal.ofDigits_digits]
  simp only [Bool.not_false, Bool.true_and, decide_eq_true hword, if_true]

/-- The digits of an integer behind a minus sign are read as the integer. -/
theorem number?_minus_digits {n : Nat} (hpos : 0 < n) (h : n ≤ 2 ^ 63) :
    number? ('-' :: Decimal.digits n) = some (.int (-(n : Int))) := by
  have hword : n ≤ Nat.pow 2 63 := h
  have hne : (n != 0) = true := by simp; omega
  rw [number?, unsigned?_digits, ofWhole, Decimal.ofDigits_digits]
  simp only [Bool.not_true, Bool.false_and, Bool.true_and, hne, decide_eq_true hword, if_true]
  rfl

/-- **An integer that 64 bits hold is read back.** -/
theorem number?_ofInt {i : Int} (hlower : -2 ^ 63 ≤ i) (hupper : i < 2 ^ 64) :
    number? (Decimal.ofInt i) = some (.int i) := by
  unfold Decimal.ofInt
  split
  · rw [number?_minus_digits (by omega) (by omega)]
    congr
    omega
  · rw [number?_digits (by omega)]
    congr
    omega

/-! ## The characters of numbers -/

/-- A character that a number can have. -/
def InNumber (c : Char) : Prop :=
  Decimal.isDigit c = true ∨ c ∈ ['-', '+', '.', 'e', 'E']

instance (c : Char) : Decidable (InNumber c) :=
  inferInstanceAs (Decidable (_ ∨ _))

/-- A number without sign, point and exponent consists of characters of numbers. -/
theorem inNumber_of_plain? {cs : List Char} {n : Nat} (h : Decimal.plain? cs = some n) :
    ∀ c ∈ cs, InNumber c := by
  unfold Decimal.plain? at h
  split at h
  · cases h
  · rename_i hall
    simp only [Bool.or_eq_true, not_or, Bool.not_eq_true', Bool.not_eq_true, Bool.not_eq_false,
      List.all_eq_true] at hall
    exact fun c hc => Or.inl (hall.2 c hc)

theorem inNumber_of_exponent? {cs : List Char} {e : Int} (h : exponent? cs = some e) :
    ∀ c ∈ cs, InNumber c := by
  have hsign : ∀ c ∈ ['-', '+'], InNumber c := by simp [InNumber]
  unfold exponent? at h
  split at h
  · rename_i rest
    cases hplain : Decimal.plain? rest with
    | none => simp [hplain] at h
    | some n => exact List.forall_mem_cons.mpr ⟨hsign _ (by simp), inNumber_of_plain? hplain⟩
  · rename_i rest
    cases hplain : Decimal.plain? rest with
    | none => simp [hplain] at h
    | some n => exact List.forall_mem_cons.mpr ⟨hsign _ (by simp), inNumber_of_plain? hplain⟩
  · cases hplain : Decimal.plain? cs with
    | none => simp [hplain] at h
    | some n => exact inNumber_of_plain? hplain

/-- A text of digits and what stands behind them. -/
theorem inNumber_of_rest {cs : List Char}
    (h : ∀ c ∈ cs.dropWhile Decimal.isDigit, InNumber c) : ∀ c ∈ cs, InNumber c := by
  intro c hc
  rw [← List.takeWhile_append_dropWhile (p := Decimal.isDigit) (l := cs)] at hc
  rcases List.mem_append.mp hc with hdigit | hrest
  · exact Or.inl (List.all_eq_true.mp List.all_takeWhile c hdigit)
  · exact h c hrest

/-- What is read as a number without its sign consists of characters of numbers. -/
theorem inNumber_of_unsigned? {negative : Bool} {cs : List Char} {j : Json}
    (h : unsigned? negative cs = some j) : ∀ c ∈ cs, InNumber c := by
  have hpoint : InNumber '.' := by simp [InNumber]
  have hpower : ∀ c, c = 'e' ∨ c = 'E' → InNumber c := by
    rintro c (rfl | rfl) <;> simp [InNumber]
  refine inNumber_of_rest ?_
  unfold unsigned? at h
  simp only at h
  split at h
  · cases h
  split at h
  · rename_i hrest
    simp [hrest]
  · rename_i more hrest
    rw [hrest]
    refine List.forall_mem_cons.mpr ⟨hpoint, inNumber_of_rest ?_⟩
    split at h
    · cases h
    split at h
    · rename_i hnone
      simp [hnone]
    · rename_i c power hsome
      rw [hsome]
      split at h
      · rename_i hletter
        obtain ⟨e, he, _⟩ := Option.map_eq_some_iff.mp h
        exact List.forall_mem_cons.mpr ⟨hpower c hletter, inNumber_of_exponent? he⟩
      · cases h
  · rename_i c power _ hrest
    rw [hrest]
    split at h
    · rename_i hletter
      obtain ⟨e, he, _⟩ := Option.map_eq_some_iff.mp h
      exact List.forall_mem_cons.mpr ⟨hpower c hletter, inNumber_of_exponent? he⟩
    · cases h

/-- Whatever is read as a number consists of digits, signs, points and exponent letters. -/
theorem inNumber_of_number? {cs : List Char} {j : Json} (h : number? cs = some j) :
    ∀ c ∈ cs, InNumber c := by
  unfold number? at h
  split at h
  · exact List.forall_mem_cons.mpr ⟨Or.inr (by simp), inNumber_of_unsigned? h⟩
  · exact inNumber_of_unsigned? h

/-- The characters that words end in front of. -/
theorem mem_of_endsWord {c : Char} (h : Scanner.endsWord c = true) :
    c ∈ [' ', '\n', '\t', '\r', '"', '[', ']', '\x7b', '\x7d', ':', ','] := by
  refine Decidable.byContradiction fun hnot => ?_
  simp only [List.mem_cons, List.not_mem_nil, or_false, not_or] at hnot
  simp [Scanner.endsWord, isSpace, mark?, hnot] at h

/-- No character of a number ends a word. -/
theorem InNumber.not_endsWord {c : Char} (h : InNumber c) : Scanner.endsWord c = false := by
  have hother : ([' ', '\n', '\t', '\r', '"', '[', ']', '\x7b', '\x7d', ':', ','].all fun d =>
      !decide (InNumber d)) = true := by
    decide
  cases hends : Scanner.endsWord c with
  | false => rfl
  | true => simpa [h] using List.all_eq_true.mp hother c (mem_of_endsWord hends)

/-- **A number is one word.** -/
theorem not_endsWord_of_number? {cs : List Char} {j : Json} (h : number? cs = some j) :
    cs ≠ [] ∧ ∀ c ∈ cs, Scanner.endsWord c = false := by
  refine ⟨?_, fun c hc => (inNumber_of_number? h c hc).not_endsWord⟩
  rintro rfl
  cases h

end ListingQuery.Json
