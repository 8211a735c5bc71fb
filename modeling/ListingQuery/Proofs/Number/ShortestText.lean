import ListingQuery.Number.Numeral
import ListingQuery.Proofs.Calendar.DateText
import ListingQuery.Proofs.Number.Shortest

/-!
# Texts of numbers

The text of a finite number is a numeral that stands for the shortest decimal of the number, with or
without an exponent.  Since the shortest decimal tells the number, so does the text.

* `Numeral.Spells` says that a text is a numeral of a given size;
* `exists_read?_text` is the numeral that the text of a number is read as;
* `NumberLayout.text_injective` says that different finite numbers have different texts.
-/

namespace ListingQuery

namespace Numeral

/-- The number that the numeral stands for, its sign apart. -/
def size (n : Numeral) : ℚ :=
  n.significand * 10 ^ n.scale

/-- The text is a numeral of the given size, also behind a minus sign. -/
def Spells (cs : List Char) (v : ℚ) : Prop :=
  ∀ negative : Bool, ∃ n, read? (if negative then '-' :: cs else cs) = some n ∧
    n.negative = negative ∧ n.size = v

/-- The sign in front of a digit is taken off, if there is one. -/
theorem takeSign_signed (negative : Bool) {c : Char} (cs : List Char)
    (hc : Decimal.isDigit c = true) :
    takeSign (if negative then '-' :: c :: cs else c :: cs) = (negative, c :: cs) := by
  have hminus : c ≠ '-' := by
    intro h
    rw [h] at hc
    exact absurd hc (by decide)
  have hplus : c ≠ '+' := by
    intro h
    rw [h] at hc
    exact absurd hc (by decide)
  cases negative
  · simp [takeSign, hminus, hplus]
  · rfl

/-- What is read as an exponent begins with its letter. -/
theorem head_of_exponent? {cs : List Char} {e : ℤ} (h : exponent? cs = some e) :
    ∀ c, cs.head? = some c → c = 'e' ∨ c = 'E' := by
  intro c hc
  cases cs with
  | nil => cases hc
  | cons d rest =>
      obtain rfl : d = c := Option.some.inj hc
      by_cases hletter : d = 'e' ∨ d = 'E'
      · exact hletter
      · simp [exponent?, hletter] at h

/-- Where nothing is left, the exponent is zero. -/
theorem exponent?_nil : exponent? [] = some 0 := rfl

/-- The letter of an exponent is neither a digit nor a point. -/
theorem isDigit_of_exponentLetter {c : Char} (h : c = 'e' ∨ c = 'E') :
    Decimal.isDigit c = false ∧ c ≠ '.' := by
  rcases h with rfl | rfl <;> decide

section Shapes

variable {whole fraction rest : List Char} {e : ℤ}

theorem spells_whole (hwhole : ∀ c ∈ whole, Decimal.isDigit c = true) (hne : whole ≠ [])
    (hrest : exponent? rest = some e) :
    Spells (whole ++ rest) (Decimal.ofDigits whole * 10 ^ e) := by
  intro negative
  have hhead := head_of_exponent? hrest
  obtain ⟨htake, hdrop⟩ := Decimal.span_isDigit hwhole fun c hc =>
    (isDigit_of_exponentLetter (hhead c hc)).1
  obtain ⟨c, more, hcons⟩ := List.exists_cons_of_ne_nil hne
  have hsign := takeSign_signed negative (more ++ rest)
    (hwhole c (by rw [hcons]; exact List.mem_cons_self))
  rw [← List.cons_append, ← hcons] at hsign
  have hempty : whole.isEmpty = false := by rw [hcons]; rfl
  refine ⟨⟨negative, whole, [], e⟩, ?_, rfl, ?_⟩
  · unfold read?
    rw [hsign]
    dsimp only
    rw [htake, hdrop]
    cases rest with
    | nil => simpa [hempty] using hrest
    | cons c rest =>
        have hpoint := (isDigit_of_exponentLetter (hhead c rfl)).2
        simp [hpoint, hempty, hrest]
  · simp [size, significand, scale]

/-- Digits on both sides of a point. -/
theorem spells_point (hwhole : ∀ c ∈ whole, Decimal.isDigit c = true) (hne : whole ≠ [])
    (hfraction : ∀ c ∈ fraction, Decimal.isDigit c = true) (hrest : exponent? rest = some e) :
    Spells (whole ++ '.' :: (fraction ++ rest))
      (Decimal.ofDigits (whole ++ fraction) * 10 ^ (e - fraction.length)) := by
  intro negative
  have hpoint : Decimal.isDigit '.' = false := by decide
  have hends : ∀ c, ('.' :: (fraction ++ rest)).head? = some c → Decimal.isDigit c = false :=
    fun c hc => Option.some.inj hc ▸ hpoint
  obtain ⟨htake, hdrop⟩ := Decimal.span_isDigit hwhole hends
  obtain ⟨htake', hdrop'⟩ := Decimal.span_isDigit hfraction fun c hc =>
    (isDigit_of_exponentLetter (head_of_exponent? hrest c hc)).1
  obtain ⟨c, more, hcons⟩ := List.exists_cons_of_ne_nil hne
  have hsign := takeSign_signed negative (more ++ '.' :: (fraction ++ rest))
    (hwhole c (by rw [hcons]; exact List.mem_cons_self))
  rw [← List.cons_append, ← hcons] at hsign
  have hempty : whole.isEmpty = false := by rw [hcons]; rfl
  refine ⟨⟨negative, whole, fraction, e⟩, ?_, rfl, rfl⟩
  unfold read?
  rw [hsign]
  dsimp only
  rw [htake, hdrop]
  simp [htake', hdrop', hempty, hrest]

end Shapes

/-- The exponent that is written is read. -/
theorem exponent?_written (e : ℤ) :
    exponent? ('e' :: (if e < 0 then '-' else '+') :: Decimal.digits e.natAbs) = some e := by
  by_cases hneg : e < 0
  · have hsize : -(e.natAbs : ℤ) = e := by omega
    simp only [exponent?, takeSign, hneg, if_true, true_or, Decimal.plain?_digits]
    exact congrArg some hsize
  · have hsize : (e.natAbs : ℤ) = e := by omega
    simp only [exponent?, takeSign, hneg, if_true, if_false, true_or, Decimal.plain?_digits]
    exact congrArg some hsize

end Numeral

namespace NumberLayout

open Numeral

/-- Whole numbers are written as they are or with the decimal zero. -/
def WritesNumerals (layout : NumberLayout) : Prop :=
  layout.wholeEnd = [] ∨ layout.wholeEnd = ['.', '0']

theorem isDigit_of_mem_zeros (k : Nat) :
    ∀ c ∈ List.replicate k '0', Decimal.isDigit c = true := by
  intro c hc
  rw [List.eq_of_mem_replicate hc]
  rfl

theorem forall_mem_append_digits {cs ds : List Char} (hcs : ∀ c ∈ cs, Decimal.isDigit c = true)
    (hds : ∀ c ∈ ds, Decimal.isDigit c = true) : ∀ c ∈ cs ++ ds, Decimal.isDigit c = true :=
  fun c hc => (List.mem_append.mp hc).elim (hcs c) (hds c)

/-- A whole number with or without the decimal zero. -/
theorem spells_wholeEnd {layout : NumberLayout} (hlayout : layout.WritesNumerals)
    {whole : List Char} (hwhole : ∀ c ∈ whole, Decimal.isDigit c = true) (hne : whole ≠ []) :
    Spells (whole ++ layout.wholeEnd) (Decimal.ofDigits whole) := by
  rcases hlayout with hend | hend
  · have hspells := spells_whole hwhole hne exponent?_nil
    rw [hend]
    simpa using hspells
  · have hspells := spells_point hwhole hne (isDigit_of_mem_zeros 1) exponent?_nil
    rw [DecimalDigits.ofDigits_append_zeros] at hspells
    rw [hend]
    simpa using hspells

section Digits

variable {d : DecimalDigits} (hdigits : ∀ c ∈ d.digits, Decimal.isDigit c = true)
  (hne : d.digits ≠ [])

include hdigits hne

/-- A number in positional layout is read as its value. -/
theorem spells_positionalText {layout : NumberLayout} (hlayout : layout.WritesNumerals) :
    Spells (layout.positionalText d) d.value := by
  unfold positionalText DecimalDigits.value
  by_cases hpoint : d.point ≤ 0
  · have hfraction := forall_mem_append_digits (isDigit_of_mem_zeros (-d.point).toNat) hdigits
    have hspells := spells_point (isDigit_of_mem_zeros 1) (by simp) hfraction exponent?_nil
    have hscale : (0 : ℤ) - (List.replicate (-d.point).toNat '0' ++ d.digits).length =
        d.point - d.digits.length := by
      simp
      omega
    rw [hscale, ← List.append_assoc, List.replicate_append_replicate,
      Decimal.ofDigits_zeros] at hspells
    rw [if_pos hpoint]
    simpa using hspells
  · rw [if_neg hpoint]
    by_cases hwhole : d.digits.length ≤ d.point.toNat
    · have hspells := spells_wholeEnd hlayout
        (forall_mem_append_digits hdigits (isDigit_of_mem_zeros (d.point.toNat - d.digits.length)))
        (by simp [hne])
      have hscale : d.point - d.digits.length = ((d.point.toNat - d.digits.length : ℕ) : ℤ) := by
        omega
      rw [DecimalDigits.ofDigits_append_zeros] at hspells
      rw [if_pos hwhole, hscale, zpow_natCast]
      exact_mod_cast hspells
    · have hfront : ∀ c ∈ d.digits.take d.point.toNat, Decimal.isDigit c = true :=
        fun c hc => hdigits c (List.mem_of_mem_take hc)
      have hback : ∀ c ∈ d.digits.drop d.point.toNat, Decimal.isDigit c = true :=
        fun c hc => hdigits c (List.mem_of_mem_drop hc)
      have hspells := spells_point hfront
        (by
          rw [Ne, List.take_eq_nil_iff, or_iff_left hne]
          omega)
        hback exponent?_nil
      have hscale : (0 : ℤ) - (d.digits.drop d.point.toNat).length = d.point - d.digits.length := by
        simp
        omega
      rw [hscale, List.take_append_drop, List.append_nil] at hspells
      rw [if_neg hwhole]
      exact hspells

/-- A number with an exponent is read as its value. -/
theorem spells_exponentText : Spells (exponentText d) d.value := by
  have hexponent := exponent?_written (d.point - 1)
  unfold exponentText DecimalDigits.value
  dsimp only
  split
  · rename_i first second more heq
    rw [heq] at hdigits
    obtain ⟨hfirst, hmore⟩ := List.forall_mem_cons.mp hdigits
    have hspells := spells_point (List.forall_mem_singleton.mpr hfirst) (List.cons_ne_nil _ _) hmore
      hexponent
    have hscale : d.point - 1 - (second :: more).length =
        d.point - (first :: second :: more).length := by
      simp
      omega
    rw [hscale] at hspells
    rw [heq]
    simpa using hspells
  · rename_i hfew
    have hone : d.digits.length = 1 := by
      cases hcases : d.digits with
      | nil => exact (hne hcases).elim
      | cons first more =>
          cases more with
          | nil => rfl
          | cons second more => exact (hfew first second more hcases).elim
    have hspells := spells_whole hdigits hne hexponent
    rw [hone]
    exact hspells

end Digits

end NumberLayout

namespace Binary64

open Numeral

/-- The decimal that the text of a number stands for, its sign apart. -/
def shownSize (x : Binary64) (tie : Tie) : ℚ :=
  if x.isZero then 0 else (x.shortest tie).value

/-- A number other than zero has a positive significand. -/
theorem significand_pos {x : Binary64} (hx : x.isZero = false) : 0 < x.significand := by
  have hmagnitude : x.magnitude ≠ 0 := by simpa [isZero] using hx
  rw [significand_eq]
  unfold significandOf
  rw [fieldWeight_eq]
  split <;> omega

theorem shortest_digits_ne_nil {x : Binary64} (tie : Tie) (hx : 0 < x.significand) :
    (x.shortest tie).digits ≠ [] := by
  intro hnil
  have hpos := shortest_value_pos tie hx
  simp [DecimalDigits.value, hnil, Decimal.ofDigits] at hpos

/-- The text of a finite number without its sign. -/
def sizeText (x : Binary64) (layout : NumberLayout) : List Char :=
  if x.isZero then '0' :: layout.wholeEnd
  else if layout.positional ((x.shortest layout.tie).point - 1) then
    layout.positionalText (x.shortest layout.tie)
  else NumberLayout.exponentText (x.shortest layout.tie)

/-- The text of a finite number is that of its size, behind a minus sign if it is negative. -/
theorem text_eq (layout : NumberLayout) {x : Binary64} (hx : x.isFinite = true) :
    layout.text x = if x.isNegative then '-' :: x.sizeText layout else x.sizeText layout := by
  have hnan : x.isNaN = false := by
    have hlt : x.magnitude < infinityPattern := of_decide_eq_true hx
    exact decide_eq_false (by omega)
  unfold NumberLayout.text
  rw [hnan, hx, if_neg (by decide), if_neg (by decide)]
  rfl

/-- **The text of the size is read as the decimal that it shows.** -/
theorem spells_sizeText {layout : NumberLayout} (hlayout : layout.WritesNumerals)
    (x : Binary64) : Spells (x.sizeText layout) (x.shownSize layout.tie) := by
  unfold sizeText shownSize
  cases hzero : x.isZero with
  | true =>
      have hspells := NumberLayout.spells_wholeEnd hlayout (NumberLayout.isDigit_of_mem_zeros 1)
        (by simp)
      simpa [Decimal.ofDigits, Decimal.digitValue] using hspells
  | false =>
      have hpos := significand_pos hzero
      have hdigits := isDigit_of_mem_shortest layout.tie hpos
      have hne := shortest_digits_ne_nil layout.tie hpos
      simp only [Bool.false_eq_true, if_false]
      by_cases hpositional : layout.positional ((x.shortest layout.tie).point - 1) = true
      · rw [if_pos hpositional]
        exact NumberLayout.spells_positionalText hdigits hne hlayout
      · rw [if_neg hpositional]
        exact NumberLayout.spells_exponentText hdigits hne

/-- **The text of a finite number is read as its shortest decimal.** -/
theorem exists_read?_text {layout : NumberLayout} (hlayout : layout.WritesNumerals)
    {x : Binary64} (hx : x.isFinite = true) :
    ∃ n, read? (layout.text x) = some n ∧ n.negative = x.isNegative ∧
      n.size = x.shownSize layout.tie := by
  rw [text_eq layout hx]
  exact spells_sizeText hlayout x x.isNegative

/-- The bits are the sign and what is below it. -/
theorem eq_of_parts {x y : Binary64} (hsign : x.isNegative = y.isNegative)
    (hsize : x.magnitude = y.magnitude) : x = y := by
  have hx := x.bits.toNat_lt
  have hy := y.bits.toNat_lt
  unfold isNegative magnitude at *
  rw [decide_eq_decide] at hsign
  have hweight : signWeight = 9223372036854775808 := rfl
  rw [hweight] at hsign hsize
  have hbits : x.bits = y.bits := by
    apply UInt64.toNat.inj
    omega
  cases x
  cases y
  exact congrArg Binary64.mk hbits

/-- The decimal that a number shows reads back, unless it is zero. -/
theorem readsBack_shownSize {x : Binary64} (tie : Tie) (hx : x.magnitude ≠ 0) :
    x.ReadsBack (x.shownSize tie) := by
  have hzero : x.isZero = false := by simpa [isZero] using hx
  rw [shownSize, hzero]
  exact readsBack_shortest tie (significand_pos hzero)

/-- Only zero shows zero. -/
theorem shownSize_eq_zero_iff (x : Binary64) (tie : Tie) :
    x.shownSize tie = 0 ↔ x.magnitude = 0 := by
  unfold shownSize
  cases hzero : x.isZero with
  | true => simpa [isZero] using hzero
  | false =>
      have hpos := shortest_value_pos tie (significand_pos hzero)
      have hmagnitude : x.magnitude ≠ 0 := by simpa [isZero] using hzero
      simp [hpos.ne', hmagnitude]

/-- The decimal of a number tells it, its sign apart. -/
theorem magnitude_eq_of_shownSize {x y : Binary64} {tie : Tie}
    (h : x.shownSize tie = y.shownSize tie) : x.magnitude = y.magnitude := by
  by_cases hx : x.magnitude = 0
  · rw [(shownSize_eq_zero_iff x tie).mpr hx, eq_comm, shownSize_eq_zero_iff] at h
    rw [hx, h]
  · have hy : y.magnitude ≠ 0 := by
      rwa [Ne, ← shownSize_eq_zero_iff y tie, ← h, shownSize_eq_zero_iff]
    have hread := readsBack_shownSize tie hx
    rw [h] at hread
    exact hread.unique (readsBack_shownSize tie hy)

end Binary64

/-- **Different finite numbers have different texts.** -/
theorem NumberLayout.text_injective {layout : NumberLayout} (hlayout : layout.WritesNumerals)
    {x y : Binary64} (hx : x.isFinite = true) (hy : y.isFinite = true)
    (h : layout.text x = layout.text y) : x = y := by
  obtain ⟨n, hn, hsign, hsize⟩ := Binary64.exists_read?_text hlayout hx
  obtain ⟨m, hm, hsign', hsize'⟩ := Binary64.exists_read?_text hlayout hy
  rw [h, hm, Option.some.injEq] at hn
  subst hn
  exact Binary64.eq_of_parts (hsign.symm.trans hsign')
    (Binary64.magnitude_eq_of_shownSize (hsize.symm.trans hsize'))

end ListingQuery
