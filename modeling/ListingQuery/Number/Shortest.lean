import ListingQuery.Number.Binary64
import ListingQuery.Number.Decimal

/-!
# The shortest decimal text of a binary64 number

`Binary64.shortest` gives the fewest decimal digits that are read back as the number, and among
those the digits nearest to it.  A number is read back from every decimal in the interval halfway
to its neighbours, ends included exactly when its significand is even.  For 1, 2, … digits the two
neighbours of the number on the grid of that many digits are tried in exact arithmetic; 17 digits
always suffice.

`NumberLayout` says how digits are set into text: the two texts of a query program differ in
where the exponent is written out, in the decimal point of whole numbers, and in the words for
numbers that are not finite.
-/

namespace ListingQuery

/-- Decimal digits and the place of the point: the value is `0.d₁d₂… * 10 ^ point`. -/
structure DecimalDigits where
  digits : List Char
  point : Int
deriving DecidableEq, Repr

/-- What to do with a number that lies in the middle of two decimals of the shortest length. -/
inductive Tie where
  | up
  | toEven
deriving DecidableEq, Repr

/-- Is `num / den` at least `10 ^ k`? -/
def DecimalDigits.reachesPower (num den : Nat) (k : Int) : Bool :=
  den * Nat.pow 10 k.toNat ≤ num * Nat.pow 10 (-k).toNat

/-- The decimal exponent of a positive quotient: the largest `k` with `10 ^ k ≤ num / den`. -/
def DecimalDigits.ratioLog10 (num den : Nat) : Int :=
  let k : Int := ((Decimal.digits num).length : Int) - (Decimal.digits den).length
  if DecimalDigits.reachesPower num den k then k else k - 1

/-- The digits without zeros at their end. -/
def DecimalDigits.dropZeros (cs : List Char) : List Char :=
  (cs.reverse.dropWhile (· == '0')).reverse

namespace Binary64

/-- Four times the significand, so that the ends of the interval are whole. -/
def center (x : Binary64) : Nat := 4 * x.significand

/-- The lower end of the interval read back as the number, in the unit of `center`.  The gap below
a power of two is half as wide as the gap above it. -/
def lowerEnd (x : Binary64) : Nat :=
  if x.significand = fieldWeight ∧ fieldWeight < x.magnitude then x.center - 1
  else x.center - 2

/-- The upper end of the interval read back as the number, in the unit of `center`. -/
def upperEnd (x : Binary64) : Nat := x.center + 2

/-- The decimal on the grid with `count` digits that is read back as the number, if there is one.
`log10` is the decimal exponent of the number. -/
def onGrid? (x : Binary64) (tie : Tie) (log10 : Int) (count : Nat) : Option Nat :=
  let two := x.exponent - 2
  let ten := log10 - (count : Int) + 1
  let unit := Nat.pow 2 two.toNat * Nat.pow 10 (-ten).toNat
  let step := Nat.pow 10 ten.toNat * Nat.pow 2 (-two).toNat
  let inside (d : Nat) : Bool :=
    if x.significand % 2 = 0 then x.lowerEnd * unit ≤ d * step && d * step ≤ x.upperEnd * unit
    else x.lowerEnd * unit < d * step && d * step < x.upperEnd * unit
  let below := x.center * unit / step
  let rest := x.center * unit % step
  match inside below, inside (below + 1) with
  | false, false => none
  | true, false => some below
  | false, true => some (below + 1)
  | true, true =>
    if 2 * rest < step then some below
    else if step < 2 * rest then some (below + 1)
    else
      match tie with
      | .up => some (below + 1)
      | .toEven => some (if below % 2 = 0 then below else below + 1)

/-- The first grid, from `count` digits on, that holds a decimal read back as the number. -/
def firstGrid (x : Binary64) (tie : Tie) (log10 : Int) : Nat → Nat → DecimalDigits
  | count, 0 => ⟨Decimal.digits x.significand, count⟩
  | count, more + 1 =>
    match x.onGrid? tie log10 count with
    | some d =>
      let written := Decimal.digits d
      ⟨DecimalDigits.dropZeros written, log10 - (count : Int) + 1 + written.length⟩
    | none => firstGrid x tie log10 (count + 1) more

/-- The fewest digits that are read back as a finite number other than zero, and of those the
nearest to it. -/
def shortest (x : Binary64) (tie : Tie) : DecimalDigits :=
  firstGrid x tie (DecimalDigits.ratioLog10 x.numerator x.denominator) 1 17

end Binary64

/-- How a number is written out. -/
structure NumberLayout where
  /-- Which decimal is taken in the middle of two. -/
  tie : Tie
  /-- Is a number with this decimal exponent written without an exponent? -/
  positional : Int → Bool
  /-- What follows a whole number that is written without an exponent. -/
  wholeEnd : List Char
  /-- The text of NaN. -/
  nan : List Char
  /-- The text of positive infinity. -/
  infinity : List Char
  /-- The text of negative infinity. -/
  negativeInfinity : List Char

namespace NumberLayout

/-- Digits written without an exponent. -/
def positionalText (layout : NumberLayout) (d : DecimalDigits) : List Char :=
  if d.point ≤ 0 then
    '0' :: '.' :: (List.replicate (-d.point).toNat '0' ++ d.digits)
  else if d.digits.length ≤ d.point.toNat then
    d.digits ++ List.replicate (d.point.toNat - d.digits.length) '0' ++ layout.wholeEnd
  else
    d.digits.take d.point.toNat ++ '.' :: d.digits.drop d.point.toNat

/-- Digits written with an exponent, whose sign is always written. -/
def exponentText (d : DecimalDigits) : List Char :=
  let e := d.point - 1
  let mantissa :=
    match d.digits with
    | first :: second :: more => first :: '.' :: second :: more
    | few => few
  mantissa ++ 'e' :: (if e < 0 then '-' else '+') :: Decimal.digits e.natAbs

/-- The text of a number. -/
def text (layout : NumberLayout) (x : Binary64) : List Char :=
  if x.isNaN then layout.nan
  else if !x.isFinite then
    if x.isNegative then layout.negativeInfinity else layout.infinity
  else
    let size :=
      if x.isZero then '0' :: layout.wholeEnd
      else
        let d := x.shortest layout.tie
        if layout.positional (d.point - 1) then layout.positionalText d else exponentText d
    if x.isNegative then '-' :: size else size

/-- The text of a number in filters and messages: never an exponent, no point in whole numbers. -/
def plain : NumberLayout where
  tie := .up
  positional := fun _ => true
  wholeEnd := []
  nan := ['N', 'a', 'N']
  infinity := ['i', 'n', 'f']
  negativeInfinity := ['-', 'i', 'n', 'f']

/-- The text of a number in JSON: an exponent below `1e-5` and from `1e16` on, a decimal in whole
numbers, and `null` for what is not finite. -/
def json : NumberLayout where
  tie := .toEven
  positional := fun e => -5 ≤ e && e < 16
  wholeEnd := ['.', '0']
  nan := ['n', 'u', 'l', 'l']
  infinity := ['n', 'u', 'l', 'l']
  negativeInfinity := ['n', 'u', 'l', 'l']

end NumberLayout

end ListingQuery
