/-!
# Binary floating point with 64 bits

A number of the format binary64 is its bit pattern.  Everything is computed on the pattern with
exact natural and integer arithmetic:

* `Binary64.ofRatio` rounds a quotient of natural numbers to the nearest number of the format, a
  tie to the even one.  Every other operation that rounds is an exact quotient given to it.
* `Binary64.key` puts the numbers on the integer line, so that order and equality of the format
  are order and equality of integers; both zeros have key zero, and NaN has no place in the order.
-/

namespace ListingQuery

/-- A binary64 number, given by its bits. -/
structure Binary64 where
  bits : UInt64
deriving DecidableEq, Repr, Inhabited

namespace Binary64

/-- The weight of the sign bit. -/
def signWeight : Nat := Nat.pow 2 63

/-- The weight of the last bit of the exponent field. -/
def fieldWeight : Nat := Nat.pow 2 52

/-- The pattern of positive infinity: a full exponent field and no fraction. -/
def infinityPattern : Nat := 2047 * fieldWeight

/-- The bits below the sign bit. -/
def magnitude (x : Binary64) : Nat :=
  x.bits.toNat % signWeight

/-- Is the sign bit set? -/
def isNegative (x : Binary64) : Bool :=
  signWeight ≤ x.bits.toNat

/-- Is the pattern no number at all? -/
def isNaN (x : Binary64) : Bool :=
  infinityPattern < x.magnitude

/-- Is the number neither infinite nor NaN? -/
def isFinite (x : Binary64) : Bool :=
  x.magnitude < infinityPattern

/-- Is the number zero, of either sign? -/
def isZero (x : Binary64) : Bool :=
  x.magnitude == 0

/-- The number with a given sign and given bits below it. -/
def ofParts (negative : Bool) (magnitude : Nat) : Binary64 :=
  ⟨UInt64.ofNat ((if negative then signWeight else 0) + magnitude)⟩

/-- Positive zero. -/
def zero : Binary64 := ofParts false 0

/-- Positive infinity. -/
def infinity : Binary64 := ofParts false infinityPattern

/-- The quiet NaN without a payload. -/
def nan : Binary64 := ofParts false (infinityPattern + fieldWeight / 2)

/-- The number with the other sign. -/
def neg (x : Binary64) : Binary64 :=
  ofParts (!x.isNegative) x.magnitude

/-- The significand of a finite number: its value is `significand * 2 ^ exponent`, sign apart. -/
def significand (x : Binary64) : Nat :=
  let fraction := x.magnitude % fieldWeight
  if x.magnitude / fieldWeight = 0 then fraction else fieldWeight + fraction

/-- The exponent that goes with `significand`. -/
def exponent (x : Binary64) : Int :=
  let field := x.magnitude / fieldWeight
  if field = 0 then -1074 else (field : Int) - 1075

/-! ## Rounding -/

/-- Is `num / den` at least `2 ^ k`? -/
def reachesPower (num den : Nat) (k : Int) : Bool :=
  den * Nat.pow 2 k.toNat ≤ num * Nat.pow 2 (-k).toNat

/-- The binary exponent of a positive quotient: the largest `k` with `2 ^ k ≤ num / den`. -/
def ratioLog2 (num den : Nat) : Int :=
  let k : Int := (num.log2 : Int) - den.log2
  if reachesPower num den k then k else k - 1

/-- The integer nearest to a quotient; of two that are equally near, the even one. -/
def divideToEven (num den : Nat) : Nat :=
  let q := num / den
  let r := num % den
  if den < 2 * r ∨ (2 * r = den ∧ q % 2 = 1) then q + 1 else q

/-- The pattern of the number nearest to a quotient, infinity's where that is too large.  The
significand is rounded on the grid of 53 bits, or on the grid of the smallest numbers; one that is
rounded up to the next power of two carries into the exponent field. -/
def patternOfRatio (num den : Nat) : Nat :=
  if num = 0 then 0
  else
    let e := max (-1074) (ratioLog2 num den - 52)
    let m := divideToEven (num * Nat.pow 2 (-e).toNat) (den * Nat.pow 2 e.toNat)
    min infinityPattern ((e + 1074).toNat * fieldWeight + m)

/-- The number nearest to a quotient, with a sign. -/
def ofRatio (negative : Bool) (num den : Nat) : Binary64 :=
  ofParts negative (patternOfRatio num den)

/-- The number nearest to an integer. -/
def ofInt (i : Int) : Binary64 :=
  ofRatio (decide (i < 0)) i.natAbs 1

/-- The numerator of a finite number's size. -/
def numerator (x : Binary64) : Nat :=
  x.significand * Nat.pow 2 x.exponent.toNat

/-- The denominator of a finite number's size. -/
def denominator (x : Binary64) : Nat :=
  Nat.pow 2 (-x.exponent).toNat

/-- The product of two finite numbers, rounded once. -/
def mul (x y : Binary64) : Binary64 :=
  ofRatio (x.isNegative != y.isNegative)
    (x.numerator * y.numerator) (x.denominator * y.denominator)

/-- The quotient of two finite numbers, rounded once; the divisor is not zero. -/
def div (x y : Binary64) : Binary64 :=
  ofRatio (x.isNegative != y.isNegative)
    (x.numerator * y.denominator) (x.denominator * y.numerator)

/-! ## Order -/

/-- The place of a number on the integer line. -/
def key (x : Binary64) : Int :=
  if x.isNegative then -(x.magnitude : Int) else x.magnitude

/-- The order of two numbers; there is none with NaN. -/
def compare? (x y : Binary64) : Option Ordering :=
  if x.isNaN || y.isNaN then none else some (compare x.key y.key)

/-- Are the numbers equal as numbers?  The two zeros are, NaN equals nothing. -/
def equals (x y : Binary64) : Bool :=
  x.compare? y == some .eq

end Binary64

end ListingQuery
