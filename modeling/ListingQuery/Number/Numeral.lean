import ListingQuery.Number.Binary64
import ListingQuery.Number.Decimal

/-!
# Decimal numerals

A numeral is a sign, digits before and after a point, and a power of ten, as `-12.5e3`.  There has
to be a digit on one side of the point; the point, the exponent and either sign may be missing.
The value of a numeral is rounded once, to the nearest binary64 number.
-/

namespace ListingQuery

/-- The parts of a decimal numeral as it is written. -/
structure Numeral where
  negative : Bool
  whole : List Char
  fraction : List Char
  exponent : Int
deriving DecidableEq, Repr

namespace Numeral

/-- Takes a sign off a text; without one the number is positive. -/
def takeSign (cs : List Char) : Bool × List Char :=
  match cs with
  | '-' :: rest => (true, rest)
  | '+' :: rest => (false, rest)
  | _ => (false, cs)

/-- Reads what follows the digits: nothing, or `e` or `E`, a sign if there is one, and digits. -/
def exponent? (cs : List Char) : Option Int :=
  match cs with
  | [] => some 0
  | c :: rest =>
    if c = 'e' ∨ c = 'E' then
      let (negative, digits) := takeSign rest
      (Decimal.plain? digits).map fun n => if negative then -(n : Int) else n
    else none

/-- Reads a numeral. -/
def read? (cs : List Char) : Option Numeral :=
  let (negative, unsigned) := takeSign cs
  let whole := unsigned.takeWhile Decimal.isDigit
  let afterWhole := unsigned.dropWhile Decimal.isDigit
  let (fraction, afterFraction) :=
    match afterWhole with
    | '.' :: rest => (rest.takeWhile Decimal.isDigit, rest.dropWhile Decimal.isDigit)
    | _ => ([], afterWhole)
  if whole.isEmpty && fraction.isEmpty then none
  else (exponent? afterFraction).map fun e => ⟨negative, whole, fraction, e⟩

/-- All digits of the numeral as one integer. -/
def significand (n : Numeral) : Nat :=
  Decimal.ofDigits (n.whole ++ n.fraction)

/-- The power of ten by which the significand is multiplied. -/
def scale (n : Numeral) : Int :=
  n.exponent - n.fraction.length

/-- The value of a numeral, rounded once.  A value of more than 310 places before the point is
beyond the largest number, one that begins 330 places after the point is nearest to zero. -/
def toBinary64 (n : Numeral) : Binary64 :=
  let m := n.significand
  let top := n.scale + (Decimal.digits m).length
  if m = 0 ∨ top < -330 then Binary64.ofParts n.negative 0
  else if 310 < top then Binary64.ofParts n.negative Binary64.infinityPattern
  else Binary64.ofRatio n.negative (m * Nat.pow 10 n.scale.toNat) (Nat.pow 10 (-n.scale).toNat)

/-- Reads a numeral whose value is finite. -/
def finite? (cs : List Char) : Option Binary64 :=
  match read? cs with
  | none => none
  | some n => if n.toBinary64.isFinite then some n.toBinary64 else none

end Numeral

end ListingQuery
