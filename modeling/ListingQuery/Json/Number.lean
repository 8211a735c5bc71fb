import ListingQuery.Json.Basic
import ListingQuery.Number.Decimal

/-!
# Numbers in JSON

A number without a fraction and an exponent is an integer if 64 bits hold it, with a sign or
without one; only minus zero is a floating point number.  Every other number is floating point and
is read in a fixed precision: as many leading digits as a 64-bit word holds are taken as an
integer, that integer is rounded, and the result is multiplied or divided by one rounded power of
ten.  The value can therefore differ from the nearest number in its last bit.
-/

namespace ListingQuery.Json

/-- Takes digits onto a number for as long as it stays below `2 ^ 64`. -/
def takeDigits (n : Nat) : List Char → Nat × List Char
  | [] => (n, [])
  | d :: ds =>
    let m := 10 * n + Decimal.digitValue d
    if m < Nat.pow 2 64 then takeDigits m ds else (n, d :: ds)

/-- The binary64 number nearest to a power of ten. -/
def powerOfTen (k : Nat) : Binary64 :=
  Binary64.ofRatio false (Nat.pow 10 k) 1

/-- Multiplies a number by a power of ten with one rounding.  Powers beyond 308 are taken in steps
of 308 when they divide; a number that is too large has no value. -/
def scaleByTen? (x : Binary64) (e : Int) : Option Binary64 :=
  if x.isZero then some x
  else if 308 < e then none
  else if 0 ≤ e then
    let y := x.mul (powerOfTen e.toNat)
    if y.isFinite then some y else none
  else if -308 ≤ e then some (x.div (powerOfTen (-e).toNat))
  else scaleByTen? (x.div (powerOfTen 308)) (e + 308)
termination_by (-e).toNat
decreasing_by omega

/-- The value of a floating point number from its digits and its exponent. -/
def floatOfDigits? (negative : Bool) (whole fraction : List Char) (e : Int) : Option Binary64 :=
  let (n, restOfWhole) := takeDigits 0 whole
  let (m, restOfFraction) := takeDigits n fraction
  let taken := fraction.length - restOfFraction.length
  let point : Int := (restOfWhole.length : Int) - taken
  (scaleByTen? (Binary64.ofInt m) (point + e)).map fun x => if negative then x.neg else x

/-- Reads the digits after `e` or `E`, with a sign if there is one. -/
def exponent? (cs : List Char) : Option Int :=
  match cs with
  | '-' :: rest => (Decimal.plain? rest).map fun n => -(n : Int)
  | '+' :: rest => (Decimal.plain? rest).map fun n => (n : Int)
  | _ => (Decimal.plain? cs).map fun n => (n : Int)

/-- A floating point number with a value, or the mark of one without. -/
def ofFloat? : Option Binary64 → Json
  | some x => .float x
  | none => .unreadable

/-- The value of a number without fraction and exponent. -/
def ofWhole (negative : Bool) (whole : List Char) : Json :=
  let n := Decimal.ofDigits whole
  if !negative && n < Nat.pow 2 64 then .int n
  else if negative && n != 0 && n ≤ Nat.pow 2 63 then .int (-(n : Int))
  else ofFloat? (floatOfDigits? negative whole [] 0)

/-- Reads a number after its sign. -/
def unsigned? (negative : Bool) (cs : List Char) : Option Json :=
  let whole := cs.takeWhile Decimal.isDigit
  let rest := cs.dropWhile Decimal.isDigit
  if whole.isEmpty || (whole.length != 1 && whole.head? == some '0') then none
  else
    match rest with
    | [] => some (ofWhole negative whole)
    | '.' :: more =>
      let fraction := more.takeWhile Decimal.isDigit
      if fraction.isEmpty then none
      else
        match more.dropWhile Decimal.isDigit with
        | [] => some (ofFloat? (floatOfDigits? negative whole fraction 0))
        | c :: power =>
          if c = 'e' ∨ c = 'E' then
            (exponent? power).map fun e => ofFloat? (floatOfDigits? negative whole fraction e)
          else none
    | c :: power =>
      if c = 'e' ∨ c = 'E' then
        (exponent? power).map fun e => ofFloat? (floatOfDigits? negative whole [] e)
      else none

/-- Reads a number. -/
def number? (cs : List Char) : Option Json :=
  match cs with
  | '-' :: rest => unsigned? true rest
  | _ => unsigned? false cs

end ListingQuery.Json
