/-!
# Decimal integers

Digits of a natural number and the number that digits spell, then the two integer grammars of
query texts: an optional sign and at least one ASCII digit.  Leading zeros are allowed, blanks and
separators are not.  A number outside the target's range is refused, never wrapped.
-/

namespace ListingQuery.Decimal

/-- The ASCII digit of a number below ten. -/
def digit (n : Nat) : Char :=
  Char.ofNat (48 + n)

/-- Is the character an ASCII digit? -/
def isDigit (c : Char) : Bool :=
  48 ≤ c.toNat && c.toNat ≤ 57

/-- The value of an ASCII digit. -/
def digitValue (c : Char) : Nat :=
  c.toNat - 48

/-- The decimal digits of a natural number, most significant first; zero is one digit. -/
def digits (n : Nat) : List Char :=
  if n < 10 then [digit n] else digits (n / 10) ++ [digit (n % 10)]
termination_by n

/-- The number that a list of digits spells; no digits spell zero. -/
def ofDigits (cs : List Char) : Nat :=
  cs.foldl (fun n c => 10 * n + digitValue c) 0

/-- The decimal text of an integer, with a minus sign below zero. -/
def ofInt (i : Int) : List Char :=
  if i < 0 then '-' :: digits i.natAbs else digits i.natAbs

/-- Reads at least one digit and nothing else. -/
def plain? (cs : List Char) : Option Nat :=
  if cs.isEmpty || !cs.all isDigit then none else some (ofDigits cs)

/-- Reads a natural number: digits, or `+` and digits. -/
def nat? (cs : List Char) : Option Nat :=
  match cs with
  | '+' :: rest => plain? rest
  | _ => plain? cs

/-- Reads an integer: digits, or a sign and digits. -/
def int? (cs : List Char) : Option Int :=
  match cs with
  | '-' :: rest => (plain? rest).map fun n => -(n : Int)
  | _ => (nat? cs).map Int.ofNat

/-- The integer as a signed 64-bit word, if it is one. -/
def toInt64? (i : Int) : Option Int64 :=
  if Int64.minValue.toInt ≤ i ∧ i ≤ Int64.maxValue.toInt then some (Int64.ofInt i) else none

/-- The natural number as a 64-bit word, if it is one. -/
def toUInt64? (n : Nat) : Option UInt64 :=
  if n < UInt64.size then some (UInt64.ofNat n) else none

/-- The natural number as a 32-bit word, if it is one. -/
def toUInt32? (n : Nat) : Option UInt32 :=
  if n < UInt32.size then some (UInt32.ofNat n) else none

/-- Reads a signed 64-bit integer. -/
def int64? (cs : List Char) : Option Int64 :=
  (int? cs).bind toInt64?

/-- Reads an unsigned 64-bit integer; a minus sign is refused, even before zero. -/
def uint64? (cs : List Char) : Option UInt64 :=
  (nat? cs).bind toUInt64?

/-- Reads an unsigned 32-bit integer. -/
def uint32? (cs : List Char) : Option UInt32 :=
  (nat? cs).bind toUInt32?

/-- The decimal text of a signed 64-bit word. -/
def ofInt64 (i : Int64) : List Char :=
  ofInt i.toInt

/-- The decimal text of a 64-bit word. -/
def ofUInt64 (n : UInt64) : List Char :=
  digits n.toNat

/-- The decimal text of a 32-bit word. -/
def ofUInt32 (n : UInt32) : List Char :=
  digits n.toNat

end ListingQuery.Decimal
