import ListingQuery.Calendar.Basic
import ListingQuery.Number.Decimal
import ListingQuery.Text.Blank

/-!
# Reading dates and moments

A pattern is a list of parts: numbers, literal characters, optional blanks.  Numbers may stand
after blanks and may have fewer digits than usual; a year with a sign may have more than four.

* `Moment.read?` is the reader of query operands.  It tries six patterns of date and time, then a
  date alone, then the strict internet form with an offset, which is dropped: the moment is the one
  on the wall clock.
* `Date.readIso?` and `Moment.readIso?` are the readers of data: one pattern each, with blanks
  allowed between the parts.
-/

namespace ListingQuery

/-- One part of a pattern. -/
inductive DatePart where
  | year
  | month
  | day
  | hour
  | minute
  | second
  | fraction
  | blanks
  | literal (c : Char)
deriving DecidableEq, Repr

/-- The numbers found so far; one that the pattern does not name is zero. -/
structure DateParts where
  year : Int
  month : Nat
  day : Nat
  hour : Nat
  minute : Nat
  second : Nat
  nanosecond : Nat

namespace DateParts

/-- Nothing found yet. -/
def unset : DateParts := ⟨0, 0, 0, 0, 0, 0, 0⟩

/-- The date that the parts name. -/
def date? (p : DateParts) : Option Date :=
  Date.of? p.year p.month p.day

/-- The moment that the parts name. -/
def moment? (p : DateParts) : Option Moment :=
  match p.date?, TimeOfDay.ofWritten? p.hour p.minute p.second p.nanosecond with
  | some date, some time => some ⟨date, time⟩
  | _, _ => none

/-- Takes the digits at the start of a text, at most `most` of them; there has to be one. -/
def number? (most : Nat) (cs : List Char) : Option (Nat × List Char) :=
  let digits := (cs.takeWhile Decimal.isDigit).take most
  if digits.isEmpty then none else some (Decimal.ofDigits digits, cs.drop digits.length)

/-- Takes exactly `count` digits. -/
def exactNumber? (count : Nat) (cs : List Char) : Option (Nat × List Char) :=
  let digits := cs.take count
  if digits.length = count ∧ digits.all Decimal.isDigit then
    some (Decimal.ofDigits digits, cs.drop count)
  else none

/-- Takes a year: up to four digits, or a sign and any number of digits. -/
def signedYear? (cs : List Char) : Option (Int × List Char) :=
  match cs with
  | '-' :: rest => (number? rest.length rest).map fun r => (-(r.1 : Int), r.2)
  | '+' :: rest => (number? rest.length rest).map fun r => ((r.1 : Int), r.2)
  | _ => (number? 4 cs).map fun r => ((r.1 : Int), r.2)

/-- Takes the digits of a fraction of a second.  Nine of them count, the others are skipped. -/
def nanoseconds? (cs : List Char) : Option (Nat × List Char) :=
  let digits := cs.takeWhile Decimal.isDigit
  if digits.isEmpty then none
  else
    let kept := digits.take 9
    some (Decimal.ofDigits kept * Nat.pow 10 (9 - kept.length), cs.dropWhile Decimal.isDigit)

/-- Takes one part of a pattern. -/
def take? (p : DateParts) (part : DatePart) (cs : List Char) : Option (DateParts × List Char) :=
  let two (set : Nat → DateParts) :=
    (number? 2 (Text.trimStart cs)).map fun r => (set r.1, r.2)
  match part with
  | .year => (signedYear? (Text.trimStart cs)).map fun r => ({ p with year := r.1 }, r.2)
  | .month => two fun n => { p with month := n }
  | .day => two fun n => { p with day := n }
  | .hour => two fun n => { p with hour := n }
  | .minute => two fun n => { p with minute := n }
  | .second => two fun n => { p with second := n }
  | .fraction =>
    match cs with
    | '.' :: rest => (nanoseconds? rest).map fun r => ({ p with nanosecond := r.1 }, r.2)
    | _ => some (p, cs)
  | .blanks => some (p, Text.trimStart cs)
  | .literal c =>
    match cs with
    | [] => none
    | d :: rest => if d = c then some (p, rest) else none

/-- Reads a whole text by a pattern. -/
def read? (p : DateParts) (pattern : List DatePart) (cs : List Char) : Option DateParts :=
  match pattern with
  | [] => if cs.isEmpty then some p else none
  | part :: parts =>
    match p.take? part cs with
    | some (p, rest) => p.read? parts rest
    | none => none

end DateParts

namespace DatePart

/-- Year, month and day with hyphens. -/
def dayPattern : List DatePart :=
  [.year, .literal '-', .month, .literal '-', .day]

/-- Hour and minute with a colon. -/
def minutePattern : List DatePart :=
  [.hour, .literal ':', .minute]

/-- Hour, minute and second with colons. -/
def secondPattern : List DatePart :=
  minutePattern ++ [.literal ':', .second]

/-- The patterns of a date with a time, in the order in which they are tried. -/
def momentPatterns : List (List DatePart) :=
  [ dayPattern ++ .literal 'T' :: secondPattern,
    dayPattern ++ .blanks :: secondPattern,
    dayPattern ++ .literal 'T' :: secondPattern ++ [.fraction],
    dayPattern ++ .blanks :: secondPattern ++ [.fraction],
    dayPattern ++ .literal 'T' :: minutePattern,
    dayPattern ++ .blanks :: minutePattern ]

/-- The pattern of dates in data: blanks may stand after every number. -/
def isoDayPattern : List DatePart :=
  [.year, .blanks, .literal '-', .month, .blanks, .literal '-', .day, .blanks]

/-- The pattern of moments in data. -/
def isoMomentPattern : List DatePart :=
  isoDayPattern ++
    [.literal 'T', .hour, .blanks, .literal ':', .minute, .blanks, .literal ':', .second,
      .fraction, .blanks]

end DatePart

namespace Moment

/-- Reads a text by one pattern of date and time. -/
def readBy? (pattern : List DatePart) (cs : List Char) : Option Moment :=
  (DateParts.unset.read? pattern cs).bind DateParts.moment?

/-- Takes one given character. -/
def expect? (c : Char) (cs : List Char) : Option (List Char) :=
  match cs with
  | [] => none
  | d :: rest => if d = c then some rest else none

/-- Is the text an offset from universal time of less than a day: `Z`, or a sign, hours and
minutes?  The sign may be the minus sign of typography. -/
def isOffset (cs : List Char) : Bool :=
  match cs with
  | ['Z'] | ['z'] => true
  | [sign, h₁, h₂, ':', m₁, m₂] =>
    (sign == '+' || sign == '-' || sign == Char.ofNat 0x2212) &&
      [h₁, h₂, m₁, m₂].all Decimal.isDigit &&
      Decimal.ofDigits [h₁, h₂] < 24 && Decimal.ofDigits [m₁, m₂] < 60
  | _ => false

/-- Reads the strict internet form: four digits of year, two of everything else, a fraction if
there is one, and an offset.  The offset is dropped. -/
def readStrict? (cs : List Char) : Option Moment := do
  let (year, cs) ← DateParts.exactNumber? 4 cs
  let cs ← expect? '-' cs
  let (month, cs) ← DateParts.exactNumber? 2 cs
  let cs ← expect? '-' cs
  let (day, cs) ← DateParts.exactNumber? 2 cs
  let cs ← (expect? 'T' cs <|> expect? 't' cs <|> expect? ' ' cs)
  let (hour, cs) ← DateParts.exactNumber? 2 cs
  let cs ← expect? ':' cs
  let (minute, cs) ← DateParts.exactNumber? 2 cs
  let cs ← expect? ':' cs
  let (second, cs) ← DateParts.exactNumber? 2 cs
  let (nanosecond, cs) ←
    match cs with
    | '.' :: rest => DateParts.nanoseconds? rest
    | _ => some (0, cs)
  if isOffset cs then
    DateParts.moment? ⟨year, month, day, hour, minute, second, nanosecond⟩
  else none

/-- Reads an operand: a date with a time, a date alone, or the strict internet form. -/
def read? (cs : List Char) : Option Moment :=
  match DatePart.momentPatterns.findSome? (readBy? · cs) with
  | some moment => some moment
  | none =>
    match (DateParts.unset.read? DatePart.dayPattern cs).bind DateParts.date? with
    | some date => some (startOf date)
    | none => readStrict? cs

/-- Reads a moment as data write it. -/
def readIso? (cs : List Char) : Option Moment :=
  readBy? DatePart.isoMomentPattern cs

end Moment

/-- Reads a date as data write it. -/
def Date.readIso? (cs : List Char) : Option Date :=
  (DateParts.unset.read? DatePart.isoDayPattern cs).bind DateParts.date?

end ListingQuery
