import ListingQuery.Calendar.Basic
import ListingQuery.Number.Decimal

/-!
# Writing dates and moments

Years of four digits are written plainly; a year outside 0 to 9999 carries a sign, so that the
text says which it is.  `Moment.text` is the form of filters and messages, to the second;
`Moment.isoText` is the form of data, with a fraction of three, six or nine digits where there is
one.
-/

namespace ListingQuery

namespace Decimal

/-- The digits of a number, with zeros in front up to a width. -/
def padded (width n : Nat) : List Char :=
  let written := digits n
  List.replicate (width - written.length) '0' ++ written

end Decimal

/-- The text of a year. -/
def yearText (year : Int) : List Char :=
  let size := Decimal.padded 4 year.natAbs
  if 0 ≤ year ∧ year ≤ 9999 then size
  else (if year < 0 then '-' else '+') :: size

/-- The text of a date. -/
def Date.text (d : Date) : List Char :=
  yearText d.year ++ '-' :: Decimal.padded 2 d.month ++ '-' :: Decimal.padded 2 d.day

/-- The text of a time of day, to the second. -/
def TimeOfDay.text (t : TimeOfDay) : List Char :=
  Decimal.padded 2 t.hour ++ ':' :: Decimal.padded 2 t.minute ++
    ':' :: Decimal.padded 2 t.writtenSecond

/-- The text of a fraction of a second in groups of three digits, nothing for none. -/
def TimeOfDay.fractionText (t : TimeOfDay) : List Char :=
  if t.fraction = 0 then []
  else if t.fraction % 1000000 = 0 then '.' :: Decimal.padded 3 (t.fraction / 1000000)
  else if t.fraction % 1000 = 0 then '.' :: Decimal.padded 6 (t.fraction / 1000)
  else '.' :: Decimal.padded 9 t.fraction

/-- The text of a moment, to the second. -/
def Moment.text (m : Moment) : List Char :=
  m.date.text ++ 'T' :: m.time.text

/-- The text of a moment in data, with its fraction. -/
def Moment.isoText (m : Moment) : List Char :=
  m.text ++ m.time.fractionText

end ListingQuery
