import ListingQuery.Calendar.Reading
import ListingQuery.Number.Numeral
import ListingQuery.Value.Basic

/-!
# Reading operands

An operand is written as text.  `Value.cast` turns it into a value once, when the query is read.
With a type asked for, the text has to be one of that type, blanks around it apart; a text stays as
it is.  Without one the text is taken as the first of these that it can be: a list in brackets, an
integer, a finite number, a truth value, a date; and else as a text, so that it is always a value.
-/

namespace ListingQuery

/-- A text that is not a value of the type asked for. -/
structure CastError where
  raw : String
  target : ValueType
deriving DecidableEq, Repr

/-- The message of a cast that failed. -/
def CastError.message (e : CastError) : String :=
  "cannot cast \"" ++ e.raw ++ "\" to " ++ e.target.name

namespace Value

/-- Reads `true` or `false` in letters of any case. -/
def readBool? (cs : List Char) : Option Bool :=
  if Text.sameLetters cs ['t', 'r', 'u', 'e'] then some true
  else if Text.sameLetters cs ['f', 'a', 'l', 's', 'e'] then some false
  else none

/-- Reads a text as a value of a given type. -/
def castTo? (target : ValueType) (cs : List Char) : Option Value :=
  match target with
  | .str => some (.str (String.ofList cs))
  | .int => (Decimal.int64? (Text.trim cs)).map .int
  | .float => (Numeral.finite? (Text.trim cs)).map .float
  | .bool => (readBool? (Text.trim cs)).map .bool
  | .date => (Moment.read? (Text.trim cs)).map .date

/-- Reads a text as the first kind of single value that it can be. -/
def inferScalar (cs : List Char) : Value :=
  match Decimal.int64? cs with
  | some i => .int i
  | none =>
    match Numeral.finite? cs with
    | some x => .float x
    | none =>
      match readBool? cs with
      | some b => .bool b
      | none =>
        match Moment.read? cs with
        | some m => .date m
        | none => .str (String.ofList cs)

/-- Reads a text without a type to go by.  The items of a list are single values: brackets inside
brackets are text. -/
def infer (cs : List Char) : Value :=
  match Text.between? '[' ']' cs with
  | some inner =>
    if Text.isAllBlank inner then .list []
    else .list ((inner.splitOn ';').map fun item => inferScalar (Text.trim item))
  | none => inferScalar cs

/-- Reads an operand. -/
def cast (target : Option ValueType) (cs : List Char) : Except CastError Value :=
  match target with
  | none => .ok (infer cs)
  | some t =>
    match castTo? t cs with
    | some v => .ok v
    | none => .error ⟨String.ofList cs, t⟩

end Value

end ListingQuery
