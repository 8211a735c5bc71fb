import ListingQuery.Calendar.Writing
import ListingQuery.Number.Shortest

/-!
# Values

A field of a listing and the operand of a condition are values: integers, binary floating point
numbers, truth values, moments, texts, and lists of values.

* `Value.looseEq` is equality across the two kinds of numbers; other kinds equal only themselves.
* `Value.compare?` orders numbers among each other, moments and texts; truth values, lists and
  mixed kinds have no order.
* `Value.text` is the text of a value in filters and messages.
-/

namespace ListingQuery

/-- A typed value. -/
inductive Value where
  | int (i : Int64)
  | float (x : Binary64)
  | bool (b : Bool)
  | date (m : Moment)
  | str (s : String)
  | list (items : List Value)
deriving Repr, Inhabited

/-- The types that a field may ask of the operands it is compared with. -/
inductive ValueType where
  | int
  | float
  | bool
  | date
  | str
deriving DecidableEq, Repr

/-- The name of a type as messages write it. -/
def ValueType.name : ValueType → String
  | .int => "Int"
  | .float => "Float"
  | .bool => "Bool"
  | .date => "Date"
  | .str => "Str"

namespace Value

/-- The name of a value's kind. -/
def kind : Value → String
  | .int _ => "int"
  | .float _ => "float"
  | .bool _ => "bool"
  | .date _ => "date"
  | .str _ => "str"
  | .list _ => "list"

/-- The number as binary floating point, rounded if it is an integer of more than 53 bits. -/
def toBinary64? : Value → Option Binary64
  | .int i => some (Binary64.ofInt i.toInt)
  | .float x => some x
  | _ => none

/-- The text of a text value. -/
def str? : Value → Option String
  | .str s => some s
  | _ => none

mutual

/-- Equality across the two kinds of numbers.  Two integers are compared exactly, a mixed pair
after rounding; lists are equal when they are item by item. -/
def looseEq : Value → Value → Bool
  | .int a, .int b => a == b
  | .int a, .float y => (Binary64.ofInt a.toInt).equals y
  | .float x, .int b => x.equals (Binary64.ofInt b.toInt)
  | .float x, .float y => x.equals y
  | .bool a, .bool b => a == b
  | .date a, .date b => a == b
  | .str a, .str b => a == b
  | .list xs, .list ys => looseEqAll xs ys
  | _, _ => false

/-- Item by item equality of lists of one length. -/
def looseEqAll : List Value → List Value → Bool
  | [], [] => true
  | x :: xs, y :: ys => looseEq x y && looseEqAll xs ys
  | _, _ => false

end

/-- The order of two values of kinds that are ordered with each other. -/
def compare? : Value → Value → Option Ordering
  | .int a, .int b => some (compare a.toInt b.toInt)
  | .int a, .float y => (Binary64.ofInt a.toInt).compare? y
  | .float x, .int b => x.compare? (Binary64.ofInt b.toInt)
  | .float x, .float y => x.compare? y
  | .date a, .date b => some (a.order b)
  | .str a, .str b => some (compare a b)
  | _, _ => none

mutual

/-- The text of a value.  The items of a list stand between brackets, with semicolons. -/
def text : Value → List Char
  | .int i => Decimal.ofInt64 i
  | .float x => NumberLayout.plain.text x
  | .bool true => ['t', 'r', 'u', 'e']
  | .bool false => ['f', 'a', 'l', 's', 'e']
  | .date m => m.text
  | .str s => s.toList
  | .list items => '[' :: (itemsText items ++ [']'])

/-- The texts of the items of a list, with semicolons between them. -/
def itemsText : List Value → List Char
  | [] => []
  | [x] => text x
  | x :: y :: rest => text x ++ ';' :: itemsText (y :: rest)

end

mutual

/-- Decides whether two values are the same: same kind, same bits, same items. -/
def decEq : (a b : Value) → Decidable (a = b)
  | .int a, .int b => if h : a = b then isTrue (by rw [h]) else isFalse (by simp [h])
  | .float a, .float b => if h : a = b then isTrue (by rw [h]) else isFalse (by simp [h])
  | .bool a, .bool b => if h : a = b then isTrue (by rw [h]) else isFalse (by simp [h])
  | .date a, .date b => if h : a = b then isTrue (by rw [h]) else isFalse (by simp [h])
  | .str a, .str b => if h : a = b then isTrue (by rw [h]) else isFalse (by simp [h])
  | .list a, .list b =>
    match decEqAll a b with
    | isTrue h => isTrue (by rw [h])
    | isFalse h => isFalse (by simp [h])
  | .int _, .float _ | .int _, .bool _ | .int _, .date _ | .int _, .str _ | .int _, .list _
  | .float _, .int _ | .float _, .bool _ | .float _, .date _ | .float _, .str _
  | .float _, .list _ | .bool _, .int _ | .bool _, .float _ | .bool _, .date _ | .bool _, .str _
  | .bool _, .list _ | .date _, .int _ | .date _, .float _ | .date _, .bool _ | .date _, .str _
  | .date _, .list _ | .str _, .int _ | .str _, .float _ | .str _, .bool _ | .str _, .date _
  | .str _, .list _ | .list _, .int _ | .list _, .float _ | .list _, .bool _ | .list _, .date _
  | .list _, .str _ => isFalse (by simp)

/-- Decides whether two lists hold the same values. -/
def decEqAll : (as bs : List Value) → Decidable (as = bs)
  | [], [] => isTrue rfl
  | [], _ :: _ => isFalse (by simp)
  | _ :: _, [] => isFalse (by simp)
  | a :: as, b :: bs =>
    match decEq a b, decEqAll as bs with
    | isTrue h, isTrue k => isTrue (by rw [h, k])
    | isFalse h, _ => isFalse (by simp [h])
    | _, isFalse k => isFalse (by simp [k])

end

instance : DecidableEq Value := decEq

end Value

end ListingQuery
