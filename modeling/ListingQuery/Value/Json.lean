import ListingQuery.Json.Basic
import ListingQuery.Value.Operator

/-!
# Values as JSON

A value is written as an object with one member: its kind, and what it is.  Moments are written as
text.
-/

namespace ListingQuery

namespace Value

mutual

/-- A value as JSON. -/
def toJson : Value → Json
  | .int i => .object [("Int", .ofInt64 i)]
  | .float x => .object [("Float", .float x)]
  | .bool b => .object [("Bool", .bool b)]
  | .date m => .object [("Date", .str (String.ofList m.isoText))]
  | .str s => .object [("Str", .str s)]
  | .list items => .object [("List", .array (itemsToJson items))]

/-- Values as JSON, one by one. -/
def itemsToJson : List Value → List Json
  | [] => []
  | v :: vs => toJson v :: itemsToJson vs

end

end Value

/-- The name of an operator in JSON. -/
def Operator.jsonName : Operator → String
  | .eq => "Eq"
  | .eqCi => "EqCi"
  | .ne => "Ne"
  | .neCi => "NeCi"
  | .lt => "Lt"
  | .le => "Le"
  | .gt => "Gt"
  | .ge => "Ge"
  | .isIn => "In"
  | .notIn => "NotIn"
  | .contains => "Contains"
  | .notContains => "NotContains"

end ListingQuery
