import ListingQuery.Filter.Basic
import ListingQuery.Value.Json

/-!
# Filters as JSON

The tree of a filter, node by node.  Fields and operators are written by name, operands both as
they were written and as values.
-/

namespace ListingQuery

/-- A comparison as JSON. -/
def Comparison.toJson (c : Comparison) : Json :=
  .object [("field", .str c.field.name), ("op", .str c.op.jsonName), ("raw", .str c.raw),
    ("operand", c.operand.toJson)]

namespace Filter

mutual

/-- A filter as JSON. -/
def toJson : Filter → Json
  | always => .str "True"
  | test c => .object [("Leaf", c.toJson)]
  | not f => .object [("Not", toJson f)]
  | and fs => .object [("And", .array (allToJson fs))]
  | or fs => .object [("Or", .array (allToJson fs))]

/-- Filters as JSON, one by one. -/
def allToJson : List Filter → List Json
  | [] => []
  | f :: fs => toJson f :: allToJson fs

end

end Filter

end ListingQuery
