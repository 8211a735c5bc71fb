import ListingQuery.Text.Lowercase
import ListingQuery.Value.Basic

/-!
# Operators

An operator compares the value of a field, which may be absent, with an operand.  A positive
operator is false of an absent field and a negated one true.  A pair of kinds that an operator does
not compare is a mismatch, which is no verdict at all.

Each of `!=`, `!%`, `∉` and `∌` is the negation of its positive twin, and `∋` is `∈` with the sides
exchanged.
-/

namespace ListingQuery

/-- The operators of conditions. -/
inductive Operator where
  | eq
  | eqCi
  | ne
  | neCi
  | lt
  | le
  | gt
  | ge
  | isIn
  | notIn
  | contains
  | notContains
deriving DecidableEq, Repr

namespace Operator

/-- All operators. -/
def all : List Operator :=
  [.eq, .eqCi, .ne, .neCi, .lt, .le, .gt, .ge, .isIn, .notIn, .contains, .notContains]

/-- The spelling that displayed filters use. -/
def token : Operator → String
  | .eq => "=="
  | .eqCi => "%="
  | .ne => "!="
  | .neCi => "!%"
  | .lt => "<"
  | .le => "<="
  | .gt => ">"
  | .ge => ">="
  | .isIn => "∈"
  | .notIn => "∉"
  | .contains => "∋"
  | .notContains => "∌"

/-- Does the operator take a list of values as its operand? -/
def wantsList : Operator → Bool
  | .isIn | .notIn => true
  | _ => false

/-- Is the operator the negation of another one? -/
def isNegated : Operator → Bool
  | .ne | .neCi | .notIn | .notContains => true
  | _ => false

end Operator

/-- Two kinds of value that an operator does not compare. -/
structure Mismatch where
  op : Operator
  left : String
  right : String
deriving DecidableEq, Repr

/-- The message of a mismatch. -/
def Mismatch.message (m : Mismatch) : String :=
  "operator " ++ m.op.token ++ " cannot compare " ++ m.left ++ " with " ++ m.right

namespace Value

/-- Equality of two texts up to case. -/
def equalUpToCase? : Value → Value → Option Bool
  | .str a, .str b => some (Text.sameUpToCase a b)
  | _, _ => none

/-- Is `needle` a part of `hay`, as a run of characters? -/
def holdsRun (needle : List Char) : List Char → Bool
  | [] => needle.isEmpty
  | c :: cs => needle.isPrefixOf (c :: cs) || holdsRun needle cs

/-- Is the first value an item of the second, or, for two texts, a part of it? -/
def memberOf? : Value → Value → Option Bool
  | needle, .list items => some (items.any fun item => needle.looseEq item)
  | .str needle, .str hay => some (holdsRun needle.toList hay.toList)
  | _, _ => none

end Value

namespace Operator

/-- The verdict on two present values, if their kinds can be compared. -/
def verdict? (op : Operator) (field operand : Value) : Option Bool :=
  match op with
  | .eq => some (field.looseEq operand)
  | .ne => some (!field.looseEq operand)
  | .eqCi => field.equalUpToCase? operand
  | .neCi => (field.equalUpToCase? operand).map (!·)
  | .lt => (field.compare? operand).map (·.isLT)
  | .le => (field.compare? operand).map (·.isLE)
  | .gt => (field.compare? operand).map (·.isGT)
  | .ge => (field.compare? operand).map (·.isGE)
  | .isIn => field.memberOf? operand
  | .notIn => (field.memberOf? operand).map (!·)
  | .contains => operand.memberOf? field
  | .notContains => (operand.memberOf? field).map (!·)

/-- The verdict on a field that may be absent. -/
def apply (op : Operator) (field : Option Value) (operand : Value) : Except Mismatch Bool :=
  match field with
  | none => .ok op.isNegated
  | some value =>
    match op.verdict? value operand with
    | some verdict => .ok verdict
    | none => .error ⟨op, value.kind, operand.kind⟩

end Operator

end ListingQuery
