import ListingQuery.Listing.Field
import ListingQuery.QueryError
import ListingQuery.Value.Operator

/-!
# Filters

A filter is a tree of conjunctions, disjunctions and negations over comparisons of a field with an
operand.  It is evaluated from left to right and only as far as needed.  A comparison of kinds that
its operator does not compare is false; a comparison of a field whose section the listing lacks
ends the evaluation with an error.
-/

namespace ListingQuery

/-- A comparison of a field with an operand, which is kept as it was written and as a value. -/
structure Comparison where
  field : Field
  op : Operator
  raw : String
  operand : Value
deriving DecidableEq, Repr

/-- A filter; `always` admits every listing. -/
inductive Filter where
  | always
  | test (c : Comparison)
  | not (f : Filter)
  | and (fs : List Filter)
  | or (fs : List Filter)
deriving Repr, Inhabited

namespace Comparison

/-- The error of a comparison that cannot be made. -/
def failure (c : Comparison) : QueryError :=
  .sieving c.field.name c.op.token c.raw

/-- The verdict of a comparison on a listing. -/
def evaluate (c : Comparison) (l : Listing) : Except QueryError Bool :=
  match c.field.valueIn l with
  | .error _ => .error c.failure
  | .ok value =>
    match c.op.apply value c.operand with
    | .ok verdict => .ok verdict
    | .error _ => .ok false

/-- The text of a comparison; an operand with blanks stands between quotes. -/
def text (c : Comparison) : List Char :=
  let operand := c.raw.toList
  let shown := if operand.any Text.isBlank then '"' :: (operand ++ ['"']) else operand
  c.field.name.toList ++ ' ' :: c.op.token.toList ++ ' ' :: shown

end Comparison

namespace Filter

mutual

/-- The verdict of a filter on a listing. -/
def evaluate (l : Listing) : Filter → Except QueryError Bool
  | always => .ok true
  | test c => c.evaluate l
  | not f => (evaluate l f).map (!·)
  | and fs => evaluateAll l fs
  | or fs => evaluateAny l fs

/-- Does every filter admit the listing?  The first that does not ends the evaluation. -/
def evaluateAll (l : Listing) : List Filter → Except QueryError Bool
  | [] => .ok true
  | f :: fs =>
    match evaluate l f with
    | .error e => .error e
    | .ok false => .ok false
    | .ok true => evaluateAll l fs

/-- Does one of the filters admit the listing?  The first that does ends the evaluation. -/
def evaluateAny (l : Listing) : List Filter → Except QueryError Bool
  | [] => .ok false
  | f :: fs =>
    match evaluate l f with
    | .error e => .error e
    | .ok true => .ok true
    | .ok false => evaluateAny l fs

end

/-- Does the filter admit every listing without a look at it? -/
def isTrivial : Filter → Bool
  | always => true
  | _ => false

mutual

/-- The comparisons of a filter, from left to right. -/
def leaves : Filter → List Comparison
  | always => []
  | test c => [c]
  | not f => leaves f
  | and fs => leavesOfAll fs
  | or fs => leavesOfAll fs

/-- The comparisons of several filters. -/
def leavesOfAll : List Filter → List Comparison
  | [] => []
  | f :: fs => leaves f ++ leavesOfAll fs

end

mutual

/-- The text of a filter, with parentheses around every conjunction and disjunction. -/
def text : Filter → List Char
  | always => ['T', 'R', 'U', 'E']
  | test c => c.text
  | not f => 'N' :: 'O' :: 'T' :: ' ' :: text f
  | and fs => '(' :: (joinedText [' ', 'A', 'N', 'D', ' '] fs ++ [')'])
  | or fs => '(' :: (joinedText [' ', 'O', 'R', ' '] fs ++ [')'])

/-- The texts of several filters with a connective between them. -/
def joinedText (connective : List Char) : List Filter → List Char
  | [] => []
  | [f] => text f
  | f :: g :: rest => text f ++ connective ++ joinedText connective (g :: rest)

end

mutual

/-- Decides whether two filters are the same tree. -/
def decEq : (a b : Filter) → Decidable (a = b)
  | .always, .always => isTrue rfl
  | .test a, .test b => if h : a = b then isTrue (by rw [h]) else isFalse (by simp [h])
  | .not a, .not b =>
    match decEq a b with
    | isTrue h => isTrue (by rw [h])
    | isFalse h => isFalse (by simp [h])
  | .and as, .and bs =>
    match decEqAll as bs with
    | isTrue h => isTrue (by rw [h])
    | isFalse h => isFalse (by simp [h])
  | .or as, .or bs =>
    match decEqAll as bs with
    | isTrue h => isTrue (by rw [h])
    | isFalse h => isFalse (by simp [h])
  | .always, .test _ | .always, .not _ | .always, .and _ | .always, .or _
  | .test _, .always | .test _, .not _ | .test _, .and _ | .test _, .or _
  | .not _, .always | .not _, .test _ | .not _, .and _ | .not _, .or _
  | .and _, .always | .and _, .test _ | .and _, .not _ | .and _, .or _
  | .or _, .always | .or _, .test _ | .or _, .not _ | .or _, .and _ => isFalse (by simp)

/-- Decides whether two lists hold the same filters. -/
def decEqAll : (as bs : List Filter) → Decidable (as = bs)
  | [], [] => isTrue rfl
  | [], _ :: _ => isFalse (by simp)
  | _ :: _, [] => isFalse (by simp)
  | a :: as, b :: bs =>
    match decEq a b, decEqAll as bs with
    | isTrue h, isTrue k => isTrue (by rw [h, k])
    | isFalse h, _ => isFalse (by simp [h])
    | _, isFalse k => isFalse (by simp [k])

end

instance : DecidableEq Filter := decEq

end Filter

end ListingQuery
