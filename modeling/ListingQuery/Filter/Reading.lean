import ListingQuery.Filter.Basic
import ListingQuery.Filter.Token
import ListingQuery.Limits
import ListingQuery.Value.Cast

/-!
# Reading filters

A filter is checked against its limits first, on the text and on the tokens, and only then read as
a tree, so that an oversized filter is refused before anything else is said about it.  Negation
binds tighter than `and`, and `and` tighter than `or`; a conjunction or disjunction of one operand
is that operand, and parentheses leave no trace.

The reader recurses on the nesting that is still allowed: each negation and each parenthesis uses
up one level.
-/

namespace ListingQuery

/-! ## Comparisons -/

namespace Comparison

/-- Cuts a text at the first operator outside quotes and lists: what stands before it, the
spelling, and what stands behind it.  `before` is the text already passed, in reverse. -/
def cutAtOperator? (r : Region) (before : List Char) :
    List Char → Option (List Char × Spelling × List Char)
  | [] => none
  | c :: rest =>
    if r.isOpen before c then
      match Spelling.at? (c :: rest) with
      | some s => some (before.reverse, s, (c :: rest).drop s.chars.length)
      | none => cutAtOperator? r (c :: before) rest
    else cutAtOperator? (r.next before c) (c :: before) rest

/-- The first operator of a text, with what stands before and behind it. -/
def operatorIn? (cs : List Char) : Option (List Char × Spelling × List Char) :=
  cutAtOperator? Region.outside [] cs

/-- Takes the quotes off a text, if it stands between two like ones. -/
def unquote (cs : List Char) : List Char × Bool :=
  match Text.between? '"' '"' cs with
  | some inner => (inner, true)
  | none =>
    match Text.between? '\'' '\'' cs with
    | some inner => (inner, true)
    | none => (cs, false)

/-- The items of a list in brackets; empty ones are skipped. -/
def listItems? (cs : List Char) : Option (List (List Char)) :=
  (Text.between? '[' ']' cs).map fun inner =>
    ((inner.splitOn ';').map Text.trim).filter fun item => !item.isEmpty

/-- Casts every item, or nothing at all. -/
def castItems? (t : ValueType) : List (List Char) → Option (List Value)
  | [] => some []
  | item :: items =>
    match Value.castTo? t item with
    | none => none
    | some v => (castItems? t items).map (v :: ·)

/-- The value of an operand.  A quoted operand is a text unless the field asks for a type; a list
for a field with a type has every item cast to it. -/
def operandValue? (field : Field) (op : Operator) (raw : List Char) (quoted : Bool) :
    Option Value :=
  match field.declaredType with
  | none => some (if quoted then .str (String.ofList raw) else Value.infer raw)
  | some t =>
    if !quoted && op.wantsList then
      match listItems? raw with
      | some items => (castItems? t items).map .list
      | none => Value.castTo? t raw
    else Value.castTo? t raw

/-- Reads a fragment as a comparison.  A second operator behind the first means that a connective
is missing, unless the fragment is a single word. -/
def read (cs : List Char) (words : Nat) : Except QueryError Comparison :=
  match operatorIn? cs with
  | none => .error (.invalidFilterOption (String.ofList cs))
  | some (before, spelling, behind) =>
    match spelling.operator with
    | none => .error (.operationNotImplemented (String.ofList spelling.chars))
    | some op =>
      match Field.ofName? (Text.trim before) with
      | none => .error (.invalidFilterOption (String.ofList (Text.trim before)))
      | some field =>
        let rest := Text.trim behind
        if 1 < words ∧ (operatorIn? rest).isSome then
          .error (.malformedFilter
            ("expected AND or OR between conditions in '" ++ String.ofList cs ++ "'"))
        else
          let (raw, quoted) := unquote rest
          match operandValue? field op raw quoted with
          | some operand => .ok ⟨field, op, String.ofList raw, operand⟩
          | none => .error (.sieving field.name op.token (String.ofList raw))

end Comparison

namespace Filter

/-! ## Limits -/

/-- What the check of the limits has counted so far. -/
structure Counts where
  depth : Nat
  deepest : Nat
  negations : Nat
  leaves : Nat

/-- Nothing counted yet. -/
def Counts.zero : Counts := ⟨0, 0, 0, 0⟩

/-- Counts a token. -/
def Counts.add (n : Counts) (t : Token) : Counts :=
  match t with
  | .openParen => ⟨n.depth + 1, max n.deepest (n.depth + 1), 0, n.leaves⟩
  | .closeParen => ⟨n.depth - 1, n.deepest, 0, n.leaves⟩
  | .not => ⟨n.depth, n.deepest, n.negations + 1, n.leaves⟩
  | .fragment _ _ => ⟨n.depth, n.deepest, 0, n.leaves + 1⟩
  | .and | .or => ⟨n.depth, n.deepest, 0, n.leaves⟩

/-- The limit that the counts break, if they break one. -/
def Counts.breach? (n : Counts) (limits : Limits) : Option Breach :=
  if limits.filterDepth.toNat < n.deepest then some (.tooDeep limits.filterDepth.toNat)
  else if limits.negationRun.toNat < n.negations then
    some (.tooManyNegations limits.negationRun.toNat)
  else if limits.filterLeaves.toNat < n.leaves then
    some (.tooManyConditions limits.filterLeaves.toNat)
  else none

/-- The first limit that the tokens break. -/
def firstBreach? (limits : Limits) (n : Counts) : List Token → Option Breach
  | [] => none
  | t :: ts =>
    match (n.add t).breach? limits with
    | some breach => some breach
    | none => firstBreach? limits (n.add t) ts

/-! ## Trees -/

/-- What a reader of the beginning of a token list gives: what was read and the tokens behind. -/
abbrev Reading (α : Type) := Except QueryError (α × List Token)

/-- Reads the operands behind a first one, each after a connective.  There are at most as many as
there are tokens. -/
def readFurther (connective : Token) (operand : List Token → Reading Filter) :
    Nat → List Token → Reading (List Filter)
  | 0, ts => .ok ([], ts)
  | _ + 1, [] => .ok ([], [])
  | n + 1, t :: ts =>
    if t = connective then
      match operand ts with
      | .error e => .error e
      | .ok (f, rest) =>
        match readFurther connective operand n rest with
        | .error e => .error e
        | .ok (fs, rest) => .ok (f :: fs, rest)
    else .ok ([], t :: ts)

/-- Reads one operand or several with a connective between them. -/
def readJoined (connective : Token) (node : List Filter → Filter)
    (operand : List Token → Reading Filter) (ts : List Token) : Reading Filter :=
  match operand ts with
  | .error e => .error e
  | .ok (f, rest) =>
    match readFurther connective operand rest.length rest with
    | .error e => .error e
    | .ok ([], rest) => .ok (f, rest)
    | .ok (g :: fs, rest) => .ok (node (f :: g :: fs), rest)

/-- Reads a disjunction of conjunctions of operands. -/
def readDisjunction (operand : List Token → Reading Filter) : List Token → Reading Filter :=
  readJoined .or .or (readJoined .and .and operand)

/-- Takes the parenthesis that closes a filter. -/
def closeParen (f : Filter) : List Token → Reading Filter
  | .closeParen :: rest => .ok (f, rest)
  | t :: _ => .error (.malformedFilter ("expected ')' but found " ++ t.describe))
  | [] => .error (.malformedFilter "missing ')'")

/-- Reads a comparison, a filter in parentheses, or the negation of one of these.  `levels` is the
nesting that is still allowed out of `limit`. -/
def readOperand (limit : Nat) : Nat → List Token → Reading Filter
  | _, [] => .error (.malformedFilter "expected a condition but the filter ended")
  | 0, .not :: _ => .error (.securityBreach (.tooDeep limit))
  | 0, .openParen :: _ => .error (.securityBreach (.tooDeep limit))
  | levels + 1, .not :: rest =>
    match readOperand limit levels rest with
    | .error e => .error e
    | .ok (f, rest) => .ok (.not f, rest)
  | levels + 1, .openParen :: rest =>
    match readDisjunction (readOperand limit levels) rest with
    | .error e => .error e
    | .ok (f, rest) => closeParen f rest
  | _, .fragment text words :: rest =>
    match Comparison.read text words with
    | .error e => .error e
    | .ok c => .ok (.test c, rest)
  | _, t :: _ => .error (.malformedFilter ("expected a condition but found " ++ t.describe))

/-- Reads all tokens as one filter. -/
def ofTokens (limit : Nat) (ts : List Token) : Except QueryError Filter :=
  match readDisjunction (readOperand limit limit) ts with
  | .error e => .error e
  | .ok (f, []) => .ok f
  | .ok (_, t :: _) => .error (.malformedFilter ("unexpected " ++ t.describe))

/-- Reads a filter under limits, which count only up to their ceilings.  A filter of blanks admits
everything. -/
def read (source : String) (limits : Limits) : Except QueryError Filter :=
  let limits := limits.clamped
  if limits.filterLength.toNat < source.utf8ByteSize then
    .error (.securityBreach (.tooLong source.utf8ByteSize limits.filterLength.toNat))
  else
    match Token.ofText source.toList with
    | .error e => .error e
    | .ok [] => .ok .always
    | .ok (t :: ts) =>
      match firstBreach? limits Counts.zero (t :: ts) with
      | some breach => .error (.securityBreach breach)
      | none => ofTokens limits.filterDepth.toNat (t :: ts)

end Filter

end ListingQuery
