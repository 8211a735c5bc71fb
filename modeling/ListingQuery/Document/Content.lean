import ListingQuery.Document.Basic
import ListingQuery.Number.Numeral

/-!
# Contents of nodes

Where a document may hold a text or something else, the content of a node decides.  A quoted scalar
is a text; a plain one is nothing, a truth value, a number or a text, as it is written.  A tag can
ask for one of these.  Tags of the document's own have no content, and neither have integers beyond
64 bits.
-/

namespace ListingQuery.Document

/-- What a node holds.  The value of a fraction never matters. -/
inductive Content where
  | nothing
  | bool (b : Bool)
  | natural (n : UInt64)
  | negative (i : Int64)
  | fraction
  | text (s : List Char)
  | list (items : List Content)
  | table (entries : List (Content × Content))

namespace Content

/-- Do the characters spell that there is nothing? -/
def isNull (cs : List Char) : Bool :=
  ["null", "Null", "NULL", "~"].contains (String.ofList cs)

/-- Reads a truth value. -/
def bool? (cs : List Char) : Option Bool :=
  if ["true", "True", "TRUE"].contains (String.ofList cs) then some true
  else if ["false", "False", "FALSE"].contains (String.ofList cs) then some false
  else none

/-- Is the text a zero and further digits, with or without a sign?  Such a text is no number. -/
def isPadded (cs : List Char) : Bool :=
  match (Numeral.takeSign cs).2 with
  | '0' :: rest => !rest.isEmpty && rest.all Decimal.isDigit
  | _ => false

/-- Reads at least one digit in a base up to sixteen. -/
def inBase? (base : Nat) (cs : List Char) : Option Nat :=
  if cs.isEmpty then none
  else cs.foldlM (fun n c => ((Json.hexValue? c).filter (· < base)).map fun v => n * base + v) 0

/-- Reads the digits of an integer: decimal ones, or others behind the mark of their base. -/
def magnitude? (cs : List Char) : Option Nat :=
  match cs with
  | '0' :: 'x' :: rest => inBase? 16 rest
  | '0' :: 'o' :: rest => inBase? 8 rest
  | '0' :: 'b' :: rest => inBase? 2 rest
  | _ => if isPadded cs then none else inBase? 10 cs

/-- Reads an integer: whether it has a minus sign, and its magnitude. -/
def integer? (cs : List Char) : Option (Bool × Nat) :=
  let (isNegative, unsigned) := Numeral.takeSign cs
  (magnitude? unsigned).map fun n => (isNegative, n)

/-- Does the text spell a number that need not be an integer? -/
def isFraction (cs : List Char) : Bool :=
  [".inf", ".Inf", ".INF", "+.inf", "+.Inf", "+.INF", "-.inf", "-.Inf", "-.INF", ".nan", ".NaN",
    ".NAN"].contains (String.ofList cs) || (Numeral.finite? cs).isSome

/-- The content of an integer; one that needs more than 64 bits has none.  No result: it needs more
than 128 bits and counts as no integer. -/
def ofInteger? (isNegative : Bool) (n : Nat) : Option (Option Content) :=
  if isNegative then
    if n ≤ Nat.pow 2 63 then some (some (.negative (Int64.ofInt (-n))))
    else if n ≤ Nat.pow 2 127 then some none
    else none
  else if n < Nat.pow 2 64 then some (some (.natural (UInt64.ofNat n)))
  else if n < Nat.pow 2 128 then some none
  else none

/-- The content of a text if it is an integer. -/
def integerContent? (cs : List Char) : Option (Option Content) :=
  (integer? cs).bind fun i => ofInteger? i.1 i.2

/-- The content of a plain scalar. -/
def ofPlain? (cs : List Char) : Option Content :=
  if cs.isEmpty || isNull cs then some .nothing
  else
    match bool? cs with
    | some b => some (.bool b)
    | none =>
      match integerContent? cs with
      | some content => content
      | none => some (if !isPadded cs && isFraction cs then .fraction else .text cs)

/-- Is the tag one of the document's own, which begin with an exclamation mark? -/
def isOwnTag (t : Tag) : Bool :=
  match t with
  | [] => false
  | b :: rest => b == octet '!' && (String.fromUTF8? ⟨rest.toArray⟩).isSome

/-- The content of a scalar. -/
def ofScalar? (p : Properties) (style : Style) (cs : List Char) : Option Content :=
  match p.tag with
  | none => if style = .plain then ofPlain? cs else some (.text cs)
  | some t =>
    if isOwnTag t then none
    else if t = Tag.standard "bool" then (bool? cs).map .bool
    else if t = Tag.standard "int" then (integerContent? cs).join
    else if t = Tag.standard "float" then if isFraction cs then some .fraction else none
    else if t = Tag.standard "null" then if isNull cs then some .nothing else none
    else if t.head? = some (octet '!') ∧ style = .plain then ofPlain? cs
    else some (.text cs)

/-- The content of a node, in which collections are nested at most `depth` deep. -/
def ofNode (d : Document) : Nat → Node → Following Content
  | depth, node => do
    match ← d.follow node with
    | .alias _ => failure
    | .scalar p style cs => (ofScalar? p style cs : Option Content)
    | .sequence p items =>
      match depth with
      | 0 => failure
      | depth + 1 =>
        if p.tag.any isOwnTag then failure
        else return .list (← items.mapM (ofNode d depth))
    | .mapping p entries =>
      match depth with
      | 0 => failure
      | depth + 1 =>
        if p.tag.any isOwnTag then failure
        else return .table (← entries.mapM fun entry => do
          return (← ofNode d depth entry.1, ← ofNode d depth entry.2))

/-- The text that a content is. -/
def text? : Content → Option (List Char)
  | .text s => some s
  | _ => none

/-- The signed integer that a content is. -/
def int64? : Content → Option Int64
  | .natural n => Decimal.toInt64? n.toNat
  | .negative i => some i
  | _ => none

end Content

end ListingQuery.Document
