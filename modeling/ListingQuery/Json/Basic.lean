import ListingQuery.Number.Binary64

/-!
# JSON trees

A tree holds integers and binary floating point numbers apart: `3` is an integer, `3.0` is not.
Members of an object are kept in the order in which they were written, repeated keys included;
what a repeated key means is for the reader of the object to say.

A scalar may be well formed and still stand for nothing: a number past the largest binary64 number,
or a text with half of a surrogate pair.  It is `unreadable`, and so is an object with such a key.
It does no harm where nobody asks for its value.  A map that is written has to have texts for keys;
else it has no text, and is `unreadable` too.
-/

namespace ListingQuery

/-- A JSON tree. -/
inductive Json where
  | null
  | bool (b : Bool)
  | int (i : Int)
  | float (x : Binary64)
  | str (s : String)
  | array (items : List Json)
  | object (members : List (String × Json))
  | unreadable
deriving Repr, Inhabited

namespace Json

/-- An optional value, `null` for none. -/
def ofOption {α : Type} (write : α → Json) : Option α → Json
  | none => .null
  | some a => write a

/-- A signed word as an integer. -/
def ofInt64 (i : Int64) : Json := .int i.toInt

/-- A word as an integer. -/
def ofUInt64 (n : UInt64) : Json := .int n.toNat

/-- A short word as an integer. -/
def ofUInt32 (n : UInt32) : Json := .int n.toNat

/-- A list of texts. -/
def ofStrings (ss : List String) : Json := .array (ss.map .str)

/-- The members of a map, if all its keys are texts. -/
def members? : List (Json × Json) → Option (List (String × Json))
  | [] => some []
  | (.str key, j) :: entries => (members? entries).map ((key, j) :: ·)
  | _ => none

/-- A map as an object. -/
def ofMap (entries : List (Json × Json)) : Json :=
  (members? entries).elim .unreadable .object

/-- A text, if the tree is one. -/
def str? : Json → Option String
  | .str s => some s
  | _ => none

/-- A truth value, if the tree is one. -/
def bool? : Json → Option Bool
  | .bool b => some b
  | _ => none

/-- A signed 64-bit word, if the tree is an integer in its range. -/
def int64? : Json → Option Int64
  | .int i =>
    if Int64.minValue.toInt ≤ i ∧ i ≤ Int64.maxValue.toInt then some (Int64.ofInt i) else none
  | _ => none

/-- A 64-bit word, if the tree is an integer in its range. -/
def uint64? : Json → Option UInt64
  | .int i => if 0 ≤ i ∧ i < UInt64.size then some (UInt64.ofNat i.toNat) else none
  | _ => none

/-- A 32-bit word, if the tree is an integer in its range. -/
def uint32? : Json → Option UInt32
  | .int i => if 0 ≤ i ∧ i < UInt32.size then some (UInt32.ofNat i.toNat) else none
  | _ => none

/-- A number: a floating point number as it is, an integer rounded to one. -/
def float? : Json → Option Binary64
  | .float x => some x
  | .int i => some (Binary64.ofInt i)
  | _ => none

/-- The items of an array, if the tree is one. -/
def items? : Json → Option (List Json)
  | .array items => some items
  | _ => none

/-- Reads every item of a list, or nothing at all. -/
def readAll? {α : Type} (read? : Json → Option α) : List Json → Option (List α)
  | [] => some []
  | j :: js =>
    match read? j with
    | none => none
    | some a => (readAll? read? js).map (a :: ·)

/-- Reads an array of like items. -/
def list? {α : Type} (read? : Json → Option α) (j : Json) : Option (List α) :=
  j.items?.bind (readAll? read?)

/-- Reads a value that may be `null`. -/
def nullable? {α : Type} (read? : Json → Option α) : Json → Option (Option α)
  | .null => some none
  | j => (read? j).map some

/-- The values of a key, in the order in which they were written. -/
def valuesAt (key : String) (members : List (String × Json)) : List Json :=
  (members.filter fun m => m.1 == key).map (·.2)

mutual

/-- How deep arrays and objects are nested; a scalar has depth zero. -/
def depth : Json → Nat
  | .array items => itemsDepth items + 1
  | .object members => membersDepth members + 1
  | _ => 0

/-- The greatest depth among the items. -/
def itemsDepth : List Json → Nat
  | [] => 0
  | j :: js => max (depth j) (itemsDepth js)

/-- The greatest depth among the values of the members. -/
def membersDepth : List (String × Json) → Nat
  | [] => 0
  | (_, j) :: ms => max (depth j) (membersDepth ms)

end

mutual

/-- Has every part of the tree a value? -/
def isReadable : Json → Bool
  | .unreadable => false
  | .array items => itemsReadable items
  | .object members => membersReadable members
  | _ => true

/-- Have all items a value? -/
def itemsReadable : List Json → Bool
  | [] => true
  | j :: js => isReadable j && itemsReadable js

/-- Have all members a value? -/
def membersReadable : List (String × Json) → Bool
  | [] => true
  | (_, j) :: ms => isReadable j && membersReadable ms

end

mutual

/-- The tree with one member for each key of an object: the one written last. -/
def lastWins : Json → Json
  | .array items => .array (itemsLastWins items)
  | .object members => .object (membersLastWins members)
  | j => j

/-- Every item with one member for each key. -/
def itemsLastWins : List Json → List Json
  | [] => []
  | j :: js => lastWins j :: itemsLastWins js

/-- The members whose key is not written again. -/
def membersLastWins : List (String × Json) → List (String × Json)
  | [] => []
  | (k, j) :: ms =>
    if ms.any (·.1 == k) then membersLastWins ms else (k, lastWins j) :: membersLastWins ms

end

end Json

end ListingQuery
