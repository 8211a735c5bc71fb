import ListingQuery.Json.Token

/-!
# Reading JSON

A tree is built from its tokens one at a time.  The builder knows what may come next and keeps, for
every array and object that is still open, what it holds so far and which place waits for a value.
-/

namespace ListingQuery.Json

/-- An open array or object with a place that waits for a value.  What it holds is kept in
reverse; a key without a value is `none`. -/
inductive Frame where
  | item (done : List Json)
  | member (done : List (Option String × Json)) (key : Option String)

/-- What may come next. -/
inductive Builder where
  | value (stack : List Frame)
  | firstItem (stack : List Frame)
  | afterItem (done : List Json) (stack : List Frame)
  | firstKey (stack : List Frame)
  | nextKey (done : List (Option String × Json)) (stack : List Frame)
  | colon (done : List (Option String × Json)) (key : Option String) (stack : List Frame)
  | afterMember (done : List (Option String × Json)) (stack : List Frame)
  | finished (j : Json)

namespace Builder

/-- Puts a finished value where one is waited for. -/
def supply (j : Json) : List Frame → Builder
  | [] => .finished j
  | .item done :: rest => .afterItem (j :: done) rest
  | .member done key :: rest => .afterMember ((key, j) :: done) rest

/-- The keys and values of an object, if every key has a value. -/
def readMembers? : List (Option String × Json) → Option (List (String × Json))
  | [] => some []
  | (some k, j) :: rest => (readMembers? rest).map ((k, j) :: ·)
  | (none, _) :: _ => none

/-- The object with the given members. -/
def closeObject (done : List (Option String × Json)) : Json :=
  match readMembers? done.reverse with
  | some members => .object members
  | none => .unreadable

/-- Begins a value. -/
def begin? (stack : List Frame) : Token → Option Builder
  | .openBracket => some (.firstItem stack)
  | .openBrace => some (.firstKey stack)
  | .str (some s) => some (supply (.str s) stack)
  | .str none => some (supply .unreadable stack)
  | .scalar j => some (supply j stack)
  | _ => none

/-- Takes a token. -/
def step? (b : Builder) (t : Token) : Option Builder :=
  match b, t with
  | .value stack, t => begin? stack t
  | .firstItem stack, .closeBracket => some (supply (.array []) stack)
  | .firstItem stack, t => begin? (.item [] :: stack) t
  | .afterItem done stack, .comma => some (.value (.item done :: stack))
  | .afterItem done stack, .closeBracket => some (supply (.array done.reverse) stack)
  | .firstKey stack, .closeBrace => some (supply (.object []) stack)
  | .firstKey stack, .str key => some (.colon [] key stack)
  | .nextKey done stack, .str key => some (.colon done key stack)
  | .colon done key stack, .colon => some (.value (.member done key :: stack))
  | .afterMember done stack, .comma => some (.nextKey done stack)
  | .afterMember done stack, .closeBrace => some (supply (closeObject done) stack)
  | _, _ => none

/-- The tree, if it is complete. -/
def finish? : Builder → Option Json
  | .finished j => some j
  | _ => none

end Builder

/-- Builds a tree from its tokens. -/
def ofTokens? (tokens : List Token) : Option Json :=
  (tokens.foldlM Builder.step? (.value [])).bind Builder.finish?

/-- Reads a text as one tree. -/
def read? (cs : List Char) : Option Json :=
  (tokens? cs).bind ofTokens?

/-- The deepest nesting of a document. -/
def maxDepth : Nat := 127

/-- Reads a text as a document: everything in it has a value, it is not nested too deep, and of a
repeated key the last value counts. -/
def readDocument? (cs : List Char) : Option Json :=
  match read? cs with
  | none => none
  | some j => if j.isReadable && j.depth ≤ maxDepth then some j.lastWins else none

end ListingQuery.Json
