import ListingQuery.Document.Content
import ListingQuery.Limits
import ListingQuery.Query.Options

/-!
# Queries from documents

A query document is a mapping with the five options of a query and settings of limits under
`config`; an empty document is an empty mapping.  Other keys are refused there, and ignored under
`config` and `paging`; a key that is not ignored must not be repeated.

* `filter` and `attachments` are texts, whatever a plain scalar spells.
* `sort` and `include` are texts or lists of texts; where a plain scalar spells something else than
  a text, they are refused.
* `paging` is a text or a mapping with the integers `limit` and `page`.
-/

namespace ListingQuery

open Document (Node Content Following)

/-- A query as a document gives it. -/
structure QueryDocument where
  options : Options
  limits : LimitsPatch
deriving DecidableEq, Repr

namespace QueryDocument

/-! ## Parts of options -/

/-- An option that is one text or several items. -/
inductive ItemText where
  | one (s : String)
  | many (items : List String)

/-- The text of the option: items are joined with commas. -/
def ItemText.text : ItemText → String
  | .one s => s
  | .many items => String.intercalate "," items

/-- Paging as one text or as two numbers. -/
inductive PagingText where
  | window (limit page : Int64)
  | raw (s : String)

/-- The text of the option. -/
def PagingText.text : PagingText → String
  | .window limit page => String.ofList
      ("limit:".toList ++ Decimal.ofInt64 limit ++ ",page:".toList ++ Decimal.ofInt64 page)
  | .raw s => s

/-- One text or several as the content of a node. -/
def ItemText.ofContent? : Content → Option ItemText
  | .text s => some (.one (String.ofList s))
  | .list items => (items.mapM Content.text?).map fun items => .many (items.map String.ofList)
  | _ => none

/-- The key of a number of paging.  A natural number counts as the position of a key. -/
def pagingKey? : Content → Option String
  | .text s => some (String.ofList s)
  | .natural n => some (if n = 0 then "limit" else if n = 1 then "page" else "")
  | _ => none

/-! ## Mappings by key -/

/-- The values of a key. -/
def valuesOf {α : Type} (key : String) (entries : List (String × α)) : List α :=
  (entries.filter fun entry => entry.1 == key).map (·.2)

/-- Is none of the keys repeated? -/
def isUnique {α : Type} (keys : List String) (entries : List (String × α)) : Bool :=
  keys.all fun key => (valuesOf key entries).length ≤ 1

/-- A number of paging. -/
def pagingNumber? (key : String) (entries : List (String × Content)) : Option Int64 :=
  (valuesOf key entries).head?.bind Content.int64?

/-- Paging as the content of a node. -/
def PagingText.ofContent? : Content → Option PagingText
  | .text s => some (.raw (String.ofList s))
  | .table entries => do
    let entries ← entries.mapM fun entry => (pagingKey? entry.1).map fun key => (key, entry.2)
    if isUnique ["limit", "page"] entries then
      return .window (← pagingNumber? "limit" entries) (← pagingNumber? "page" entries)
    else none
  | _ => none

/-! ## Reading nodes -/

/-- The deepest nesting of a value in a document. -/
def maxDepth : Nat := 127

/-- Reads the text of a scalar, whatever it spells. -/
def readText (d : Document) (node : Node) : Following (List Char) := do
  match ← d.follow node with
  | .scalar _ _ cs => return cs
  | _ => failure

/-- Reads a natural number of 64 bits, which is plain or a literal block with the tag of integers. -/
def readWord (d : Document) (node : Node) : Following UInt64 := do
  match ← d.follow node with
  | .scalar p style cs =>
    if style = .plain ∨ style = .literal ∧ p.tag = some (Document.Tag.standard "int") then
      match Content.integer? cs with
      | some (false, n) => (Decimal.toUInt64? n : Option UInt64)
      | _ => failure
    else failure
  | _ => failure

/-- Reads what the content of a node decides. -/
def readContent {α : Type} (d : Document) (ofContent? : Content → Option α) (node : Node) :
    Following α := do
  (ofContent? (← Content.ofNode d maxDepth node) : Option α)

/-- Is nothing written at a node?  No result: its tag asks for nothing, but something is written. -/
def isNothing? : Node → Option Bool
  | .scalar p .plain cs =>
    match p.tag with
    | none => some (cs.isEmpty || Content.isNull cs)
    | some t =>
      if t = Document.Tag.standard "null" then if Content.isNull cs then some true else none
      else some false
  | _ => some false

/-- Reads a value that may be missing. -/
def readOptional {α : Type} (d : Document) (read : Document → Node → Following α) (node : Node) :
    Following (Option α) := do
  let node ← d.follow node
  if ← (isNothing? node : Option Bool) then return none else return some (← read d node)

/-- Reads the entries of a mapping, in which nothing may be written. -/
def readEntries (d : Document) (node : Node) : Following (List (String × Node)) := do
  match ← d.follow node with
  | .mapping _ entries => entries.mapM fun entry => do
    return (String.ofList (← readText d entry.1), entry.2)
  | .scalar _ .plain [] => return []
  | _ => failure

/-- Reads the value of a key, if it is there. -/
def readKey {α : Type} (d : Document) (entries : List (String × Node)) (key : String)
    (read : Document → Node → Following α) : Following (Option α) :=
  match valuesOf key entries with
  | [] => return none
  | node :: _ => readOptional d read node

/-! ## Reading documents -/

/-- Reads settings of limits. -/
def readLimits (d : Document) (node : Node) : Following LimitsPatch := do
  let entries ← readEntries d node
  if isUnique Limits.keys entries then
    return { filterLength := ← readKey d entries "max_filter_len" readWord
             filterDepth := ← readKey d entries "max_filter_depth" readWord
             filterLeaves := ← readKey d entries "max_filter_leaves" readWord
             negationRun := ← readKey d entries "max_not_chain" readWord
             byteCap := ← readKey d entries "default_byte_cap" readWord
             pageSize := ← readKey d entries "max_page_size" readWord }
  else failure

/-- The keys of a query document. -/
def keys : List String :=
  ["config", "filter", "sort", "paging", "include", "attachments"]

/-- Reads a query from the root of a document. -/
def readRoot (d : Document) : Following QueryDocument := do
  let entries ← readEntries d d.root
  if isUnique keys entries && entries.all (fun entry => keys.contains entry.1) then
    let readItems (d : Document) := readContent d ItemText.ofContent?
    let readPaging (d : Document) := readContent d PagingText.ofContent?
    let limits ← readKey d entries "config" readLimits
    let filter ← readKey d entries "filter" readText
    let sort ← readKey d entries "sort" readItems
    let paging ← readKey d entries "paging" readPaging
    let includes ← readKey d entries "include" readItems
    let attachments ← readKey d entries "attachments" readText
    return { options :=
               { filter := filter.map String.ofList
                 sort := sort.map ItemText.text
                 paging := paging.map PagingText.text
                 attachments := attachments.map String.ofList
                 includes := includes.map ItemText.text }
             limits := limits.getD LimitsPatch.unset }
  else failure

/-- Reads a query document. -/
def read? (s : String) : Option QueryDocument := do
  let d ← Document.read? s
  d.following? (readRoot d)

end QueryDocument

end ListingQuery
