import ListingQuery.Json.Basic
import ListingQuery.Listing.Field
import ListingQuery.QueryError
import ListingQuery.Text.Blank

/-!
# Sorting

Listings are sorted by keys, the first key first.  A key takes its value from every listing once.
A missing value is smaller than every other; values of different kinds are ranked by kind, values
of one kind by their own order; a descending key turns its whole order round, missing values
included.  Listings that no key tells apart stay in the order in which they came.

How the rows of key values are sorted is left open: `SortOrder.runBy` takes a `Sorter`, and the
program runs it with merge sort.
-/

namespace ListingQuery

/-- A field to sort by and the direction. -/
structure SortKey where
  field : Field
  descending : Bool
deriving DecidableEq, Repr

/-- The keys to sort by. -/
structure SortOrder where
  keys : List SortKey
deriving DecidableEq, Repr

namespace Value

/-- The rank of a value's kind; the two kinds of numbers have one rank. -/
def rank : Value → Nat
  | .bool _ => 0
  | .int _ | .float _ => 1
  | .date _ => 2
  | .str _ => 3
  | .list _ => 4

/-- The order of two values as keys.  Values of one rank that have no order of their own tie. -/
def keyOrder (a b : Value) : Ordering :=
  (compare a.rank b.rank).then
    (match a, b with
    | .bool p, .bool q => compare p q
    | _, _ => (a.compare? b).getD .eq)

/-- The order of two values as keys, either of which may be missing. -/
def optionalKeyOrder : Option Value → Option Value → Ordering
  | none, none => .eq
  | none, some _ => .lt
  | some _, none => .gt
  | some a, some b => keyOrder a b

end Value

namespace SortKey

/-- Reads `asc` or `desc` in letters of any case; nothing means ascending. -/
def descending? : Option (List Char) → Option Bool
  | none => some false
  | some mode =>
    if Text.sameLetters mode ['a', 's', 'c'] then some false
    else if Text.sameLetters mode ['d', 'e', 's', 'c'] then some true
    else none

/-- Reads a key: a field, and after a colon its direction. -/
def read (cs : List Char) : Except QueryError SortKey :=
  let (name, mode) :=
    match Text.cut? (· == ':') cs with
    | some (name, mode) => (Text.trim name, some (Text.trim mode))
    | none => (Text.trim cs, none)
  match Field.ofName? name with
  | none => .error (.invalidSortingOption (String.ofList name))
  | some field =>
    if !field.isSortable then .error (.invalidSortingOption (String.ofList name))
    else
      match descending? mode with
      | none => .error (.invalidSortingOption (String.ofList (Text.trim cs)))
      | some descending => .ok ⟨field, descending⟩

/-- The text of a key. -/
def text (k : SortKey) : List Char :=
  k.field.name.toList ++ ':' :: (if k.descending then ['d', 'e', 's', 'c'] else ['a', 's', 'c'])

/-- The value of a key in a listing. -/
def valueIn (k : SortKey) (l : Listing) : Except QueryError (Option Value) :=
  match k.field.valueIn l with
  | .ok value => .ok value
  | .error s => .error (.sorting k.field.name s.missingMessage)

/-- The order of two values of the key. -/
def order (k : SortKey) (a b : Option Value) : Ordering :=
  let o := Value.optionalKeyOrder a b
  if k.descending then o.swap else o

/-- A key as JSON. -/
def toJson (k : SortKey) : Json :=
  .object [("field", .str k.field.name), ("descending", .bool k.descending)]

end SortKey

/-- A way to sort items by a comparison of two of them.  It answers in `m`, since it need not come
back: of a comparison that is no order nothing is promised. -/
structure Sorter (m : Type → Type) where
  sort : {α : Type} → (α → α → Ordering) → List α → m (List α)

/-- Merge sort, which always comes back. -/
def Sorter.merge : Sorter Id :=
  ⟨fun order items => items.mergeSort fun a b => (order a b).isLE⟩

namespace SortOrder

/-- No keys: the order in which listings came. -/
def unsorted : SortOrder := ⟨[]⟩

/-- Reads keys between commas; empty ones are skipped. -/
def read (source : String) : Except QueryError SortOrder :=
  (QueryError.traverse SortKey.read
    ((source.toList.splitOn ',').filter fun item => !Text.isAllBlank item)).map SortOrder.mk

/-- The texts of keys with commas between them. -/
def keysText : List SortKey → List Char
  | [] => []
  | [k] => k.text
  | k :: l :: rest => k.text ++ ',' :: keysText (l :: rest)

/-- The text of an order. -/
def text (s : SortOrder) : List Char :=
  keysText s.keys

/-- The order of two rows of key values: the first key that tells them apart decides. -/
def compareRows : List SortKey → List (Option Value) → List (Option Value) → Ordering
  | k :: ks, a :: as, b :: bs => (k.order a b).then (compareRows ks as bs)
  | _, _, _ => .eq

/-- The values of all keys in a listing. -/
def rowOf (s : SortOrder) (l : Listing) : Except QueryError (List (Option Value)) :=
  QueryError.traverse (fun k => k.valueIn l) s.keys

/-- The rows of items, each with its item. -/
def rowsFor {α : Type} (s : SortOrder) (listing : α → Listing) (items : List α) :
    Except QueryError (List (List (Option Value) × α)) :=
  QueryError.traverse (fun a => (s.rowOf (listing a)).map fun row => (row, a)) items

section Sorting

variable {m : Type → Type} {α : Type}

/-- Sorts items by their rows. -/
def sortRowsBy (sorter : Sorter m) (s : SortOrder) (rows : List (List (Option Value) × α)) :
    m (List (List (Option Value) × α)) :=
  sorter.sort (fun a b => compareRows s.keys a.1 b.1) rows

/-- Sorts items by the listings that they stand for, with any sorter. -/
def runBy [Monad m] (sorter : Sorter m) (s : SortOrder) (listing : α → Listing)
    (items : List α) : m (Except QueryError (List α)) :=
  if s.keys.isEmpty then pure (.ok items)
  else
    match s.rowsFor listing items with
    | .error e => pure (.error e)
    | .ok rows => do
      let sorted ← s.sortRowsBy sorter rows
      return .ok (sorted.map (·.2))

/-- Merge sorts items by a row of key values; items whose rows tie keep their order.  Rows with NaN in
them are not ordered, since NaN ties with every number.  A stable sort promises nothing there, so that
the order in which they come out here is this merge sort's own. -/
def sortRows (s : SortOrder) (rows : List (List (Option Value) × α)) :
    List (List (Option Value) × α) :=
  Id.run (s.sortRowsBy .merge rows)

/-- Sorts items by the listings that they stand for. -/
def run (s : SortOrder) (listing : α → Listing) (items : List α) : Except QueryError (List α) :=
  Id.run (s.runBy .merge listing items)

end Sorting

/-- An order as JSON. -/
def toJson (s : SortOrder) : Json :=
  .object [("keys", .array (s.keys.map SortKey.toJson))]

end SortOrder

end ListingQuery
