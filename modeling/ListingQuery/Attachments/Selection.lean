import ListingQuery.Json.Basic
import ListingQuery.Listing.Attachment
import ListingQuery.QueryError

/-!
# Selecting attachments

Attachments can be selected by position, by title or by group.  Selectors of one kind add up;
selectors of two kinds conflict.
-/

namespace ListingQuery

/-- One way to select attachments. -/
inductive Selector where
  | index (position : UInt64)
  | title (title : String)
  | group (group : AttachmentGroup)
deriving DecidableEq, Repr

/-- What is selected; `all` says that nothing was selected explicitly. -/
inductive Selection where
  | all
  | indexes (positions : List UInt64)
  | titles (titles : List String)
  | groups (groups : List AttachmentGroup)
deriving DecidableEq, Repr

namespace Selector

/-- The kind of a selector as messages name it. -/
def kind : Selector → String
  | index _ => "index"
  | title _ => "title"
  | group _ => "group"

/-- Reads a selector: `%` and a group, a title between double quotes, or a position. -/
def read (cs : List Char) : Except QueryError Selector :=
  let refused : QueryError := .invalidAttachmentSelection (String.ofList cs)
  let s := Text.trim cs
  match s with
  | '%' :: name =>
    match AttachmentGroup.read? name with
    | some g => .ok (group g)
    | none => .error refused
  | _ =>
    match Text.between? '"' '"' s with
    | some t => .ok (title (String.ofList t))
    | none =>
      match (Decimal.plain? s).bind Decimal.toUInt64? with
      | some n => .ok (index n)
      | none => .error refused

/-- Does the selector match the attachment at a position? -/
def selects (s : Selector) (position : Nat) (a : Attachment) : Bool :=
  match s with
  | index n => n.toNat == position
  | title t => a.title == some t
  | group g => a.group == some g

/-- A selector as JSON. -/
def toJson : Selector → Json
  | index n => .object [("Index", .ofUInt64 n)]
  | title t => .object [("Title", .str t)]
  | group g => .object [("Group", .str g.name)]

end Selector

namespace Selection

/-- Was anything selected explicitly? -/
def isExplicit : Selection → Bool
  | all => false
  | _ => true

/-- Adds a selector, which has to be of the kind of those before. -/
def push (s : Selection) (selector : Selector) : Except QueryError Selection :=
  match s, selector with
  | all, .index n => .ok (indexes [n])
  | all, .title t => .ok (titles [t])
  | all, .group g => .ok (groups [g])
  | indexes ns, .index n => .ok (indexes (ns ++ [n]))
  | titles ts, .title t => .ok (titles (ts ++ [t]))
  | groups gs, .group g => .ok (groups (gs ++ [g]))
  | _, other => .error (.conflictingSelection other.kind)

/-- Offers a selector: the answer, and what is selected then.  The first selector takes the place of
`all`, and others of its kind go behind it. -/
def offer (s : Selection) (selector : Selector) : Except QueryError Unit × Selection :=
  match s, selector with
  | all, .index n => (.ok (), indexes [n])
  | all, .title t => (.ok (), titles [t])
  | all, .group g => (.ok (), groups [g])
  | indexes ns, .index n => (.ok (), indexes (ns ++ [n]))
  | titles ts, .title t => (.ok (), titles (ts ++ [t]))
  | groups gs, .group g => (.ok (), groups (gs ++ [g]))
  | kept, other => (.error (.conflictingSelection other.kind), kept)

/-- Is the attachment at a position selected? -/
def selects (s : Selection) (position : Nat) (a : Attachment) : Bool :=
  match s with
  | all => true
  | indexes ns => ns.any fun n => n.toNat == position
  | titles ts =>
    match a.title with
    | none => false
    | some t => ts.contains t
  | groups gs =>
    match a.group with
    | none => false
    | some g => gs.contains g

/-- A selection as JSON. -/
def toJson : Selection → Json
  | all => .str "All"
  | indexes ns => .object [("Indexes", .array (ns.map .ofUInt64))]
  | titles ts => .object [("Titles", .ofStrings ts)]
  | groups gs => .object [("Groups", .array (gs.map fun g => .str g.name))]

end Selection

end ListingQuery
