import ListingQuery.Attachments.Budget
import ListingQuery.Attachments.Selection
import ListingQuery.Window

/-!
# Options of a query

A query is given by up to five texts: filter, sort keys, paging, attachments and includes.  All but
the filter are lists of items between commas, most of them a key and a value with a colon between.

* Includes are names; unknown ones are ignored.
* Paging needs exactly a limit and a page.
* Attachment items set caps, a resolution to scale pictures to, and selectors; a comma inside double
  quotes does not end an item.
-/

namespace ListingQuery

/-- The texts of a query. -/
structure Options where
  filter : Option String
  sort : Option String
  paging : Option String
  attachments : Option String
  includes : Option String
deriving DecidableEq, Repr

namespace Options

/-- No options. -/
def unset : Options :=
  ⟨none, none, none, none, none⟩

/-- The options with one parameter set; an unknown parameter changes nothing. -/
def set (o : Options) (key value : String) : Options :=
  if key = "filter" then { o with filter := some value }
  else if key = "sort" then { o with sort := some value }
  else if key = "paging" then { o with paging := some value }
  else if key = "attachments" then { o with attachments := some value }
  else if key = "include" then { o with includes := some value }
  else o

/-- The options of a list of parameters; a repeated one keeps its last value. -/
def ofParams (params : List (String × String)) : Options :=
  params.foldl (fun o p => o.set p.1 p.2) unset

/-- The options with others laid over them. -/
def overlaid (o upper : Options) : Options :=
  { filter := upper.filter <|> o.filter
    sort := upper.sort <|> o.sort
    paging := upper.paging <|> o.paging
    attachments := upper.attachments <|> o.attachments
    includes := upper.includes <|> o.includes }

/-- The options as JSON. -/
def toJson (o : Options) : Json :=
  .object [("filter", .ofOption .str o.filter), ("sort", .ofOption .str o.sort),
    ("paging", .ofOption .str o.paging), ("attachments", .ofOption .str o.attachments),
    ("include", .ofOption .str o.includes)]

end Options

/-! ## Includes -/

/-- The parts of a listing that are shown only on request. -/
structure Includes where
  freeTexts : Bool
  attachments : Bool
deriving DecidableEq, Repr

namespace Includes

/-- Nothing requested. -/
def nothing : Includes := ⟨false, false⟩

/-- Reads names between commas. -/
def read (source : String) : Includes :=
  let names := (source.toList.splitOn ',').map Text.trim
  ⟨names.contains "freitexte".toList, names.contains "attachments".toList⟩

/-- Includes as JSON. -/
def toJson (i : Includes) : Json :=
  .object [("freitexte", .bool i.freeTexts), ("attachments", .bool i.attachments)]

end Includes

/-! ## Paging -/

namespace Window

/-- The two items of paging. -/
structure Items where
  limit : Option UInt64
  page : Option UInt64

/-- Reads a number of paging: an integer of 64 bits with a sign, which must not be negative. -/
def readNumber (cs : List Char) : Except QueryError UInt64 :=
  let v := Text.trim cs
  match Decimal.int64? v with
  | none => .error (.notAnInteger (String.ofList v))
  | some i =>
    if 0 ≤ i.toInt then .ok (UInt64.ofNat i.toInt.toNat)
    else .error (.invalidPagingOption (String.ofList v))

/-- Reads an item of paging. -/
def readItem (items : Items) (item : List Char) : Except QueryError Items :=
  let (key, value) := (Text.cut? (· == ':') item).getD (item, [])
  let key := Text.trim key
  if key = "limit".toList then
    (readNumber value).map fun n => { items with limit := some n }
  else if key = "page".toList then
    (readNumber value).map fun n => { items with page := some n }
  else .error (.invalidPagingOption (String.ofList key))

/-- Does a number pass a largest one? -/
def passes (n : UInt64) : Option UInt64 → Bool
  | none => false
  | some most => most < n

/-- Reads paging; a limit beyond the largest page is refused. -/
def read (source : String) (pageSize : Option UInt64) : Except QueryError Window :=
  match source.toList.splitOn ',' with
  | [first, second] =>
    match readItem ⟨none, none⟩ first with
    | .error e => .error e
    | .ok items =>
      match readItem items second with
      | .error e => .error e
      | .ok ⟨some limit, some page⟩ =>
        if passes limit pageSize then
          .error (.invalidPagingOption
            (String.ofList ("limit:".toList ++ Decimal.ofUInt64 limit)))
        else .ok ⟨some limit, page⟩
      | .ok _ => .error (.invalidPagingOption source)
  | items => .error (.pagingOptionsCount items.length)

end Window

/-! ## Attachments -/

/-- The resolution that pictures are scaled to. -/
structure Scaling where
  width : UInt32
  height : UInt32
deriving DecidableEq, Repr

namespace Scaling

/-- Reads a side of a resolution, which must not be zero. -/
def side? (cs : List Char) : Option UInt32 :=
  (Decimal.uint32? (Text.trim cs)).filter fun n => n != 0

/-- Reads a resolution: two sides with an `x` between them. -/
def read (cs : List Char) : Except QueryError Scaling :=
  let s := Text.trim cs
  match Text.cut? (fun c => c == 'x' || c == 'X') s with
  | none => .error (.invalidScalingOption (String.ofList s))
  | some (width, height) =>
    match side? width, side? height with
    | some width, some height => .ok ⟨width, height⟩
    | _, _ => .error (.invalidResolution (String.ofList s))

/-- A resolution as JSON. -/
def toJson (s : Scaling) : Json :=
  .object [("width", .ofUInt32 s.width), ("height", .ofUInt32 s.height)]

end Scaling

/-- What the attachments option says. -/
structure AttachmentOptions where
  budget : Budget
  selection : Selection
  scaling : Option Scaling
deriving DecidableEq, Repr

namespace AttachmentOptions

/-- Nothing said. -/
def unset : AttachmentOptions := ⟨Budget.unlimited, .all, none⟩

/-- Cuts a text at the commas outside double quotes.  `item` is the item being read, in reverse. -/
def splitItems (quoted : Bool) (item : List Char) : List Char → List (List Char)
  | [] => [item.reverse]
  | c :: rest =>
    if c = '"' then splitItems (!quoted) (c :: item) rest
    else if c = ',' ∧ quoted = false then item.reverse :: splitItems quoted [] rest
    else splitItems quoted (c :: item) rest

/-- Reads the number of a cap. -/
def readLimit (cs : List Char) : Except QueryError UInt64 :=
  let v := Text.trim cs
  match Decimal.uint64? v with
  | some n => .ok n
  | none => .error (.invalidAttachmentLimit (String.ofList v))

/-- Reads the count cap of a category in an item. -/
def readCount (o : AttachmentOptions) (item key value : List Char) :
    Except QueryError AttachmentOptions :=
  match Category.ofOptionKey? key with
  | none => .error (.invalidAttachmentLimit (String.ofList item))
  | some category =>
    match readLimit value with
    | .error e => .error e
    | .ok n =>
      match Decimal.toUInt32? n.toNat with
      | none => .error (.invalidAttachmentLimit (String.ofList item))
      | some cap => .ok { o with budget := o.budget.withCountCap category cap }

/-- Reads an item that is not blank. -/
def readItem (o : AttachmentOptions) (item : List Char) : Except QueryError AttachmentOptions :=
  match Text.cut? (· == ':') item with
  | none => .error (.invalidAttachmentLimit (String.ofList item))
  | some (key, value) =>
    let key := Text.trim key
    if key = "bytes".toList then
      (readLimit value).map fun n => { o with budget := { o.budget with byteCap := some n } }
    else if key = "scaling".toList then
      if o.scaling.isSome then .error .scalingRepeated
      else (Scaling.read value).map fun s => { o with scaling := some s }
    else if key = "select".toList then
      match Selector.read value with
      | .error e => .error e
      | .ok selector => (o.selection.push selector).map fun s => { o with selection := s }
    else readCount o item key value

/-- Reads items one after the other; blank ones are skipped. -/
def readItems (o : AttachmentOptions) : List (List Char) → Except QueryError AttachmentOptions
  | [] => .ok o
  | item :: items =>
    if Text.isAllBlank item then readItems o items
    else
      match readItem o (Text.trim item) with
      | .error e => .error e
      | .ok o => readItems o items

/-- Reads the attachments option. -/
def read (source : String) : Except QueryError AttachmentOptions :=
  readItems unset (splitItems false [] source.toList)

end AttachmentOptions

end ListingQuery
