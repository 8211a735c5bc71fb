import ListingQuery.Json.Basic
import ListingQuery.Listing.Attachment
import ListingQuery.QueryError

/-!
# Budgets of attachments

A budget caps the bytes of all attachments together and the number of attachments of a category.
A budget without any cap limits nothing and is refused.
-/

namespace ListingQuery

/-- The caps of one listing's attachments: bytes, and a count for every category. -/
structure Budget where
  byteCap : Option UInt64
  pictures : Option UInt32
  floorplans : Option UInt32
  documents : Option UInt32
  others : Option UInt32
deriving DecidableEq, Repr

namespace Budget

/-- A budget with a byte cap alone. -/
def ofBytes (byteCap : Option UInt64) : Budget :=
  ⟨byteCap, none, none, none, none⟩

/-- The budget without caps. -/
def unlimited : Budget := ofBytes none

/-- The count cap of a category. -/
def countCap (b : Budget) : Category → Option UInt32
  | .picture => b.pictures
  | .floorplan => b.floorplans
  | .document => b.documents
  | .other => b.others

/-- The budget with the count cap of a category set. -/
def withCountCap (b : Budget) (c : Category) (cap : UInt32) : Budget :=
  match c with
  | .picture => { b with pictures := some cap }
  | .floorplan => { b with floorplans := some cap }
  | .document => { b with documents := some cap }
  | .other => { b with others := some cap }

/-- The count caps that are set, in the order of the categories. -/
def countCaps (b : Budget) : List (Category × UInt32) :=
  Category.all.filterMap fun c => (b.countCap c).map fun cap => (c, cap)

/-- Is any cap set? -/
def isLimited (b : Budget) : Bool :=
  b.byteCap.isSome || !b.countCaps.isEmpty

/-- Refuses a budget without caps. -/
def validate (b : Budget) : Except QueryError Unit :=
  if b.isLimited then .ok () else .error .invalidLimiting

/-- A budget as JSON; count caps that are not set are left out. -/
def toJson (b : Budget) : Json :=
  .object [("byte_cap", .ofOption .ofUInt64 b.byteCap),
    ("count_caps", .ofMap (b.countCaps.map fun cap => (.str cap.1.name, .ofUInt32 cap.2)))]

end Budget

end ListingQuery
