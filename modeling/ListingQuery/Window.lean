import ListingQuery.Json.Basic

/-!
# Pages

A page is a window of a sequence: with `limit` items on every page, page `p` holds the items from
`p * limit` on, pages being counted from zero.  Without a limit there is one page with everything.
The first position saturates at the largest word, beyond which no sequence reaches.
-/

namespace ListingQuery

/-- A page. -/
structure Window where
  limit : Option UInt64
  page : UInt64
deriving DecidableEq, Repr

namespace Window

/-- Everything on one page. -/
def everything : Window := ⟨none, 0⟩

/-- The product of two words, or the largest word if that is smaller. -/
def saturatingMul (a b : UInt64) : UInt64 :=
  if a.toNat * b.toNat < UInt64.size then a * b else UInt64.ofNat (UInt64.size - 1)

/-- The position of the first item. -/
def offset (w : Window) : UInt64 :=
  match w.limit with
  | none => 0
  | some limit => saturatingMul limit w.page

/-- Is everything on one page? -/
def isNoop (w : Window) : Bool :=
  w.limit.isNone

/-- The items of the page. -/
def run {α : Type} (w : Window) (items : List α) : List α :=
  match w.limit with
  | none => items
  | some limit => (items.drop w.offset.toNat).take limit.toNat

/-- A page as JSON. -/
def toJson (w : Window) : Json :=
  .object [("limit", .ofOption .ofUInt64 w.limit), ("page", .ofUInt64 w.page)]

end Window

end ListingQuery
