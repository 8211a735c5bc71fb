import ListingQuery.Listing.Json
import ListingQuery.Text.Blank

/-!
# Limits of queries

How long, deep and large a filter may be, the byte cap of attachments where a query sets none, and
the largest page.  The four bounds of filters have ceilings that no setting passes.  Settings come
from environment variables, from query documents, which can only tighten the bounds, and from the
operator's flags, which can also raise them up to the ceilings.
-/

namespace ListingQuery

/-- The limits that a query is checked against. -/
structure Limits where
  /-- The longest filter, in bytes. -/
  filterLength : UInt64
  /-- The deepest nesting of parentheses and negations. -/
  filterDepth : UInt64
  /-- The largest number of conditions. -/
  filterLeaves : UInt64
  /-- The longest run of negations. -/
  negationRun : UInt64
  /-- The byte cap of attachments where the query sets none. -/
  byteCap : Option UInt64
  /-- The largest page. -/
  pageSize : Option UInt64
deriving DecidableEq, Repr

/-- Settings of some of the limits. -/
structure LimitsPatch where
  filterLength : Option UInt64
  filterDepth : Option UInt64
  filterLeaves : Option UInt64
  negationRun : Option UInt64
  byteCap : Option UInt64
  pageSize : Option UInt64
deriving DecidableEq, Repr

namespace LimitsPatch

/-- No settings. -/
def unset : LimitsPatch :=
  ⟨none, none, none, none, none, none⟩

end LimitsPatch

namespace Limits

/-- The ceiling of the filter's length. -/
def maxFilterLength : UInt64 := 65536

/-- The ceiling of the nesting. -/
def maxFilterDepth : UInt64 := 256

/-- The ceiling of the number of conditions. -/
def maxFilterLeaves : UInt64 := 1024

/-- The ceiling of a run of negations. -/
def maxNegationRun : UInt64 := 16

/-- The limits where nothing is set. -/
def standard : Limits :=
  { filterLength := 4096
    filterDepth := 32
    filterLeaves := 128
    negationRun := 4
    byteCap := none
    pageSize := none }

/-- The smaller of two words. -/
def smaller (a b : UInt64) : UInt64 :=
  if a ≤ b then a else b

/-- The limits with the bounds of filters below their ceilings. -/
def clamped (l : Limits) : Limits :=
  { l with
    filterLength := smaller l.filterLength maxFilterLength
    filterDepth := smaller l.filterDepth maxFilterDepth
    filterLeaves := smaller l.filterLeaves maxFilterLeaves
    negationRun := smaller l.negationRun maxNegationRun }

/-- A bound that a setting can only lower. -/
def tightened (bound : UInt64) : Option UInt64 → UInt64
  | none => bound
  | some setting => smaller bound setting

/-- The limits under the settings of a query document, which can only tighten the bounds of
filters. -/
def merged (l : Limits) (patch : LimitsPatch) : Limits :=
  clamped
    { filterLength := tightened l.filterLength patch.filterLength
      filterDepth := tightened l.filterDepth patch.filterDepth
      filterLeaves := tightened l.filterLeaves patch.filterLeaves
      negationRun := tightened l.negationRun patch.negationRun
      byteCap := patch.byteCap <|> l.byteCap
      pageSize := patch.pageSize <|> l.pageSize }

/-- The limits under the settings of the operator, which replace the others. -/
def overridden (l : Limits) (patch : LimitsPatch) : Limits :=
  clamped
    { filterLength := patch.filterLength.getD l.filterLength
      filterDepth := patch.filterDepth.getD l.filterDepth
      filterLeaves := patch.filterLeaves.getD l.filterLeaves
      negationRun := patch.negationRun.getD l.negationRun
      byteCap := patch.byteCap <|> l.byteCap
      pageSize := patch.pageSize <|> l.pageSize }

/-- The number that a variable is set to; one that is no number counts as not set. -/
def settingOf? (lookup : String → Option String) (name : String) : Option UInt64 :=
  (lookup name).bind fun s => Decimal.uint64? (Text.trim s.toList)

/-- The variables that set limits. -/
def variableNames : List String :=
  ["IMMOSIEVE_MAX_FILTER_LEN", "IMMOSIEVE_MAX_FILTER_DEPTH", "IMMOSIEVE_MAX_FILTER_LEAVES",
    "IMMOSIEVE_MAX_NOT_CHAIN", "IMMOSIEVE_ATTACHMENT_BYTE_CAP", "IMMOSIEVE_MAX_PAGE_SIZE"]

/-- The settings of the environment variables. -/
def environmentPatch (lookup : String → Option String) : LimitsPatch :=
  { filterLength := settingOf? lookup "IMMOSIEVE_MAX_FILTER_LEN"
    filterDepth := settingOf? lookup "IMMOSIEVE_MAX_FILTER_DEPTH"
    filterLeaves := settingOf? lookup "IMMOSIEVE_MAX_FILTER_LEAVES"
    negationRun := settingOf? lookup "IMMOSIEVE_MAX_NOT_CHAIN"
    byteCap := settingOf? lookup "IMMOSIEVE_ATTACHMENT_BYTE_CAP"
    pageSize := settingOf? lookup "IMMOSIEVE_MAX_PAGE_SIZE" }

/-- The limits under the environment variables alone. -/
def ofEnvironment (lookup : String → Option String) : Limits :=
  standard.overridden (environmentPatch lookup)

/-! ## JSON -/

/-- The elements of limits and of settings. -/
def keys : List String :=
  ["max_filter_len", "max_filter_depth", "max_filter_leaves", "max_not_chain", "default_byte_cap",
    "max_page_size"]

/-- An optional word as JSON. -/
def wordJson (n : Option UInt64) : Json := Json.ofOption Json.ofUInt64 n

/-- The limits as JSON. -/
def toJson (l : Limits) : Json :=
  .object [("max_filter_len", .ofUInt64 l.filterLength), ("max_filter_depth", .ofUInt64 l.filterDepth),
    ("max_filter_leaves", .ofUInt64 l.filterLeaves), ("max_not_chain", .ofUInt64 l.negationRun),
    ("default_byte_cap", wordJson l.byteCap), ("max_page_size", wordJson l.pageSize)]

/-- Reads limits; what is missing is as where nothing is set.  They are not clamped. -/
def ofJson? (j : Json) : Option Limits :=
  match j.elements? keys with
  | some [filterLength, filterDepth, filterLeaves, negationRun, byteCap, pageSize] => do
    return ⟨← Json.orElse? standard.filterLength Json.uint64? filterLength,
      ← Json.orElse? standard.filterDepth Json.uint64? filterDepth,
      ← Json.orElse? standard.filterLeaves Json.uint64? filterLeaves,
      ← Json.orElse? standard.negationRun Json.uint64? negationRun,
      ← Json.optional? Json.uint64? byteCap, ← Json.optional? Json.uint64? pageSize⟩
  | _ => none

end Limits

namespace LimitsPatch

/-- Settings as JSON. -/
def toJson (p : LimitsPatch) : Json :=
  .object [("max_filter_len", Limits.wordJson p.filterLength),
    ("max_filter_depth", Limits.wordJson p.filterDepth),
    ("max_filter_leaves", Limits.wordJson p.filterLeaves),
    ("max_not_chain", Limits.wordJson p.negationRun),
    ("default_byte_cap", Limits.wordJson p.byteCap), ("max_page_size", Limits.wordJson p.pageSize)]

/-- Reads settings. -/
def ofJson? (j : Json) : Option LimitsPatch :=
  match j.elements? Limits.keys with
  | some [filterLength, filterDepth, filterLeaves, negationRun, byteCap, pageSize] => do
    return ⟨← Json.optional? Json.uint64? filterLength, ← Json.optional? Json.uint64? filterDepth,
      ← Json.optional? Json.uint64? filterLeaves, ← Json.optional? Json.uint64? negationRun,
      ← Json.optional? Json.uint64? byteCap, ← Json.optional? Json.uint64? pageSize⟩
  | _ => none

end LimitsPatch

end ListingQuery
