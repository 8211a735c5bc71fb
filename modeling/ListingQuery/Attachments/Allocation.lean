import ListingQuery.Attachments.Budget
import ListingQuery.Attachments.Ledger
import ListingQuery.Attachments.Selection

/-!
# Allocating attachments

Every attachment of a listing gets one decision.  With an explicit selection the selected ones ship
and nothing is charged.  Otherwise attachments that lie with somebody else ship uncharged, and the
others are charged category by category, in the order of the categories, and in the order of the
list within a category.  The first attachment that breaks a cap closes its category.  Bytes are
shared by all categories.
-/

namespace ListingQuery

/-- What becomes of an attachment, and why. -/
inductive Verdict where
  | selected
  | notSelected
  | whitelisted
  | admitted
  | byteCapReached
  | countCapReached
  | categoryClosed
deriving DecidableEq, Repr

namespace Verdict

/-- Does the attachment ship? -/
def ships : Verdict → Bool
  | selected | whitelisted | admitted => true
  | notSelected | byteCapReached | countCapReached | categoryClosed => false

/-- The name of a verdict. -/
def name : Verdict → String
  | selected => "selected"
  | notSelected => "not_selected"
  | whitelisted => "whitelisted"
  | admitted => "admitted"
  | byteCapReached => "byte_cap_reached"
  | countCapReached => "count_cap_reached"
  | categoryClosed => "category_closed"

end Verdict

/-- The decision on the attachment at a position. -/
structure Decision where
  index : Nat
  category : Category
  verdict : Verdict
deriving DecidableEq, Repr

/-- The decisions on all attachments of a listing, and the bytes charged and left. -/
structure Allocation where
  decisions : List Decision
  bytesUsed : UInt64
  bytesRemaining : Option UInt64
deriving DecidableEq, Repr

namespace Allocation

/-- The positions of the attachments that ship, ascending. -/
def shipped (a : Allocation) : List Nat :=
  (a.decisions.filter (·.verdict.ships)).map (·.index)

/-- The attachments that ship. -/
def pick {α : Type} (a : Allocation) (attachments : List α) : List α :=
  a.shipped.filterMap fun i => attachments[i]?

/-- The decision on a selected attachment, or on one that is not. -/
def decisionBySelection (selection : Selection) (a : Attachment) (index : Nat) : Decision :=
  ⟨index, a.category, if selection.selects index a then .selected else .notSelected⟩

/-- The state of a walk over one category. -/
structure Walk where
  bytes : Ledger
  count : Ledger
  closed : Bool

/-- The verdict on the next attachment of the category, and the state behind it. -/
def Walk.next (w : Walk) (a : Attachment) : Verdict × Walk :=
  if w.closed then (.categoryClosed, w)
  else if !w.count.fits 1 then (.countCapReached, { w with closed := true })
  else if !w.bytes.fits a.sizeBytes then (.byteCapReached, { w with closed := true })
  else (.admitted, { w with bytes := w.bytes.acquire a.sizeBytes, count := w.count.acquire 1 })

/-- Walks over the attachments of one category that are charged; the other decisions stay. -/
def serve (c : Category) (w : Walk) : List (Attachment × Decision) →
    List (Attachment × Decision) × Walk
  | [] => ([], w)
  | (a, d) :: rest =>
    if d.category = c ∧ a.isRemote = false then
      let (verdict, w) := w.next a
      let (rest, w) := serve c w rest
      ((a, { d with verdict := verdict }) :: rest, w)
    else
      let (rest, w) := serve c w rest
      ((a, d) :: rest, w)

/-- Serves categories one after the other from one ledger of bytes. -/
def serveAll (budget : Budget) (bytes : Ledger) (rows : List (Attachment × Decision)) :
    List Category → List (Attachment × Decision) × Ledger
  | [] => (rows, bytes)
  | c :: cs =>
    let count := Ledger.new ((budget.countCap c).map UInt32.toUInt64)
    let (rows, w) := serve c ⟨bytes, count, false⟩ rows
    serveAll budget w.bytes rows cs

/-- The attachments with the decision that stands where nothing is charged. -/
def uncharged (attachments : List Attachment) : List (Attachment × Decision) :=
  attachments.zipIdx.map fun p => (p.1, ⟨p.2, p.1.category, .whitelisted⟩)

/-- The allocation of a listing's attachments. -/
def of (attachments : List Attachment) (selection : Selection) (budget : Budget) :
    Except QueryError Allocation :=
  if selection.isExplicit then
    .ok ⟨attachments.zipIdx.map fun p => decisionBySelection selection p.1 p.2, 0, none⟩
  else
    budget.validate.map fun _ =>
      let (rows, bytes) :=
        serveAll budget (Ledger.new budget.byteCap) (uncharged attachments) Category.all
      ⟨rows.map (·.2), bytes.used, bytes.remaining⟩

end Allocation

end ListingQuery
