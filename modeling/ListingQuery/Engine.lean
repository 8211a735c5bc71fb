import ListingQuery.Attachments.Allocation
import ListingQuery.Digest
import ListingQuery.Listing.Json
import ListingQuery.Query.Plan

/-!
# Running a plan

A plan is run over a list of listings in three stages: the filter admits listings, the keys sort
them, the window cuts out a page.  Then the attachments of every listing on the page are chosen.  A
fault in any listing that a stage looks at ends the run without a result.

A stage that would change nothing is skipped.  `Plan.runBy` is the run with any sorter and `Plan.run`
the run of the program, which merge sorts; `Plan.execute` digests the plan and the outcome as well.
-/

namespace ListingQuery

/-- A listing on the page: its position in the input, and the positions of its attachments that
ship. -/
structure Hit where
  position : Nat
  listing : Listing
  attachments : List Nat
deriving DecidableEq, Repr

/-- What a run gives: the hits, and how many listings went in and were admitted. -/
structure Outcome where
  hits : List Hit
  recordsIn : Nat
  recordsMatched : Nat
deriving DecidableEq, Repr

/-- A stage of a run: what it is called, whether it would change nothing, and what it makes of a list
of items. -/
structure Stage (m : Type → Type) (α : Type) where
  name : String
  isNoop : Bool
  run : List α → m (Except QueryError (List α))

/-- What a run holds between two stages: the items that are left, and how many the filter admitted. -/
structure Stream (α : Type) where
  items : List α
  matched : Nat

namespace Stage

variable {m : Type → Type} [Monad m] {α : Type}

/-- Runs stages one after the other, and skips those that would change nothing.  What comes out of the
filter is counted. -/
def runAll : List (Stage m α) → Stream α → m (Except QueryError (Stream α))
  | [], stream => pure (.ok stream)
  | s :: stages, stream =>
    if s.isNoop then runAll stages stream
    else
      QueryError.andThen (s.run stream.items) fun items =>
        runAll stages ⟨items, if s.name = "sieve" then items.length else stream.matched⟩

end Stage

namespace Filter

/-- Keeps the items whose listing the filter admits. -/
def keep {α : Type} (f : Filter) (listing : α → Listing) : List α → Except QueryError (List α)
  | [] => .ok []
  | a :: as =>
    match f.evaluate (listing a) with
    | .error e => .error e
    | .ok admitted =>
      match keep f listing as with
      | .error e => .error e
      | .ok kept => .ok (if admitted then a :: kept else kept)

/-- Sieves items by their listings. -/
def run {α : Type} (f : Filter) (listing : α → Listing) (items : List α) :
    Except QueryError (List α) :=
  if f.isTrivial then .ok items else keep f listing items

end Filter

namespace Hit

/-- The attachments that ship. -/
def shipped (h : Hit) : List Attachment :=
  h.attachments.filterMap fun i => h.listing.anhaenge[i]?

/-- The listing as it is shown: free texts and attachments only where they are included, of the
attachments only those that ship. -/
def render (h : Hit) (includes : Includes) : Listing :=
  let shown := h.listing.projected includes.freeTexts false
  if includes.attachments then { shown with anhaenge := h.shipped } else shown

end Hit

namespace Plan

/-- The positions of the attachments of a listing that ship. -/
def attachmentsOf (p : Plan) (l : Listing) : Except QueryError (List Nat) :=
  match p.attachments with
  | none => .ok []
  | some .unbudgeted => .ok (List.range l.anhaenge.length)
  | some (.budgeted o) =>
    (Allocation.of l.anhaenge o.selection o.budget).map Allocation.shipped

/-- The hit of a listing and its position. -/
def hitOf (p : Plan) (item : Listing × Nat) : Except QueryError Hit :=
  (p.attachmentsOf item.1).map fun attachments => ⟨item.2, item.1, attachments⟩

/-- What a run gives whose stages have left a stream. -/
def outcomeOf (p : Plan) (recordsIn : Nat) (stream : Stream (Listing × Nat)) :
    Except QueryError Outcome :=
  (QueryError.traverse p.hitOf stream.items).map fun hits => ⟨hits, recordsIn, stream.matched⟩

section Running

variable {m : Type → Type} [Monad m]

/-- The three stages of a plan, with any sorter. -/
def stagesBy (sorter : Sorter m) (p : Plan) : List (Stage m (Listing × Nat)) :=
  [⟨"sieve", p.filter.isTrivial, fun items => pure (p.filter.run Prod.fst items)⟩,
    ⟨"sort", p.sort.keys.isEmpty, p.sort.runBy sorter Prod.fst⟩,
    ⟨"page", p.window.isNoop, fun items => pure (.ok (p.window.run items))⟩]

/-- Runs a plan over listings, with any sorter. -/
def runBy (sorter : Sorter m) (p : Plan) (listings : List Listing) :
    m (Except QueryError Outcome) :=
  QueryError.andThen (Stage.runAll (p.stagesBy sorter) ⟨listings.zipIdx, 0⟩) fun stream =>
    -- a filter that admits everything is skipped, and then nothing has been counted
    let matched := if p.filter.isTrivial then listings.length else stream.matched
    pure (p.outcomeOf listings.length ⟨stream.items, matched⟩)

end Running

/-- Runs a plan over listings. -/
def run (p : Plan) (listings : List Listing) : Except QueryError Outcome :=
  Id.run (p.runBy .merge listings)

/-- Does a stage change nothing?  The three stages by name. -/
def noops (p : Plan) : List (String × Bool) :=
  (p.stagesBy .merge).map fun s => (s.name, s.isNoop)

/-- The digest of a plan and the limits that it was checked against. -/
def digest (p : Plan) (limits : Limits) : Digest :=
  (Digest.ofJson p.toJson).xor (Digest.ofJson limits.toJson)

/-- The digest of a plan and its limits, if both have a text. -/
def digest? (p : Plan) (limits : Limits) : Except QueryError Digest :=
  match Digest.ofJson? p.toJson with
  | .error e => .error e
  | .ok d => (Digest.ofJson? limits.toJson).map d.xor

end Plan

namespace Outcome

/-- The number of listings on the page. -/
def recordsOut (o : Outcome) : Nat := o.hits.length

/-- The number of attachments that ship, of all listings together. -/
def attachmentsOut (o : Outcome) : Nat :=
  o.hits.foldr (fun h n => h.attachments.length + n) 0

/-- What is digested of a run: the identifier of each hit and the number of its attachments. -/
def digested (o : Outcome) : Json :=
  .array (o.hits.map fun h =>
    .array [.ofOption (fun i => .str i.openimmoObid) h.listing.verwaltungTechn,
      .int h.attachments.length])

/-- The digest of what the run gave. -/
def digest (o : Outcome) : Digest :=
  Digest.ofJson o.digested

/-- The digest of what the run gave, if that has a text. -/
def digest? (o : Outcome) : Except QueryError Digest :=
  Digest.ofJson? o.digested

end Outcome

/-- A run with the digests of its plan and of its outcome. -/
structure Run where
  planDigest : Digest
  outcome : Outcome
  outcomeDigest : Digest
deriving DecidableEq

namespace Plan

section Executing

variable {m : Type → Type} [Monad m]

/-- Runs a plan, checked against limits, over listings, with any sorter: the plan is digested before
it is run, and the outcome behind it. -/
def executeBy (sorter : Sorter m) (p : Plan) (limits : Limits) (listings : List Listing) :
    m (Except QueryError Run) :=
  match p.digest? limits with
  | .error e => pure (.error e)
  | .ok planDigest =>
    QueryError.andThen (p.runBy sorter listings) fun outcome =>
      pure (outcome.digest?.map fun outcomeDigest => ⟨planDigest, outcome, outcomeDigest⟩)

end Executing

/-- Runs a plan, checked against limits, over listings. -/
def execute (p : Plan) (limits : Limits) (listings : List Listing) : Except QueryError Run :=
  Id.run (p.executeBy .merge limits listings)

end Plan

end ListingQuery
