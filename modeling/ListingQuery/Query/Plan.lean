import ListingQuery.Filter.Json
import ListingQuery.Filter.Reading
import ListingQuery.Query.Options
import ListingQuery.SortOrder
import ListingQuery.Text.Quoted

/-!
# Plans

A plan is a query whose texts have been read and checked; no listing is needed to make one.  The
texts are checked in the order filter, sort keys, paging, attachments, and the first fault is the
one that is reported.  What is said about attachments is checked even where they are not included,
but only planned where they are.

`Plan.explain` shows a plan on one line for each stage.
-/

namespace ListingQuery

/-- How the attachments of a listing are chosen. -/
inductive AttachmentPlan where
  | unbudgeted
  | budgeted (options : AttachmentOptions)
deriving DecidableEq, Repr

/-- A checked query.  Attachments are planned only where they are included. -/
structure Plan where
  filter : Filter
  sort : SortOrder
  window : Window
  includes : Includes
  attachments : Option AttachmentPlan
deriving DecidableEq, Repr

namespace AttachmentOptions

/-- The options with the byte cap that holds where none is set. -/
def withDefaultCap (o : AttachmentOptions) (cap : Option UInt64) : AttachmentOptions :=
  { o with budget := { o.budget with byteCap := o.budget.byteCap <|> cap } }

end AttachmentOptions

namespace AttachmentPlan

/-- The plan for attachments that are included.  Where nothing is selected explicitly the budget
has to have a cap. -/
def ofOptions (options : Option AttachmentOptions) (defaultCap : Option UInt64) :
    Except QueryError AttachmentPlan :=
  match options with
  | some o =>
    let o := o.withDefaultCap defaultCap
    if o.selection.isExplicit then .ok (.budgeted o)
    else o.budget.validate.map fun _ => .budgeted o
  | none =>
    match defaultCap with
    | some cap => .ok (.budgeted ⟨Budget.ofBytes (some cap), .all, none⟩)
    | none => .ok .unbudgeted

/-- The plan for attachments as JSON. -/
def toJson : AttachmentPlan → Json
  | unbudgeted => .str "Unbudgeted"
  | budgeted o =>
    .object [("Budgeted", .object [("budget", o.budget.toJson), ("selection", o.selection.toJson),
      ("scaling", .ofOption Scaling.toJson o.scaling)])]

end AttachmentPlan

namespace Plan

/-- Reads an optional text; without one there is a standard result. -/
def readOr {α : Type} (standard : α) (read : String → Except QueryError α) :
    Option String → Except QueryError α
  | none => .ok standard
  | some source => read source

/-- Makes the plan of a query. -/
def compile (o : Options) (limits : Limits) : Except QueryError Plan :=
  match readOr .always (Filter.read · limits) o.filter with
  | .error e => .error e
  | .ok filter =>
    match readOr .unsorted SortOrder.read o.sort with
    | .error e => .error e
    | .ok sort =>
      match readOr .everything (Window.read · limits.pageSize) o.paging with
      | .error e => .error e
      | .ok window =>
        let includes := (o.includes.map Includes.read).getD .nothing
        match readOr none (fun s => (AttachmentOptions.read s).map some) o.attachments with
        | .error e => .error e
        | .ok options =>
          if includes.attachments then
            (AttachmentPlan.ofOptions options limits.byteCap).map fun attachments =>
              ⟨filter, sort, window, includes, some attachments⟩
          else .ok ⟨filter, sort, window, includes, none⟩

/-- A plan as JSON. -/
def toJson (p : Plan) : Json :=
  .object [("sieve", .object [("expr", p.filter.toJson)]), ("sort", p.sort.toJson),
    ("paging", p.window.toJson), ("include", p.includes.toJson),
    ("attachments", .ofOption AttachmentPlan.toJson p.attachments)]

/-! ## Explanation -/

/-- A truth value in words. -/
def flagText (b : Bool) : String := if b then "true" else "false"

/-- A word in decimal. -/
def wordText (n : UInt64) : String := String.ofList (Decimal.ofUInt64 n)

/-- A list of texts between brackets, with commas. -/
def bracketed (items : List String) : String :=
  "[" ++ ", ".intercalate items ++ "]"

/-- An explicit selection in words. -/
def selectionText : Selection → String
  | .all => "All"
  | .indexes ns => "Indexes(" ++ bracketed (ns.map wordText) ++ ")"
  | .titles ts =>
    "Titles(" ++ bracketed (ts.map fun t => String.ofList (Text.quoted t.toList)) ++ ")"
  | .groups gs => "Groups(" ++ bracketed (gs.map AttachmentGroup.label) ++ ")"

/-- The caps of a budget in words. -/
def budgetText (b : Budget) : String :=
  let bytes :=
    match b.byteCap with
    | some cap => "bytes " ++ wordText cap
    | none => "bytes unbounded"
  ", ".intercalate (bytes :: b.countCaps.map fun cap =>
    cap.1.optionKey ++ " " ++ String.ofList (Decimal.ofUInt32 cap.2))

/-- The line of the window. -/
def windowLine (w : Window) : String :=
  match w.limit with
  | none => "page: all"
  | some limit =>
    "page: " ++ wordText w.page ++ " (limit " ++ wordText limit ++ ", offset " ++
      wordText w.offset ++ ")"

/-- The line of the scaling. -/
def scalingLine (s : Scaling) : String :=
  "scaling: " ++ String.ofList (Decimal.ofUInt32 s.width) ++ "x" ++
    String.ofList (Decimal.ofUInt32 s.height)

/-- The lines of the attachments. -/
def attachmentLines : Option AttachmentPlan → List String
  | none => []
  | some .unbudgeted => ["attachments: all"]
  | some (.budgeted o) =>
    let choice :=
      if o.selection.isExplicit then "select " ++ selectionText o.selection
      else budgetText o.budget
    ("attachments: " ++ choice) :: (o.scaling.map scalingLine).toList

/-- The lines of the explanation. -/
def explainLines (p : Plan) : List String :=
  [ "sieve: " ++ String.ofList p.filter.text,
    "sort: " ++ (if p.sort.keys.isEmpty then "input order" else String.ofList p.sort.text),
    windowLine p.window,
    "include: freitexte=" ++ flagText p.includes.freeTexts ++ " attachments=" ++
      flagText p.includes.attachments ] ++ attachmentLines p.attachments

/-- The explanation of a plan, every line ended by a line break. -/
def explain (p : Plan) : String :=
  String.join (p.explainLines.map (· ++ "\n"))

end Plan

end ListingQuery
