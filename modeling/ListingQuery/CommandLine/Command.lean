import ListingQuery.CommandLine.Flag
import ListingQuery.Manifest
import ListingQuery.Query.Document

/-!
# Commands

`query` runs a query over a file of listings and prints the listings of its page, `validate` checks a
query, and `explain` prints its plan.

A query is given by a document, by flags, or by both.  Limits come from the environment, from the
document and from flags, in this order; a document can only tighten the bounds of filters.  The first
failure ends a command: the document is read first, then the query is checked, then the listings are
read, and then the query is run.
-/

namespace ListingQuery

/-- How a query is given: the path of a document, and what the flags set. -/
structure QuerySource where
  path : Option String
  options : Options
  limits : LimitsPatch
deriving DecidableEq, Repr

/-- A command. -/
inductive Command where
  | query (records : String) (source : QuerySource) (showsManifest : Bool)
  | validate (source : QuerySource)
  | explain (source : QuerySource) (asJson : Bool)
deriving DecidableEq, Repr

namespace QuerySource

open CommandLine

/-- How the flags of a command give its query. -/
def ofFlags (fs : Flags) : QuerySource :=
  { path := fs.value? .query
    options :=
      { filter := fs.value? .filter
        sort := fs.value? .sort
        paging := fs.value? .paging
        attachments := fs.value? .attachments
        includes := fs.value? .includes }
    limits :=
      { LimitsPatch.unset with
        filterLength := fs.number? .maxFilterLength
        filterDepth := fs.number? .maxFilterDepth
        byteCap := fs.number? .byteCap
        pageSize := fs.number? .maxPageSize } }

end QuerySource

namespace Command

open CommandLine

/-- Reads the flags of a command behind its name. -/
def ofName? (name : String) (args : List String) : Option Command :=
  let flags? (own : List Flag) := Flags.read? (.debug :: own ++ Flag.ofQuery) args
  if name = "query" then do
    let fs ← flags? [.records, .manifest]
    return .query (← fs.value? .records) (QuerySource.ofFlags fs) (fs.has .manifest)
  else if name = "validate" then
    (flags? []).map fun fs => .validate (QuerySource.ofFlags fs)
  else if name = "explain" then
    (flags? [.json]).map fun fs => .explain (QuerySource.ofFlags fs) (fs.has .json)
  else none

/-- Reads the arguments of a command line.  No result: they are no command.  The switch `--debug`
may also stand before the name of the command, and changes no answer. -/
def read? : List String → Option Command
  | "--debug" :: name :: args => ofName? name args
  | name :: args => ofName? name args
  | [] => none

/-- How the query of a command is given. -/
def source : Command → QuerySource
  | query _ source _ => source
  | validate source => source
  | explain source _ => source

/-- The paths of the files that a command reads. -/
def paths (c : Command) : List String :=
  c.source.path.toList ++
    match c with
    | query records .. => [records]
    | _ => []

end Command

/-- Why a command gives no answer. -/
inductive Failure where
  | query (e : QueryError)
  | document
  | file (path : String)
  | listings (path : String)
deriving DecidableEq, Repr

/-- The line that reports a failure. -/
def Failure.report : Failure → String
  | query e => toString e.code ++ ": " ++ e.message
  | document => "900: the document is not a query"
  | file path => "error: cannot read " ++ path
  | listings path => "error: " ++ path ++ " does not hold listings"

/-- What a command prints, and what it ran, where a manifest is asked for. -/
structure Answer where
  text : String
  ran : Option Run

/-- The surroundings of a command: the variables of the environment, and the texts of the files that
can be read. -/
structure Surroundings where
  lookup : String → Option String
  textOf : String → Option String

/-- The surroundings that hold variables and texts by name. -/
def Surroundings.ofTables (settings files : List (String × String)) : Surroundings :=
  ⟨fun name => settings.lookup name, fun path => files.lookup path⟩

namespace QuerySource

/-- The options and limits of a query. -/
def resolve (q : QuerySource) (s : Surroundings) : Except Failure (Options × Limits) :=
  let limits := Limits.ofEnvironment s.lookup
  match q.path with
  | none => .ok (q.options, limits.overridden q.limits)
  | some path =>
    match s.textOf path with
    | none => .error (.file path)
    | some text =>
      match QueryDocument.read? text with
      | none => .error .document
      | some d =>
        .ok (d.options.overlaid q.options, (limits.merged d.limits).overridden q.limits)

/-- The plan of a query, and the limits that it was checked against. -/
def plan (q : QuerySource) (s : Surroundings) : Except Failure (Plan × Limits) :=
  match q.resolve s with
  | .error e => .error e
  | .ok (options, limits) =>
    match Plan.compile options limits with
    | .error e => .error (.query e)
    | .ok p => .ok (p, limits)

end QuerySource

namespace Command

/-- The listings of a file. -/
def readListings (path : String) (s : Surroundings) : Except Failure (List Listing) :=
  match s.textOf path with
  | none => .error (.file path)
  | some text =>
    match Listing.readAll? text with
    | none => .error (.listings path)
    | some listings => .ok listings

/-- Runs a plan, checked against limits, over the listings of a file. -/
def runPlan (p : Plan) (limits : Limits) (path : String) (s : Surroundings) : Except Failure Run :=
  match readListings path s with
  | .error e => .error e
  | .ok listings =>
    match p.execute limits listings with
    | .error e => .error (.query e)
    | .ok r => .ok r

/-- The listings of a run as they are shown. -/
def shown (p : Plan) (r : Run) : Json :=
  .array (r.outcome.hits.map fun h => (h.render p.includes).toJson)

/-- The answer of a command. -/
def answer (c : Command) (s : Surroundings) : Except Failure Answer :=
  match c.source.plan s with
  | .error e => .error e
  | .ok (p, limits) =>
    match c with
    | query records _ showsManifest =>
      (runPlan p limits records s).map fun r =>
        ⟨(shown p r).pretty ++ "\n", if showsManifest then some r else none⟩
    | validate _ => .ok ⟨"✓ Query is valid\n", none⟩
    | explain _ true => .ok ⟨p.toJson.pretty ++ "\n", none⟩
    | explain _ false => .ok ⟨"Query Plan\n==========\n" ++ p.explain, none⟩

end Command

end ListingQuery
