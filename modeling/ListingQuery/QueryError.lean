import ListingQuery.Number.Decimal

/-!
# Errors of queries

Why a query is refused or fails.  Each cause has a message and a stable code; the hundreds of the
code say which part of the query is meant: 1 filter, 2 sorting, 3 scaling, 4 paging, 5 limits,
6 attachments, 9 the query document itself or a fault of the program.
-/

namespace ListingQuery

/-- Why a filter is refused as an attack before its conditions are looked at. -/
inductive Breach where
  | tooLong (bytes limit : Nat)
  | tooDeep (limit : Nat)
  | tooManyNegations (limit : Nat)
  | tooManyConditions (limit : Nat)
deriving DecidableEq, Repr

/-- Why a query is refused or fails. -/
inductive QueryError where
  | malformedFilter (reason : String)
  | invalidFilterOption (text : String)
  | operationNotImplemented (token : String)
  | sieving (field operator value : String)
  | securityBreach (breach : Breach)
  | invalidSortingOption (text : String)
  | sorting (field reason : String)
  | invalidScalingOption (text : String)
  | invalidResolution (text : String)
  | scalingRepeated
  | pagingOptionsCount (count : Nat)
  | notAnInteger (text : String)
  | invalidPagingOption (text : String)
  | invalidLimiting
  | invalidAttachmentLimit (text : String)
  | invalidAttachmentSelection (text : String)
  | conflictingSelection (kind : String)
  | internal (reason : String)
deriving DecidableEq, Repr

/-- A number in a message. -/
def numberText (n : Nat) : String :=
  String.ofList (Decimal.digits n)

namespace Breach

/-- The message of a breach. -/
def message : Breach → String
  | tooLong bytes limit =>
    "filter is " ++ numberText bytes ++ " bytes long, limit is " ++ numberText limit
  | tooDeep limit => "nesting deeper than " ++ numberText limit
  | tooManyNegations limit => "more than " ++ numberText limit ++ " consecutive NOTs"
  | tooManyConditions limit => "more than " ++ numberText limit ++ " conditions"

end Breach

namespace QueryError

/-- The stable code of an error. -/
def code : QueryError → Nat
  | malformedFilter _ => 101
  | invalidFilterOption _ => 102
  | operationNotImplemented _ => 103
  | sieving .. => 104
  | securityBreach _ => 105
  | invalidSortingOption _ => 201
  | sorting .. => 202
  | invalidScalingOption _ => 301
  | invalidResolution _ => 302
  | scalingRepeated => 303
  | pagingOptionsCount _ => 401
  | notAnInteger _ => 402
  | invalidPagingOption _ => 403
  | invalidLimiting => 501
  | invalidAttachmentLimit _ => 601
  | invalidAttachmentSelection _ => 602
  | conflictingSelection _ => 603
  | internal _ => 900

/-- A text between plain quotes. -/
def inQuotes (s : String) : String :=
  "\"" ++ s ++ "\""

/-- The message of an error. -/
def message : QueryError → String
  | malformedFilter reason => "Malformed filter expression: " ++ reason
  | invalidFilterOption text => "Invalid filter option: " ++ inQuotes text
  | operationNotImplemented token => "Filter operation not implemented: " ++ inQuotes token
  | sieving field operator value =>
    "Cannot filter real estate by " ++ inQuotes field ++ " with operation " ++ inQuotes operator ++
      " for value " ++ inQuotes value
  | securityBreach breach => "Filter expression rejected: " ++ breach.message
  | invalidSortingOption text => "Invalid sorting option: " ++ inQuotes text
  | sorting field reason => "Cannot sort real estates by " ++ inQuotes field ++ ": " ++ reason
  | invalidScalingOption text => "Invalid scaling option: " ++ inQuotes text
  | invalidResolution text => "Invalid rendering resolution: " ++ inQuotes text
  | scalingRepeated => "Rendering options have already been set"
  | pagingOptionsCount count =>
    "Invalid paging options count: expected 2, got " ++ numberText count
  | notAnInteger text => "Not an integer: " ++ inQuotes text
  | invalidPagingOption text => "Invalid paging option: " ++ inQuotes text
  | invalidLimiting =>
    "Invalid limiting: must specify either a byte limit or category limits"
  | invalidAttachmentLimit text => "Invalid attachment limit: " ++ inQuotes text
  | invalidAttachmentSelection text => "Invalid attachment selection: " ++ inQuotes text
  | conflictingSelection kind =>
    "Attachment selection by " ++ kind ++ " conflicts with an earlier selection"
  | internal reason => "Internal error: " ++ reason

/-- Is the query refused as an attack? -/
def isSecurityBreach : QueryError → Bool
  | securityBreach _ => true
  | _ => false

/-- Goes on with what a computation gives, unless it has failed. -/
def andThen {m : Type → Type} [Monad m] {α β : Type} (x : m (Except QueryError α))
    (next : α → m (Except QueryError β)) : m (Except QueryError β) := do
  match ← x with
  | .error e => return .error e
  | .ok a => next a

/-- Applies a function that may fail to every item, from left to right; the first failure is the
failure of all. -/
def traverse {α β : Type} (f : α → Except QueryError β) : List α → Except QueryError (List β)
  | [] => .ok []
  | a :: as =>
    match f a with
    | .error e => .error e
    | .ok b =>
      match traverse f as with
      | .error e => .error e
      | .ok bs => .ok (b :: bs)

end QueryError

end ListingQuery
