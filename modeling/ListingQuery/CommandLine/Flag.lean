import ListingQuery.Number.Decimal

/-!
# Flags

A flag is a word behind two hyphens, and two flags have a letter behind one hyphen as well.  A switch
stands alone; every other flag takes a value, which is the next argument or stands behind an equals
sign, behind a letter also without one.  An argument that begins with a hyphen is no value unless it
is the hyphen alone.  Two hyphens alone end the flags, and nothing may follow them.
-/

namespace ListingQuery.CommandLine

/-- The flags of all commands. -/
inductive Flag where
  | debug
  | manifest
  | json
  | records
  | query
  | filter
  | sort
  | paging
  | attachments
  | includes
  | maxFilterLength
  | maxFilterDepth
  | byteCap
  | maxPageSize
deriving DecidableEq, Repr

namespace Flag

/-- The word of a flag. -/
def word : Flag → String
  | debug => "debug"
  | manifest => "manifest"
  | json => "json"
  | records => "records"
  | query => "query"
  | filter => "filter"
  | sort => "sort"
  | paging => "paging"
  | attachments => "attachments"
  | includes => "include"
  | maxFilterLength => "max-filter-len"
  | maxFilterDepth => "max-filter-depth"
  | byteCap => "attachment-byte-cap"
  | maxPageSize => "max-page-size"

/-- The letter of a flag, if it has one. -/
def letter? : Flag → Option Char
  | records => some 'r'
  | query => some 'q'
  | _ => none

/-- Does the flag stand alone? -/
def isSwitch : Flag → Bool
  | debug => true
  | manifest => true
  | json => true
  | _ => false

/-- Can the text be the value of the flag?  A path must not be empty, and a number has to fit into
64 bits. -/
def accepts (f : Flag) (value : String) : Bool :=
  match f with
  | records => !value.isEmpty
  | query => !value.isEmpty
  | maxFilterLength => (Decimal.uint64? value.toList).isSome
  | maxFilterDepth => (Decimal.uint64? value.toList).isSome
  | byteCap => (Decimal.uint64? value.toList).isSome
  | maxPageSize => (Decimal.uint64? value.toList).isSome
  | _ => true

/-- The flags by which a query is given. -/
def ofQuery : List Flag :=
  [query, filter, sort, paging, attachments, includes, maxFilterLength, maxFilterDepth, byteCap,
    maxPageSize]

end Flag

/-- A flag as it is written in an argument: which one, and the value that is written with it. -/
structure WrittenFlag where
  flag : Flag
  value? : Option String
deriving DecidableEq, Repr

/-- The value behind an equals sign, if there is one, and the text before it. -/
def splitValue (cs : List Char) : List Char × Option String :=
  let name := cs.takeWhile (· != '=')
  match cs.drop name.length with
  | [] => (name, none)
  | _ :: value => (name, some (String.ofList value))

/-- Reads a flag that a command knows. -/
def readFlag? (known : List Flag) (arg : String) : Option WrittenFlag :=
  match arg.toList with
  | '-' :: '-' :: cs =>
    let (name, value?) := splitValue cs
    (known.find? fun f => f.word.toList == name).map fun f => ⟨f, value?⟩
  | '-' :: c :: cs =>
    let value? := match cs with
      | [] => none
      | '=' :: value => some (String.ofList value)
      | value => some (String.ofList value)
    (known.find? fun f => f.letter? == some c).map fun f => ⟨f, value?⟩
  | _ => none

/-- Can the argument be the value of the flag before it? -/
def isValue (arg : String) : Bool :=
  arg == "-" || arg.toList.head? != some '-'

/-- Reads the flags of a command.  A switch has the empty text as its value. -/
def readFlags? (known : List Flag) : List String → Option (List (Flag × String))
  | [] => some []
  | ["--"] => some []
  | arg :: args =>
    match readFlag? known arg with
    | none => none
    | some ⟨f, value?⟩ =>
      match f.isSwitch, value?, args with
      | true, none, args => (readFlags? known args).map ((f, "") :: ·)
      | true, some _, _ => none
      | false, some value, args => (readFlags? known args).map ((f, value) :: ·)
      | false, none, [] => none
      | false, none, value :: args =>
        if isValue value then (readFlags? known args).map ((f, value) :: ·) else none

/-- What the flags of a command say. -/
structure Flags where
  given : List (Flag × String)
deriving DecidableEq, Repr

namespace Flags

/-- Reads the flags of a command.  No flag is given twice, and every value fits its flag. -/
def read? (known : List Flag) (args : List String) : Option Flags :=
  (readFlags? known args).bind fun given =>
    if (given.map Prod.fst).Nodup ∧ given.all fun g => g.1.accepts g.2 then some ⟨given⟩ else none

/-- The value of a flag, if it is given. -/
def value? (fs : Flags) (f : Flag) : Option String :=
  fs.given.lookup f

/-- Is the flag given? -/
def has (fs : Flags) (f : Flag) : Bool := (fs.value? f).isSome

/-- The number of a flag, if it is given. -/
def number? (fs : Flags) (f : Flag) : Option UInt64 :=
  (fs.value? f).bind fun s => Decimal.uint64? s.toList

end Flags

end ListingQuery.CommandLine
