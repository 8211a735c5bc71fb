import ListingQuery.Text.Blank
import ListingQuery.Value.Operator

/-!
# Operator spellings, quotes and lists in filter text

The spellings of operators are a table in which a longer spelling stands before its own beginnings,
so that the first one that fits is the longest.  Some spellings are known and have no meaning yet.

A quote opens only where an operand or an item of a list begins, so that an apostrophe inside a
word is a letter.  `Region` says whether a place in the text lies inside a quote or a list; the
lexer and the search for a condition's operator share it.  The text before a place is given in
reverse.
-/

namespace ListingQuery

/-- A spelling of an operator; one without an operator is known but not implemented. -/
structure Spelling where
  chars : List Char
  operator : Option Operator
deriving DecidableEq, Repr

namespace Spelling

/-- All spellings, longer ones before their beginnings. -/
def all : List Spelling :=
  [ ⟨['>', '>', '='], some .ge⟩,
    ⟨['<', '<', '='], some .le⟩,
    ⟨['=', '='], some .eq⟩,
    ⟨['!', '='], some .ne⟩,
    ⟨['%', '='], some .eqCi⟩,
    ⟨['!', '%'], some .neCi⟩,
    ⟨['~', '='], none⟩,
    ⟨['!', '~'], none⟩,
    ⟨['<', '='], some .le⟩,
    ⟨['>', '='], some .ge⟩,
    ⟨['<', '<'], some .lt⟩,
    ⟨['>', '>'], some .gt⟩,
    ⟨['<'], some .lt⟩,
    ⟨['>'], some .gt⟩,
    ⟨['∈'], some .isIn⟩,
    ⟨['∉'], some .notIn⟩,
    ⟨['∋'], some .contains⟩,
    ⟨['∌'], some .notContains⟩ ]

/-- The longest spelling that a text starts with. -/
def at? (cs : List Char) : Option Spelling :=
  all.find? fun s => s.chars.isPrefixOf cs

/-- Does a text, given in reverse, end with a spelling? -/
def endsReversed (before : List Char) : Bool :=
  all.any fun s => s.chars.reverse.isPrefixOf before

end Spelling

/-- The place of a character with respect to quotes and lists: the quote that is open, and how many
brackets are. -/
structure Region where
  quote : Option Char
  brackets : Nat
deriving DecidableEq, Repr

namespace Region

/-- Neither in a quote nor in a list. -/
def outside : Region := ⟨none, 0⟩

/-- Is the character one of the two quotes? -/
def isQuote (c : Char) : Bool :=
  c == '"' || c == '\''

/-- Does a quote after the given text, in reverse, open?  It does where an operand begins, and in a
list also where an item begins. -/
def opensQuote (before : List Char) (inList : Bool) : Bool :=
  match Text.trimStart before with
  | [] => true
  | c :: rest =>
    (inList && (c == '[' || c == ';')) || Spelling.endsReversed (c :: rest)

/-- The region behind a character. -/
def next (r : Region) (before : List Char) (c : Char) : Region :=
  match r.quote with
  | some q => if c = q then { r with quote := none } else r
  | none =>
    if isQuote c && opensQuote before (decide (0 < r.brackets)) then { r with quote := some c }
    else if c = '[' then { r with brackets := r.brackets + 1 }
    else if c = ']' then { r with brackets := r.brackets - 1 }
    else r

/-- Does the character stand outside quotes and lists, without opening one? -/
def isOpen (r : Region) (before : List Char) (c : Char) : Bool :=
  r == outside && !(isQuote c && opensQuote before false) && c != '['

end Region

end ListingQuery
