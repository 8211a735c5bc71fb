/-!
# Cursors in a query document

A query document is YAML text.  Its layout counts, so that the text is read by a cursor that knows
its line, its column and how many characters it has passed.  Five characters end a line; a carriage
return and a line feed together are one line end.
-/

namespace ListingQuery.Document

/-- Does the character end a line? -/
def isBreak (c : Char) : Bool :=
  let n := c.toNat
  n == 0x0A || n == 0x0D || n == 0x85 || n == 0x2028 || n == 0x2029

/-- Is the character a space or a tab? -/
def isGap (c : Char) : Bool :=
  c == ' ' || c == '\t'

/-- Is the character a letter, a digit, an underscore or a hyphen of ASCII? -/
def isNameChar (c : Char) : Bool :=
  c.isAlphanum || c == '_' || c == '-'

/-- May the character stand in a document?  Most control characters may not. -/
def isAllowed (c : Char) : Bool :=
  let n := c.toNat
  n == 0x09 || n == 0x0A || n == 0x0D || (0x20 ≤ n && n ≤ 0x7E) || n == 0x85 ||
    (0xA0 ≤ n && n ≤ 0xD7FF) || (0xE000 ≤ n && n ≤ 0xFFFD) || 0x10000 ≤ n

/-- Is there nothing left of a line? -/
def endsLine : List Char → Bool
  | [] => true
  | c :: _ => isBreak c

/-- Is there nothing left of a word? -/
def endsWord : List Char → Bool
  | [] => true
  | c :: _ => isGap c || isBreak c

/-- Does a line begin with a mark that starts or ends a document? -/
def isDocumentMark : List Char → Bool
  | '-' :: '-' :: '-' :: rest => endsWord rest
  | '.' :: '.' :: '.' :: rest => endsWord rest
  | _ => false

/-- The text of the line end at the front: the two separators beyond ASCII stand for themselves,
every other line end is a line feed. -/
def breakText : List Char → List Char
  | [] => []
  | c :: _ =>
    if c.toNat = 0x2028 ∨ c.toNat = 0x2029 then [c] else if isBreak c then ['\n'] else []

/-- What is left of a document, and the place where that begins. -/
structure Cursor where
  rest : List Char
  passed : Nat
  line : Nat
  column : Nat
deriving Repr

namespace Cursor

/-- The cursor at the front of a text. -/
def start (cs : List Char) : Cursor := ⟨cs, 0, 0, 0⟩

/-- The cursor behind the next `n` characters of its line. -/
def skip (c : Cursor) (n : Nat) : Cursor :=
  { c with rest := c.rest.drop n, passed := c.passed + n, column := c.column + n }

/-- The cursor behind the characters of its line that satisfy a test. -/
def skipWhile (c : Cursor) (p : Char → Bool) : Cursor :=
  c.skip (c.rest.takeWhile p).length

/-- The cursor behind the line end at its front. -/
def skipBreak (c : Cursor) : Cursor :=
  match c.rest with
  | [] => c
  | '\r' :: '\n' :: rest => ⟨rest, c.passed + 2, c.line + 1, 0⟩
  | _ :: rest => ⟨rest, c.passed + 1, c.line + 1, 0⟩

/-- The cursor behind a comment. -/
def skipComment (c : Cursor) : Cursor :=
  match c.rest with
  | '#' :: _ => c.skipWhile fun x => !isBreak x
  | _ => c

/-- The cursor on the next line, where nothing but blanks and a comment is left of this one. -/
def nextLine? (c : Cursor) : Option Cursor :=
  let c := (c.skipWhile isGap).skipComment
  if endsLine c.rest then some c.skipBreak else none

/-- Stands the cursor before a mark that starts or ends a document? -/
def atDocumentMark (c : Cursor) : Bool :=
  c.column == 0 && isDocumentMark c.rest

/-- Behind a line end there is less text than before it. -/
theorem length_skipBreak {c : Cursor} (h : c.rest ≠ []) :
    c.skipBreak.rest.length < c.rest.length := by
  unfold skipBreak
  split
  · contradiction
  · next hr => rw [hr]; simp only [List.length_cons]; omega
  · next hr => rw [hr]; simp only [List.length_cons]; omega

/-- Behind a character there is less text than before it. -/
theorem length_skip_one {c : Cursor} (h : c.rest ≠ []) :
    (c.skip 1).rest.length < c.rest.length := by
  cases hr : c.rest with
  | nil => exact absurd hr h
  | cons x rest => simp only [skip, hr, List.drop_one, List.tail_cons, List.length_cons]; omega

end Cursor

end ListingQuery.Document
