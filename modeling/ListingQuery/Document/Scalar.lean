import ListingQuery.Document.Cursor
import ListingQuery.Json.Token

/-!
# Scalars of a query document

A scalar is a text in one of five styles.  Plain and quoted scalars may run over several lines,
which are folded: one line end is a blank, further ones are line ends.  In a literal or folded
block the indentation of the first line is taken off every line.

Every reader stands behind what tells the style, and gives the text and the cursor behind it.  What
has been taken of a text is kept in reverse.  Loops over the words and lines of a scalar take the
number of characters left as their bound.
-/

namespace ListingQuery.Document

/-- The style in which a scalar is written. -/
inductive Style where
  | plain
  | singleQuoted
  | doubleQuoted
  | literal
  | folded
deriving DecidableEq, Repr

/-! ## Gaps between words -/

/-- What stands between two words: blanks on one line, or line ends.  `first` is the text of the
first line end, which is missing where the line end was escaped. -/
structure Gap where
  blanks : List Char
  first : List Char
  further : List Char
  isBroken : Bool
deriving Repr

namespace Gap

/-- No gap. -/
def empty : Gap := ⟨[], [], [], false⟩

/-- The gap after an escaped line end. -/
def escaped : Gap := ⟨[], [], [], true⟩

/-- The text that a gap stands for. -/
def text (g : Gap) : List Char :=
  if !g.isBroken then g.blanks
  else if g.first = ['\n'] then (if g.further.isEmpty then [' '] else g.further)
  else g.first ++ g.further

/-- The gap with a blank behind it; blanks around line ends do not count. -/
def addBlank (g : Gap) (c : Char) : Gap :=
  if g.isBroken then g else { g with blanks := g.blanks ++ [c] }

/-- The gap with a line end behind it. -/
def addBreak (g : Gap) (lineEnd : List Char) : Gap :=
  if g.isBroken then { g with further := g.further ++ lineEnd } else ⟨[], lineEnd, [], true⟩

/-- Reads a gap to its end.  A tab must not stand left of column `indent` at the front of a line. -/
def read? (indent : Nat) (g : Gap) (c : Cursor) : Option (Gap × Cursor) :=
  match _h : c.rest with
  | [] => some (g, c)
  | x :: _ =>
    if isGap x then
      if g.isBroken ∧ c.column < indent ∧ x = '\t' then none
      else read? indent (g.addBlank x) (c.skip 1)
    else if isBreak x then read? indent (g.addBreak (breakText c.rest)) c.skipBreak
    else some (g, c)
termination_by c.rest.length
decreasing_by
  · exact Cursor.length_skip_one (by simp [_h])
  · exact Cursor.length_skipBreak (by simp [_h])

end Gap

/-! ## Plain scalars -/

/-- Is the character a mark of flow collections? -/
def isFlowMark (c : Char) : Bool :=
  c == ',' || c == '[' || c == ']' || c == '\x7b' || c == '\x7d'

/-- Does a mark of flow collections follow, or a question mark? -/
def beginsFlowMark : List Char → Bool
  | [] => false
  | c :: _ => c == '?' || isFlowMark c

/-- The word at the front of a text.  A colon ends it where nothing follows, a mark of flow
collections ends it inside a flow collection; there a colon must not stand before such a mark. -/
def plainWord? (inFlow : Bool) : List Char → Option (List Char)
  | [] => some []
  | c :: rest =>
    if isGap c || isBreak c then some []
    else if c = ':' ∧ inFlow = true ∧ beginsFlowMark rest = true then none
    else if c = ':' ∧ endsWord rest = true ∨ inFlow = true ∧ isFlowMark c = true then some []
    else (plainWord? inFlow rest).map (c :: ·)

/-- Reads the words of a plain scalar, behind what has been taken and a gap.  The flag tells whether
a line end follows the last word. -/
def readPlainWords? (inFlow : Bool) (indent : Nat) :
    Nat → List Char → Gap → Cursor → Option (List Char × Bool × Cursor)
  | 0, _, _, _ => none
  | bound + 1, taken, g, c =>
    if c.atDocumentMark ∨ c.rest.head? = some '#' then some (taken.reverse, g.isBroken, c)
    else
      match plainWord? inFlow c.rest with
      | none => none
      | some [] => some (taken.reverse, g.isBroken, c)
      | some word =>
        let taken := word.reverse ++ g.text.reverse ++ taken
        match Gap.empty.read? indent (c.skip word.length) with
        | none => none
        | some (g, c) =>
          if inFlow = false ∧ c.column < indent then some (taken.reverse, g.isBroken, c)
          else readPlainWords? inFlow indent bound taken g c

/-- Reads a plain scalar. -/
def readPlain? (inFlow : Bool) (indent : Nat) (c : Cursor) : Option (List Char × Bool × Cursor) :=
  readPlainWords? inFlow indent (c.rest.length + 1) [] Gap.empty c

/-! ## Quoted scalars -/

/-- The character of an escape of one letter. -/
def shortEscape? (c : Char) : Option Char :=
  let table : List (Char × Nat) :=
    [('0', 0x00), ('a', 0x07), ('b', 0x08), ('t', 0x09), ('\t', 0x09), ('n', 0x0A), ('v', 0x0B),
      ('f', 0x0C), ('r', 0x0D), ('e', 0x1B), (' ', 0x20), ('"', 0x22), ('/', 0x2F), ('\\', 0x5C),
      ('N', 0x85), ('_', 0xA0), ('L', 0x2028), ('P', 0x2029)]
  (table.lookup c).map Char.ofNat

/-- The number of digits in an escape by number. -/
def escapeLength? (c : Char) : Option Nat :=
  if c = 'x' then some 2 else if c = 'u' then some 4 else if c = 'U' then some 8 else none

/-- The value of hexadecimal digits. -/
def hexNumber? (digits : List Char) : Option Nat :=
  digits.foldlM (fun n c => (Json.hexValue? c).map fun v => n * 16 + v) 0

/-- The character of an escape by number, which has to have all its digits. -/
def numberEscape? (length : Nat) (rest : List Char) : Option Char :=
  let digits := rest.take length
  if digits.length < length then none
  else (hexNumber? digits).bind fun n => if n.isValidChar then some (Char.ofNat n) else none

/-- The character of the escape behind a backslash, and the number of characters it takes. -/
def escape? : List Char → Option (Char × Nat)
  | [] => none
  | c :: rest =>
    match shortEscape? c, escapeLength? c with
    | some e, _ => some (e, 1)
    | none, some length => (numberEscape? length rest).map fun e => (e, 1 + length)
    | none, none => none

/-- The quote around a quoted scalar. -/
def quoteOf (double : Bool) : Char :=
  if double then '"' else '\''

/-- Reads a quoted scalar up to a gap or to its closing quote.  The flag tells whether an escaped
line end was passed. -/
def readQuotedWord? (double : Bool) : Nat → List Char → Cursor → Option (List Char × Bool × Cursor)
  | 0, _, _ => none
  | bound + 1, taken, c =>
    match c.rest with
    | [] => some (taken, false, c)
    | x :: rest =>
      if isGap x || isBreak x then some (taken, false, c)
      else if x = quoteOf double then
        if double = false ∧ rest.head? = some x then
          readQuotedWord? double bound (x :: taken) (c.skip 2)
        else some (taken, false, c)
      else if double = true ∧ x = '\\' then
        if rest ≠ [] ∧ endsLine rest = true then some (taken, true, (c.skip 1).skipBreak)
        else
          match escape? rest with
          | none => none
          | some (e, length) => readQuotedWord? double bound (e :: taken) (c.skip (1 + length))
      else readQuotedWord? double bound (x :: taken) (c.skip 1)

/-- Reads the words of a quoted scalar and its closing quote. -/
def readQuotedWords? (double : Bool) : Nat → List Char → Cursor → Option (List Char × Cursor)
  | 0, _, _ => none
  | bound + 1, taken, c =>
    if c.atDocumentMark ∨ c.rest.isEmpty then none
    else
      match readQuotedWord? double (bound + 1) taken c with
      | none => none
      | some (taken, escaped, c) =>
        if c.rest.head? = some (quoteOf double) then some (taken.reverse, c.skip 1)
        else
          match (if escaped then Gap.escaped else Gap.empty).read? 0 c with
          | none => none
          | some (g, c) => readQuotedWords? double bound (g.text.reverse ++ taken) c

/-- Reads a quoted scalar behind its opening quote. -/
def readQuoted? (double : Bool) (c : Cursor) : Option (List Char × Cursor) :=
  readQuotedWords? double (c.rest.length + 1) [] c

/-! ## Blocks -/

/-- What becomes of the line ends behind a block. -/
inductive Chomping where
  | strip
  | clip
  | keep
deriving DecidableEq, Repr

/-- Reads a chomping indicator. -/
def chomping? : List Char → Option Chomping
  | '+' :: _ => some .keep
  | '-' :: _ => some .strip
  | _ => none

/-- Reads an indentation indicator: a digit, which must not be zero. -/
def increment? : List Char → Option (Option Nat)
  | [] => some none
  | c :: _ =>
    if c = '0' then none
    else if Decimal.isDigit c then some (some (Decimal.digitValue c))
    else some none

/-- Reads the indicators behind the mark of a block, at most one of each kind in any order. -/
def readIndicators? (c : Cursor) : Option (Chomping × Option Nat × Cursor) :=
  match chomping? c.rest with
  | some chomping =>
    let c := c.skip 1
    (increment? c.rest).map fun increment =>
      (chomping, increment, if increment.isSome then c.skip 1 else c)
  | none =>
    match increment? c.rest with
    | none => none
    | some none => some (.clip, none, c)
    | some increment =>
      let c := c.skip 1
      match chomping? c.rest with
      | some chomping => some (chomping, increment, c.skip 1)
      | none => some (.clip, increment, c)

/-- Passes blank lines and the indentation of the next line: the text of the line ends, and the
largest column met.  Where the indentation is not known yet, all spaces belong to it.  A tab must
not stand in it. -/
def readBlankLines? (indent : Option Nat) :
    Nat → List Char → Nat → Cursor → Option (List Char × Nat × Cursor)
  | 0, _, _, _ => none
  | bound + 1, breaks, deepest, c =>
    let spaces := (c.rest.takeWhile (· == ' ')).length
    let c := c.skip (match indent with
      | none => spaces
      | some column => min spaces (column - c.column))
    let isLeft : Bool := match indent with
      | none => true
      | some column => c.column < column
    if isLeft ∧ c.rest.head? = some '\t' then none
    else if c.rest ≠ [] ∧ endsLine c.rest = true then
      readBlankLines? indent bound (breaks ++ breakText c.rest) (max deepest c.column) c.skipBreak
    else some (breaks, max deepest c.column, c)

/-- The lines of a block that have been read: their text in reverse, the end of the last line, the
line ends of the blank lines after it, and whether that line began with a blank. -/
structure Lines where
  taken : List Char
  lineEnd : List Char
  blankLines : List Char
  beganBlank : Bool

namespace Lines

/-- What stands between the lines and the next one.  In a folded block, two lines that do not begin
with a blank are joined. -/
def joint (ls : Lines) (folds beginsBlank : Bool) : List Char :=
  if folds && ls.lineEnd == ['\n'] && !ls.beganBlank && !beginsBlank then
    if ls.blankLines.isEmpty then [' '] else ls.blankLines
  else ls.lineEnd ++ ls.blankLines

/-- The text of the lines in reverse. -/
def chomp (ls : Lines) : Chomping → List Char
  | .strip => ls.taken
  | .clip => ls.lineEnd.reverse ++ ls.taken
  | .keep => ls.blankLines.reverse ++ ls.lineEnd.reverse ++ ls.taken

end Lines

/-- Reads the lines of a block that begin at a column. -/
def readLines? (folds : Bool) (indent : Nat) : Nat → Lines → Cursor → Option (Lines × Cursor)
  | 0, _, _ => none
  | bound + 1, ls, c =>
    if c.column ≠ indent ∨ c.rest.isEmpty then some (ls, c)
    else
      let beginsBlank := c.rest.head?.any isGap
      let line := c.rest.takeWhile fun x => !isBreak x
      let behind := c.skip line.length
      match readBlankLines? (some indent) (bound + 1) [] 0 behind.skipBreak with
      | none => none
      | some (breaks, _, next) =>
        readLines? folds indent bound
          { taken := line.reverse ++ (ls.joint folds beginsBlank).reverse ++ ls.taken
            lineEnd := breakText behind.rest
            blankLines := breaks
            beganBlank := beginsBlank } next

/-- Reads a block behind its mark.  `column` is where the collection around it stands, if there is
one; the lines of the block stand to the right of that. -/
def readBlock? (folds : Bool) (column : Option Nat) (c : Cursor) :
    Option (List Char × Cursor) := do
  let (chomping, increment, c) ← readIndicators? c
  let c ← c.nextLine?
  let indent := increment.map fun n => column.getD 0 + n
  let (breaks, deepest, c) ← readBlankLines? indent (c.rest.length + 1) [] 0 c
  let least := match column with
    | none => 1
    | some n => n + 1
  let (ls, c) ← readLines? folds (indent.getD (max deepest least)) (c.rest.length + 1)
    ⟨[], [], breaks, false⟩ c
  return ((ls.chomp chomping).reverse, c)

end ListingQuery.Document
