import ListingQuery.Document.Scalar
import ListingQuery.Document.Tag

/-!
# Tokens of query documents

The layout of a document becomes tokens: where a block collection begins, to the right of the one
around it, and where it ends.

A key of a mapping shows itself only by the colon behind it.  For every place where a key may begin
the number of tokens before it is kept, one place for every flow collection that is open and one for
the blocks around them; when the colon is met, the token of the key is put at that place.  A place
is given up on the next line or after 1024 characters.  Where a key has to stand, because its line
begins at the column of the block, giving up is an error.
-/

namespace ListingQuery.Document

/-- The tokens of documents. -/
inductive Token where
  | directive (d : Directive)
  | documentStart
  | documentEnd
  | blockSequenceStart
  | blockMappingStart
  | blockEnd
  | flowSequenceStart
  | flowSequenceEnd
  | flowMappingStart
  | flowMappingEnd
  | blockEntry
  | flowEntry
  | key
  | value
  | alias (name : List Char)
  | anchor (name : List Char)
  | tag (t : ShortTag)
  | scalar (style : Style) (text : List Char)
deriving DecidableEq, Repr

/-- A place where a key may begin: the number of tokens before it, the cursor's numbers there, and
whether a key has to stand there. -/
structure KeyPlace where
  tokens : Nat
  passed : Nat
  line : Nat
  column : Nat
  isRequired : Bool

/-- What has been read of a document.  The tokens are in reverse.  `columns` are those of the open
blocks, the innermost first.  `place` is where a key may begin in the innermost collection, and
`outer` holds the places of the collections around the open flow collections. -/
structure Layout where
  cursor : Cursor
  tokens : List Token
  count : Nat
  columns : List Nat
  place : Option KeyPlace
  outer : List (Option KeyPlace)
  allowsKey : Bool

namespace Layout

/-- Nothing has been read yet. -/
def start (cs : List Char) : Layout :=
  ⟨Cursor.start cs, [], 0, [], none, [], true⟩

/-- Is a flow collection open? -/
def inFlow (l : Layout) : Bool := !l.outer.isEmpty

/-- The layout with a token behind the others. -/
def push (l : Layout) (t : Token) : Layout :=
  { l with tokens := t :: l.tokens, count := l.count + 1 }

/-- The layout with a token behind the first `n`. -/
def insert (l : Layout) (n : Nat) (t : Token) : Layout :=
  let later := l.count - n
  { l with tokens := l.tokens.take later ++ t :: l.tokens.drop later, count := l.count + 1 }

/-- The layout with a token of `n` characters behind the others. -/
def take (l : Layout) (n : Nat) (t : Token) : Layout :=
  { l.push t with cursor := l.cursor.skip n }

/-! ## Between tokens -/

/-- Passes blanks, comments and line ends.  A tab may stand only where no key may begin, or in a flow
collection.  Behind a line end in a block, a key may begin. -/
def skipGap : Nat → Layout → Layout
  | 0, l => l
  | bound + 1, l =>
    let c := l.cursor
    let c := if c.column = 0 ∧ c.rest.head? = some (Char.ofNat 0xFEFF) then c.skip 1 else c
    let c := c.skipWhile fun x => x == ' ' || (x == '\t' && (l.inFlow || !l.allowsKey))
    let c := c.skipComment
    if c.rest ≠ [] ∧ endsLine c.rest = true then
      skipGap bound { l with cursor := c.skipBreak, allowsKey := l.allowsKey || !l.inFlow }
    else { l with cursor := c }

/-- Has the cursor left the stretch of text in which a place can become a key? -/
def isStale (c : Cursor) (k : KeyPlace) : Bool :=
  k.line < c.line || k.passed + 1024 < c.passed

/-- The place of a key if it can still become one.  No result: it had to become one. -/
def refresh? (c : Cursor) (place : Option KeyPlace) : Option (Option KeyPlace) :=
  match place with
  | none => some none
  | some k => if isStale c k then (if k.isRequired then none else some none) else some place

/-- Gives up the places that cannot become keys any more. -/
def dropStale? (l : Layout) : Option Layout := do
  return { l with place := ← refresh? l.cursor l.place, outer := ← l.outer.mapM (refresh? l.cursor) }

/-- Gives up the place in the innermost collection. -/
def dropPlace? (l : Layout) : Option Layout :=
  if l.place.any (·.isRequired) then none else some { l with place := none }

/-- Marks the cursor as a place where a key may begin, if it may. -/
def markPlace? (l : Layout) : Option Layout :=
  if l.allowsKey then
    let c := l.cursor
    let isRequired := !l.inFlow && l.columns.head? == some c.column
    l.dropPlace?.map fun l =>
      { l with place := some ⟨l.count, c.passed, c.line, c.column, isRequired⟩ }
  else some l

/-! ## Blocks -/

/-- Ends blocks.  `ended` tells which, by their columns, from the innermost outwards. -/
def endBlocks (ended : Nat → Bool) (l : Layout) : Layout :=
  if l.inFlow then l
  else
    let n := (l.columns.takeWhile ended).length
    { l with
      tokens := List.replicate n .blockEnd ++ l.tokens
      count := l.count + n
      columns := l.columns.drop n }

/-- Is a column to the right of all open blocks? -/
def isDeeper (l : Layout) (column : Nat) : Bool :=
  match l.columns with
  | [] => true
  | innermost :: _ => innermost < column

/-- Begins a block at a column to the right of the others, with a token behind the first `n`. -/
def beginBlock (l : Layout) (column n : Nat) (t : Token) : Layout :=
  if !l.inFlow && l.isDeeper column then { l.insert n t with columns := column :: l.columns } else l

/-- Begins a block at the cursor, where a key may begin or the cursor is in a flow collection. -/
def beginBlockHere? (l : Layout) (t : Token) : Option Layout :=
  if l.inFlow || l.allowsKey then some (l.beginBlock l.cursor.column l.count t) else none

/-! ## Marks -/

/-- Reads the mark that opens a flow collection. -/
def openFlow? (l : Layout) (t : Token) : Option Layout :=
  l.markPlace?.map fun l =>
    { l.take 1 t with place := none, outer := l.place :: l.outer, allowsKey := true }

/-- Reads the mark that closes a flow collection. -/
def closeFlow? (l : Layout) (t : Token) : Option Layout :=
  l.dropPlace?.map fun l =>
    { l.take 1 t with
      place := l.outer.head?.getD none
      outer := l.outer.tail
      allowsKey := false }

/-- Reads the mark behind an entry of a flow collection. -/
def readFlowEntry? (l : Layout) : Option Layout :=
  l.dropPlace?.map fun l => { l.take 1 .flowEntry with allowsKey := true }

/-- Reads the mark before an entry of a sequence in a block. -/
def readBlockEntry? (l : Layout) : Option Layout := do
  let l ← (← l.beginBlockHere? .blockSequenceStart).dropPlace?
  return { l.take 1 .blockEntry with allowsKey := true }

/-- Reads the mark before a key. -/
def readKey? (l : Layout) : Option Layout := do
  let l ← (← l.beginBlockHere? .blockMappingStart).dropPlace?
  return { l.take 1 .key with allowsKey := !l.inFlow }

/-- Reads the colon behind a key.  Where a key began at the marked place, its token is put there. -/
def readValue? (l : Layout) : Option Layout :=
  match l.place with
  | some k =>
    let l := (l.insert k.tokens .key).beginBlock k.column k.tokens .blockMappingStart
    some { l.take 1 .value with place := none, allowsKey := false }
  | none =>
    (l.beginBlockHere? .blockMappingStart).map fun l =>
      { l.take 1 .value with allowsKey := !l.inFlow }

/-- The layout before a mark of its own line, which ends all blocks. -/
def beginLine? (l : Layout) : Option Layout :=
  (l.endBlocks fun _ => true).dropPlace?.map fun l => { l with allowsKey := false }

/-- The layout behind something that may be, or begin, a key. -/
def readUnit? (l : Layout) (read? : Cursor → Option (Token × Cursor)) : Option Layout := do
  let l ← l.markPlace?
  let (t, c) ← read? l.cursor
  return { l.push t with cursor := c, allowsKey := false }

/-- Reads a block of text. -/
def readBlockScalar? (l : Layout) (folds : Bool) : Option Layout := do
  let l ← l.dropPlace?
  let (text, c) ← readBlock? folds l.columns.head? (l.cursor.skip 1)
  return { l.push (.scalar (if folds then .folded else .literal) text) with
    cursor := c, allowsKey := true }

/-- Reads a plain scalar.  Where a line end follows it, a key may begin. -/
def readPlainScalar? (l : Layout) : Option Layout := do
  let l ← l.markPlace?
  let indent := match l.columns with
    | [] => 0
    | innermost :: _ => innermost + 1
  let (text, isBroken, c) ← readPlain? l.inFlow indent l.cursor
  return { l.push (.scalar .plain text) with cursor := c, allowsKey := isBroken }

/-! ## The next token -/

/-- May a plain scalar begin here?  Marks of other tokens do not begin one, but a hyphen does before
anything but a blank, and a question mark or a colon does in a block. -/
def beginsPlain (inFlow : Bool) : List Char → Bool
  | [] => false
  | c :: rest =>
    if c = '-' then !rest.head?.any isGap
    else if c = '?' ∨ c = ':' then !inFlow && !endsWord rest
    else !(isGap c || isBreak c || isFlowMark c || "#&*!|>'\"%@".toList.contains c ||
      c.toNat == 0x60)

/-- Reads the token that begins with a character, which `rest` follows. -/
def readToken? (l : Layout) (c : Char) (rest : List Char) : Option Layout :=
  if c = '[' then l.openFlow? .flowSequenceStart
  else if c = '\x7b' then l.openFlow? .flowMappingStart
  else if c = ']' then l.closeFlow? .flowSequenceEnd
  else if c = '\x7d' then l.closeFlow? .flowMappingEnd
  else if c = ',' then l.readFlowEntry?
  else if c = '-' ∧ endsWord rest = true then l.readBlockEntry?
  else if c = '?' ∧ (l.inFlow || endsWord rest) = true then l.readKey?
  else if c = ':' ∧ (l.inFlow || endsWord rest) = true then l.readValue?
  else if c = '*' then
    l.readUnit? fun c => (readAnchor? (c.skip 1)).map fun r => (.alias r.1, r.2)
  else if c = '&' then
    l.readUnit? fun c => (readAnchor? (c.skip 1)).map fun r => (.anchor r.1, r.2)
  else if c = '!' then l.readUnit? fun c => (readTag? l.inFlow c).map fun r => (.tag r.1, r.2)
  else if c = '|' ∧ l.inFlow = false then l.readBlockScalar? false
  else if c = '>' ∧ l.inFlow = false then l.readBlockScalar? true
  else if c = '\'' then
    l.readUnit? fun c => (readQuoted? false (c.skip 1)).map fun r => (.scalar .singleQuoted r.1, r.2)
  else if c = '"' then
    l.readUnit? fun c => (readQuoted? true (c.skip 1)).map fun r => (.scalar .doubleQuoted r.1, r.2)
  else if beginsPlain l.inFlow (c :: rest) then l.readPlainScalar?
  else none

/-- Reads a directive or a mark that starts or ends a document, if the line begins with one. -/
def readLineMark? (l : Layout) : Option (Option Layout) :=
  let c := l.cursor
  if c.column = 0 ∧ c.rest.head? = some '%' then
    some (l.beginLine?.bind fun l => (readDirective? (c.skip 1)).map fun r =>
      { l.push (.directive r.1) with cursor := r.2 })
  else if c.atDocumentMark then
    let t := if c.rest.head? = some '-' then Token.documentStart else Token.documentEnd
    some (l.beginLine?.map fun l => l.take 3 t)
  else none

/-- Reads tokens to the end of the text. -/
def read? : Nat → Layout → Option (List Token)
  | 0, _ => none
  | bound + 1, l => do
    let l ← (skipGap (bound + 1) l).dropStale?
    let l := l.endBlocks fun column => l.cursor.column < column
    match l.cursor.rest with
    | [] => return (← l.beginLine?).tokens.reverse
    | c :: rest =>
      match l.readLineMark? with
      | some after => read? bound (← after)
      | none => read? bound (← l.readToken? c rest)

end Layout

/-- The tokens of a document's text. -/
def tokens? (s : String) : Option (List Token) :=
  let cs := s.toList
  if cs.all isAllowed then Layout.read? (cs.length + 1) (Layout.start cs) else none

end ListingQuery.Document
