import ListingQuery.Document.Token

/-!
# Nodes of a query document

A document is a tree of scalars, sequences and mappings.  A node can be given an anchor, and an alias
stands for the node with its anchor.  Anchors are numbered: a name gets, wherever it is given, the
number of names known there, and an alias has the number that its name has there.  Where several
nodes have one number, it stands for the last of them.

Reading takes tokens from the front of a list.  Every reader gets a bound on the number of calls,
which the number of tokens gives.
-/

namespace ListingQuery.Document

/-- What a node may have in front of it: the number of its anchor, and its tag. -/
structure Properties where
  anchor : Option Nat
  tag : Option Tag
deriving DecidableEq, Repr

/-- A node of a document. -/
inductive Node where
  | alias (number : Nat)
  | scalar (p : Properties) (style : Style) (text : List Char)
  | sequence (p : Properties) (items : List Node)
  | mapping (p : Properties) (entries : List (Node × Node))
deriving Repr, Inhabited

namespace Node

/-- No properties. -/
def noProperties : Properties := ⟨none, none⟩

/-- The node where nothing is written. -/
def empty : Node := .scalar noProperties .plain []

/-- The number of the anchor of a node. -/
def anchor? : Node → Option Nat
  | .alias _ => none
  | .scalar p _ _ => p.anchor
  | .sequence p _ => p.anchor
  | .mapping p _ => p.anchor

end Node

/-- Tokens that have not been read yet, and the numbers of the names of anchors. -/
structure Reading where
  tokens : List Token
  names : List (List Char × Nat)

namespace Reading

/-- The first token. -/
def next? (r : Reading) : Option Token := r.tokens.head?

/-- Does one of these tokens follow? -/
def isAt (r : Reading) (ts : List Token) : Bool := r.next?.any ts.contains

/-- The reading behind the next token. -/
def skip (r : Reading) : Reading := { r with tokens := r.tokens.tail }

/-- Gives a name the number of names known. -/
def bind (r : Reading) (name : List Char) : Reading × Nat :=
  let n := r.names.length
  ({ r with names := (name, n) :: r.names.filter fun entry => entry.1 != name }, n)

/-- The number of a name. -/
def number? (r : Reading) (name : List Char) : Option Nat :=
  r.names.lookup name

/-- Takes an anchor off the front. -/
def takeAnchor (r : Reading) : Option Nat × Reading :=
  match r.next? with
  | some (.anchor name) =>
    let (r, n) := r.skip.bind name
    (some n, r)
  | _ => (none, r)

/-- Takes a tag off the front. -/
def takeTag (r : Reading) : Option ShortTag × Reading :=
  match r.next? with
  | some (.tag t) => (some t, r.skip)
  | _ => (none, r)

end Reading

/-- What handles stand for. -/
abbrev Handles := List (List Char × Tag)

namespace Handles

/-- The handles that every document has. -/
def standard : Handles :=
  [(['!'], Tag.ofText "!"), (['!', '!'], Tag.standard "")]

/-- A tag in full; its handle has to be known. -/
def resolve? (hs : Handles) (t : ShortTag) : Option Tag :=
  if t.handle.isEmpty then some t.suffix
  else (hs.lookup t.handle).map (· ++ t.suffix)

/-- Reads the properties before a node, at most one of each kind in any order. -/
def readProperties? (hs : Handles) (r : Reading) : Option (Properties × Reading) := do
  let (before, r) := r.takeAnchor
  let (tag, r) := r.takeTag
  let (anchor, r) := if before.isNone && tag.isSome then r.takeAnchor else (before, r)
  match tag with
  | none => return (⟨anchor, none⟩, r)
  | some t => return (⟨anchor, some (← hs.resolve? t)⟩, r)

end Handles

mutual

/-- Reads a node.  `block` tells whether a block may begin here, `flat` whether the entries of a
sequence may stand at the column of the mapping around it. -/
def readNode? (hs : Handles) (block flat : Bool) : Nat → Reading → Option (Node × Reading)
  | 0, _ => none
  | bound + 1, r =>
    match r.next? with
    | some (.alias name) => (r.number? name).map fun n => (.alias n, r.skip)
    | _ =>
      match hs.readProperties? r with
      | none => none
      | some (p, r) =>
        if flat && r.isAt [.blockEntry] then
          (readFlatEntries? hs bound [] r).map fun (items, r) => (.sequence p items, r)
        else
          match r.next? with
          | some (.scalar style text) => some (.scalar p style text, r.skip)
          | some .flowSequenceStart =>
            (readFlowItems? hs bound [] r.skip).map fun (items, r) => (.sequence p items, r)
          | some .flowMappingStart =>
            (readFlowEntries? hs bound [] r.skip).map fun (entries, r) => (.mapping p entries, r)
          | next =>
            if block && next == some .blockSequenceStart then
              (readBlockItems? hs bound [] r.skip).map fun (items, r) => (.sequence p items, r)
            else if block && next == some .blockMappingStart then
              (readBlockEntries? hs bound [] r.skip).map fun (entries, r) => (.mapping p entries, r)
            else if p == Node.noProperties then none
            else some (.scalar p .plain [], r)

/-- Reads a node of a block, or nothing before one of some tokens. -/
def readBlockNode? (hs : Handles) (flat : Bool) (stops : List Token) :
    Nat → Reading → Option (Node × Reading)
  | 0, _ => none
  | bound + 1, r => if r.isAt stops then some (Node.empty, r) else readNode? hs true flat bound r

/-- Reads a node of a flow collection, or nothing before one of some tokens. -/
def readFlowNode? (hs : Handles) (stops : List Token) : Nat → Reading → Option (Node × Reading)
  | 0, _ => none
  | bound + 1, r => if r.isAt stops then some (Node.empty, r) else readNode? hs false false bound r

/-- Reads the value of a key in a flow collection, which may be missing. -/
def readFlowValue? (hs : Handles) (stops : List Token) : Nat → Reading → Option (Node × Reading)
  | 0, _ => none
  | bound + 1, r =>
    if r.isAt [.value] then readFlowNode? hs stops bound r.skip else some (Node.empty, r)

/-- Reads the items of a sequence in a block and its end.  Items are kept in reverse. -/
def readBlockItems? (hs : Handles) : Nat → List Node → Reading → Option (List Node × Reading)
  | 0, _, _ => none
  | bound + 1, items, r =>
    match r.next? with
    | some .blockEntry =>
      match readBlockNode? hs false [.blockEntry, .blockEnd] bound r.skip with
      | none => none
      | some (item, r) => readBlockItems? hs bound (item :: items) r
    | some .blockEnd => some (items.reverse, r.skip)
    | _ => none

/-- Reads the items of a sequence at the column of the mapping around it. -/
def readFlatEntries? (hs : Handles) : Nat → List Node → Reading → Option (List Node × Reading)
  | 0, _, _ => none
  | bound + 1, items, r =>
    if r.isAt [.blockEntry] then
      match readBlockNode? hs false [.blockEntry, .key, .value, .blockEnd] bound r.skip with
      | none => none
      | some (item, r) => readFlatEntries? hs bound (item :: items) r
    else some (items.reverse, r)

/-- Reads the entries of a mapping in a block and its end. -/
def readBlockEntries? (hs : Handles) :
    Nat → List (Node × Node) → Reading → Option (List (Node × Node) × Reading)
  | 0, _, _ => none
  | bound + 1, entries, r =>
    let stops : List Token := [.key, .value, .blockEnd]
    match r.next? with
    | some .key =>
      match readBlockNode? hs true stops bound r.skip with
      | none => none
      | some (key, r) =>
        if r.isAt [.value] then
          match readBlockNode? hs true stops bound r.skip with
          | none => none
          | some (value, r) => readBlockEntries? hs bound ((key, value) :: entries) r
        else readBlockEntries? hs bound ((key, Node.empty) :: entries) r
    | some .blockEnd => some (entries.reverse, r.skip)
    | _ => none

/-- Reads the items of a sequence in flow style and its end.  A key and its value make an item that
is a mapping. -/
def readFlowItems? (hs : Handles) : Nat → List Node → Reading → Option (List Node × Reading)
  | 0, _, _ => none
  | bound + 1, items, r =>
    let stops : List Token := [.flowEntry, .flowSequenceEnd]
    if r.isAt [.flowSequenceEnd] then some (items.reverse, r.skip)
    else if !items.isEmpty && !r.isAt [.flowEntry] then none
    else
      let r := if items.isEmpty then r else r.skip
      if r.isAt [.key] then
        let r := r.skip
        let key? :=
          if r.isAt (.value :: stops) then some (Node.empty, r.skip)
          else readNode? hs false false bound r
        match key? with
        | none => none
        | some (key, r) =>
          match readFlowValue? hs stops bound r with
          | none => none
          | some (value, r) =>
            readFlowItems? hs bound (.mapping Node.noProperties [(key, value)] :: items) r
      else if r.isAt [.flowSequenceEnd] then some (items.reverse, r.skip)
      else
        match readNode? hs false false bound r with
        | none => none
        | some (item, r) => readFlowItems? hs bound (item :: items) r

/-- Reads the entries of a mapping in flow style and its end. -/
def readFlowEntries? (hs : Handles) :
    Nat → List (Node × Node) → Reading → Option (List (Node × Node) × Reading)
  | 0, _, _ => none
  | bound + 1, entries, r =>
    let stops : List Token := [.flowEntry, .flowMappingEnd]
    if r.isAt [.flowMappingEnd] then some (entries.reverse, r.skip)
    else if !entries.isEmpty && !r.isAt [.flowEntry] then none
    else
      let r := if entries.isEmpty then r else r.skip
      if r.isAt [.key] then
        match readFlowNode? hs (.value :: stops) bound r.skip with
        | none => none
        | some (key, r) =>
          match readFlowValue? hs stops bound r with
          | none => none
          | some (value, r) => readFlowEntries? hs bound ((key, value) :: entries) r
      else if r.isAt [.flowMappingEnd] then some (entries.reverse, r.skip)
      else
        match readNode? hs false false bound r with
        | none => none
        | some (key, r) => readFlowEntries? hs bound ((key, Node.empty) :: entries) r

end

end ListingQuery.Document
