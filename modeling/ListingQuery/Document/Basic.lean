import ListingQuery.Document.Node

/-!
# Query documents as trees

A text holds one document.  Directives and a mark of three hyphens may stand in front of it, marks
of three points behind it.  An empty text is a document in which nothing is written.

Nodes are looked up by the number of their anchor.  Following an alias is counted: in a document of
`n` parts, aliases are followed at most `100 * n` times, so that nodes that repeat each other do not
unfold without end.
-/

namespace ListingQuery

/-- A document: its root, its nodes by the numbers of their anchors, and the number of its parts, of
which a scalar or an alias is one and a collection two beside its contents. -/
structure Document where
  root : Document.Node
  anchored : List (Nat × Document.Node)
  parts : Nat
deriving Repr

namespace Document

namespace Node

mutual

/-- The number of parts of a node. -/
def parts : Node → Nat
  | .alias _ => 1
  | .scalar .. => 1
  | .sequence _ items => 2 + partsOfItems items
  | .mapping _ entries => 2 + partsOfEntries entries

/-- The number of parts of the items of a sequence. -/
def partsOfItems : List Node → Nat
  | [] => 0
  | node :: nodes => node.parts + partsOfItems nodes

/-- The number of parts of the entries of a mapping. -/
def partsOfEntries : List (Node × Node) → Nat
  | [] => 0
  | (key, value) :: entries => key.parts + value.parts + partsOfEntries entries

end

/-- A node by the number of its own anchor, if it has one. -/
def ownNumber (node : Node) : List (Nat × Node) :=
  match node.anchor? with
  | some n => [(n, node)]
  | none => []

mutual

/-- The nodes with an anchor in a node, by number, in the order in which they begin. -/
def anchored : Node → List (Nat × Node)
  | .alias n => ownNumber (.alias n)
  | .scalar p style text => ownNumber (.scalar p style text)
  | .sequence p items => ownNumber (.sequence p items) ++ anchoredItems items
  | .mapping p entries => ownNumber (.mapping p entries) ++ anchoredEntries entries

/-- The nodes with an anchor in the items of a sequence. -/
def anchoredItems : List Node → List (Nat × Node)
  | [] => []
  | node :: nodes => node.anchored ++ anchoredItems nodes

/-- The nodes with an anchor in the entries of a mapping. -/
def anchoredEntries : List (Node × Node) → List (Nat × Node)
  | [] => []
  | (key, value) :: entries => key.anchored ++ (value.anchored ++ anchoredEntries entries)

end

end Node

/-- The document of a root. -/
def ofRoot (root : Node) : Document :=
  ⟨root, root.anchored.reverse, root.parts⟩

/-! ## Reading -/

/-- Reads the directives in front of a document: the handles that they define, before those that
`handles` holds.  Only one version may be named, `1.1` or `1.2`, and no handle may be defined
twice. -/
def readDirectives? (versioned : Bool) (handles : Handles) :
    List Token → Option (Handles × List Token)
  | .directive (.version major minor) :: ts =>
    if versioned = false ∧ major = 1 ∧ (minor = 1 ∨ minor = 2) then
      readDirectives? true handles ts
    else none
  | .directive (.handle handle front) :: ts =>
    if handles.any fun entry => entry.1 == handle then none
    else readDirectives? versioned (handles ++ [(handle, front)]) ts
  | ts => some (handles, ts)

/-- Does a token begin the front of a document? -/
def Token.beginsFront : Token → Bool
  | .directive _ => true
  | .documentStart => true
  | _ => false

/-- Reads the front of a document, if it has one: the handles, and whether there is a mark behind
which nothing needs to be written. -/
def readFront? (ts : List Token) : Option (Handles × Bool × List Token) :=
  if ts.head?.any Token.beginsFront then
    match readDirectives? false [] ts with
    | some (handles, .documentStart :: ts) => some (handles ++ Handles.standard, true, ts)
    | _ => none
  else some (Handles.standard, false, ts)

/-- Is there nothing but the end of a document, or the front of another one? -/
def endsDocument (ts : List Token) : Bool :=
  match ts with
  | [] => true
  | t :: _ => t.beginsFront || t == .documentEnd

/-- Reads the tokens of a document. -/
def ofTokens? (ts : List Token) : Option Document := do
  if ts.isEmpty then return ofRoot Node.empty
  let (handles, marked, ts) ← readFront? ts
  let (root, r) ←
    if marked && endsDocument ts then some (Node.empty, ⟨ts, []⟩)
    else readNode? handles true false (4 * ts.length + 8) ⟨ts, []⟩
  if (r.tokens.dropWhile (· == .documentEnd)).isEmpty then return ofRoot root else none

/-- Reads a document. -/
def read? (s : String) : Option Document :=
  (tokens? s).bind ofTokens?

/-! ## Following aliases -/

/-- A result that depends on how often an alias may still be followed. -/
abbrev Following := StateT Nat Option

/-- The node that a node stands for. -/
def follow (d : Document) (node : Node) : Following Node :=
  match node with
  | .alias n => fun left =>
    match left, d.anchored.lookup n with
    | left + 1, some target => some (target, left)
    | _, _ => none
  | node => pure node

/-- A result for a document; what cannot be followed has none. -/
def following? {α : Type} (d : Document) (result : Following α) : Option α :=
  result.run' (100 * d.parts)

end Document

end ListingQuery
