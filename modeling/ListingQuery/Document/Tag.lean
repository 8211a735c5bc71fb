import ListingQuery.Document.Cursor
import ListingQuery.Json.Token

/-!
# Tags, anchors and directives

A tag names the type of a node: `!<…>` gives it in full, `!handle!suffix` and `!suffix` give a
handle that stands for the front of the tag, and a suffix.  Directives before a document define
handles and name the version of the format.  An anchor gives a node a name.
-/

namespace ListingQuery.Document

/-- A tag in full, as octets; octets that are no text can be written as `%` and two digits. -/
abbrev Tag := List UInt8

/-- The octet of an ASCII character. -/
def octet (c : Char) : UInt8 := UInt8.ofNat c.toNat

/-- The tag of a text. -/
def Tag.ofText (s : String) : Tag := s.toUTF8.toList

/-- The tag of a type of the format itself. -/
def Tag.standard (name : String) : Tag := Tag.ofText ("tag:yaml.org,2002:" ++ name)

/-- A tag as it is written: a handle and a suffix.  A tag in full has the empty handle. -/
structure ShortTag where
  handle : List Char
  suffix : Tag
deriving DecidableEq, Repr

/-- A directive. -/
inductive Directive where
  | version (major minor : Nat)
  | handle (handle : List Char) (front : Tag)
deriving DecidableEq, Repr

/-- Is the character allowed in a tag?  Commas and brackets only in a tag in full. -/
def isTagChar (full : Bool) (c : Char) : Bool :=
  isNameChar c || ";/?:@&=+$.%!~*'()".toList.contains c || (full && ",[]".toList.contains c)

/-- The octet of `%` and two hexadecimal digits. -/
def escapedOctet? : List Char → Option UInt8
  | '%' :: a :: b :: _ =>
    match Json.hexValue? a, Json.hexValue? b with
    | some a, some b => some (UInt8.ofNat (a * 16 + b))
    | _, _ => none
  | _ => none

/-- How many octets the character has that begins with an octet. -/
def octetCount? (n : UInt8) : Option Nat :=
  if n < 0x80 then some 1
  else if n < 0xC0 then none
  else if n < 0xE0 then some 2
  else if n < 0xF0 then some 3
  else if n < 0xF8 then some 4
  else none

/-- Reads further octets of an escaped character. -/
def followingOctets? : Nat → List Char → Option Tag
  | 0, _ => some []
  | n + 1, cs =>
    match escapedOctet? cs with
    | none => none
    | some b =>
      if 0x80 ≤ b ∧ b < 0xC0 then (followingOctets? n (cs.drop 3)).map (b :: ·) else none

/-- The octets of an escaped character. -/
def escapedOctets? (cs : List Char) : Option Tag := do
  let first ← escapedOctet? cs
  let count ← octetCount? first
  let following ← followingOctets? (count - 1) (cs.drop 3)
  return first :: following

/-- Reads the characters of a tag.  What has been taken is kept in reverse. -/
def readTagText? (full : Bool) : Nat → Tag → Cursor → Option (Tag × Cursor)
  | 0, _, _ => none
  | bound + 1, taken, c =>
    match c.rest with
    | [] => some (taken.reverse, c)
    | x :: _ =>
      if x = '%' then
        match escapedOctets? c.rest with
        | none => none
        | some octets =>
          readTagText? full bound (octets.reverse ++ taken) (c.skip (3 * octets.length))
      else if isTagChar full x then readTagText? full bound (octet x :: taken) (c.skip 1)
      else some (taken.reverse, c)

/-- Reads what follows a handle or stands for a tag in full; it must not be empty. -/
def readSuffix? (full : Bool) (c : Cursor) : Option (Tag × Cursor) :=
  (readTagText? full (c.rest.length + 1) [] c).filter fun r => !r.1.isEmpty

/-- Reads a handle: `!`, `!!` or a name between two of them.  Without the second one the name is no
handle, which the caller decides. -/
def readHandle? (c : Cursor) : Option (List Char × Cursor) :=
  match c.rest with
  | '!' :: rest =>
    let name := rest.takeWhile isNameChar
    let closing := if (rest.drop name.length).head? = some '!' then ['!'] else []
    let handle := '!' :: name ++ closing
    some (handle, c.skip handle.length)
  | _ => none

/-- Reads a tag without checking what ends it. -/
def readShortTag? (c : Cursor) : Option (ShortTag × Cursor) := do
  match c.rest with
  | '!' :: '<' :: _ =>
    let (tag, c) ← readSuffix? true (c.skip 2)
    if c.rest.head? = some '>' then some (⟨[], tag⟩, c.skip 1) else none
  | _ =>
    let (handle, c) ← readHandle? c
    if 2 ≤ handle.length ∧ handle.getLast? = some '!' then
      let (suffix, c) ← readSuffix? false c
      return (⟨handle, suffix⟩, c)
    else
      let (suffix, c) ← readTagText? false (c.rest.length + 1) [] c
      let suffix := handle.tail.map octet ++ suffix
      return (if suffix.isEmpty then ⟨[], handle.map octet⟩ else ⟨['!'], suffix⟩, c)

/-- Reads a tag.  A blank or a line end follows it, or a comma inside a flow collection. -/
def readTag? (inFlow : Bool) (c : Cursor) : Option (ShortTag × Cursor) :=
  (readShortTag? c).filter fun r =>
    endsWord r.2.rest || (inFlow && r.2.rest.head? == some ',')

/-- May the text follow the name of an anchor? -/
def endsAnchor (cs : List Char) : Bool :=
  endsWord cs || cs.head?.any fun c =>
    ['?', ':', ',', ']', '\x7d', '%', '@', Char.ofNat 0x60].contains c

/-- Reads the name of an anchor behind its mark. -/
def readAnchor? (c : Cursor) : Option (List Char × Cursor) :=
  let name := c.rest.takeWhile isNameChar
  let behind := c.skip name.length
  if name.isEmpty || !endsAnchor behind.rest then none else some (name, behind)

/-! ## Directives -/

/-- Reads a part of a version: at most nine digits. -/
def readVersionPart? (c : Cursor) : Option (Nat × Cursor) :=
  let digits := c.rest.takeWhile Decimal.isDigit
  if digits.isEmpty || 9 < digits.length then none
  else some (Decimal.ofDigits digits, c.skip digits.length)

/-- Reads a version: two numbers with a point between. -/
def readVersion? (c : Cursor) : Option (Directive × Cursor) := do
  let (major, c) ← readVersionPart? (c.skipWhile isGap)
  if c.rest.head? = some '.' then
    let (minor, c) ← readVersionPart? (c.skip 1)
    return (.version major minor, c)
  else none

/-- Reads the definition of a handle: the handle and what it stands for. -/
def readDefinition? (c : Cursor) : Option (Directive × Cursor) := do
  let (handle, c) ← readHandle? (c.skipWhile isGap)
  if (handle = ['!'] ∨ handle.getLast? = some '!') ∧ c.rest.head?.any isGap = true then
    let (front, c) ← readSuffix? true (c.skipWhile isGap)
    if endsWord c.rest then some (.handle handle front, c) else none
  else none

/-- Reads a directive behind its mark, to the end of its line. -/
def readDirective? (c : Cursor) : Option (Directive × Cursor) := do
  let name := c.rest.takeWhile isNameChar
  let behind := c.skip name.length
  if endsWord behind.rest then
    let (directive, c) ←
      if name = "YAML".toList then readVersion? behind
      else if name = "TAG".toList then readDefinition? behind
      else none
    return (directive, ← c.nextLine?)
  else none

end ListingQuery.Document
