import ListingQuery.Json.Basic
import ListingQuery.Number.Shortest

/-!
# JSON text

`Json.text` writes a tree on one line without blanks.  `Json.prettyText` writes one item or member
on a line, indented by two blanks a level, with a blank after each colon; an empty array or object
stays closed up.  Quotes, backslashes and the control characters below the blank are escaped,
everything else stands for itself.
-/

namespace ListingQuery.Json

/-- The hexadecimal digit of a number below sixteen. -/
def hexDigit (n : Nat) : Char :=
  if n < 10 then Char.ofNat (48 + n) else Char.ofNat (87 + n)

/-- A character as it stands between the quotes of a JSON text. -/
def escapeOne (c : Char) : List Char :=
  if c = '"' then ['\\', '"']
  else if c = '\\' then ['\\', '\\']
  else if c.toNat < 0x20 then
    if c.toNat = 0x08 then ['\\', 'b']
    else if c.toNat = 0x09 then ['\\', 't']
    else if c.toNat = 0x0A then ['\\', 'n']
    else if c.toNat = 0x0C then ['\\', 'f']
    else if c.toNat = 0x0D then ['\\', 'r']
    else ['\\', 'u', '0', '0', hexDigit (c.toNat / 16), hexDigit (c.toNat % 16)]
  else [c]

/-- A text between quotes. -/
def strText (s : String) : List Char :=
  '"' :: (s.toList.flatMap escapeOne ++ ['"'])

/-- The text of a tree without parts.  What has no value is written as `null`. -/
def scalarText : Json → List Char
  | .bool true => ['t', 'r', 'u', 'e']
  | .bool false => ['f', 'a', 'l', 's', 'e']
  | .int i => Decimal.ofInt i
  | .float x => NumberLayout.json.text x
  | .str s => strText s
  | _ => ['n', 'u', 'l', 'l']

mutual

/-- The text of a tree on one line. -/
def text : Json → List Char
  | .array items => '[' :: (itemsText items ++ [']'])
  | .object members => '\x7b' :: (membersText members ++ ['\x7d'])
  | j => scalarText j

/-- The items of an array with commas between them. -/
def itemsText : List Json → List Char
  | [] => []
  | [j] => text j
  | j :: k :: rest => text j ++ ',' :: itemsText (k :: rest)

/-- The members of an object with commas between them. -/
def membersText : List (String × Json) → List Char
  | [] => []
  | [(key, j)] => strText key ++ ':' :: text j
  | (key, j) :: m :: rest => strText key ++ ':' :: text j ++ ',' :: membersText (m :: rest)

end

/-- The beginning of a line at a level. -/
def newLine (level : Nat) : List Char :=
  '\n' :: List.replicate (2 * level) ' '

mutual

/-- The text of a tree over several lines; the tree begins on a line of the given level. -/
def prettyText (level : Nat) : Json → List Char
  | .array [] => ['[', ']']
  | .array (j :: js) => '[' :: (prettyItems (level + 1) (j :: js) ++ newLine level ++ [']'])
  | .object [] => ['\x7b', '\x7d']
  | .object (m :: ms) =>
    '\x7b' :: (prettyMembers (level + 1) (m :: ms) ++ newLine level ++ ['\x7d'])
  | j => scalarText j

/-- The items of an array, each on lines of its own. -/
def prettyItems (level : Nat) : List Json → List Char
  | [] => []
  | [j] => newLine level ++ prettyText level j
  | j :: k :: rest => newLine level ++ prettyText level j ++ ',' :: prettyItems level (k :: rest)

/-- The members of an object, each on lines of its own. -/
def prettyMembers (level : Nat) : List (String × Json) → List Char
  | [] => []
  | [(key, j)] => newLine level ++ strText key ++ ':' :: ' ' :: prettyText level j
  | (key, j) :: m :: rest =>
    newLine level ++ strText key ++ ':' :: ' ' :: prettyText level j ++
      ',' :: prettyMembers level (m :: rest)

end

/-- The tree on one line, as a string. -/
def compact (j : Json) : String :=
  String.ofList j.text

/-- The tree over several lines, as a string. -/
def pretty (j : Json) : String :=
  String.ofList (j.prettyText 0)

end ListingQuery.Json
