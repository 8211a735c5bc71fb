import ListingQuery.Json.Number

/-!
# JSON tokens

The text is read one character at a time.  The machine is between tokens, inside a word (a number
or one of the three names), inside a text, or behind the backslash of a text.  A word ends before
the first blank, quote or mark; a text is taken whole and its escapes are resolved afterwards.
-/

namespace ListingQuery.Json

/-- The tokens of JSON text.  A text with half of a surrogate pair has no value. -/
inductive Token where
  | openBracket
  | closeBracket
  | openBrace
  | closeBrace
  | colon
  | comma
  | str (s : Option String)
  | scalar (j : Json)
deriving Repr, Inhabited

/-- Is the character a blank of JSON? -/
def isSpace (c : Char) : Bool :=
  c == ' ' || c == '\n' || c == '\t' || c == '\r'

/-- The token of a mark. -/
def mark? (c : Char) : Option Token :=
  if c = '[' then some .openBracket
  else if c = ']' then some .closeBracket
  else if c = '\x7b' then some .openBrace
  else if c = '\x7d' then some .closeBrace
  else if c = ':' then some .colon
  else if c = ',' then some .comma
  else none

/-- The value of a hexadecimal digit. -/
def hexValue? (c : Char) : Option Nat :=
  let n := c.toNat
  if 48 ≤ n ∧ n ≤ 57 then some (n - 48)
  else if 97 ≤ n ∧ n ≤ 102 then some (n - 87)
  else if 65 ≤ n ∧ n ≤ 70 then some (n - 55)
  else none

/-- The value of four hexadecimal digits. -/
def hexValue4? (a b c d : Char) : Option Nat :=
  match hexValue? a, hexValue? b, hexValue? c, hexValue? d with
  | some a, some b, some c, some d => some (((a * 16 + b) * 16 + c) * 16 + d)
  | _, _, _, _ => none

/-- The character of an escape of one letter. -/
def shortEscape? (c : Char) : Option Char :=
  if c = '"' ∨ c = '\\' ∨ c = '/' then some c
  else if c = 'b' then some (Char.ofNat 0x08)
  else if c = 'f' then some (Char.ofNat 0x0C)
  else if c = 'n' then some '\n'
  else if c = 'r' then some '\r'
  else if c = 't' then some '\t'
  else none

/-- One step in a text: a character, or one half of a surrogate pair. -/
inductive TextUnit where
  | char (c : Char)
  | high (n : Nat)
  | low (n : Nat)

/-- The unit of an escape with four digits. -/
def TextUnit.ofCode (n : Nat) : TextUnit :=
  if 0xD800 ≤ n ∧ n < 0xDC00 then .high (n - 0xD800)
  else if 0xDC00 ≤ n ∧ n < 0xE000 then .low (n - 0xDC00)
  else .char (Char.ofNat n)

/-- The units of what stands between two quotes.  Control characters have to be escaped. -/
def textUnits? : List Char → Option (List TextUnit)
  | [] => some []
  | '\\' :: 'u' :: a :: b :: c :: d :: rest =>
    match hexValue4? a b c d with
    | some n => (textUnits? rest).map (TextUnit.ofCode n :: ·)
    | none => none
  | '\\' :: c :: rest =>
    match shortEscape? c with
    | some e => (textUnits? rest).map (TextUnit.char e :: ·)
    | none => none
  | c :: rest =>
    if c.toNat < 0x20 ∨ c = '\\' then none
    else (textUnits? rest).map (TextUnit.char c :: ·)

/-- Joins the units; a half without its other half makes the text unreadable. -/
def joinUnits? : List TextUnit → Option (List Char)
  | [] => some []
  | .char c :: rest => (joinUnits? rest).map (c :: ·)
  | .high h :: .low l :: rest =>
    (joinUnits? rest).map (Char.ofNat (0x10000 + h * 0x400 + l) :: ·)
  | .high _ :: _ => none
  | .low _ :: _ => none

/-- The token of a text, from what stands between its quotes. -/
def strToken? (inner : List Char) : Option Token :=
  (textUnits? inner).map fun units => .str ((joinUnits? units).map String.ofList)

/-- The token of a word. -/
def wordToken? (word : List Char) : Option Token :=
  if word = ['n', 'u', 'l', 'l'] then some (.scalar .null)
  else if word = ['t', 'r', 'u', 'e'] then some (.scalar (.bool true))
  else if word = ['f', 'a', 'l', 's', 'e'] then some (.scalar (.bool false))
  else (number? word).map .scalar

/-- Where the machine stands.  What has been taken is kept in reverse. -/
inductive Place where
  | between
  | word (taken : List Char)
  | text (taken : List Char)
  | behindBackslash (taken : List Char)

/-- The machine: the tokens so far, in reverse, and its place. -/
structure Scanner where
  tokens : List Token
  place : Place

namespace Scanner

/-- Takes a character between tokens. -/
def start (tokens : List Token) (c : Char) : Scanner :=
  if isSpace c then ⟨tokens, .between⟩
  else if c = '"' then ⟨tokens, .text []⟩
  else
    match mark? c with
    | some t => ⟨t :: tokens, .between⟩
    | none => ⟨tokens, .word [c]⟩

/-- Does the character end a word? -/
def endsWord (c : Char) : Bool :=
  isSpace c || c == '"' || (mark? c).isSome

/-- Takes a character. -/
def step? (s : Scanner) (c : Char) : Option Scanner :=
  match s.place with
  | .between => some (start s.tokens c)
  | .word taken =>
    if endsWord c then
      (wordToken? taken.reverse).map fun t => start (t :: s.tokens) c
    else some ⟨s.tokens, .word (c :: taken)⟩
  | .text taken =>
    if c = '"' then (strToken? taken.reverse).map fun t => ⟨t :: s.tokens, .between⟩
    else if c = '\\' then some ⟨s.tokens, .behindBackslash (c :: taken)⟩
    else some ⟨s.tokens, .text (c :: taken)⟩
  | .behindBackslash taken => some ⟨s.tokens, .text (c :: taken)⟩

/-- The tokens at the end of the text. -/
def finish? (s : Scanner) : Option (List Token) :=
  match s.place with
  | .between => some s.tokens.reverse
  | .word taken => (wordToken? taken.reverse).map fun t => (t :: s.tokens).reverse
  | _ => none

end Scanner

/-- The tokens of a text. -/
def tokens? (cs : List Char) : Option (List Token) :=
  (cs.foldlM Scanner.step? ⟨[], .between⟩).bind Scanner.finish?

end ListingQuery.Json
