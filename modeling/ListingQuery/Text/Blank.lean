/-!
# Blanks

A blank is a character with the property White_Space of the character standard: the six ASCII
blanks, the no-break space and the spaces and separators beyond ASCII.  Every grammar of a query
(filters, sort keys, paging, attachments, numbers) skips blanks in this sense.

Texts are read as lists of characters; the text before a position is kept in reverse, so that its
last character is at the head.
-/

namespace ListingQuery.Text

/-- Has the character the property White_Space? -/
def isBlank (c : Char) : Bool :=
  let n := c.toNat
  (9 ≤ n && n ≤ 13) || n == 0x20 || n == 0x85 || n == 0xA0 || n == 0x1680 ||
    (0x2000 ≤ n && n ≤ 0x200A) || n == 0x2028 || n == 0x2029 || n == 0x202F || n == 0x205F ||
    n == 0x3000

/-- The text without its leading blanks. -/
def trimStart (cs : List Char) : List Char :=
  cs.dropWhile isBlank

/-- The text without its trailing blanks. -/
def trimEnd (cs : List Char) : List Char :=
  (cs.reverse.dropWhile isBlank).reverse

/-- The text without blanks at either end. -/
def trim (cs : List Char) : List Char :=
  trimEnd (trimStart cs)

/-- Is there nothing in the text but blanks? -/
def isAllBlank (cs : List Char) : Bool :=
  cs.all isBlank

/-- Cuts the text at the first character that is a separator, which belongs to neither part. -/
def cut? (separates : Char → Bool) : List Char → Option (List Char × List Char)
  | [] => none
  | c :: cs =>
    if separates c then some ([], cs)
    else (cut? separates cs).map fun parts => (c :: parts.1, parts.2)

/-- What stands between an opening and a closing character at the two ends of a text. -/
def between? (opening closing : Char) (cs : List Char) : Option (List Char) :=
  match cs with
  | [] => none
  | c :: rest =>
    if c = opening then
      match rest.reverse with
      | [] => none
      | d :: inner => if d = closing then some inner.reverse else none
    else none

/-- An ASCII capital becomes the small letter; every other character stays. -/
def asciiLower (c : Char) : Char :=
  if 'A' ≤ c ∧ c ≤ 'Z' then Char.ofNat (c.toNat + 32) else c

/-- An ASCII small letter becomes the capital; every other character stays. -/
def asciiUpper (c : Char) : Char :=
  if 'a' ≤ c ∧ c ≤ 'z' then Char.ofNat (c.toNat - 32) else c

/-- Are two texts equal up to the case of ASCII letters? -/
def sameLetters (a b : List Char) : Bool :=
  a.map asciiLower == b.map asciiLower

end ListingQuery.Text
