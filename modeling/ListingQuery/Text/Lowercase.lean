import ListingQuery.Text.Blank
import ListingQuery.Text.CaseTable
import ListingQuery.Text.Unprintable

/-!
# Small letters

`Text.lowercase` writes every capital as its small letter, by the rules of the character standard
that hold in every language: the capital I with a dot becomes two characters, and a capital sigma
at the end of a word becomes a final sigma.  Two texts are equal up to case when their lowercase
forms are the same characters.
-/

namespace ListingQuery.Text

/-- Does the run hold the code point? -/
def CaseRun.holds (run : CaseRun) (n : Nat) : Bool :=
  run.first ≤ n && n ≤ run.last && (n - run.first) % run.stride == 0

/-- The small letter of a character, or the character itself. -/
def lowerOne (c : Char) : List Char :=
  let n := c.toNat
  if n < 0x80 then [asciiLower c]
  else if n = 0x130 then [Char.ofNat 0x69, Char.ofNat 0x307]
  else
    match caseRuns.find? (·.holds n) with
    | some run => [Char.ofNat ((n : Int) + run.shift).toNat]
    | none => [c]

/-- Has the character the property Cased? -/
def isCased (c : Char) : Bool := inRanges casedRanges c.toNat

/-- Has the character the property Case_Ignorable? -/
def isIgnorable (c : Char) : Bool := inRanges ignorableRanges c.toNat

/-- Is the first character that is not ignorable a cased one? -/
def meetsCased (cs : List Char) : Bool :=
  match cs.dropWhile isIgnorable with
  | [] => false
  | c :: _ => isCased c

/-- Writes small letters; `before` is the text already read, in reverse.  A capital sigma is final
when a cased character stands before it and none after it. -/
def lowerAll (before : List Char) : List Char → List Char
  | [] => []
  | c :: rest =>
    let small :=
      if c = 'Σ' then
        if meetsCased before && !meetsCased rest then ['ς'] else ['σ']
      else lowerOne c
    small ++ lowerAll (c :: before) rest

/-- The text in small letters. -/
def lowercase (cs : List Char) : List Char :=
  lowerAll [] cs

/-- Are two texts equal up to case? -/
def sameUpToCase (a b : String) : Bool :=
  lowercase a.toList == lowercase b.toList

end ListingQuery.Text
