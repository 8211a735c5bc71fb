import ListingQuery.Filter.Region
import ListingQuery.QueryError

/-!
# Tokens of filters

A filter is read as parentheses, connectives and fragments.  The connectives are the words `and`,
`or` and `not` in letters of any case, or `&&`, `||` and a `!` that opens a word and does not begin
an operator.  A fragment is the text of a condition: words that follow each other are one fragment,
with single blanks between them.  Blanks and connectives inside quotes and lists are text.
-/

namespace ListingQuery.Filter

/-- The tokens of filters.  A fragment knows of how many words it was joined. -/
inductive Token where
  | openParen
  | closeParen
  | and
  | or
  | not
  | fragment (text : List Char) (words : Nat)
deriving DecidableEq, Repr

namespace Token

/-- How messages name a token. -/
def describe : Token → String
  | openParen => "'('"
  | closeParen => "')'"
  | and => "AND"
  | or => "OR"
  | not => "NOT"
  | fragment text _ => "condition '" ++ String.ofList text ++ "'"

/-- The token of a word. -/
def ofWord (word : List Char) : Token :=
  if Text.sameLetters word ['a', 'n', 'd'] then and
  else if Text.sameLetters word ['o', 'r'] then or
  else if Text.sameLetters word ['n', 'o', 't'] then not
  else fragment word 1

/-- Ends a word, given in reverse, in front of which the tokens `out` stand, in reverse. -/
def flush (word : List Char) (out : List Token) : List Token :=
  if word.isEmpty then out else ofWord word.reverse :: out

/-- Does an exclamation mark before this text begin an operator? -/
def beginsOperator (rest : List Char) : Bool :=
  match rest with
  | c :: _ => c == '=' || c == '%' || c == '~'
  | [] => false

/-- Reads the tokens of a text, one fragment for each word.  The word being read and the tokens so
far are kept in reverse. -/
def scan (r : Region) (word : List Char) (out : List Token) :
    List Char → Except QueryError (List Token)
  | [] =>
    match r.quote with
    | some q => .error (.malformedFilter ("unterminated " ++ String.singleton q ++ " quote"))
    | none =>
      if 0 < r.brackets then .error (.malformedFilter "unterminated list literal")
      else .ok (flush word out).reverse
  | c :: rest =>
    if r.isOpen word c then
      if Text.isBlank c then scan r [] (flush word out) rest
      else if c = '(' then scan r [] (openParen :: flush word out) rest
      else if c = ')' then scan r [] (closeParen :: flush word out) rest
      else if c = '!' ∧ word = [] ∧ beginsOperator rest = false then scan r [] (not :: out) rest
      else
        match rest with
        | [] => scan r (c :: word) out []
        | d :: more =>
          if c = '&' ∧ d = '&' then scan r [] (and :: flush word out) more
          else if c = '|' ∧ d = '|' then scan r [] (or :: flush word out) more
          else scan r (c :: word) out (d :: more)
    else scan (r.next word c) (c :: word) out rest

/-- Puts a token before others; a fragment joins a fragment that follows it. -/
def join (t : Token) (ts : List Token) : List Token :=
  match t, ts with
  | fragment a m, fragment b n :: rest => fragment (a ++ ' ' :: b) (m + n) :: rest
  | t, ts => t :: ts

/-- The tokens of a filter. -/
def ofText (cs : List Char) : Except QueryError (List Token) :=
  (scan Region.outside [] [] cs).map fun words => words.foldr join []

end Token

end ListingQuery.Filter
