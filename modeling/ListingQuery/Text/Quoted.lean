import ListingQuery.Text.Unprintable

/-!
# Quoted text

A text between double quotes in which every character that does not show as itself is escaped, so
that the quoted text stays on one line and shows exactly which characters it holds.
-/

namespace ListingQuery.Text

/-- The hexadecimal digits of a number, small letters, no leading zeros. -/
def hexDigits (n : Nat) : List Char :=
  Nat.toDigits 16 n

/-- A character as it stands between quotes. -/
def escapeOne (c : Char) : List Char :=
  if c = '"' then ['\\', '"']
  else if c = '\\' then ['\\', '\\']
  else if c = '\n' then ['\\', 'n']
  else if c = '\r' then ['\\', 'r']
  else if c = '\t' then ['\\', 't']
  else if c = Char.ofNat 0 then ['\\', '0']
  else if isPrintable c then [c]
  else ['\\', 'u', '\x7b'] ++ hexDigits c.toNat ++ ['\x7d']

/-- The text between double quotes, escaped. -/
def quoted (cs : List Char) : List Char :=
  '"' :: (cs.flatMap escapeOne ++ ['"'])

end ListingQuery.Text
