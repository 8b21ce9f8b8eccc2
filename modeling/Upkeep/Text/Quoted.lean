import Upkeep.Text.Printable

/-!
# Quoted text in messages

A message shows a text it complains about in double quotes, so that a reader
sees where it begins and ends and what it really holds.  Quotes, backslashes
and the four common controls get a backslash; a character that does not print,
or that prints only on its neighbour, is shown by its code point; all else
stands as it is, the single quote included.
-/

namespace Upkeep.Text

/-- How one character looks inside a quoted text. -/
def quotedChar (c : Char) : List Char :=
  if c = '"' then ['\\', '"']
  else if c = '\\' then ['\\', '\\']
  else if c = '\n' then ['\\', 'n']
  else if c = '\r' then ['\\', 'r']
  else if c = '\t' then ['\\', 't']
  else if c = '\x00' then ['\\', '0']
  -- The tables need not be searched for the characters that texts mostly consist of.
  else if 0x20 ≤ c.toNat ∧ c.toNat < 0x7f then [c]
  else if isCombining c || isUnprintable c then
    ['\\', 'u', '\x7b'] ++ Nat.toDigits 16 c.toNat ++ ['\x7d']
  else [c]

/-- The text in double quotes. -/
def quoted (s : String) : String :=
  String.ofList ('"' :: s.toList.flatMap quotedChar ++ ['"'])

end Upkeep.Text
