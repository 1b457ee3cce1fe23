import VectorIcons.Text.GraphemeExtend
import VectorIcons.Text.Unprintable

/-!
# Quoted text

A quoted text stands between double quotes.  Quotes and backslashes in it have a
backslash before them, tab, return, line feed and the zero character have letters
of their own, and any other character that does not print, or that would be drawn
onto the character before it, is written by its number.
-/

namespace VectorIcons
namespace Text

/-- A character by its number: a backslash, `u`, and the hexadecimal digits in
braces. -/
def numberedEscape (c : Char) : List Char :=
  ['\\', 'u', '\x7b'] ++ Nat.toDigits 16 c.toNat ++ ['\x7d']

/-- How a character is written between quotes. -/
def escape (c : Char) : List Char :=
  if c = '"' then ['\\', '"']
  else if c = '\\' then ['\\', '\\']
  else if c = '\t' then ['\\', 't']
  else if c = '\r' then ['\\', 'r']
  else if c = '\n' then ['\\', 'n']
  else if c.toNat = 0 then ['\\', '0']
  else if isGraphemeExtend c || isUnprintable c then numberedEscape c
  else [c]

def quoted (text : String) : String :=
  String.ofList ('"' :: (text.toList.flatMap escape ++ ['"']))

end Text
end VectorIcons
