import MusicMacro.Text.Unprintable

/-!
# Quoted text

A message quotes a text between double quotes and escapes what could not be read back or seen.

* `Quoted.escape` : one character as it stands between quotes;
* `Quoted.quote` : a whole text with its quotes.
-/

namespace MusicMacro.Quoted

/-- The hexadecimal code point of a character, in lower case and without leading zeros. -/
def codePoint (c : Char) : List Char := ['\\', 'u', '\x7b'] ++ Nat.toDigits 16 c.toNat ++ ['\x7d']

/-- One character as it stands between quotes: the usual short escapes, a code point for what has no shape of its
own, and the character itself otherwise. -/
def escape (c : Char) : List Char :=
  if c = '\x00' then ['\\', '0']
  else if c = '\t' then ['\\', 't']
  else if c = '\r' then ['\\', 'r']
  else if c = '\n' then ['\\', 'n']
  else if c = '\\' then ['\\', '\\']
  else if c = '"' then ['\\', '"']
  else if Unprintable.contains c then codePoint c
  else [c]

def quote (text : List Char) : List Char := '"' :: (text.flatMap escape ++ ['"'])

end MusicMacro.Quoted
