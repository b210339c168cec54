/-!
# Characters of YAML

* `isAllowed` : whether a character may stand in a text at all;
* `isBlank`, `isBreak` : blanks within a line, and line ends; `blankAhead` : either of them, or the end of the text;
* `isNameChar`, `isTagChar` : the characters of names and of tags;
* `unifyBreaks` : line ends written the same way (`carriageReturn_notMem_unifyBreaks` : none is a carriage return).
-/

namespace MusicMacro.Yaml

/-- Whether a character may stand in a text at all: line ends, tabs and everything that can be printed. -/
def isAllowed (c : Char) : Bool :=
  let n := c.toNat
  n == 0x9 || n == 0xa || n == 0xd || (0x20 ≤ n && n ≤ 0x7e) || n == 0x85 || (0xa0 ≤ n && n ≤ 0xfffd) || 0x10000 ≤ n

def isBlank (c : Char) : Bool := c == ' ' || c == '\t'

/-- The end of a line, once the ways to write one are unified; the separators of lines and of paragraphs stay. -/
def isBreak (c : Char) : Bool := c == '\n' || c == '\u2028' || c == '\u2029'

/-- Whether a text begins with a blank or a line end, or is at its end. -/
def blankAhead : List Char → Bool
  | [] => true
  | c :: _ => isBlank c || isBreak c

/-- The mark that may stand before a text to tell how it is encoded. -/
def byteOrderMark : Char := '\ufeff'

def isNameChar (c : Char) : Bool := c.isAlphanum || c == '_' || c == '-'

def isFlowSign (c : Char) : Bool := ",[]\x7b\x7d".toList.elem c

/-- Whether a character may stand in a tag. A comma and the brackets of a list may stand in one that is written out. -/
def isTagChar (written : Bool) (c : Char) : Bool :=
  isNameChar c || ";/?:@&=+$.%!~*'()".toList.elem c || (written && ",[]".toList.elem c)

def hexDigit? (c : Char) : Option Nat :=
  if c.isDigit then some (c.toNat - '0'.toNat)
  else if 'a' ≤ c ∧ c ≤ 'f' then some (c.toNat - 'a'.toNat + 10)
  else if 'A' ≤ c ∧ c ≤ 'F' then some (c.toNat - 'A'.toNat + 10)
  else none

/-- The number that digits write in a base, if all of them belong to it. -/
def readDigits? (base : Nat) (digits : List Char) : Option Nat :=
  if digits.isEmpty then none
  else digits.foldlM (fun n c => (hexDigit? c).bind fun d => if d < base then some (base * n + d) else none) 0

/-- A text in which every line ends with a single line feed, but for the separators of lines and of paragraphs. -/
def unifyBreaks : List Char → List Char
  | '\r' :: '\n' :: rest => '\n' :: unifyBreaks rest
  | c :: rest => (if c == '\r' || c == '\x85' then '\n' else c) :: unifyBreaks rest
  | [] => []

/-- No line ends with a carriage return any more. -/
theorem carriageReturn_notMem_unifyBreaks (text : List Char) : '\r' ∉ unifyBreaks text := by
  fun_induction unifyBreaks text with
  | case1 rest ih => simpa using ih
  | case2 c rest _ ih =>
    simp only [List.mem_cons, not_or]
    refine ⟨?_, ih⟩
    split
    · decide
    · rintro rfl
      simp_all
  | case3 => simp

end MusicMacro.Yaml
