import MusicMacro.Yaml.Character

/-!
# Places in a YAML text

* `Position` : a place, by its distance from the start in octets, and by line and column;
* `Cursor` : what is left of a text, and the position where it begins;
* `Cursor.atMarker` : whether a document begins or ends here;
* `Fault` : where a text stops being YAML, and what was looked for there.
-/

namespace MusicMacro.Yaml

/-- A place in a text; lines and columns are counted from 0. -/
structure Position where
  /-- The number of octets before it, in UTF-8. -/
  index : Nat := 0
  line : Nat := 0
  column : Nat := 0
  deriving DecidableEq, Repr, Inhabited

/-- The place where a text stops being YAML. -/
structure Fault where
  position : Position
  expected : String
  deriving DecidableEq, Repr

def Fault.message (f : Fault) : String :=
  "expected " ++ f.expected ++ " at line " ++ toString (f.position.line + 1) ++ " column "
    ++ toString (f.position.column + 1)

namespace Position

/-- The place after a character. A column is a character; the distance from the start is in octets. -/
def after (p : Position) (c : Char) : Position :=
  if isBreak c then ⟨p.index + c.utf8Size, p.line + 1, 0⟩ else ⟨p.index + c.utf8Size, p.line, p.column + 1⟩

def fail {α : Type} (p : Position) (expected : String) : Except Fault α := .error ⟨p, expected⟩

/-- Whether a document begins or ends here. -/
def atMarker (p : Position) (rest : List Char) : Bool :=
  p.column == 0 && (rest.take 3 == ['-', '-', '-'] || rest.take 3 == ['.', '.', '.']) && blankAhead (rest.drop 3)

end Position

/-- A place in a text with what is left from there on. -/
structure Cursor extends Position where
  rest : List Char
  deriving Repr

namespace Cursor

def advance (c : Cursor) (n : Nat) : Cursor :=
  ⟨(c.rest.take n).foldl Position.after c.toPosition, c.rest.drop n⟩

def next (c : Cursor) : Cursor := c.advance 1

/-- Past the characters that have a property, with those characters. -/
def span (c : Cursor) (p : Char → Bool) : List Char × Cursor :=
  let run := c.rest.takeWhile p
  (run, c.advance run.length)

/-- Going on takes characters from the front. -/
theorem rest_advance (c : Cursor) (n : Nat) : (c.advance n).rest = c.rest.drop n := rfl

/-- Going past a run loses nothing of the text. -/
theorem span_append_rest (c : Cursor) (p : Char → Bool) : (c.span p).1 ++ (c.span p).2.rest = c.rest := by
  show c.rest.takeWhile p ++ c.rest.drop (c.rest.takeWhile p).length = c.rest
  rw [← List.prefix_iff_eq_append]
  exact List.takeWhile_prefix p

def skipBlanks (c : Cursor) : Cursor := (c.span isBlank).2

def atMarker (c : Cursor) : Bool := c.toPosition.atMarker c.rest

/-- Past the blanks of the line and a comment after them: to the end of the line, if nothing else is left of it. -/
def lineEnd? (c : Cursor) : Option Cursor :=
  let c := c.skipBlanks
  let c := if c.rest.head? == some '#' then (c.span fun ch => !isBreak ch).2 else c
  if c.rest.head?.all isBreak then some c else none

/-- Skips blanks, comments and line ends. The flag tells whether a tab is a blank at the start of a line; a byte order
mark is one. -/
def skipGapFrom (tabs here comment ended : Bool) (p : Position) : List Char → Bool × Cursor
  | [] => (ended, ⟨p, []⟩)
  | c :: rest =>
    if isBreak c then skipGapFrom tabs tabs false true (p.after c) rest
    else if comment || c == ' ' || (c == '\t' && here) || (c == byteOrderMark && p.column == 0) then
      skipGapFrom tabs here comment ended (p.after c) rest
    else if c == '#' then skipGapFrom tabs here true ended (p.after c) rest
    else (ended, ⟨p, c :: rest⟩)

/-- Past blanks, comments and line ends, and whether there is a line end among them. Tabs are blanks on the first line,
if `here` says so, and on the others, if `tabs` does. -/
def skipGap (c : Cursor) (tabs here : Bool) : Bool × Cursor := skipGapFrom tabs here false false c.toPosition c.rest

end Cursor

end MusicMacro.Yaml
