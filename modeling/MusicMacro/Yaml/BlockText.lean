import MusicMacro.Yaml.Cursor

/-!
# Block texts

A block text stands on the lines after its indicator, without the indentation that all of them share.

* `BlockHeader` : what stands on the line of the indicator;
* `BlockDraft` : the text so far, with the line ends whose meaning is still open;
* `blockText` : reads a whole block text.
-/

namespace MusicMacro.Yaml

/-- What becomes of the line ends after a block text. -/
inductive Chomping where
  | strip
  | clip
  | keep
  deriving DecidableEq, Repr

/-- What stands on the line of the indicator. -/
structure BlockHeader where
  /-- How deep the lines are indented, if that is said, counted from what the text belongs to. -/
  indent? : Option Nat := none
  chomping : Chomping := .clip
  deriving Repr

def Chomping.ofChar? : Char → Option Chomping
  | '+' => some .keep
  | '-' => some .strip
  | _ => none

def indentOf? (c : Char) : Option Nat := if c.isDigit && c != '0' then some (c.toNat - '0'.toNat) else none

/-- What some signs say, in either order. -/
def BlockHeader.ofFlags? : List Char → Option BlockHeader
  | [] => some {}
  | [a] =>
    match Chomping.ofChar? a, indentOf? a with
    | some chomping, _ => some { chomping }
    | none, some n => some { indent? := some n }
    | none, none => none
  | [a, b] =>
    match Chomping.ofChar? a, indentOf? b, indentOf? a, Chomping.ofChar? b with
    | some chomping, some n, _, _ | _, _, some n, some chomping => some ⟨some n, chomping⟩
    | _, _, _, _ => none
  | _ => none

/-- Reads the line of the indicator, from behind the indicator on. -/
def blockHeader (c : Cursor) : Except Fault (BlockHeader × Cursor) :=
  let (flags, after) := c.span fun ch => ch == '+' || ch == '-' || ch.isDigit
  match BlockHeader.ofFlags? flags, after.lineEnd? with
  | some header, some lineEnd => .ok (header, lineEnd.next)
  | none, _ => c.fail "a block header"
  | _, none => after.fail "the end of the line"

/-- The depth of the deepest line among some empty lines and the line after them, the line ends of the empty ones, the
last one first, and the place where the line after them begins. -/
def measureIndent (deepest : Nat) (empties : List Char) (p : Position) :
    List Char → Except Fault (Nat × List Char × Cursor)
  | [] => .ok (max deepest p.column, empties, ⟨p, []⟩)
  | c :: rest =>
    if c == ' ' then measureIndent deepest empties (p.after c) rest
    else if c == '\t' then p.fail "spaces"
    else if isBreak c then measureIndent (max deepest p.column) (c :: empties) (p.after c) rest
    else .ok (max deepest p.column, empties, ⟨p, c :: rest⟩)

/-- A block text so far. -/
structure BlockDraft where
  /-- What is read, the last character first. -/
  text : List Char := []
  lineEnd : List Char := []
  /-- The ends of the empty lines after it, the last one first. -/
  empties : List Char := []
  deeper : Bool := false
  deriving Repr

/-- The text as the next line begins. In a folded text a line end is a space, unless a line beside it is empty or
begins with a blank. -/
def BlockDraft.startLine (d : BlockDraft) (folded deeper : Bool) : BlockDraft :=
  let joint :=
    if folded && d.lineEnd == ['\n'] && !d.deeper && !deeper then (if d.empties.isEmpty then [' '] else [])
    else d.lineEnd
  { text := d.empties ++ joint ++ d.text, deeper }

def BlockDraft.finish (d : BlockDraft) (chomping : Chomping) : List Char :=
  match chomping with
  | .strip => d.text.reverse
  | .clip => (d.lineEnd ++ d.text).reverse
  | .keep => (d.empties ++ d.lineEnd ++ d.text).reverse

/-- The lines of a block text that are indented by `indent`; the flag tells whether the indentation is behind us. -/
def blockLines (folded : Bool) (indent : Nat) (d : BlockDraft) (within : Bool) (p : Position) :
    List Char → Except Fault (BlockDraft × Cursor)
  | [] => .ok (d, ⟨p, []⟩)
  | c :: rest =>
    if within then
      if isBreak c then blockLines folded indent { d with lineEnd := [c] } false (p.after c) rest
      else blockLines folded indent { d with text := c :: d.text } true (p.after c) rest
    else if p.column < indent && c == ' ' then blockLines folded indent d false (p.after c) rest
    else if p.column < indent && c == '\t' then p.fail "spaces"
    else if isBreak c then blockLines folded indent { d with empties := c :: d.empties } false (p.after c) rest
    else if p.column < indent then .ok (d, ⟨p, c :: rest⟩)
    else
      let d := d.startLine folded (isBlank c)
      blockLines folded indent { d with text := c :: d.text } true (p.after c) rest

/-- Reads a block text from behind its indicator on. It belongs to something in column `parent?`, if to anything; a
folded text joins its lines. Where no depth is said, the deepest of the empty lines at the start counts too. -/
def blockText (folded : Bool) (parent? : Option Nat) (c : Cursor) : Except Fault (List Char × Cursor) := do
  let (header, start) ← blockHeader c
  let (indent, empties, start) ← match header.indent? with
    | some n => pure (parent?.getD 0 + n, [], start)
    | none => do
      let (deepest, empties, start) ← measureIndent 0 [] start.toPosition start.rest
      pure (max deepest (parent?.elim 1 (· + 1)), empties, start)
  let (d, after) ← blockLines folded indent { empties } false start.toPosition start.rest
  return (d.finish header.chomping, after)

end MusicMacro.Yaml
