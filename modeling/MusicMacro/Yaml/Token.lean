import MusicMacro.Yaml.Tag

/-!
# Tokens of YAML

* `Style` : the ways in which a text is written;
* `Token` : what a document is made of; `Lexeme` : a token and its place;
* `directive`, `anchorName` : reading tokens that have a grammar of their own.
-/

namespace MusicMacro.Yaml

/-- The ways in which a text is written. -/
inductive Style where
  | plain
  | quoted
  /-- On lines of its own, which stay. -/
  | literal
  /-- On lines of its own, which are joined. -/
  | folded
  deriving DecidableEq, Repr, Inhabited

/-- What a document is made of. -/
inductive Token where
  | version (major minor : Nat)
  | tagHandle (handle : String) (lead : List UInt8)
  | documentStart
  | documentEnd
  | blockSequence
  | blockMapping
  | blockEnd
  | flowSequence
  | flowSequenceEnd
  | flowMapping
  | flowMappingEnd
  | item
  | comma
  | key
  | value
  | reference (name : String)
  | anchor (name : String)
  | tag (handle? : Option String) (suffix : List UInt8)
  | scalar (style : Style) (text : String)
  deriving DecidableEq, Repr, Inhabited

/-- A token and its place. -/
structure Lexeme where
  token : Token
  place : Position
  deriving Repr, Inhabited

/-! ## Anchors -/

def anchorName (c : Cursor) : Except Fault (String × Cursor) :=
  let (name, after) := c.span isNameChar
  if name.isEmpty || !(blankAhead after.rest || after.rest.head?.any fun ch => "?:,]\x7d%@\x60".toList.elem ch) then
    after.fail "a name"
  else .ok (String.ofList name, after)

/-! ## Directives -/

/-- Reads one of the numbers of a version, which has at most nine digits. -/
def versionNumber (c : Cursor) : Except Fault (Nat × Cursor) :=
  let (digits, after) := c.span Char.isDigit
  match readDigits? 10 digits with
  | some n => if digits.length ≤ 9 then .ok (n, after) else c.fail "a shorter number"
  | none => c.fail "a number"

def versionDirective (c : Cursor) : Except Fault (Token × Cursor) := do
  let (major, after) ← versionNumber c.skipBlanks
  if after.rest.head? != some '.' then after.fail "a point"
  else
    let (minor, after) ← versionNumber after.next
    return (.version major minor, after)

def tagDirective (c : Cursor) : Except Fault (Token × Cursor) := do
  let (handle, after) ← tagHandle c.skipBlanks
  if !handle.endsWith "!" then after.fail "the end of a tag handle"
  else if !after.rest.head?.any isBlank then after.fail "a blank"
  else
    let (octets, after) ← tagOctets true after.skipBlanks
    if octets.isEmpty || !blankAhead after.rest then after.fail "the beginning of a tag"
    else return (.tagHandle handle (beforeZero octets), after)

def directive (c : Cursor) : Except Fault (Token × Cursor) := do
  let (name, after) := c.next.span isNameChar
  if !blankAhead after.rest then after.fail "the name of a directive"
  else
    let (token, after) ← match String.ofList name with
      | "YAML" => versionDirective after
      | "TAG" => tagDirective after
      | _ => c.fail "a known directive"
    match after.lineEnd? with
    | some lineEnd => return (token, lineEnd.next)
    | none => after.fail "the end of the line"

end MusicMacro.Yaml
