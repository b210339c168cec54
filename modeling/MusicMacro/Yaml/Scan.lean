import MusicMacro.Yaml.BlockText
import MusicMacro.Yaml.Text
import MusicMacro.Yaml.Token

/-!
# From a text to its tokens

A text is read from left to right, one token at a time. Outside of brackets the columns tell where lists and mappings
begin and end. A key without its mark is known only by the colon behind it: the scanner remembers where one may have
begun, and puts the token before it once the colon has come.

* `KeyCandidate` : the start of what may prove to be a key;
* `Scanner` : what is known between two tokens; `Scanner.token` : one more token;
* `scan` : all tokens of a text.
-/

namespace MusicMacro.Yaml

/-- The start of what may prove to be a key. -/
structure KeyCandidate where
  place : Position
  /-- Whether nothing but a key may stand there. -/
  required : Bool
  index : Nat
  deriving Repr

/-- The greatest number of octets, in UTF-8, from the start of a key to its colon. -/
def longestKey : Nat := 1024

/-- Whether a colon in a place comes too late for a key: on another line, or too far away. -/
def KeyCandidate.isStale (k : KeyCandidate) (p : Position) : Bool :=
  k.place.line < p.line || k.place.index + longestKey < p.index

/-- What is known between two tokens. -/
structure Scanner where
  cursor : Cursor
  lexemes : Array Lexeme := #[]
  /-- The columns of the lists and mappings around, the innermost first. -/
  columns : List Nat := []
  keyAllowed : Bool := true
  candidate? : Option KeyCandidate := none
  /-- What may prove to be a key around each of the open brackets, the innermost first. -/
  outer : List (Option KeyCandidate) := []

namespace Scanner

def inFlow (s : Scanner) : Bool := !s.outer.isEmpty

/-- The scanner after a token that ends in a place. -/
def push (s : Scanner) (token : Token) (after : Cursor) : Scanner :=
  { s with lexemes := s.lexemes.push ⟨token, s.cursor.toPosition⟩, cursor := after }

/-! ## Columns -/

/-- Ends the lists and mappings right of a column; all of them, if there is none. -/
def closeBlocks (s : Scanner) (column? : Option Nat) : Scanner :=
  if s.inFlow then s
  else
    let closed := s.columns.takeWhile fun column => column?.all (· < column)
    { s with
      columns := s.columns.drop closed.length
      lexemes := s.lexemes ++ Array.replicate closed.length ⟨.blockEnd, s.cursor.toPosition⟩ }

/-- Begins a list or a mapping before a token, if none has begun in its column yet. -/
def openBlock (s : Scanner) (start : Token) (place : Position) (index : Nat) : Scanner :=
  if !s.inFlow && s.columns.head?.all (· < place.column) then
    { s with columns := place.column :: s.columns, lexemes := s.lexemes.insertIdxIfInBounds index ⟨start, place⟩ }
  else s

/-- Begins a list or a mapping here, before a sign that needs one. -/
def openHere (s : Scanner) (start : Token) : Except Fault Scanner :=
  if s.inFlow then .ok s
  else if s.keyAllowed then .ok (s.openBlock start s.cursor.toPosition s.lexemes.size)
  else s.cursor.fail "a node that may begin here"

/-! ## Keys -/

/-- What has not become a key is none. -/
def forgetKey (s : Scanner) : Except Fault Scanner :=
  if s.candidate?.any KeyCandidate.required then s.cursor.fail "a colon" else .ok { s with candidate? := none }

/-- What begins here may be a key, where one is allowed. -/
def rememberKey (s : Scanner) : Except Fault Scanner :=
  if s.keyAllowed then do
    let s ← s.forgetKey
    let required := !s.inFlow && s.columns.head? == some s.cursor.column
    return { s with candidate? := some ⟨s.cursor.toPosition, required, s.lexemes.size⟩ }
  else .ok s

/-- Forgets what a colon would come too late for. What is around open brackets has its turn when they are closed. -/
def forgetStale (s : Scanner) : Except Fault Scanner :=
  if s.candidate?.any fun k => k.isStale s.cursor.toPosition then s.forgetKey else .ok s

/-! ## Tokens of each kind -/

def marker (s : Scanner) (token : Token) : Except Fault Scanner := do
  let s ← (s.closeBlocks none).forgetKey
  return { s.push token (s.cursor.advance 3) with keyAllowed := false }

def directive (s : Scanner) : Except Fault Scanner := do
  let s ← (s.closeBlocks none).forgetKey
  let (token, after) ← Yaml.directive s.cursor
  return { s.push token after with keyAllowed := false }

def openFlow (s : Scanner) (token : Token) : Except Fault Scanner := do
  let s ← s.rememberKey
  return { s.push token s.cursor.next with candidate? := none, outer := s.candidate? :: s.outer, keyAllowed := true }

def closeFlow (s : Scanner) (token : Token) : Except Fault Scanner := do
  let s ← s.forgetKey
  let s := { s.push token s.cursor.next with keyAllowed := false }
  match s.outer with
  | [] => return s
  | candidate? :: outer => return { s with candidate?, outer }

def comma (s : Scanner) : Except Fault Scanner := do
  let s ← s.forgetKey
  return { s.push .comma s.cursor.next with keyAllowed := true }

def item (s : Scanner) : Except Fault Scanner := do
  let s ← (← s.openHere .blockSequence).forgetKey
  return { s.push .item s.cursor.next with keyAllowed := true }

def key (s : Scanner) : Except Fault Scanner := do
  let s ← (← s.openHere .blockMapping).forgetKey
  return { s.push .key s.cursor.next with keyAllowed := !s.inFlow }

/-- The colon before a value. If it ends a key without a mark, the key and perhaps its mapping begin before that. -/
def value (s : Scanner) : Except Fault Scanner :=
  match s.candidate? with
  | some k =>
    let s := { s with lexemes := s.lexemes.insertIdxIfInBounds k.index ⟨.key, k.place⟩, candidate? := none }
    let s := s.openBlock .blockMapping k.place k.index
    .ok { s.push .value s.cursor.next with keyAllowed := false }
  | none => do
    let s ← s.openHere .blockMapping
    return { s.push .value s.cursor.next with keyAllowed := !s.inFlow }

def name (s : Scanner) (token : String → Token) : Except Fault Scanner := do
  let s ← s.rememberKey
  let (name, after) ← anchorName s.cursor.next
  return { s.push (token name) after with keyAllowed := false }

def tag (s : Scanner) : Except Fault Scanner := do
  let s ← s.rememberKey
  let (handle?, suffix, after) ← tagSpelling s.cursor
  if blankAhead after.rest || (s.inFlow && after.rest.head? == some ',') then
    return { s.push (.tag handle? suffix) after with keyAllowed := false }
  else after.fail "a blank"

def quoted (s : Scanner) (read : Cursor → Except Fault (List Char × Cursor)) : Except Fault Scanner := do
  let s ← s.rememberKey
  let (text, after) ← read s.cursor.next
  return { s.push (.scalar .quoted (String.ofList text)) after with keyAllowed := false }

def block (s : Scanner) (style : Style) : Except Fault Scanner := do
  let s ← s.forgetKey
  let (text, after) ← blockText (style == .folded) s.columns.head? s.cursor.next
  return { s.push (.scalar style (String.ofList text)) after with keyAllowed := true }

/-- A text without quotes, if one begins here. A key may follow it where a line ends after it. -/
def plain (s : Scanner) : Except Fault Scanner := do
  if !startsPlain s.inFlow s.cursor.rest then s.cursor.fail "a node"
  let s ← s.rememberKey
  let (text, ended, after) ← plainText s.inFlow (s.columns.head?.elim 0 (· + 1)) s.cursor
  return { s.push (.scalar .plain (String.ofList text)) after with keyAllowed := ended }

/-! ## One token after the other -/

/-- Takes the token that begins here. -/
def token (s : Scanner) : Except Fault Scanner :=
  let spaced := blankAhead (s.cursor.rest.drop 1)
  let sign? := s.cursor.rest.head?
  if s.cursor.column == 0 && sign? == some '%' then s.directive
  else if s.cursor.atMarker then s.marker (if sign? == some '-' then .documentStart else .documentEnd)
  else match sign? with
    | some '[' => s.openFlow .flowSequence
    | some '\x7b' => s.openFlow .flowMapping
    | some ']' => s.closeFlow .flowSequenceEnd
    | some '\x7d' => s.closeFlow .flowMappingEnd
    | some ',' => s.comma
    | some '-' => if spaced then s.item else s.plain
    | some '?' => if s.inFlow || spaced then s.key else s.plain
    | some ':' => if s.inFlow || spaced then s.value else s.plain
    | some '*' => s.name .reference
    | some '&' => s.name .anchor
    | some '!' => s.tag
    | some '|' => if s.inFlow then s.plain else s.block .literal
    | some '>' => if s.inFlow then s.plain else s.block .folded
    | some '\'' => s.quoted singleQuoted
    | some '"' => s.quoted doubleQuoted
    | _ => s.plain

/-- Looks for the next token: past the gap before it, and out of the lists and mappings that it is left of. -/
def seek (s : Scanner) : Except Fault Scanner := do
  let (ended, cursor) := s.cursor.skipGap s.inFlow (s.inFlow || !s.keyAllowed)
  let s ← { s with cursor, keyAllowed := s.keyAllowed || (ended && !s.inFlow) }.forgetStale
  return s.closeBlocks (some cursor.column)

/-- Ends everything that is open by its column. -/
def finish (s : Scanner) : Except Fault Scanner := (s.closeBlocks none).forgetKey

/-- Takes the tokens up to the end of the text, but at most so many. -/
def run : Nat → Scanner → Except Fault Scanner
  | 0, s => s.finish
  | count + 1, s => do
    let s ← s.seek
    if s.cursor.rest.isEmpty then s.finish else run count (← s.token)

end Scanner

/-- All tokens of a text. Those that are taken have at least a character each. -/
def scan (text : List Char) : Except Fault (List Lexeme) := do
  let last ← Scanner.run (text.length + 1) { cursor := { rest := text } }
  return last.lexemes.toList

end MusicMacro.Yaml
