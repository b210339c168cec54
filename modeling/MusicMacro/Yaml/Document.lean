import MusicMacro.Yaml.Node
import MusicMacro.Yaml.Scan

/-!
# From tokens to a document

* `Assembly` : what is known between two nodes: the tokens that are left, the names so far, and what tag handles mean;
* `Assembly.node` : the next node;
* `Document.ofLexemes?` : the one document of some tokens, if it has any;
* `Document.read` : the one document of a text.
-/

namespace MusicMacro.Yaml

/-- What is known between two nodes. -/
structure AssemblyState where
  rest : List Lexeme
  place : Position := {}
  names : List (String × Nat) := []
  handles : TagHandles := .usual

/-- A step in putting nodes together. -/
abbrev Assembly := StateT AssemblyState (Except Fault)

namespace Assembly

/-! ## Tokens -/

def peek : Assembly (Option Token) := return (← get).rest.head?.map Lexeme.token

def skip : Assembly Unit :=
  modify fun s => { s with rest := s.rest.tail, place := s.rest.head?.elim s.place Lexeme.place }

def fail {α : Type} (expected : String) : Assembly α := do
  let s ← get
  throw ⟨s.rest.head?.elim s.place Lexeme.place, expected⟩

/-- Past the next token, if it is the one; the answer tells whether it was. -/
def take (token : Token) : Assembly Bool := do
  if (← peek) == some token then
    skip
    return true
  else return false

def isAt (tokens : List Token) : Assembly Bool := return (← peek).any tokens.elem

/-! ## Properties -/

/-- The number of a name. It counts the names before it, so that a name which is given again takes a number that the
next new name takes over. -/
def number (name : String) : Assembly Nat := do
  let s ← get
  let number := s.names.length
  set { s with names := (name, number) :: s.names.filter fun e => e.1 != name }
  return number

def anchorName? : Assembly (Option String) := do
  match ← peek with
  | some (.anchor name) =>
    skip
    return some name
  | _ => return none

def tag? : Assembly (Option Tag) := do
  match ← peek with
  | some (.tag handle? suffix) =>
    match (← get).handles.resolve? handle? suffix with
    | some tag =>
      skip
      return some tag
    | none => fail "a known tag handle"
  | _ => return none

/-- What stands before a node: a name and a tag at most, in either order. -/
def properties : Assembly Properties := do
  let first? ← anchorName?
  let tag? ← tag?
  let name? ← if first?.isSome then pure first? else anchorName?
  match name? with
  | some name => return { tag?, anchor? := some (← number name) }
  | none => return { tag? }

/-! ## Nodes -/

/-- A node without a text, which has to have a name or a tag. -/
def bare (p : Properties) : Assembly Node :=
  if p.tag?.isSome || p.anchor?.isSome then return .scalar p .plain "" else fail "a node"

/-- Past what stands before the next entry between brackets: a comma, unless it is the first one. The answer tells
whether the closing bracket stands there; a comma may stand before it. -/
def endsFlow (close : Token) (first : Bool) : Assembly Bool := do
  if ← take close then return true
  else if first then return false
  else if ← take .comma then take close
  else fail "a comma"

mutual

/-- Takes a node. Outside of brackets it may be a list or a mapping that columns delimit; the value of a key may be a
list whose dashes stand in the column of the key. -/
def node (fuel : Nat) (block loose : Bool) : Assembly Node :=
  match fuel with
  | 0 => fail "a shallower node"
  | fuel + 1 => do
    match ← peek with
    | some (.reference name) =>
      match (← get).names.lookup name with
      | some number =>
        skip
        return .reference number
      | none => fail "a known name"
    | _ =>
      let p ← properties
      match ← peek with
      | some (.scalar style text) =>
        skip
        return .scalar p style text
      | some .item => if loose then return .sequence p (← looseItems fuel []) else bare p
      | some .flowSequence =>
        skip
        return .sequence p (← flowItems fuel [])
      | some .flowMapping =>
        skip
        return .mapping p (← flowEntries fuel [])
      | some .blockSequence =>
        if block then
          skip
          return .sequence p (← blockItems fuel [])
        else bare p
      | some .blockMapping =>
        if block then
          skip
          return .mapping p (← blockEntries fuel [])
        else bare p
      | _ => bare p

/-- Takes a node, unless one of some tokens stands in its place: then there is nothing. -/
def nodeUnless (fuel : Nat) (block loose : Bool) (stops : List Token) : Assembly Node :=
  match fuel with
  | 0 => fail "a shallower node"
  | fuel + 1 => do if ← isAt stops then return .absent else node fuel block loose

/-- Takes the items of a list in a column of its own, up to its end. -/
def blockItems (fuel : Nat) (items : List Node) : Assembly (List Node) :=
  match fuel with
  | 0 => fail "a shallower node"
  | fuel + 1 => do
    if ← take .item then
      let item ← nodeUnless fuel true false [.item, .blockEnd]
      blockItems fuel (item :: items)
    else if ← take .blockEnd then return items.reverse
    else fail "an item"

/-- Takes the items of a list in the column of a key. -/
def looseItems (fuel : Nat) (items : List Node) : Assembly (List Node) :=
  match fuel with
  | 0 => fail "a shallower node"
  | fuel + 1 => do
    if ← take .item then
      let item ← nodeUnless fuel true false [.item, .key, .value, .blockEnd]
      looseItems fuel (item :: items)
    else return items.reverse

def blockEntries (fuel : Nat) (entries : List (Node × Node)) : Assembly (List (Node × Node)) :=
  match fuel with
  | 0 => fail "a shallower node"
  | fuel + 1 => do
    if ← take .key then
      let key ← nodeUnless fuel true true [.key, .value, .blockEnd]
      let value ← if ← take .value then nodeUnless fuel true true [.key, .value, .blockEnd] else pure .absent
      blockEntries fuel ((key, value) :: entries)
    else if ← take .blockEnd then return entries.reverse
    else fail "a key"

/-- Takes the value of an entry between brackets, if it has one, before a comma or a given bracket. -/
def flowValue (fuel : Nat) (close : Token) : Assembly Node :=
  match fuel with
  | 0 => fail "a shallower node"
  | fuel + 1 => do if ← take .value then nodeUnless fuel false false [.comma, close] else return .absent

def flowItems (fuel : Nat) (items : List Node) : Assembly (List Node) :=
  match fuel with
  | 0 => fail "a shallower node"
  | fuel + 1 => do
    if ← endsFlow .flowSequenceEnd items.isEmpty then return items.reverse
    else if ← take .key then
      let key ← flowKey fuel
      let value ← flowValue fuel .flowSequenceEnd
      flowItems fuel (.mapping {} [(key, value)] :: items)
    else
      let item ← node fuel false false
      flowItems fuel (item :: items)

/-- Takes the key of an entry that is an item of a list. What stands in the place of a missing key is lost. -/
def flowKey (fuel : Nat) : Assembly Node :=
  match fuel with
  | 0 => fail "a shallower node"
  | fuel + 1 => do
    if ← isAt [.value, .comma, .flowSequenceEnd] then
      skip
      return .absent
    else node fuel false false

def flowEntries (fuel : Nat) (entries : List (Node × Node)) : Assembly (List (Node × Node)) :=
  match fuel with
  | 0 => fail "a shallower node"
  | fuel + 1 => do
    if ← endsFlow .flowMappingEnd entries.isEmpty then return entries.reverse
    else if ← take .key then
      let key ← nodeUnless fuel false false [.value, .comma, .flowMappingEnd]
      let value ← flowValue fuel .flowMappingEnd
      flowEntries fuel ((key, value) :: entries)
    else
      let key ← node fuel false false
      flowEntries fuel ((key, .absent) :: entries)

end

/-! ## Documents -/

/-- Takes the directives before a document; the answer tells whether there are any. A version or a handle is named only
once, and only the versions 1.1 and 1.2 are known. -/
def directives (versioned : Bool) (named : List String) : Nat → Assembly Bool
  | 0 => return versioned || !named.isEmpty
  | fuel + 1 => do
    match ← peek with
    | some (.version major minor) =>
      if versioned || major != 1 || (minor != 1 && minor != 2) then fail "a version that is known"
      else
        skip
        directives true named fuel
    | some (.tagHandle handle lead) =>
      if named.elem handle then fail "another tag handle"
      else
        skip
        modify fun s => { s with handles := (handle, lead) :: s.handles }
        directives versioned (handle :: named) fuel
    | _ => return versioned || !named.isEmpty

def atDocumentEnd : Assembly Bool := do
  match ← peek with
  | none | some (.version ..) | some (.tagHandle ..) | some .documentStart | some .documentEnd => return true
  | _ => return false

def skipEnds : Nat → Assembly Unit
  | 0 => return
  | fuel + 1 => do if ← take .documentEnd then skipEnds fuel

def document? (fuel : Nat) : Assembly (Option Node) := do
  if (← peek).isNone then return none
  else
    let directed ← directives false [] fuel
    let marked ← take .documentStart
    if directed && !marked then fail "the start of a document"
    else
      let root ← if marked && (← atDocumentEnd) then pure .absent else node fuel true false
      skipEnds fuel
      if (← peek).isNone then return some root else fail "the end of the document"

end Assembly

namespace Document

/-- The one document of some tokens, if it has any. Every node and every entry takes at least a token. -/
def ofLexemes? (lexemes : List Lexeme) : Except Fault (Option Document) :=
  ((Assembly.document? (4 * lexemes.length + 4)).run' { rest := lexemes }).map (Option.map ofNode)

def read (text : List Char) : Except Fault (Option Document) := do
  let (allowed, stop) := ({ rest := text } : Cursor).span isAllowed
  if stop.rest.isEmpty then ofLexemes? (← scan (unifyBreaks allowed)) else stop.fail "a character that can be printed"

end Document

end MusicMacro.Yaml
