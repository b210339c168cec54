import MusicMacro.Yaml.Cursor

/-!
# Tags

A tag says what kind of value a node is. It is written out between angle brackets, or as a handle that stands for its
beginning and a suffix. Characters outside of the ASCII range are escaped, octet by octet.

* `Tag` : a tag, as octets; `Tag.text?` : its text;
* `TagHandles` : what handles stand for;
* `tagHandle`, `tagOctets`, `tagSpelling` : reading a handle, the characters of a tag, and a tag after its sign.
-/

namespace MusicMacro.Yaml

/-- The kind of a node. -/
structure Tag where
  /-- The octets, none of which is zero. -/
  octets : List UInt8
  deriving DecidableEq, Repr, Inhabited

namespace Tag

def octetsOf (text : String) : List UInt8 := text.toUTF8.toList

def text? (t : Tag) : Option String := String.fromUTF8? ⟨t.octets.toArray⟩

/-- The beginning of the tags that every text knows. -/
def coreLead : String := "tag:yaml.org,2002:"

def core (kind : String) : Tag := ⟨octetsOf (coreLead ++ kind)⟩

end Tag

/-- What handles stand for. -/
abbrev TagHandles := List (String × List UInt8)

/-- The handles that need no directive. -/
def TagHandles.usual : TagHandles := [("!", Tag.octetsOf "!"), ("!!", Tag.octetsOf Tag.coreLead)]

/-- The tag with a handle, or none at all, and a suffix. -/
def TagHandles.resolve? (handles : TagHandles) (handle? : Option String) (suffix : List UInt8) : Option Tag :=
  match handle? with
  | none => some ⟨suffix⟩
  | some handle => (handles.lookup handle).map fun lead => ⟨lead ++ suffix⟩

/-! ## Octets -/

/-- The number of octets that follow a first octet of a character, if it is one. -/
def octetsAfter? (octet : Nat) : Option Nat :=
  if octet < 0x80 then some 0
  else if 0xc0 ≤ octet ∧ octet < 0xe0 then some 1
  else if 0xe0 ≤ octet ∧ octet < 0xf0 then some 2
  else if 0xf0 ≤ octet ∧ octet < 0xf8 then some 3
  else none

/-- The octets that are owed after an octet, when so many were owed before it. -/
def octetsOwed? (owed octet : Nat) : Option Nat :=
  if owed = 0 then octetsAfter? octet else if 0x80 ≤ octet ∧ octet < 0xc0 then some (owed - 1) else none

/-- The rest of the characters of a tag, as octets, the last one first. -/
def tagOctetsFrom (written : Bool) (octets : List UInt8) (owed : Nat) (p : Position) :
    List Char → Except Fault (List UInt8 × Cursor)
  | '%' :: a :: b :: rest =>
    match (hexDigit? a).bind fun x => (hexDigit? b).map fun y => 16 * x + y with
    | none => p.fail "an octet"
    | some octet =>
      match octetsOwed? owed octet with
      | none => p.fail "a character"
      | some owed => tagOctetsFrom written (UInt8.ofNat octet :: octets) owed (((p.after '%').after a).after b) rest
  | rest =>
    match rest with
    | [] => if owed = 0 then .ok (octets, ⟨p, []⟩) else p.fail "an octet"
    | c :: rest =>
      if 0 < owed ∨ c = '%' then p.fail "an octet"
      else if isTagChar written c then tagOctetsFrom written (UInt8.ofNat c.toNat :: octets) 0 (p.after c) rest
      else .ok (octets, ⟨p, c :: rest⟩)

def tagOctets (written : Bool) (c : Cursor) : Except Fault (List UInt8 × Cursor) := do
  let (octets, after) ← tagOctetsFrom written [] 0 c.toPosition c.rest
  return (octets.reverse, after)

/-- The octets before the first zero, which ends a tag. -/
def beforeZero (octets : List UInt8) : List UInt8 := octets.takeWhile (· != 0)

/-! ## Handles and tags -/

/-- Reads a handle: a sign, a name that may be missing, and perhaps a second sign. -/
def tagHandle (c : Cursor) : Except Fault (String × Cursor) :=
  if c.rest.head? != some '!' then c.fail "a tag handle"
  else
    let (name, after) := c.next.span isNameChar
    if after.rest.head? == some '!' then .ok ("!" ++ String.ofList name ++ "!", after.next)
    else .ok ("!" ++ String.ofList name, after)

/-- Reads a tag, as a handle and a suffix. A tag that is written out, and the sign alone, have no handle. -/
def tagSpelling (c : Cursor) : Except Fault (Option String × List UInt8 × Cursor) :=
  if c.rest.take 2 == ['!', '<'] then do
    let (octets, after) ← tagOctets true (c.advance 2)
    if octets.isEmpty || after.rest.head? != some '>' then after.fail "a tag"
    else return (none, beforeZero octets, after.next)
  else do
    let (handle, after) ← tagHandle c
    if handle.length > 1 && handle.endsWith "!" then
      let (octets, after) ← tagOctets false after
      if octets.isEmpty then after.fail "a tag" else return (some handle, beforeZero octets, after)
    else
      let (octets, after) ← tagOctets false after
      let suffix := beforeZero (Tag.octetsOf (handle.drop 1).toString ++ octets)
      return if suffix.isEmpty then (none, Tag.octetsOf "!", after) else (some "!", suffix, after)

end MusicMacro.Yaml
