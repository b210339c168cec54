import MusicMacro.Yaml.Cursor

/-!
# Plain and quoted texts

Between the words of a text stand gaps: the blanks of a gap within a line stay, a single line end is read as a space,
and of more of them all but the first stay.

* `Gap` : a gap so far; `Gap.onto` : what it is read as;
* `startsPlain`, `plainText` : texts without quotes;
* `singleQuoted`, `doubleQuoted` : texts between quotes.
-/

namespace MusicMacro.Yaml

/-! ## Gaps -/

/-- What stands between two words of a text. -/
inductive Gap where
  /-- Blanks within a line, the last one first. -/
  | blanks (run : List Char)
  /-- Line ends: the first one, unless a backslash has taken it away, and the others, the last one first. -/
  | breaks (first? : Option Char) (others : List Char)
  deriving Repr

namespace Gap

def none : Gap := blanks []

/-- One blank or line end more. Blanks before and after a line end do not count. -/
def push (g : Gap) (c : Char) : Gap :=
  match g with
  | blanks run => if isBreak c then breaks (some c) [] else blanks (c :: run)
  | breaks first? others => if isBreak c then breaks first? (c :: others) else g

def isBroken : Gap → Bool
  | blanks _ => false
  | breaks .. => true

def isNonempty : Gap → Bool
  | blanks run => !run.isEmpty
  | breaks .. => true

/-- A text with what the gap is read as behind it, both written backwards. -/
def onto (g : Gap) (text : List Char) : List Char :=
  match g with
  | blanks run => run ++ text
  | breaks (some '\n') [] => ' ' :: text
  | breaks (some '\n') others => others ++ text
  | breaks first? others => others ++ first?.toList ++ text

end Gap

/-! ## Plain texts -/

def startsPlain (flow : Bool) : List Char → Bool
  | [] => false
  | c :: rest =>
    if c == '-' then !(rest.head?.any isBlank)
    else if c == '?' || c == ':' then !flow && !blankAhead rest
    else !(isBlank c || isBreak c || isFlowSign c || "#&*!|>'\"%@\x60".toList.elem c)

/-- Whether a plain text ends before a character that belongs to a word: at a colon that a blank follows, and between
brackets at a comma or bracket. -/
def endsPlain (flow : Bool) (c : Char) (rest : List Char) : Bool :=
  (c == ':' && blankAhead rest) || (flow && isFlowSign c)

/-- Whether a plain text cannot go on after a gap: at a comment, at the end of the document, and outside of brackets
where the line is indented too little. -/
def endsAfterGap (flow : Bool) (indent : Nat) (p : Position) (c : Char) (rest : List Char) : Bool :=
  c == '#' || p.atMarker (c :: rest) || (!flow && p.column < indent)

/-- Whether a colon stands between brackets where it neither ends a key nor belongs to a word. -/
def colonClash (flow : Bool) (c : Char) (rest : List Char) : Bool :=
  flow && c == ':' && rest.head?.any fun d => d == '?' || isFlowSign d

/-- The rest of a plain text: the text, whether a line ends after it, and the place after that gap. -/
def plainFrom (flow : Bool) (indent : Nat) (text : List Char) (gap : Gap) (p : Position) :
    List Char → Except Fault (List Char × Bool × Cursor)
  | [] => .ok (text.reverse, gap.isBroken, ⟨p, []⟩)
  | c :: rest =>
    if isBlank c || isBreak c then
      if c == '\t' && gap.isBroken && p.column < indent then p.fail "spaces"
      else plainFrom flow indent text (gap.push c) (p.after c) rest
    else if gap.isNonempty && endsAfterGap flow indent p c rest then .ok (text.reverse, gap.isBroken, ⟨p, c :: rest⟩)
    else if colonClash flow c rest then p.fail "a value after the colon"
    else if endsPlain flow c rest then .ok (text.reverse, gap.isBroken, ⟨p, c :: rest⟩)
    else plainFrom flow indent (c :: gap.onto text) .none (p.after c) rest

/-- Reads a plain text, whose further lines are indented by at least `indent`: the text, whether a line ends after it,
and the place after the blanks and line ends that follow. -/
def plainText (flow : Bool) (indent : Nat) (c : Cursor) : Except Fault (List Char × Bool × Cursor) :=
  plainFrom flow indent [] .none c.toPosition c.rest

/-! ## Quoted texts -/

/-- The rest of a text between single quotes, where two of them stand for one. -/
def singleQuotedFrom (text : List Char) (gap : Gap) (p : Position) : List Char → Except Fault (List Char × Cursor)
  | [] => p.fail "a closing quote"
  | c :: rest =>
    if isBlank c || isBreak c then singleQuotedFrom text (gap.push c) (p.after c) rest
    else if p.atMarker (c :: rest) then p.fail "a closing quote"
    else if c == '\'' then
      match rest with
      | '\'' :: rest => singleQuotedFrom ('\'' :: gap.onto text) .none ((p.after c).after c) rest
      | rest => .ok ((gap.onto text).reverse, ⟨p.after c, rest⟩)
    else singleQuotedFrom (c :: gap.onto text) .none (p.after c) rest

def singleQuoted (c : Cursor) : Except Fault (List Char × Cursor) := singleQuotedFrom [] .none c.toPosition c.rest

def simpleEscape? : Char → Option Char
  | '0' => some '\x00'
  | 'a' => some '\x07'
  | 'b' => some '\x08'
  | 't' | '\t' => some '\t'
  | 'n' => some '\n'
  | 'v' => some '\x0b'
  | 'f' => some '\x0c'
  | 'r' => some '\r'
  | 'e' => some '\x1b'
  | ' ' => some ' '
  | '"' => some '"'
  | '/' => some '/'
  | '\\' => some '\\'
  | 'N' => some '\x85'
  | '_' => some '\xa0'
  | 'L' => some '\u2028'
  | 'P' => some '\u2029'
  | _ => none

/-- The number of hexadecimal digits after a letter after a backslash. -/
def escapeWidth? : Char → Option Nat
  | 'x' => some 2
  | 'u' => some 4
  | 'U' => some 8
  | _ => none

def charOf? (n : Nat) : Option Char := if h : n.isValidChar then some (Char.ofNatAux n h) else none

/-- The character that is written after a backslash, and the number of characters that it takes. -/
def escape? : List Char → Option (Char × Nat)
  | [] => none
  | letter :: rest =>
    match simpleEscape? letter, escapeWidth? letter with
    | some c, _ => some (c, 1)
    | none, some width =>
      let digits := rest.take width
      if digits.length = width then ((readDigits? 16 digits).bind charOf?).map (·, width + 1) else none
    | none, none => none

/-- The rest of a text between double quotes, with its escapes. A backslash takes the end of its line away. -/
def doubleQuotedFrom (text : List Char) (gap : Gap) (p : Position) : List Char → Except Fault (List Char × Cursor)
  | [] => p.fail "a closing quote"
  | c :: rest =>
    if isBlank c || isBreak c then doubleQuotedFrom text (gap.push c) (p.after c) rest
    else if p.atMarker (c :: rest) then p.fail "a closing quote"
    else if c == '"' then .ok ((gap.onto text).reverse, ⟨p.after c, rest⟩)
    else if c == '\\' then
      let text := gap.onto text
      if rest.head?.any isBreak then
        doubleQuotedFrom text (.breaks none []) (⟨p.after c, rest⟩ : Cursor).next.toPosition (rest.drop 1)
      else match escape? rest with
        | some (ch, width) =>
          doubleQuotedFrom (ch :: text) .none ((⟨p.after c, rest⟩ : Cursor).advance width).toPosition (rest.drop width)
        | none => p.fail "a known escape"
    else doubleQuotedFrom (c :: gap.onto text) .none (p.after c) rest
  termination_by rest => rest.length

def doubleQuoted (c : Cursor) : Except Fault (List Char × Cursor) := doubleQuotedFrom [] .none c.toPosition c.rest

end MusicMacro.Yaml
