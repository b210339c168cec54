import MusicMacro.Score.Token

/-!
# Scanning a score

One pass from left to right cuts a score into tokens. A command goes on for as long as signs, digits, dots and ties
follow it; a tie takes the next character with it, which is the name of the tied note, and one sign after that name.
Any other character ends the command and is looked at afresh, and a character that starts no command is passed over.

* `Draft` : a command whose end is not reached; `Draft.finish` is what becomes of it;
* `Scanner` : what the scan knows between two characters; `Scanner.feed` takes one more and `Scanner.close` the end;
* `Finding` : what the scan reports, in the order of the text: tokens, and what yields none;
* `Score.scan`, `Score.tokenize` : the findings and the tokens of a text.
-/

namespace MusicMacro

/-! ## Findings -/

/-- What the scan of a text reports. -/
inductive Finding where
  | token (t : Token)
  | skipped (position : Nat) (character : Char)
  | noValue (s : Setting)
  | tooLarge (s : Setting) (digits : List Char)
  deriving DecidableEq, Repr

def Finding.token? : Finding → Option Token
  | .token t => some t
  | _ => none

/-! ## Drafts -/

/-- A command whose end is not reached. -/
structure Draft where
  command : Command
  /-- The signs so far, added up. -/
  accidental : Accidental := .natural
  /-- The digits, dots and ties so far, the last one first. -/
  written : List Char := []
  deriving DecidableEq, Repr

namespace Draft

/-- The digits, dots and ties so far, in their order. -/
def text (d : Draft) : List Char := d.written.reverse

/-- A setting takes the digits at the start of its text; without any, or with too large a number, it sets nothing. -/
def finishSetting (d : Draft) (s : Setting) : Finding :=
  let digits := d.text.takeWhile Char.isDigit
  if digits.isEmpty then .noValue s
  else match Digits.word? digits with
    | some value => .token (.set s value)
    | none => .tooLarge s digits

/-- What becomes of a command at its end. Signs matter to notes only. -/
def finish (d : Draft) : Finding :=
  match d.command with
  | .note letter => .token (.note ⟨letter, d.accidental⟩ ⟨d.text⟩)
  | .rest => .token (.rest ⟨d.text⟩)
  | .step s => .token (.step s)
  | .set s => d.finishSetting s

end Draft

/-! ## The scanner -/

/-- What the scan knows between two characters. -/
inductive Scanner where
  | idle
  | within (d : Draft)
  /-- The last character was a tie: the name of the tied note follows. -/
  | tied (d : Draft)
  /-- The last character was the name of a tied note: one sign may follow. -/
  | named (d : Draft)
  deriving DecidableEq, Repr

namespace Scanner

/-- Looks at a character while no command is open. -/
def begin (position : Nat) (ch : Char) : List Finding × Scanner :=
  match Command.ofChar? ch with
  | none => ([.skipped position ch], idle)
  | some command =>
    if command.accumulates then ([], within { command }) else ([Draft.finish { command }], idle)

/-- Looks at a character while a command is open. -/
def extend (d : Draft) (position : Nat) (ch : Char) : List Finding × Scanner :=
  match Accidental.stepOf? ch with
  | some n => ([], within { d with accidental := d.accidental.move n })
  | none =>
    if ch = '&' then ([], tied { d with written := ch :: d.written })
    else if ch = '.' ∨ ch.isDigit then ([], within { d with written := ch :: d.written })
    else
      let (findings, next) := begin position ch
      (d.finish :: findings, next)

def feed (position : Nat) (ch : Char) : Scanner → List Finding × Scanner
  | idle => begin position ch
  | within d => extend d position ch
  | tied d => ([], named d)
  | named d => if (Accidental.stepOf? ch).isSome then ([], within d) else extend d position ch

def draft? : Scanner → Option Draft
  | idle => none
  | within d | tied d | named d => some d

def close (s : Scanner) : List Finding := s.draft?.toList.map Draft.finish

def run (s : Scanner) (position : Nat) : List Char → List Finding
  | [] => s.close
  | ch :: rest =>
    let (findings, next) := s.feed position ch
    findings ++ run next (position + 1) rest

end Scanner

/-! ## Scores -/

namespace Score

def scan (text : List Char) : List Finding := Scanner.idle.run 0 text

def tokenize (text : List Char) : List Token := (scan text).filterMap Finding.token?

/-- The texts of the tracks of a score, which commas separate. -/
def tracks (text : List Char) : List (List Char) := text.splitOn ','

end Score

end MusicMacro
