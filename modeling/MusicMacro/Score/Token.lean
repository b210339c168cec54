import MusicMacro.Score.Duration
import MusicMacro.Score.Pitch

/-!
# Commands and tokens

A score is a row of commands, each named by one character.

* `Command` : the commands, by the character that starts them (`Command.ofChar?`);
* `Token` : a command with everything that was written after it; `Token.text` shows one.
-/

namespace MusicMacro

/-- The settings of a track that a command gives a number to. -/
inductive Setting where
  | octave | length | tempo | volume
  deriving DecidableEq, Repr

/-- A move of the octave by one. -/
inductive OctaveStep where
  | up | down
  deriving DecidableEq, Repr

/-- The octaves by which a step goes up. -/
def OctaveStep.delta : OctaveStep → Int
  | .up => 1
  | .down => -1

/-! ## Commands -/

/-- What a character starts. -/
inductive Command where
  | note (letter : Letter)
  | rest
  | step (s : OctaveStep)
  | set (s : Setting)
  deriving DecidableEq, Repr

namespace Command

def ofChar? (ch : Char) : Option Command :=
  match ch with
  | '>' => some (.step .up)
  | '<' => some (.step .down)
  | 'r' => some .rest
  | 'o' => some (.set .octave)
  | 'l' => some (.set .length)
  | 't' => some (.set .tempo)
  | 'v' => some (.set .volume)
  | _ => (Letter.ofChar? ch).map .note

/-- Whether characters after its name belong to a command: true of all but the octave steps. -/
def accumulates : Command → Bool
  | .step _ => false
  | _ => true

end Command

/-! ## Tokens -/

/-- A command with what was written after it. -/
inductive Token where
  | note (pitch : Pitch) (duration : Duration)
  | rest (duration : Duration)
  | step (s : OctaveStep)
  | set (s : Setting) (value : UInt32)
  deriving DecidableEq, Repr

def OctaveStep.text : OctaveStep → String
  | .up => "OCTAVE_UP"
  | .down => "OCTAVE_DOWN"

def Setting.text : Setting → String
  | .octave => "OCTAVE_SET"
  | .length => "LENGTH"
  | .tempo => "TEMPO"
  | .volume => "VOLUME"

def Token.text : Token → String
  | .note pitch duration =>
    "NOTE(" ++ String.ofList pitch.spelling ++ ", " ++ String.ofList (Quoted.quote duration.text) ++ ")"
  | .rest duration => "REST(" ++ String.ofList (Quoted.quote duration.text) ++ ")"
  | .step s => s.text
  | .set s value => s.text ++ "(" ++ toString value.toNat ++ ")"

end MusicMacro
