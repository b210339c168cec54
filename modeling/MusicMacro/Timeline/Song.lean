import MusicMacro.Score.Scan
import MusicMacro.Timeline.Schedule

/-!
# Songs

A score holds tracks that play together from one origin. They are scheduled apart from each other, each from the same
defaults.

* `Song` : the scheduled tracks; `Song.finish` is the end of the longest, `Song.playCount` the number of tones;
* `Song.tokenize` : the tokens of every track of a score;
* `Song.schedule`, `Song.compile` : a song from tokens and from a score.
-/

namespace MusicMacro

/-- A scheduled track. -/
structure Track (R : Type) where
  /-- Its place among the tracks, counted in 32 bits. -/
  index : Nat
  tokens : List Token
  instructions : List (Instruction R)

/-- Scheduled tracks that play together. -/
structure Song (R : Type) where
  origin : R
  tracks : List (Track R)

/-- The line of the journal that a finding deserves. -/
def Finding.event? {R : Type} : Finding → Option (Event R)
  | .token _ => none
  | .skipped position c => some (.skippedCharacter position c)
  | .noValue s => some (.settingWithoutValue s)
  | .tooLarge s digits => some (.settingTooLarge s digits)

def Track.finish? {R : Type} [Add R] (t : Track R) : Option R := t.instructions.getLast?.map Instruction.finish

namespace Song
variable {R : Type} [Scalar R]

/-- The time at which the longest track ends; the origin, if nothing is played. -/
def finish (s : Song R) : R := (s.tracks.filterMap Track.finish?).foldl Scalar.maxOf s.origin

def playCount (s : Song R) : Nat := (s.tracks.flatMap Track.instructions).countP Instruction.isPlay

def tokenize (text : List Char) : List (List Token) := (Score.tracks text).map Score.tokenize

/-- The notes on what yields no token in the tracks of a score. -/
def scanEvents (text : List Char) : List (Event R) :=
  (Score.tracks text).flatMap fun track => (Score.scan track).filterMap Finding.event?

def scheduleFrom (d : Defaults) (origin : R) : Nat → List (List Token) → Noted R (List (Track R))
  | _, [] => pure []
  | index, tokens :: rest => do
    let instructions ← Schedule.run d tokens origin
    let tracks ← scheduleFrom d origin (index + 1) rest
    return ⟨index % UInt32.size, tokens, instructions⟩ :: tracks

def schedule (tracks : List (List Token)) (d : Defaults) (origin : R) : Noted R (Song R) := do
  let tracks ← scheduleFrom d origin 0 tracks
  return ⟨origin, tracks⟩

def compile (text : List Char) (d : Defaults) (origin : R) : Noted R (Song R) := do
  Noted.noteAll (scanEvents text)
  schedule (tokenize text) d origin

end Song

end MusicMacro
