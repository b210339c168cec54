import MusicMacro.Journal.Event
import MusicMacro.Timeline.Clockwork
import MusicMacro.Timeline.Octave

/-!
# Scheduling a track

Tokens are taken strictly in their order. A note or a rest becomes an instruction at the time of the cursor and moves
the cursor on; every other token changes what the later ones are measured with.

* `TrackState` : the clockwork of a track and its octave; `TrackState.step` takes one token;
* `Schedule.runFrom` : the instructions of a track that finds a given octave, and the octave that it leaves;
* `Schedule.run` : the instructions of a track.
-/

namespace MusicMacro

/-- Everything that the meaning of the next token depends on. -/
structure TrackState (R : Type) where
  clock : Clockwork R
  octave : Octave

namespace TrackState
variable {R : Type} [Scalar R]

def measureEvents (s : TrackState R) (d : Duration) : List (Event R) :=
  d.faults.map fun fault => .durationFallback fault s.clock.length

/-- Measures the duration of a token; only a positive finite time can be scheduled. -/
def measure (s : TrackState R) (token : Token) (d : Duration) : Noted R (Option R) := do
  Noted.noteAll (s.measureEvents d)
  let seconds := s.clock.seconds d
  if Scalar.isPositive seconds then return some seconds
  Noted.note (.unschedulable token seconds)
  return none

/-- The instruction of a note that lasts some seconds; without a positive finite frequency it is a silence. -/
def sound (s : TrackState R) (token : Token) (pitch : Pitch) (seconds : R) : Noted R (Instruction R) := do
  let frequency : R := s.octave.frequency pitch
  if Scalar.isPositive frequency then return .play frequency s.clock.cursor seconds s.clock.volume
  Noted.note (.unplayable token frequency)
  return .rest s.clock.cursor seconds

def advance (s : TrackState R) (seconds : R) : TrackState R := { s with clock := s.clock.advance seconds }

/-- Takes a value of a setting; what a track does not accept changes nothing. -/
def assign (s : TrackState R) (setting : Setting) (value : UInt32) : Noted R (TrackState R) :=
  match setting with
  | .octave =>
    match Octave.ofInt? value.toNat with
    | some octave => pure { s with octave }
    | none => ⟨s, [.octaveRefused value]⟩
  | .length =>
    match s.clock.setLength? value with
    | some clock => pure { s with clock }
    | none => ⟨s, [.zeroLength]⟩
  | .tempo =>
    match s.clock.setTempo? value with
    | some clock => pure { s with clock }
    | none => ⟨s, [.zeroTempo]⟩
  | .volume => pure { s with clock := s.clock.setVolume value }

/-- Takes one token: the instruction that it gives, if any, and the state for the next one. -/
def step (s : TrackState R) (token : Token) : Noted R (Option (Instruction R) × TrackState R) :=
  match token with
  | .note pitch duration => do
    match ← s.measure token duration with
    | none => return (none, s)
    | some seconds =>
      let instruction ← s.sound token pitch seconds
      return (some instruction, s.advance seconds)
  | .rest duration => do
    match ← s.measure token duration with
    | none => return (none, s)
    | some seconds => return (some (.rest s.clock.cursor seconds), s.advance seconds)
  | .step direction =>
    match s.octave.shift? direction.delta with
    | some octave => pure (none, { s with octave })
    | none => ⟨(none, s), [.stepRefused direction s.octave.number]⟩
  | .set setting value => do
    let next ← s.assign setting value
    return (none, next)

def steps (s : TrackState R) : List Token → Noted R (List (Instruction R) × TrackState R)
  | [] => pure ([], s)
  | token :: rest => do
    let (instruction, next) ← s.step token
    let (instructions, last) ← next.steps rest
    return (instruction.toList ++ instructions, last)

end TrackState

namespace Schedule
variable {R : Type} [Scalar R]

/-- The state at the start of a track that finds a given octave: the default octave replaces it, if it exists. -/
def initial (d : Defaults) (origin : R) (found : Octave) : Noted R (TrackState R) :=
  let clock := Clockwork.ofDefaults d origin
  match Octave.ofInt? d.octave with
  | some octave => pure ⟨clock, octave⟩
  | none => ⟨⟨clock, found⟩, [.defaultOctaveRefused d.octave]⟩

/-- Schedules a track that finds a given octave; it leaves the reference octave behind. -/
def runFrom (d : Defaults) (tokens : List Token) (origin : R) (found : Octave) :
    Noted R (List (Instruction R) × Octave) := do
  let start ← initial d origin found
  let (instructions, last) ← start.steps tokens
  Noted.note (.trackScheduled tokens.length instructions.length last.clock.cursor)
  return (instructions, .reference)

def run (d : Defaults) (tokens : List Token) (origin : R) : Noted R (List (Instruction R)) := do
  let (instructions, _) ← runFrom d tokens origin .reference
  return instructions

end Schedule

end MusicMacro
