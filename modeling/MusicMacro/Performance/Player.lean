import MusicMacro.Performance.Engine
import MusicMacro.Timeline.Song

/-!
# The player

The player takes scores. It compiles them against the clock of its device and hands every tone to the engine.

* `Player` : an engine with the defaults of every track and a lead-in before every song;
* `Player.compile` : a song, without playing it;
* `Player.playSong` : every tone of a song; what the device refuses is left out;
* `Player.compileAndPlay`, `Player.playTokens` : both in one.
-/

namespace MusicMacro

/-- How a player is set up. -/
structure PlayerOptions (R : Type) where
  defaults : Defaults := {}
  envelope : Envelope R
  /-- The seconds between a call and the first note. -/
  leadIn : R

/-- Compiles scores and plays them on a device. -/
structure Player (D R H : Type) where
  engine : Engine D R H
  defaults : Defaults
  leadIn : R

/-- What came of the tones of a song. -/
structure Tally where
  tones : Nat := 0
  failed : Nat := 0
  firstFailure? : Option Failure := none
  deriving DecidableEq, Repr

namespace Tally

/-- One more answer of the device; a silence counts for nothing. -/
def add {H : Type} (t : Tally) : Except Failure (Option H) → Tally
  | .ok (some _) => { t with tones := t.tones + 1 }
  | .ok none => t
  | .error failure => { t with failed := t.failed + 1, firstFailure? := some (t.firstFailure?.getD failure) }

end Tally

namespace Player
variable {D R H : Type} [Scalar R]

/-- A player on a device; a lead-in below zero counts as none. -/
def fresh (device : D) (options : PlayerOptions R) : Player D R H where
  engine := .fresh device options.envelope
  defaults := options.defaults
  leadIn := Scalar.maxOf options.leadIn ((0 : Nat) : R)

variable [ToneDevice D R H]

/-- The time at which a song would start if it were played now. -/
def origin (p : Player D R H) : R := ToneDevice.now p.engine.device + p.leadIn

/-- Compiles a score against the clock of the device. -/
def compile (p : Player D R H) (text : List Char) : Noted R (Song R) := Song.compile text p.defaults p.origin

variable [DecidableEq H]

/-- Performs instructions of a track one after the other, whatever becomes of them. -/
def performEach (track : Nat) (e : Engine D R H) (t : Tally) : List (Instruction R) → Noted R (Tally × Engine D R H)
  | [] => pure (t, e)
  | instruction :: rest => do
    let (answer, next) ← e.perform instruction
    match answer with
    | .ok _ => pure ()
    | .error failure => Noted.note (.instructionSkipped track instruction failure)
    performEach track next (t.add answer) rest

def performTracks (e : Engine D R H) (t : Tally) : List (Track R) → Noted R (Tally × Engine D R H)
  | [] => pure (t, e)
  | track :: rest => do
    let (tally, next) ← performEach track.index e t track.instructions
    performTracks next tally rest

/-- Hands every tone of a song to the device: the number of tones that it accepts, or the first refusal if it accepts
none. -/
def playSong (p : Player D R H) (song : Song R) : Noted R (Except Failure Nat × Player D R H) := do
  let (tally, engine) ← performTracks p.engine {} song.tracks
  let next := { p with engine }
  match tally.tones, tally.firstFailure? with
  | 0, some failure => return (.error failure, next)
  | tones, _ =>
    Noted.note (.songScheduled song.tracks.length tones tally.failed song.origin song.finish)
    return (.ok tones, next)

def playMade (p : Player D R H) (song : Song R) : Noted R (Except Failure (Song R) × Player D R H) := do
  let (answer, next) ← p.playSong song
  return (answer.map fun _ => song, next)

def compileAndPlay (p : Player D R H) (text : List Char) : Noted R (Except Failure (Song R) × Player D R H) := do
  let song ← p.compile text
  p.playMade song

def playTokens (p : Player D R H) (tracks : List (List Token)) :
    Noted R (Except Failure (Song R) × Player D R H) := do
  let song ← Song.schedule tracks p.defaults p.origin
  p.playMade song

def stopAll (p : Player D R H) : Noted R (Nat × Player D R H) := do
  let (count, engine) ← p.engine.stopAll
  return (count, { p with engine })

omit [Scalar R] [ToneDevice D R H] in
/-- The player after its device has taken a step in which tones may have ended. -/
def afterStep (p : Player D R H) (device : D) (ended : List H) : Player D R H :=
  { p with engine := { p.engine with device }.ended ended }

end Player

end MusicMacro
