import MusicMacro.Sound.GainCurve
import MusicMacro.Sound.Waveform

/-!
# Voices

A voice is one oscillator with a schedule: when it starts, when it stops, and how loud it is in between.

* `Voice` : the oscillator, its phase and its schedule;
* `Voice.soundsAt` : whether it is heard at a time;
* `Voice.tick` : what it adds to one frame of sound, and the voice for the next frame.
-/

namespace MusicMacro

/-- One oscillator and its schedule. -/
structure Voice (R : Type) where
  /-- Turns in a second. -/
  frequency : R
  /-- Turns made so far, without the whole ones. -/
  phase : R
  start? : Option R
  stop? : Option R
  gain : GainCurve R

namespace Voice
variable {R S : Type} [Scalar R] [Sampling R S]

def silent (frequency : R) : Voice R := ⟨frequency, ((0 : Nat) : R), none, none, .empty⟩

/-- Whether a voice is heard at a time: from its start on and before its stop. -/
def soundsAt (v : Voice R) (time : R) : Bool :=
  v.start?.any (fun start => decide (start ≤ time)) && v.stop?.all (fun stop => decide (time < stop))

def stoppedBy (v : Voice R) (time : R) : Bool := v.stop?.any fun stop => decide (stop ≤ time)

def turnsPerFrame (v : Voice R) (rate : Nat) : R := v.frequency / ((rate : Nat) : R)

def sampleAt (w : Waveform) (v : Voice R) (time : R) : S :=
  Sampling.store (w.sample v.phase * (v.gain.valueAt? time).getD ((0 : Nat) : R))

def turn (rate : Nat) (v : Voice R) : Voice R := { v with phase := Scalar.fract (v.phase + v.turnsPerFrame rate) }

/-- What a voice adds to frame `n`, if it is heard there, and the voice for the next frame: its phase moves only while
it is heard. A voice without a positive finite frequency is never heard. -/
def tick (w : Waveform) (rate n : Nat) (v : Voice R) : Option S × Voice R :=
  let time := Scalar.frameTime rate n
  if Scalar.isPositive (v.turnsPerFrame rate) && v.soundsAt time then (some (v.sampleAt w time), v.turn rate)
  else (none, v)

/-- The voice with one more point on its gain curve, if there is room. A point without a finite time and gain is
dropped, and a gain is cut to the range from 0 to 1. -/
def addPoint (v : Voice R) (time value : R) : Voice R :=
  if Scalar.isFinite time && Scalar.isFinite value then
    let cut := Scalar.clamp ((0 : Nat) : R) ((1 : Nat) : R) value
    { v with gain := (v.gain.insert? ⟨time, cut⟩).getD v.gain }
  else v

end Voice

end MusicMacro
