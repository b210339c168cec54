import MusicMacro.Sound.GainCurve

/-!
# Note envelopes

A tone that began or ended at full loudness would click. Every note fades in from silence, holds its loudness, and
fades out over a ramp of the same length; a note shorter than two ramps is all ramp.

* `Envelope` : the length of the ramp; `Envelope.ofRamp` takes nonsense for zero;
* `Envelope.points` : the four points of the gain curve of a note.
-/

namespace MusicMacro

/-- The shape of the edges of every note. -/
structure Envelope (R : Type) where
  /-- The time in which a note reaches its loudness. -/
  ramp : R

namespace Envelope
variable {R : Type} [Scalar R]

/-- The usual ramp: a 64th note at a tempo of 100. -/
def usualRamp : R := ((240 : Nat) : R) / (((100 : Nat) : R) * ((64 : Nat) : R))

/-- The envelope with a ramp; a negative, infinite or undefined one counts as none. -/
def ofRamp (ramp : R) : Envelope R :=
  ⟨if Scalar.isFinite ramp then Scalar.maxOf ramp ((0 : Nat) : R) else ((0 : Nat) : R)⟩

def usual : Envelope R := ofRamp usualRamp

/-- The ramp of a note: at most half of the note. -/
def rampFor (e : Envelope R) (duration : R) : R :=
  Scalar.minOf e.ramp (Scalar.maxOf duration ((0 : Nat) : R) / ((2 : Nat) : R))

/-- The gain of a loudness from 0 to 100. -/
def peak (volume : UInt32) : R := (((min volume 100).toNat : Nat) : R) / ((100 : Nat) : R)

/-- The points of a note: silent at its start, at its peak after the ramp, still there when the second ramp begins,
and silent at its end. -/
def points (e : Envelope R) (start duration : R) (volume : UInt32) : List (GainPoint R) :=
  let ramp := e.rampFor duration
  let finish := start + Scalar.maxOf duration ((0 : Nat) : R)
  let release := Scalar.maxOf (finish - ramp) (start + ramp)
  [⟨start, ((0 : Nat) : R)⟩, ⟨start + ramp, peak volume⟩, ⟨release, peak volume⟩, ⟨finish, ((0 : Nat) : R)⟩]

end Envelope

end MusicMacro
