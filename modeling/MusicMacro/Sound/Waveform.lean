import MusicMacro.Scalar

/-!
# Waveforms

* `Waveform` : the shapes of an oscillator, with the names that settings and messages use;
* `Waveform.sample` : the value of a shape at a phase, which counts turns from 0 to 1.
-/

namespace MusicMacro

/-- The shape of an oscillator. -/
inductive Waveform where
  | sine | square | saw | triangle
  deriving DecidableEq, Repr

namespace Waveform

def name : Waveform → String
  | sine => "sine"
  | square => "square"
  | saw => "saw"
  | triangle => "triangle"

def ofName? (name : String) : Option Waveform :=
  [sine, square, saw, triangle].find? fun w => w.name == name

/-- The name of a shape in messages. -/
def title : Waveform → String
  | sine => "Sine"
  | square => "Square"
  | saw => "Saw"
  | triangle => "Triangle"

/-- The value of a shape at a phase from 0 to 1; it lies between -1 and 1. -/
def sample {R : Type} [Scalar R] (w : Waveform) (phase : R) : R :=
  let one : R := ((1 : Nat) : R)
  let two : R := ((2 : Nat) : R)
  let four : R := ((4 : Nat) : R)
  match w with
  | sine => Scalar.sineOfTurns phase
  | saw => two * phase - one
  | square => if phase < one / two then one else -one
  | triangle =>
    if phase < one / four then four * phase
    else if phase < ((3 : Nat) : R) / four then two - four * phase
    else four * phase - four

end Waveform

end MusicMacro
