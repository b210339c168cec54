import MusicMacro.Scalar
import MusicMacro.Score.Pitch

/-!
# Octaves and frequencies

Pitches are tuned in equal temperament from the concert A, and an octave doubles a frequency.

* `Octave` : one of the octaves from 0 to 10; `Octave.ofInt?` refuses and `Octave.clamp` cuts what lies outside;
* `PitchClass.baseFrequency` : the frequency of a class in the reference octave;
* `Octave.frequency`, `Octave.classFrequency` : the frequency of a pitch and of a class in an octave.
-/

namespace MusicMacro

/-- An octave that a track can be moved to. -/
structure Octave where
  /-- Its number; middle C begins octave 4. -/
  number : Int
  lower : 0 ≤ number := by omega
  upper : number ≤ 10 := by omega
  deriving DecidableEq, Repr

/-- The frequency of the A in the reference octave, in hertz. -/
def concertA (R : Type) [Scalar R] : R := ((440 : Nat) : R)

def PitchClass.baseFrequency {R : Type} [Scalar R] (p : PitchClass) : R :=
  concertA R * Scalar.halfSteps (p.semitone - Letter.a.semitone)

namespace Octave

/-- The octave of the concert A, where every track starts. -/
def reference : Octave := ⟨4, by omega, by omega⟩

def ofInt? (n : Int) : Option Octave :=
  if h : 0 ≤ n ∧ n ≤ 10 then some ⟨n, h.1, h.2⟩ else none

def clamp (n : Int) : Octave := ⟨max 0 (min 10 n), by omega, by omega⟩

def shift? (o : Octave) (delta : Int) : Option Octave := ofInt? (o.number + delta)

variable {R : Type} [Scalar R]

/-- The factor between a frequency of the reference octave and the same note here. -/
def scale (o : Octave) : R := Scalar.octaves (o.number - reference.number)

def classFrequency (o : Octave) (p : PitchClass) : R := p.baseFrequency * o.scale

/-- The frequency of a written pitch in this octave; its accidental may lead out of the octave. -/
def frequency (o : Octave) (p : Pitch) : R :=
  concertA R * Scalar.halfSteps p.halfStepsFromA * o.scale

theorem ofInt?_number (o : Octave) : ofInt? o.number = some o := by
  simp [ofInt?, o.lower, o.upper]

theorem clamp_number (o : Octave) : clamp o.number = o := by
  have := o.lower
  have := o.upper
  cases o
  simp only [clamp, mk.injEq]
  omega

end Octave

end MusicMacro
