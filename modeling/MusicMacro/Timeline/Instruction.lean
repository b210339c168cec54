import MusicMacro.Scalar.Binary
import MusicMacro.Text.Decimal

/-!
# Instructions

A scheduled track is a row of instructions: tones and silences at absolute times on the clock of a device.

* `Instruction` : a tone or a silence, with `Instruction.finish`, the time at which the next one begins;
* `Instruction.text` : an instruction as it stands in a listing.
-/

namespace MusicMacro

/-- One timed step of a track; times are in seconds. -/
inductive Instruction (R : Type) where
  /-- Sound a frequency, at a loudness from 0 to 100. -/
  | play (frequency start duration : R) (volume : UInt32)
  | rest (start duration : R)
  deriving Repr

namespace Instruction
variable {R : Type}

def start : Instruction R → R
  | play _ start _ _ => start
  | rest start _ => start

def duration : Instruction R → R
  | play _ _ duration _ => duration
  | rest _ duration => duration

/-- The time at which the next instruction of the track begins. -/
def finish [Add R] (i : Instruction R) : R := i.start + i.duration

def isPlay : Instruction R → Bool
  | play .. => true
  | rest .. => false

/-- An instruction as a row of a listing: start, kind and frequency, duration, loudness. -/
def text : Instruction Float → String
  | play frequency start duration volume =>
    Decimal.padLeft 8 (Decimal.fixed 3 start) ++ "s  play " ++ Decimal.padLeft 9 (Decimal.fixed 3 frequency)
      ++ " Hz  " ++ Decimal.fixed 3 duration ++ "s  v" ++ toString volume.toNat
  | rest start duration =>
    Decimal.padLeft 8 (Decimal.fixed 3 start) ++ "s  rest " ++ Decimal.padLeft 12 ""
      ++ "  " ++ Decimal.fixed 3 duration ++ "s"

end Instruction

def trackLabel (index : Nat) : String := "track " ++ toString index

end MusicMacro
