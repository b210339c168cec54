import MusicMacro.Scalar
import MusicMacro.Score.Duration

/-!
# The clockwork of a track

* `Defaults` : the values that every track starts from;
* `Clockwork` : tempo, default length, loudness and the time of the next note; tempo and length are never zero and
  the loudness is at most 100;
* `Clockwork.seconds` : the time that a written duration takes.
-/

namespace MusicMacro

/-- The values that every track starts from. They may lie outside what a track accepts. -/
structure Defaults where
  octave : Int := 4
  /-- Quarter notes in a minute. -/
  tempo : UInt32 := 100
  /-- The denominator of a note without a written length. -/
  length : UInt32 := 1
  /-- Loudness from 0 to 100. -/
  volume : UInt32 := 100
  deriving DecidableEq, Repr

/-- What the notes of a track are measured with. -/
structure Clockwork (R : Type) where
  tempo : UInt32
  length : UInt32
  volume : UInt32
  cursor : R
  tempo_ne : tempo ≠ 0
  length_ne : length ≠ 0
  volume_le : volume ≤ 100

namespace Clockwork
variable {R : Type}

def orElse (n fallback : UInt32) : UInt32 := if n = 0 then fallback else n

theorem orElse_ne {n fallback : UInt32} (h : fallback ≠ 0) : orElse n fallback ≠ 0 := by
  unfold orElse
  split <;> assumption

def cutVolume (v : UInt32) : UInt32 := if v ≤ 100 then v else 100

theorem cutVolume_le (v : UInt32) : cutVolume v ≤ 100 := by
  unfold cutVolume
  split
  · assumption
  · decide

/-- The state at the start of a track; a default tempo or length of zero counts as the usual one. -/
def ofDefaults (d : Defaults) (origin : R) : Clockwork R where
  tempo := orElse d.tempo 100
  length := orElse d.length 1
  volume := cutVolume d.volume
  cursor := origin
  tempo_ne := orElse_ne (by decide)
  length_ne := orElse_ne (by decide)
  volume_le := cutVolume_le d.volume

/-- The state with another tempo, which may not be zero. -/
def setTempo? (c : Clockwork R) (tempo : UInt32) : Option (Clockwork R) :=
  if h : tempo ≠ 0 then some { c with tempo, tempo_ne := h } else none

def setLength? (c : Clockwork R) (length : UInt32) : Option (Clockwork R) :=
  if h : length ≠ 0 then some { c with length, length_ne := h } else none

def setVolume (c : Clockwork R) (volume : UInt32) : Clockwork R :=
  { c with volume := cutVolume volume, volume_le := cutVolume_le volume }

variable [Scalar R]

/-- The time of a whole note: four beats of the tempo. -/
def wholeNote (c : Clockwork R) : R := ((240 : Nat) : R) / ((c.tempo.toNat : Nat) : R)

def seconds (c : Clockwork R) (d : Duration) : R := d.wholeNotes c.length * c.wholeNote

def advance (c : Clockwork R) (seconds : R) : Clockwork R := { c with cursor := c.cursor + seconds }

end Clockwork

end MusicMacro
