import MusicMacro.Scalar

/-!
# The master bus

Voices add up without bound. The master bus scales the sum by a volume and cuts it at a ceiling.

* `MasterBus` : a volume and a ceiling; `MasterBus.ofVolume` and `MasterBus.setVolume` keep the volume between 0 and 1;
* `MasterBus.process` : one sample.
-/

namespace MusicMacro

/-- A volume followed by a limiter. -/
structure MasterBus (S : Type) where
  volume : S
  ceiling : S

namespace MasterBus
variable {S : Type} [Amplitude S]

/-- A volume cut to the range from 0 to 1. -/
def cutVolume (volume : S) : S := Amplitude.clamp Amplitude.silence ((1 : Nat) : S) volume

def ofVolume (volume ceiling : S) : MasterBus S := ⟨cutVolume volume, ceiling⟩

/-- The usual ceiling, just below full scale. -/
def usualCeiling : S := ((19 : Nat) : S) / ((20 : Nat) : S)

def usual : MasterBus S := ofVolume ((1 : Nat) : S) usualCeiling

def setVolume (m : MasterBus S) (volume : S) : MasterBus S := { m with volume := cutVolume volume }

/-- Scales a sample and cuts it at the ceiling. -/
def process (m : MasterBus S) (sample : S) : S := Amplitude.clamp (-m.ceiling) m.ceiling (sample * m.volume)

def processBlock (m : MasterBus S) (buffer : List S) : List S := buffer.map m.process

end MasterBus

end MusicMacro
