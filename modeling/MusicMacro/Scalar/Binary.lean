import MusicMacro.Scalar

/-!
# Binary numbers

The scalars of a running program are 64-bit binary floating-point numbers and its amplitudes 32-bit ones.

* `Binary.fractOf` and `Binary.ceilOf` cut a nonnegative number at the point; above `2 ^ 53` every number is whole.
-/

namespace MusicMacro

def Binary.fractOf (x : Float) : Float := if x < 9007199254740992.0 then x - x.toUInt64.toFloat else 0.0

/-- The least count that is not below a nonnegative number, at most `2 ^ 64 - 1`. -/
def Binary.ceilOf (x : Float) : Nat :=
  let whole := x.toUInt64
  if whole.toFloat < x ∧ x < 9007199254740992.0 then whole.toNat + 1 else whole.toNat

/-- The number nearest to a count. Counts are held in 64 bits: after the greatest of them they begin again at zero. -/
def Binary.ofCount (n : Nat) : Float := n.toUInt64.toFloat

instance : Scalar Float where
  natCast := Binary.ofCount
  decLT := inferInstance
  decLE := inferInstance
  isFinite := Float.isFinite
  halfSteps n := Float.pow 2.0 (Float.ofInt n / 12.0)
  octaves n := Float.pow 2.0 (Float.ofInt n)
  sineOfTurns phase := (phase * 2.0 * 3.141592653589793).sin
  fract := Binary.fractOf
  ceilNat := Binary.ceilOf

instance : Amplitude Float32 where
  natCast n := Float32.ofNat n
  decLT := inferInstance

instance : Sampling Float Float32 where
  store := Float.toFloat32

end MusicMacro
