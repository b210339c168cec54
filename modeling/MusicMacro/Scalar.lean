/-!
# Numbers for time, pitch and loudness

Everything that has a duration, a frequency or a gain is computed over a type of *scalars*, and everything that
reaches a loudspeaker over a type of *amplitudes*. The library is written against the two classes below, so that one
text of the scheduler and of the tone bank serves both the binary numbers that a sound card takes and the exact
numbers in which its laws are stated.

* `Scalar R` : the arithmetic of seconds, hertz and gains; `Scalar.maxOf` and `Scalar.minOf` pass over a value that
  is not a number;
* `Amplitude S` : the arithmetic of samples; `Amplitude.clamp` keeps a value that is not a number;
* `Sampling R S` : how a scalar is stored as a sample.
-/

namespace MusicMacro

/-- The arithmetic of seconds, hertz and gains. -/
class Scalar (R : Type) extends Add R, Sub R, Mul R, Div R, Neg R, NatCast R, LT R, LE R where
  decLT : DecidableLT R
  decLE : DecidableLE R
  isFinite : R → Bool
  /-- The frequency ratio of `n` equal-tempered half-steps, `2 ^ (n / 12)`. -/
  halfSteps : Int → R
  /-- The frequency ratio of `n` octaves, `2 ^ n`. -/
  octaves : Int → R
  /-- The sine of `phase` turns. -/
  sineOfTurns : R → R
  /-- The part after the point of a nonnegative number. -/
  fract : R → R
  /-- The least natural number that is not below a nonnegative number. -/
  ceilNat : R → Nat

instance Scalar.decidableLT {R : Type} [Scalar R] : DecidableLT R := Scalar.decLT

instance Scalar.decidableLE {R : Type} [Scalar R] : DecidableLE R := Scalar.decLE

namespace Scalar
variable {R : Type} [Scalar R]

/-- The greater of two numbers; of a number and something undefined, the number. -/
def maxOf (a b : R) : R := if a < b ∨ ¬ a ≤ a then b else a

/-- The smaller of two numbers; of a number and something undefined, the number. -/
def minOf (a b : R) : R := if b < a ∨ ¬ a ≤ a then b else a

def clamp (low high x : R) : R := if x < low then low else if high < x then high else x

/-- Finite and above zero: what a duration or a frequency has to be before it can sound. -/
def isPositive (x : R) : Bool := isFinite x && decide (((0 : Nat) : R) < x)

/-- The instant at which frame `n` is played when `rate` frames make a second. -/
def frameTime (rate n : Nat) : R := (n : R) / (rate : R)

end Scalar

/-- The arithmetic of samples. -/
class Amplitude (S : Type) extends Add S, Mul S, Div S, Neg S, NatCast S, LT S where
  decLT : DecidableLT S

instance Amplitude.decidableLT {S : Type} [Amplitude S] : DecidableLT S := Amplitude.decLT

namespace Amplitude
variable {S : Type} [Amplitude S]

def silence : S := ((0 : Nat) : S)

/-- A sample cut to the range from `low` to `high`; an undefined sample passes. -/
def clamp (low high s : S) : S := if s < low then low else if high < s then high else s

end Amplitude

/-- How a scalar is stored as a sample. -/
class Sampling (R : Type) (S : outParam Type) where
  /-- The sample nearest to a scalar. -/
  store : R → S

end MusicMacro
