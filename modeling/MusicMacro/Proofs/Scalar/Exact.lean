import Mathlib.Analysis.SpecialFunctions.Pow.Real
import Mathlib.Analysis.SpecialFunctions.Trigonometric.Basic
import MusicMacro.Scalar

/-!
# Exact numbers

The laws of the library are stated over the real numbers: nothing is rounded, and nothing is infinite or undefined.

* `Scalar ℝ`, `Amplitude ℝ`, `Sampling ℝ ℝ` : the real numbers as scalars and as samples;
* `isPositive_iff` : what can sound is what is above zero; `maxOf_eq`, `minOf_eq` : the greater and the smaller number;
* `SteadyClock R` : scalars that compare as numbers do, on which a later frame has no earlier time. Nothing is said
  about scalars that are infinite or undefined.
-/

namespace MusicMacro

noncomputable instance : Scalar ℝ where
  decLT := inferInstance
  decLE := inferInstance
  isFinite _ := true
  halfSteps n := 2 ^ ((n : ℝ) / 12)
  octaves n := 2 ^ n
  sineOfTurns phase := Real.sin (2 * Real.pi * phase)
  fract := Int.fract
  ceilNat := Nat.ceil

noncomputable instance : Amplitude ℝ where
  decLT := inferInstance

instance : Sampling ℝ ℝ where
  store x := x

/-- The comparison of scalars can tell what comes first, and the clock of frames does not run back. -/
class SteadyClock (R : Type) [Scalar R] : Prop where
  le_trans : ∀ {a b c : R}, a ≤ b → b ≤ c → a ≤ c
  not_lt_of_le : ∀ {a b : R}, a ≤ b → ¬ b < a
  frameTime_mono : ∀ {rate m n : Nat}, 0 < rate → m ≤ n → (Scalar.frameTime rate m : R) ≤ Scalar.frameTime rate n

instance SteadyClock.isTrans {R : Type} [Scalar R] [SteadyClock R] : IsTrans R (· ≤ ·) := ⟨fun _ _ _ => le_trans⟩

instance : SteadyClock ℝ where
  le_trans := le_trans
  not_lt_of_le := not_lt_of_ge
  frameTime_mono {rate m n} hrate hmn := by
    have hcast : (m : ℝ) ≤ (n : ℝ) := Nat.cast_le.2 hmn
    exact div_le_div_of_nonneg_right hcast (Nat.cast_nonneg rate)

theorem isPositive_iff (x : ℝ) : Scalar.isPositive x = true ↔ 0 < x := by
  simp [Scalar.isPositive, Scalar.isFinite]

theorem maxOf_eq (a b : ℝ) : Scalar.maxOf a b = max a b := by
  have hself : ¬¬a ≤ a := not_not.2 le_rfl
  unfold Scalar.maxOf
  by_cases h : a < b
  · rw [if_pos (Or.inl h), max_eq_right h.le]
  · rw [if_neg (not_or.2 ⟨h, hself⟩), max_eq_left (not_lt.1 h)]

theorem minOf_eq (a b : ℝ) : Scalar.minOf a b = min a b := by
  have hself : ¬¬a ≤ a := not_not.2 le_rfl
  unfold Scalar.minOf
  by_cases h : b < a
  · rw [if_pos (Or.inl h), min_eq_right h.le]
  · rw [if_neg (not_or.2 ⟨h, hself⟩), min_eq_left (not_lt.1 h)]

theorem halfSteps_pos (n : Int) : 0 < (Scalar.halfSteps n : ℝ) := by
  have : (0 : ℝ) < 2 ^ ((n : ℝ) / 12) := by positivity
  exact this

theorem octaves_pos (n : Int) : 0 < (Scalar.octaves n : ℝ) := by
  have : (0 : ℝ) < 2 ^ n := by positivity
  exact this

end MusicMacro
