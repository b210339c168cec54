import Mathlib.Algebra.Order.BigOperators.Group.List
import MusicMacro.Proofs.Timeline.History

/-!
# Ties add up

* `Duration.wholeNotes_tie` : what stands on the two sides of a tie adds up;
* `Duration.wholeNotes_perm` : the order of the pieces does not matter;
* `Component.wholeNotes_bounds`, `Duration.wholeNotes_bounds` : no piece is shorter than the greatest denominator makes
  it, and none is longer than a dotted whole note;
* `tied_lengths` : all of this, and that no state of a track makes a duration vanish.
-/

namespace MusicMacro

theorem one_div_bounds {n : UInt32} (hn : 0 < n.toNat) :
    1 / (2 ^ 32 - 1) ≤ 1 / (n.toNat : ℝ) ∧ 1 / (n.toNat : ℝ) ≤ 1 := by
  have hlow : (1 : ℝ) ≤ (n.toNat : ℝ) := Nat.one_le_cast.2 hn
  have hhigh : (n.toNat : ℝ) ≤ 2 ^ 32 - 1 := by
    have hword : n.toNat ≤ 2 ^ 32 - 1 := Nat.le_sub_one_of_lt n.toNat_lt
    have hcast : (n.toNat : ℝ) ≤ ((2 ^ 32 - 1 : Nat) : ℝ) := Nat.cast_le.2 hword
    norm_num at hcast ⊢
    exact hcast
  constructor
  · exact one_div_le_one_div_of_le (by linarith) hhigh
  · rw [div_le_one (by linarith)]
    exact hlow

theorem Component.wholeNotes_bounds (c : Component) (default : UInt32) :
    1 / (2 ^ 32 - 1) ≤ (c.wholeNotes default : ℝ) ∧ (c.wholeNotes default : ℝ) ≤ 3 / 2 := by
  obtain ⟨hlow, hhigh⟩ := one_div_bounds (toNat_max_one_pos (c.effective default))
  have hleast : (0 : ℝ) < 1 / (2 ^ 32 - 1) := by norm_num
  unfold wholeNotes
  simp only [Nat.cast_one, Nat.cast_ofNat]
  split
  · constructor <;> linarith
  · constructor <;> linarith

namespace Duration

theorem wholeNotes_tie (a b : List Char) (default : UInt32) :
    ((Duration.mk (a ++ '&' :: b)).wholeNotes default : ℝ) =
      (Duration.mk a).wholeNotes default + (Duration.mk b).wholeNotes default := by
  have hpieces : (Duration.mk (a ++ '&' :: b)).components =
      (Duration.mk a).components ++ (Duration.mk b).components := by
    simp only [components]
    rw [List.splitOn_append_cons_self, List.map_append]
  rw [wholeNotes_eq_sum, hpieces, List.map_append, List.sum_append, wholeNotes_eq_sum, wholeNotes_eq_sum]

theorem wholeNotes_perm {d e : Duration} (h : d.components.Perm e.components) (default : UInt32) :
    (d.wholeNotes default : ℝ) = e.wholeNotes default := by
  rw [wholeNotes_eq_sum, wholeNotes_eq_sum]
  exact (h.map _).sum_eq

theorem wholeNotes_bounds (d : Duration) (default : UInt32) :
    (d.components.length : ℝ) / (2 ^ 32 - 1) ≤ d.wholeNotes default ∧
      (d.wholeNotes default : ℝ) ≤ 3 * d.components.length / 2 := by
  have hpieces : ∀ x ∈ d.components.map fun c => (c.wholeNotes default : ℝ), 1 / (2 ^ 32 - 1) ≤ x ∧ x ≤ 3 / 2 := by
    intro x hx
    obtain ⟨c, -, rfl⟩ := List.mem_map.1 hx
    exact c.wholeNotes_bounds default
  have hlow := List.card_nsmul_le_sum _ _ fun x hx => (hpieces x hx).1
  have hhigh := List.sum_le_card_nsmul _ _ fun x hx => (hpieces x hx).2
  rw [List.length_map, nsmul_eq_mul] at hlow hhigh
  rw [wholeNotes_eq_sum]
  constructor
  · rwa [mul_one_div] at hlow
  · rwa [mul_div_assoc', mul_comm] at hhigh

end Duration

/-- **Ties add up**: a tie adds what stands on its two sides, whatever is written there; the pieces may be played in any
order; `k` pieces take between `k / (2 ^ 32 - 1)` and `3 * k / 2` whole notes; and no state of a track makes a duration
vanish. -/
theorem tied_lengths :
    (∀ (a b : List Char) (default : UInt32), ((Duration.mk (a ++ '&' :: b)).wholeNotes default : ℝ) =
      (Duration.mk a).wholeNotes default + (Duration.mk b).wholeNotes default) ∧
    (∀ (d e : Duration) (default : UInt32), d.components.Perm e.components →
      (d.wholeNotes default : ℝ) = e.wholeNotes default) ∧
    (∀ (d : Duration) (default : UInt32), (d.components.length : ℝ) / (2 ^ 32 - 1) ≤ d.wholeNotes default ∧
      (d.wholeNotes default : ℝ) ≤ 3 * d.components.length / 2) ∧
    ∀ (c : Clockwork ℝ) (d : Duration), 0 < c.seconds d :=
  ⟨Duration.wholeNotes_tie, fun _ _ default h => Duration.wholeNotes_perm h default, Duration.wholeNotes_bounds,
    Clockwork.seconds_pos⟩

/-- A dotted quarter, a piece that cannot be read and an empty one, in two orders. -/
theorem tied_lengths_swapped :
    (Duration.mk ['4', '.', '&', 'x', '&']).components.Perm (Duration.mk ['&', '4', '.', '&', 'x']).components ∧
      ((Duration.mk ['4', '.', '&', 'x', '&']).wholeNotes 0 : ℝ) =
        (Duration.mk ['&', '4', '.', '&', 'x']).wholeNotes 0 := by
  have hperm : (Duration.mk ['4', '.', '&', 'x', '&']).components.Perm
      (Duration.mk ['&', '4', '.', '&', 'x']).components := by decide
  exact ⟨hperm, tied_lengths.2.1 _ _ 0 hperm⟩

end MusicMacro
