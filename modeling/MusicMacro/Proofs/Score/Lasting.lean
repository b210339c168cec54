import MusicMacro.Proofs.Scalar.Exact
import MusicMacro.Score.Duration

/-!
# Every duration lasts

* `Component.wholeNotes_pos` : a piece of a duration has a positive length, whatever is written in it;
* `Duration.wholeNotes_eq_sum` : the length of a duration is the sum of the lengths of its pieces;
* `Duration.wholeNotes_pos` : every text has a positive length.
-/

namespace MusicMacro

theorem toNat_max_one_pos (n : UInt32) : 0 < (max n 1).toNat := by
  show 0 < (if n ≤ 1 then 1 else n).toNat
  split
  · decide
  · rename_i hn
    rw [UInt32.le_iff_toNat_le] at hn
    omega

theorem Component.wholeNotes_pos (c : Component) (default : UInt32) : 0 < (c.wholeNotes default : ℝ) := by
  have hdenominator : (0 : ℝ) < ((max (c.effective default) 1).toNat : ℝ) :=
    Nat.cast_pos.2 (toNat_max_one_pos _)
  have hbase : (0 : ℝ) < ((1 : Nat) : ℝ) / ((max (c.effective default) 1).toNat : ℝ) := by positivity
  unfold Component.wholeNotes
  split
  · exact mul_pos hbase (by norm_num)
  · exact hbase

namespace Duration

theorem components_ne_nil (d : Duration) : d.components ≠ [] := by
  unfold components
  rw [Ne, List.map_eq_nil_iff]
  exact List.splitOn_ne_nil _ _

theorem wholeNotes_eq_sum (d : Duration) (default : UInt32) :
    (d.wholeNotes default : ℝ) = (d.components.map fun c => (c.wholeNotes default : ℝ)).sum := by
  rw [List.sum_eq_foldl]
  unfold wholeNotes
  rw [Nat.cast_zero]

theorem wholeNotes_pos (d : Duration) (default : UInt32) : 0 < (d.wholeNotes default : ℝ) := by
  rw [wholeNotes_eq_sum]
  refine List.sum_pos _ (fun x hx => ?_) (fun h => d.components_ne_nil (List.map_eq_nil_iff.1 h))
  obtain ⟨c, -, rfl⟩ := List.mem_map.1 hx
  exact c.wholeNotes_pos default

end Duration

end MusicMacro
