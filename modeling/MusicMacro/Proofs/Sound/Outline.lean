import MusicMacro.Proofs.Sound.Asleep
import MusicMacro.Proofs.Sound.Curve
import MusicMacro.Sound.Envelope

/-!
# The outline of a note

The four points of an envelope, put into a fresh tone one after the other, give a gain without a click: it rises from
silence in a straight line, holds, and falls back to silence.

* `Envelope.outline` : that gain as a formula; `outline_rise`, `outline_hold`, `outline_fall` : its three parts;
* `Envelope.outline_mem`, `Envelope.abs_outline_sub_le` : it stays between silence and the peak, and it is no steeper
  than its ramps;
* `Voice.points_foldl_addPoint` : points that come in the order of their times are all kept in that order;
* `GainCurve.valueAt?_outline` : the gain of a curve through the four points of a note;
* `note_outline` : the gain of a note, for every ramp, start, duration and volume.
-/

namespace MusicMacro

namespace Envelope

/-! ## The formula -/

/-- A rise from silence at `start`, a level, and a fall to silence at `finish`; both ramps take `r`. -/
noncomputable def outline (level r start finish t : ℝ) : ℝ :=
  if r = 0 then if start < t ∧ t < finish then level else 0
  else level * max (min 1 (min ((t - start) / r) ((finish - t) / r))) 0

variable {level r start finish t : ℝ}

theorem outline_outside (hr : 0 ≤ r) (ht : t ≤ start ∨ finish ≤ t) : outline level r start finish t = 0 := by
  unfold outline
  split_ifs with hnone hinside
  · obtain ⟨hafter, hbefore⟩ := hinside
    rcases ht with ht | ht <;> linarith
  · rfl
  · have hedge : min ((t - start) / r) ((finish - t) / r) ≤ 0 := by
      rcases ht with ht | ht
      · exact min_le_of_left_le (div_nonpos_of_nonpos_of_nonneg (by linarith) hr)
      · exact min_le_of_right_le (div_nonpos_of_nonpos_of_nonneg (by linarith) hr)
    rw [max_eq_right (min_le_of_right_le hedge), mul_zero]

theorem outline_inside (hr : 0 ≤ r) (hafter : start < t) (hbefore : t < finish) :
    outline level r start finish t =
      if r = 0 then level else level * min 1 (min ((t - start) / r) ((finish - t) / r)) := by
  unfold outline
  by_cases hnone : r = 0
  · rw [if_pos hnone, if_pos hnone, if_pos ⟨hafter, hbefore⟩]
  · have hrise : 0 ≤ (t - start) / r := div_nonneg (by linarith) hr
    have hfall : 0 ≤ (finish - t) / r := div_nonneg (by linarith) hr
    rw [if_neg hnone, if_neg hnone, max_eq_left (le_min zero_le_one (le_min hrise hfall))]

theorem outline_rise (hr : 0 < r) (hmeet : start + r ≤ finish - r) (hafter : start < t) (hrise : t ≤ start + r) :
    outline level r start finish t = level * ((t - start) / r) := by
  have hup : (t - start) / r ≤ 1 := (div_le_one hr).2 (by linarith)
  have hdown : (t - start) / r ≤ (finish - t) / r := div_le_div_of_nonneg_right (by linarith) hr.le
  rw [outline_inside hr.le hafter (by linarith), if_neg hr.ne', min_eq_left hdown, min_eq_right hup]

theorem outline_hold (hr : 0 ≤ r) (hrise : start + r ≤ t) (hfall : t ≤ finish - r) (hafter : start < t)
    (hbefore : t < finish) : outline level r start finish t = level := by
  rw [outline_inside hr hafter hbefore]
  split_ifs with hnone
  · rfl
  · have hpos : 0 < r := lt_of_le_of_ne hr (Ne.symm hnone)
    have hup : 1 ≤ (t - start) / r := (one_le_div hpos).2 (by linarith)
    have hdown : 1 ≤ (finish - t) / r := (one_le_div hpos).2 (by linarith)
    rw [min_eq_left (le_min hup hdown), mul_one]

theorem outline_fall (hr : 0 < r) (hmeet : start + r ≤ finish - r) (hfall : finish - r ≤ t) (hbefore : t < finish) :
    outline level r start finish t = level * ((finish - t) / r) := by
  have hdown : (finish - t) / r ≤ 1 := (div_le_one hr).2 (by linarith)
  have hup : (finish - t) / r ≤ (t - start) / r := div_le_div_of_nonneg_right (by linarith) hr.le
  rw [outline_inside hr.le (by linarith) hbefore, if_neg hr.ne', min_eq_right hup, min_eq_right hdown]

theorem outline_mem (hlevel : 0 ≤ level) :
    0 ≤ outline level r start finish t ∧ outline level r start finish t ≤ level := by
  unfold outline
  split_ifs
  · exact ⟨hlevel, le_rfl⟩
  · exact ⟨le_rfl, hlevel⟩
  · have hone : max (min 1 (min ((t - start) / r) ((finish - t) / r))) 0 ≤ 1 :=
      max_le (min_le_left _ _) zero_le_one
    exact ⟨mul_nonneg hlevel (le_max_right _ _), mul_le_of_le_one_right hlevel hone⟩

theorem abs_outline_sub_le (hlevel : 0 ≤ level) (hr : 0 < r) (t u : ℝ) :
    |outline level r start finish t - outline level r start finish u| ≤ level / r * |t - u| := by
  have hrise : |(t - start) / r - (u - start) / r| = |t - u| / r := by
    rw [← sub_div, abs_div, abs_of_pos hr, sub_sub_sub_cancel_right]
  have hfall : |(finish - t) / r - (finish - u) / r| = |t - u| / r := by
    rw [← sub_div, abs_div, abs_of_pos hr, sub_sub_sub_cancel_left, abs_sub_comm]
  have hzero : (0 : ℝ) ≤ |t - u| / r := div_nonneg (abs_nonneg _) hr.le
  have hedges := abs_min_sub_min_le_max ((t - start) / r) ((finish - t) / r) ((u - start) / r) ((finish - u) / r)
  rw [hrise, hfall, max_self] at hedges
  -- neither the cut at the level nor the one at silence makes it steeper
  have hcut := (abs_min_sub_min_le_max (1 : ℝ) (min ((t - start) / r) ((finish - t) / r)) 1
    (min ((u - start) / r) ((finish - u) / r))).trans (max_le (by simpa using hzero) hedges)
  have hsilence := (abs_max_sub_max_le_abs (min 1 (min ((t - start) / r) ((finish - t) / r)))
    (min 1 (min ((u - start) / r) ((finish - u) / r))) 0).trans hcut
  unfold outline
  rw [if_neg hr.ne', if_neg hr.ne', ← mul_sub, abs_mul, abs_of_nonneg hlevel, div_mul_eq_mul_div, mul_div_assoc]
  exact mul_le_mul_of_nonneg_left hsilence hlevel

end Envelope

/-! ## The curve -/

namespace GainCurve

/-- The points of a note, silent at both ends, with ramps that meet in the middle at the latest. -/
def notePoints (level r start finish : ℝ) : List (GainPoint ℝ) :=
  [⟨start, 0⟩, ⟨start + r, level⟩, ⟨finish - r, level⟩, ⟨finish, 0⟩]

variable {level r start finish : ℝ}

theorem sorted_notePoints (hr : 0 ≤ r) (hmeet : start + r ≤ finish - r) :
    Sorted (notePoints level r start finish) := by
  have hlong : start ≤ finish := by linarith
  simp only [Sorted, notePoints, List.pairwise_cons, List.mem_cons, List.not_mem_nil, or_false, forall_eq_or_imp,
    forall_eq]
  refine ⟨⟨?_, ?_, hlong⟩, ⟨hmeet, ?_⟩, ?_, by simp⟩ <;> linarith

/-- **The gain of a curve** through the points of a note is its outline. -/
theorem valueAt?_outline {c : GainCurve ℝ} (hpoints : c.points = notePoints level r start finish) (hr : 0 ≤ r)
    (hmeet : start + r ≤ finish - r) (t : ℝ) :
    c.valueAt? t = some (Envelope.outline level r start finish t) := by
  have hsorted : Sorted c.points := hpoints ▸ sorted_notePoints hr hmeet
  by_cases hearly : t ≤ start
  · rw [Envelope.outline_outside hr (.inl hearly)]
    unfold valueAt?
    rw [hpoints]
    exact if_pos hearly
  have hafter : start < t := not_le.1 hearly
  have hbegun : ∀ first ∈ c.points.head?, ¬ t ≤ first.time := by
    rw [hpoints]
    intro first hfirst
    cases hfirst
    exact hearly
  by_cases hlate : finish ≤ t
  · rw [Envelope.outline_outside hr (.inr hlate)]
    have hend : c.points.getLast? = some ⟨finish, 0⟩ := by
      rw [hpoints]
      rfl
    refine valueAt?_last hsorted hend ?_ hbegun
    rw [hpoints]
    intro p hp
    simp only [notePoints, List.mem_cons, List.not_mem_nil, or_false] at hp
    rcases hp with rfl | rfl | rfl | rfl <;> linarith
  have hbefore : t < finish := not_le.1 hlate
  by_cases hrise : t < start + r
  · -- on the way up
    have hpoints' : c.points = [] ++ ⟨start, 0⟩ :: ⟨start + r, level⟩ :: [⟨finish - r, level⟩, ⟨finish, 0⟩] := hpoints
    have hline : interpolate (⟨start, 0⟩ : GainPoint ℝ) ⟨start + r, level⟩ t = level * ((t - start) / r) := by
      simp only [interpolate, add_sub_cancel_left]
      ring
    rw [valueAt?_between hsorted hpoints' hafter.le (not_le.2 hrise) hbegun, hline,
      Envelope.outline_rise (by linarith) hmeet hafter hrise.le]
  · by_cases hfall : t < finish - r
    · -- at the level
      have hpoints' : c.points = [⟨start, 0⟩] ++ ⟨start + r, level⟩ :: ⟨finish - r, level⟩ :: [⟨finish, 0⟩] := hpoints
      have hline : interpolate (⟨start + r, level⟩ : GainPoint ℝ) ⟨finish - r, level⟩ t = level := by simp [interpolate]
      rw [valueAt?_between hsorted hpoints' (not_lt.1 hrise) (not_le.2 hfall) hbegun, hline,
        Envelope.outline_hold hr (not_lt.1 hrise) hfall.le hafter hbefore]
    · -- on the way down
      have hpoints' : c.points = [⟨start, 0⟩, ⟨start + r, level⟩] ++ ⟨finish - r, level⟩ :: ⟨finish, 0⟩ :: [] := hpoints
      have hpos : 0 < r := by linarith
      have hline : interpolate (⟨finish - r, level⟩ : GainPoint ℝ) ⟨finish, 0⟩ t = level * ((finish - t) / r) := by
        simp only [interpolate, sub_sub_cancel]
        field_simp
        ring
      rw [valueAt?_between hsorted hpoints' (not_lt.1 hfall) (not_le.2 hbefore) hbegun, hline,
        Envelope.outline_fall hpos hmeet (not_lt.1 hfall) hbefore]

end GainCurve

/-! ## The tone -/

namespace Voice

theorem points_addPoint {v : Voice ℝ} (hsorted : GainCurve.Sorted v.gain.points) {p : GainPoint ℝ}
    (hroom : v.gain.points.length < 8) (hlast : ∀ q ∈ v.gain.points, q.time ≤ p.time) (hlow : 0 ≤ p.value)
    (hhigh : p.value ≤ 1) : (v.addPoint p.time p.value).gain.points = v.gain.points ++ [p] := by
  have hfinite : (Scalar.isFinite p.time && Scalar.isFinite p.value) = true := rfl
  have hcut : Scalar.clamp ((0 : Nat) : ℝ) ((1 : Nat) : ℝ) p.value = p.value := by
    rw [Scalar.clamp, if_neg (by simpa using hlow), if_neg (by simpa using hhigh)]
  have hroom : v.gain.insert? p = some ⟨GainCurve.insertPoint v.gain.points p, _⟩ := dif_pos hroom
  rw [addPoint, if_pos hfinite]
  simp only [hcut, hroom, Option.getD_some]
  exact GainCurve.insertPoint_eq_append hsorted hlast

/-- Points in the order of their times are kept as they come. -/
theorem points_foldl_addPoint {v : Voice ℝ} {gains : List (GainPoint ℝ)}
    (hsorted : GainCurve.Sorted (v.gain.points ++ gains)) (hroom : (v.gain.points ++ gains).length ≤ 8)
    (hvalues : ∀ p ∈ gains, 0 ≤ p.value ∧ p.value ≤ 1) :
    (gains.foldl (fun v p => v.addPoint p.time p.value) v).gain.points = v.gain.points ++ gains := by
  induction gains generalizing v with
  | nil => simp
  | cons p rest ih =>
    obtain ⟨hfirst, -, hacross⟩ := List.pairwise_append.1 hsorted
    obtain ⟨hlow, hhigh⟩ := hvalues p List.mem_cons_self
    have hone : (v.addPoint p.time p.value).gain.points = v.gain.points ++ [p] := by
      refine points_addPoint hfirst ?_ (fun q hq => hacross q hq p List.mem_cons_self) hlow hhigh
      rw [List.length_append, List.length_cons] at hroom
      omega
    have hsame : (v.addPoint p.time p.value).gain.points ++ rest = v.gain.points ++ p :: rest := by
      rw [hone, List.append_assoc, List.singleton_append]
    rw [List.foldl_cons, ih (by rw [hsame]; exact hsorted) (by rw [hsame]; exact hroom)
      fun q hq => hvalues q (List.mem_cons_of_mem _ hq), hsame]

end Voice

theorem ToneBank.get?_foldl_gain {R : Type} [Scalar R] (b : ToneBank R) (id : ToneId) (gains : List (GainPoint R)) :
    (gains.foldl (fun b p => b.apply id (.gain p.time p.value)) b).voices.get? id =
      (b.voices.get? id).map fun v => gains.foldl (fun v p => v.addPoint p.time p.value) v := by
  induction gains generalizing b with
  | nil => simp
  | cons p rest ih =>
    rw [List.foldl_cons, ih, get?_apply, if_pos rfl, ToneRequest.act, Option.map_map]
    rfl

namespace Envelope

theorem peak_eq (volume : UInt32) : (peak volume : ℝ) = (min volume.toNat 100 : Nat) / 100 := by
  have hcut : (min volume 100).toNat = min volume.toNat 100 := by
    show (if volume ≤ 100 then volume else 100).toNat = _
    split
    · rename_i h
      have := UInt32.le_iff_toNat_le.1 h
      exact (min_eq_left this).symm
    · rename_i h
      have := UInt32.lt_iff_toNat_lt.1 (UInt32.not_le.1 h)
      exact (min_eq_right this.le).symm
  rw [peak, hcut, Nat.cast_ofNat]

theorem peak_mem (volume : UInt32) : 0 ≤ (peak volume : ℝ) ∧ (peak volume : ℝ) ≤ 1 := by
  have hcut : ((min volume.toNat 100 : Nat) : ℝ) ≤ (100 : Nat) := Nat.cast_le.2 (min_le_right _ _)
  rw [peak_eq]
  refine ⟨by positivity, (div_le_one (by norm_num)).2 ?_⟩
  exact hcut.trans_eq (by norm_num)

theorem points_eq (ramp start : ℝ) {duration : ℝ} (hduration : 0 < duration) (volume : UInt32) :
    (ofRamp ramp).points start duration volume =
      GainCurve.notePoints (peak volume) (min (max ramp 0) (duration / 2)) start (start + duration) := by
  have hramp : (ofRamp ramp).ramp = max ramp 0 := by
    show Scalar.maxOf ramp ((0 : Nat) : ℝ) = _
    rw [maxOf_eq, Nat.cast_zero]
  have hlength : Scalar.maxOf duration 0 = duration := by rw [maxOf_eq, max_eq_left hduration.le]
  have hedge : (ofRamp ramp).rampFor duration = min (max ramp 0) (duration / 2) := by
    rw [rampFor, hramp, Nat.cast_zero, hlength, minOf_eq, Nat.cast_ofNat]
  have hhalf : min (max ramp 0) (duration / 2) ≤ duration / 2 := min_le_right _ _
  have hrelease : ∀ r ≤ duration / 2, Scalar.maxOf (start + duration - r) (start + r) = start + duration - r := by
    intro r hr
    rw [maxOf_eq, max_eq_left]
    linarith
  simp only [points, hedge, Nat.cast_zero, hlength, hrelease _ hhalf, GainCurve.notePoints]

end Envelope

/-- **A note does not click.** A tone is made and given the points of a note. Its gain is silence up to the start and
from the end on; in between it is the peak, but for a rise and a fall of equal length, which take half of the note each
if the note is shorter than both. It stays between silence and the peak, and it is no steeper than its ramps. -/
theorem note_outline (bank : ToneBank ℝ) (id : ToneId) (frequency ramp start : ℝ) {duration : ℝ}
    (hduration : 0 < duration) (volume : UInt32) :
    let r := min (max ramp 0) (duration / 2)
    let peak : ℝ := (min volume.toNat 100 : Nat) / 100
    let points := (Envelope.ofRamp ramp).points start duration volume
    let made := bank.apply id (.create frequency)
    ∃ v, (points.foldl (fun b p => b.apply id (.gain p.time p.value)) made).voices.get? id = some v ∧
      ∃ gain : ℝ → ℝ, (∀ t, v.gain.valueAt? t = some (gain t)) ∧
        (∀ t, t ≤ start ∨ start + duration ≤ t → gain t = 0) ∧
        (∀ t, start < t → t < start + duration →
          gain t = if r = 0 then peak else peak * min 1 (min ((t - start) / r) ((start + duration - t) / r))) ∧
        (∀ t, 0 ≤ gain t ∧ gain t ≤ peak) ∧
        (0 < r → ∀ t u, |gain t - gain u| ≤ peak / r * |t - u|) := by
  intro r peak points made
  have hr : 0 ≤ r := le_min (le_max_right _ _) (by linarith)
  have hmeet : start + r ≤ start + duration - r := by
    have hhalf : r ≤ duration / 2 := min_le_right _ _
    linarith
  have hpeak : 0 ≤ peak ∧ peak ≤ 1 := by
    have hmem := Envelope.peak_mem volume
    rw [Envelope.peak_eq] at hmem
    exact hmem
  have hpoints : points = GainCurve.notePoints peak r start (start + duration) := by
    show (Envelope.ofRamp ramp).points start duration volume = _
    rw [Envelope.points_eq ramp start hduration, Envelope.peak_eq]
  have hvalues : ∀ p ∈ points, 0 ≤ p.value ∧ p.value ≤ 1 := by
    rw [hpoints]
    simp [GainCurve.notePoints, hpeak]
  have hvoice : (points.foldl (fun b p => b.apply id (.gain p.time p.value)) made).voices.get? id =
      some (points.foldl (fun v p => v.addPoint p.time p.value) (Voice.silent frequency)) := by
    rw [ToneBank.get?_foldl_gain, ToneBank.get?_apply, if_pos rfl]
    rfl
  have hcurve : (points.foldl (fun v p => v.addPoint p.time p.value) (Voice.silent frequency)).gain.points = points :=
    Voice.points_foldl_addPoint (v := .silent frequency)
      (by rw [hpoints]; exact GainCurve.sorted_notePoints hr hmeet) (by rw [hpoints]; exact (by decide : 4 ≤ 8)) hvalues
  refine ⟨_, hvoice, Envelope.outline peak r start (start + duration),
    GainCurve.valueAt?_outline (hcurve.trans hpoints) hr hmeet, fun t => Envelope.outline_outside hr,
    fun t => Envelope.outline_inside hr, fun t => Envelope.outline_mem hpeak.1, fun hpos =>
    Envelope.abs_outline_sub_le hpeak.1 hpos⟩

/-- A note that is shorter than two ramps is a triangle; half way up it has half its peak. -/
theorem note_outline_short :
    (0 : ℝ) < 1 / 25 ∧
      let points := (Envelope.ofRamp (1 / 20 : ℝ)).points 3 (1 / 25) 80
      let made := (ToneBank.silent .square).apply 7 (.create (440 : ℝ))
      ∃ v, (points.foldl (fun b p => b.apply 7 (.gain p.time p.value)) made).voices.get? 7 = some v ∧
        v.gain.valueAt? (3 + 1 / 100) = some (2 / 5) := by
  have hduration : (0 : ℝ) < 1 / 25 := by norm_num
  obtain ⟨v, hvoice, gain, hgain, -, hinside, -⟩ :=
    note_outline (ToneBank.silent .square) 7 440 (1 / 20) 3 hduration 80
  refine ⟨hduration, v, hvoice, ?_⟩
  have hramp : min (max (1 / 20 : ℝ) 0) (1 / 25 / 2) = 1 / 50 := by norm_num
  have hpeak : ((min (80 : UInt32).toNat 100 : Nat) : ℝ) / 100 = 4 / 5 := by
    have : min (80 : UInt32).toNat 100 = 80 := rfl
    rw [this]
    norm_num
  rw [hgain, hinside _ (by norm_num) (by norm_num), hramp, hpeak]
  norm_num

end MusicMacro
