import MusicMacro.Proofs.Timeline.Pace
import MusicMacro.Proofs.Timeline.Tracks

/-!
# The end of a song

The end of a song is read off the last instruction of each track, and still nothing in the song ends later: every
instruction lasts, and each begins when the one before it ends.

* `Consecutive.finish_le`, `getLast?_finish` : instructions without a gap end by the time that they lead to, and the
  last of them ends there;
* `Consecutive.pairwise_start` : they begin one after the other;
* `Track.isGreatest_finish?` : the last instruction of a track ends last;
* `finish_covers` : the end of a song is the greatest of all ends and the origin.
-/

namespace MusicMacro

theorem isGreatest_foldl_maxOf (a : ℝ) (xs : List ℝ) :
    IsGreatest {x | x = a ∨ x ∈ xs} (xs.foldl Scalar.maxOf a) := by
  induction xs generalizing a with
  | nil => exact ⟨.inl rfl, fun x hx => (hx.resolve_right List.not_mem_nil).le⟩
  | cons y rest ih =>
    obtain ⟨hmem, hupper⟩ := ih (Scalar.maxOf a y)
    rw [List.foldl_cons]
    have hstart : Scalar.maxOf a y ≤ rest.foldl Scalar.maxOf (Scalar.maxOf a y) := hupper (.inl rfl)
    rw [maxOf_eq] at hmem hstart hupper ⊢
    constructor
    · obtain hmem | hmem := hmem
      · rw [hmem]
        obtain hmax | hmax := max_choice a y
        · exact .inl hmax
        · right
          rw [hmax]
          exact List.mem_cons_self
      · exact .inr (List.mem_cons_of_mem y hmem)
    · rintro x (rfl | hx)
      · exact (le_max_left x y).trans hstart
      · rcases List.mem_cons.1 hx with rfl | hx
        · exact (le_max_right a x).trans hstart
        · exact hupper (.inr hx)

namespace Consecutive
variable {start finish : ℝ} {is : List (Instruction ℝ)}

theorem start_le (h : Consecutive start is finish) : start ≤ finish := by
  induction is generalizing start with
  | nil => exact le_of_eq h
  | cons i rest ih =>
    obtain ⟨rfl, hlasts, hrest⟩ := h
    exact (le_add_of_nonneg_right hlasts.le).trans (ih hrest)

theorem finish_le (h : Consecutive start is finish) : ∀ i ∈ is, i.finish ≤ finish := by
  induction is generalizing start with
  | nil => exact fun _ hi => absurd hi List.not_mem_nil
  | cons i rest ih =>
    obtain ⟨-, -, hrest⟩ := h
    exact List.forall_mem_cons.2 ⟨hrest.start_le, ih hrest⟩

theorem getLast?_finish (h : Consecutive start is finish) : ∀ last ∈ is.getLast?, last.finish = finish := by
  induction is generalizing start with
  | nil => exact fun _ hlast => nomatch hlast
  | cons i rest ih =>
    obtain ⟨-, -, hrest⟩ := h
    cases rest with
    | nil =>
      rintro last hlast
      obtain rfl := Option.some.inj hlast
      exact hrest
    | cons next later =>
      rw [List.getLast?_cons_cons]
      exact ih hrest

theorem pairwise_start (h : Consecutive start is finish) : is.Pairwise fun i j => i.start < j.start := by
  induction is generalizing start with
  | nil => exact .nil
  | cons i rest ih =>
    obtain ⟨-, hlasts, hrest⟩ := h
    refine List.pairwise_cons.2 ⟨fun j hj => ?_, ih hrest⟩
    have hafter : i.finish ≤ j.start := (hrest.forall_mem j hj).1
    exact (lt_add_of_pos_right i.start hlasts).trans_le hafter

end Consecutive

/-- The last instruction of a track ends last. -/
theorem Track.isGreatest_finish? {track : Track ℝ} {origin finish : ℝ}
    (h : Consecutive origin track.instructions finish) :
    ∀ time ∈ track.finish?, IsGreatest {t | ∃ i ∈ track.instructions, t = i.finish} time := by
  intro time htime
  obtain ⟨last, hlast, rfl⟩ := Option.map_eq_some_iff.1 htime
  refine ⟨⟨last, List.mem_of_getLast? hlast, rfl⟩, ?_⟩
  rintro t ⟨i, hi, rfl⟩
  rw [h.getLast?_finish last hlast]
  exact h.finish_le i hi

namespace Song

theorem consecutive_compile (text : List Char) (d : Defaults) (origin : ℝ) :
    ∀ track ∈ (compile text d origin).value.tracks, ∃ finish, Consecutive origin track.instructions finish := by
  intro track htrack
  rw [tracks_compile] at htrack
  obtain ⟨i, hi, rfl⟩ := List.mem_mapIdx.1 htrack
  exact Schedule.run_consecutive d _ origin

/-- In tracks without gaps no instruction ends after the end of the song. -/
theorem isGreatest_finish {song : Song ℝ}
    (h : ∀ track ∈ song.tracks, ∃ finish, Consecutive song.origin track.instructions finish) :
    IsGreatest (insert song.origin {time | ∃ track ∈ song.tracks, ∃ i ∈ track.instructions, time = i.finish})
      song.finish := by
  obtain ⟨hmem, hupper⟩ := isGreatest_foldl_maxOf song.origin (song.tracks.filterMap Track.finish?)
  constructor
  · refine hmem.imp id fun hfinish => ?_
    obtain ⟨track, htrack, htime⟩ := List.mem_filterMap.1 hfinish
    obtain ⟨finish, hconsecutive⟩ := h track htrack
    exact ⟨track, htrack, (Track.isGreatest_finish? hconsecutive _ htime).1⟩
  · rintro time (rfl | ⟨track, htrack, i, hi, rfl⟩)
    · exact hupper (.inl rfl)
    · obtain ⟨finish, hconsecutive⟩ := h track htrack
      have hlast := List.getLast?_eq_some_getLast (List.ne_nil_of_mem hi)
      have hfinish : track.finish? = some (track.instructions.getLast _).finish := congrArg (Option.map _) hlast
      have hlatest := (Track.isGreatest_finish? hconsecutive _ hfinish).2 ⟨i, hi, rfl⟩
      exact hlatest.trans (hupper (.inr (List.mem_filterMap.2 ⟨track, htrack, hfinish⟩)))

end Song

/-- **The end of a song covers the song.** It is the greatest of the origin and the ends of all instructions of all
tracks. No instruction begins before the origin, and those of a track begin one after the other. -/
theorem finish_covers (text : List Char) (d : Defaults) (origin : ℝ) :
    let song := (Song.compile text d origin).value
    IsGreatest (insert origin {time | ∃ track ∈ song.tracks, ∃ i ∈ track.instructions, time = i.finish}) song.finish ∧
      ∀ track ∈ song.tracks, (∀ i ∈ track.instructions, origin ≤ i.start) ∧
        track.instructions.Pairwise fun i j => i.start < j.start := by
  intro song
  have hconsecutive := Song.consecutive_compile text d origin
  refine ⟨Song.isGreatest_finish hconsecutive, fun track htrack => ?_⟩
  obtain ⟨finish, htrack⟩ := hconsecutive track htrack
  exact ⟨fun i hi => (htrack.forall_mem i hi).1, htrack.pairwise_start⟩

/-- Two rests that a tempo hurries, after an empty track and a dotted note whose tie takes nothing with it. -/
theorem finish_covers_hurried :
    let text := [',', 'c', '.', '&', ',', 't', '9', '0', '0', 'r', 'r']
    let song := (Song.compile text {} (1 : ℝ)).value
    let rests : Track ℝ := Song.trackAt {} 1 2 ['t', '9', '0', '0', 'r', 'r']
    rests ∈ song.tracks ∧ (∀ i ∈ rests.instructions, 1 ≤ i.start) ∧
      rests.instructions.Pairwise fun i j => i.start < j.start := by
  intro text song rests
  have htracks : Score.tracks text = [[], ['c', '.', '&'], ['t', '9', '0', '0', 'r', 'r']] := rfl
  have hrests : rests ∈ song.tracks := by
    rw [Song.tracks_compile, htracks]
    exact List.mem_mapIdx.2 ⟨2, by decide, rfl⟩
  exact ⟨hrests, (finish_covers text {} 1).2 rests hrests⟩

end MusicMacro
