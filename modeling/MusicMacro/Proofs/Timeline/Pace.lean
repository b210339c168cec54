import MusicMacro.Proofs.Timeline.History
import MusicMacro.Timeline.Song

/-!
# The pace of a track

* `Consecutive` : instructions that begin at a time, each when the one before it ends, and lead to another time;
* `TrackState.steps_consecutive` : a track goes from the time of its cursor to that of the cursor after it;
* `Song.Paced` : no instruction of a song begins before the origin, and each of them lasts.
-/

namespace MusicMacro

/-- The instructions lead without a gap from one time to another, and each of them lasts. -/
def Consecutive : ℝ → List (Instruction ℝ) → ℝ → Prop
  | start, [], finish => start = finish
  | start, i :: rest, finish => i.start = start ∧ 0 < i.duration ∧ Consecutive i.finish rest finish

namespace Consecutive

theorem append {start middle finish : ℝ} {first second : List (Instruction ℝ)} (h : Consecutive start first middle)
    (h' : Consecutive middle second finish) : Consecutive start (first ++ second) finish := by
  induction first generalizing start with
  | nil =>
    obtain rfl : start = middle := h
    exact h'
  | cons i rest ih =>
    obtain ⟨hstart, hlasts, hrest⟩ := h
    exact ⟨hstart, hlasts, ih hrest⟩

theorem forall_mem {start finish : ℝ} {is : List (Instruction ℝ)} (h : Consecutive start is finish) :
    ∀ i ∈ is, start ≤ i.start ∧ 0 < i.duration := by
  induction is generalizing start with
  | nil => exact fun _ hi => absurd hi List.not_mem_nil
  | cons first rest ih =>
    obtain ⟨hstart, hlasts, hrest⟩ := h
    have hlater : start ≤ first.finish := by
      show start ≤ first.start + first.duration
      linarith
    intro i hi
    rcases List.mem_cons.1 hi with rfl | hi
    · exact ⟨hstart.ge, hlasts⟩
    · obtain ⟨hafter, hlong⟩ := ih hrest i hi
      exact ⟨hlater.trans hafter, hlong⟩

end Consecutive

namespace TrackState

theorem assign_cursor (s : TrackState ℝ) (setting : Setting) (value : UInt32) :
    (s.assign setting value).value.clock.cursor = s.clock.cursor := by
  unfold assign
  cases setting with
  | octave => cases Octave.ofInt? value.toNat <;> rfl
  | length =>
    unfold Clockwork.setLength?
    by_cases h : value ≠ 0
    · rw [dif_pos h]
      rfl
    · rw [dif_neg h]
  | tempo =>
    unfold Clockwork.setTempo?
    by_cases h : value ≠ 0
    · rw [dif_pos h]
      rfl
    · rw [dif_neg h]
  | volume => rfl

/-- **One token** leads on. -/
theorem step_consecutive (s : TrackState ℝ) (token : Token) :
    Consecutive s.clock.cursor (s.step token).value.1.toList (s.step token).value.2.clock.cursor := by
  cases token with
  | note pitch duration =>
    unfold step
    simp only [Noted.value_bind, value_measure, value_sound, Noted.value_pure]
    exact ⟨rfl, s.clock.seconds_pos duration, rfl⟩
  | rest duration =>
    unfold step
    simp only [Noted.value_bind, value_measure, Noted.value_pure]
    exact ⟨rfl, s.clock.seconds_pos duration, rfl⟩
  | step direction =>
    unfold step
    cases hshift : s.octave.shift? direction.delta <;> simp only [hshift] <;> exact rfl
  | set setting value => exact (s.assign_cursor setting value).symm

theorem steps_consecutive (s : TrackState ℝ) (tokens : List Token) :
    Consecutive s.clock.cursor (s.steps tokens).value.1 (s.steps tokens).value.2.clock.cursor := by
  induction tokens generalizing s with
  | nil => exact rfl
  | cons token rest ih => exact (s.step_consecutive token).append (ih (s.step token).value.2)

end TrackState

theorem Schedule.run_consecutive (d : Defaults) (tokens : List Token) (origin : ℝ) :
    ∃ finish, Consecutive origin (Schedule.run d tokens origin).value finish := by
  have hstart : (Schedule.initial d origin .reference).value.clock.cursor = origin := by
    unfold Schedule.initial
    cases Octave.ofInt? d.octave <;> rfl
  have hsteps := (Schedule.initial d origin .reference).value.steps_consecutive tokens
  rw [hstart] at hsteps
  exact ⟨_, hsteps⟩

namespace Song

/-- No instruction begins before a time, and each of them lasts. -/
def Paced (time : ℝ) (tracks : List (Track ℝ)) : Prop :=
  ∀ track ∈ tracks, ∀ i ∈ track.instructions, time ≤ i.start ∧ 0 < i.duration

theorem Paced.mono {time earlier : ℝ} {tracks : List (Track ℝ)} (h : Paced time tracks) (hle : earlier ≤ time) :
    Paced earlier tracks := by
  intro track htrack i hi
  obtain ⟨hstart, hlasts⟩ := h track htrack i hi
  exact ⟨hle.trans hstart, hlasts⟩

theorem paced_scheduleFrom (d : Defaults) (origin : ℝ) (index : Nat) (tracks : List (List Token)) :
    Paced origin (scheduleFrom d origin index tracks).value := by
  induction tracks generalizing index with
  | nil => exact fun _ htrack => absurd htrack List.not_mem_nil
  | cons tokens rest ih =>
    obtain ⟨finish, hrun⟩ := Schedule.run_consecutive d tokens origin
    exact List.forall_mem_cons.2 ⟨hrun.forall_mem, ih (index + 1)⟩

theorem paced_schedule (tracks : List (List Token)) (d : Defaults) (origin : ℝ) :
    Paced origin (schedule tracks d origin).value.tracks := paced_scheduleFrom d origin 0 tracks

theorem paced_compile (text : List Char) (d : Defaults) (origin : ℝ) :
    Paced origin (compile text d origin).value.tracks := paced_schedule (tokenize text) d origin

end Song

end MusicMacro
