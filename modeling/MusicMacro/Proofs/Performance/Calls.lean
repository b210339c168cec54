import MusicMacro.Proofs.Performance.Replies
import MusicMacro.Proofs.Sound.Outline

/-!
# The calls of one action

What an engine calls when it plays a tone, and when it silences all of them, whatever the device answers.

* `Arming` : the requests that schedule a tone; `arming_requests` : they are those of the envelope;
* `IsScheduling`, `IsAbandonment`, `IsSilencing` : the calls of one action for one tone;
* `Engine.play_calls` : what is called when a tone is played;
* `Engine.silenceEach_calls` : what is called when tones are silenced.
-/

namespace MusicMacro

/-! ## One tone -/

section Shapes
variable {H : Type}

/-- The requests that schedule a tone: silence, a rise to a level, a fall from it and silence again, none of them before
the one ahead of it, and then the start, the stop and the report of the end. -/
def Arming (tone : H) (start duration : ℝ) (requests : List (Request ℝ H)) : Prop :=
  ∃ rise fall level,
    requests =
      [.gain tone start 0, .gain tone rise level, .gain tone fall level, .gain tone (start + duration) 0,
        .start tone start, .stop tone (start + duration), .onEnded tone tone] ∧
      start ≤ rise ∧ rise ≤ fall ∧ fall ≤ start + duration ∧ 0 ≤ level ∧ level ≤ 1

/-- A tone is made and scheduled, and nothing is refused. -/
def IsScheduling (tone : H) (frequency start duration : ℝ) (calls : List (Attempt ℝ H)) : Prop :=
  ∃ requests, Arming tone start duration requests ∧ calls = .made tone frequency :: Attempt.accepted requests

/-- A tone is made, and the first of its requests that is refused is followed by its release. -/
def IsAbandonment (tone : H) (frequency start duration : ℝ) (calls : List (Attempt ℝ H)) : Prop :=
  ∃ before request after released, Arming tone start duration (before ++ request :: after) ∧
    calls = .made tone frequency :: (Attempt.accepted before ++ [.asked request false, .asked (.release tone) released])

/-- A tone is stopped at once and released, whatever the answers. -/
def IsSilencing (tone : H) (now : ℝ) (calls : List (Attempt ℝ H)) : Prop :=
  ∃ stopped released, calls = [.asked (.stop tone now) stopped, .asked (.release tone) released]

theorem arming_requests (ramp : ℝ) (tone : H) (start : ℝ) {duration : ℝ} (hduration : 0 < duration) (volume : UInt32) :
    Arming tone start duration
      (Engine.armingRequests (.ofRamp ramp) tone start (start + duration) volume ++ [.onEnded tone tone]) := by
  have hlength : start + duration - start = duration := add_sub_cancel_left start duration
  have hnonneg : 0 ≤ min (max ramp 0) (duration / 2) := le_min (le_max_right _ _) (by linarith)
  have hhalf : min (max ramp 0) (duration / 2) ≤ duration / 2 := min_le_right _ _
  obtain ⟨hlevel, hlevel'⟩ := Envelope.peak_mem volume
  refine ⟨start + min (max ramp 0) (duration / 2), start + duration - min (max ramp 0) (duration / 2),
    Envelope.peak volume, ?_, ?_, ?_, ?_, hlevel, hlevel'⟩
  · rw [Engine.armingRequests, hlength, Envelope.points_eq ramp start hduration]
    rfl
  all_goals linarith

end Shapes

/-! ## The calls of one action -/

namespace Engine

section Calls
variable {D R H : Type} [DecidableEq H] [Scalar R] [ToneDevice D R H] [FreshHandles D R H]

/-- A tone is refused, or made and scheduled, or made and given up. -/
theorem play_calls (r : Engine (Recorder D R H) R H) (frequency start duration : R) (volume : UInt32) :
    let played := (r.play frequency start duration volume).value
    (∃ failure, played.1 = .error failure ∧ played.2.device.calls = r.device.calls ++ [.unmade frequency]) ∨
      ∃ tone, ¬ FreshHandles.issued r.device tone ∧ FreshHandles.issued played.2.device tone ∧
        let requests := armingRequests r.envelope tone start (start + duration) volume ++ [.onEnded tone tone]
        (played.1 = .ok tone ∧
          played.2.device.calls = r.device.calls ++ .made tone frequency :: Attempt.accepted requests) ∨
        ∃ failure before request after released, requests = before ++ request :: after ∧ played.1 = .error failure ∧
          played.2.device.calls =
            r.device.calls ++ .made tone frequency ::
              (Attempt.accepted before ++ [.asked request false, .asked (.release tone) released]) := by
  intro played
  obtain ⟨trial, htries, hanswer, hreplies⟩ := r.perform_tries (.play frequency start duration volume)
  rw [value_perform_play] at hanswer hreplies
  have hcalls := hreplies.calls_eq
  have hsame : ∀ answer : Except Failure H, answer.map some = played.1.map some → played.1 = answer := by
    intro answer h
    rcases hplayed : played.1 with failure | tone
    · rw [hplayed] at h
      cases answer <;> cases h
      rfl
    · rw [hplayed] at h
      cases answer <;> cases h
      rfl
  have hmade : ∀ {tone later}, Replies r.device (.create frequency (.ok tone) :: later) played.2.device →
      ¬ FreshHandles.issued r.device tone ∧ FreshHandles.issued played.2.device tone := by
    intro tone later h
    cases h with
    | create now rest =>
      obtain ⟨hfresh, hissued⟩ := FreshHandles.create_fresh now
      exact ⟨hfresh, rest.keeps hissued⟩
  cases htries with
  | @refused _ _ _ _ failure => exact .inl ⟨failure, hsame (.error failure) hanswer, hcalls⟩
  | @scheduled _ _ _ _ tone =>
    obtain ⟨hfresh, hissued⟩ := hmade hreplies
    refine .inr ⟨tone, hfresh, hissued, .inl ⟨hsame (.ok tone) hanswer, ?_⟩⟩
    rw [List.map_cons, Reply.attempts_accepted] at hcalls
    exact hcalls
  | @abandoned _ _ _ _ tone failure before after request released hcut =>
    obtain ⟨hfresh, hissued⟩ := hmade hreplies
    refine .inr ⟨tone, hfresh, hissued, .inr ⟨failure, before, request, after, released.isOk, hcut,
      hsame (.error failure) hanswer, ?_⟩⟩
    rw [List.map_cons, List.map_append, Reply.attempts_accepted] at hcalls
    exact hcalls

end Calls

theorem silenceEach_calls {D H : Type} [ToneDevice D ℝ H] (r : Engine (Recorder D ℝ H) ℝ H) (now : ℝ) (tones : List H) :
    ∃ parts, List.Forall₂ (fun tone part => IsSilencing tone now part) tones parts ∧
      (r.silenceEach now tones).value.device.calls = r.device.calls ++ parts.flatten := by
  induction tones generalizing r with
  | nil => exact ⟨[], .nil, (List.append_nil _).symm⟩
  | cons tone rest ih =>
    unfold silenceEach
    rw [Noted.value_bind, value_silence]
    obtain ⟨parts, hparts, hcalls⟩ := ih ((r.submit (.stop tone now)).2.submit (.release tone)).2
    have hfirst : ∃ stopped released, ((r.submit (.stop tone now)).2.submit (.release tone)).2.device.calls =
        r.device.calls ++ [.asked (.stop tone now) stopped, .asked (.release tone) released] :=
      ⟨_, _, List.append_assoc ..⟩
    obtain ⟨stopped, released, hfirst⟩ := hfirst
    refine ⟨[.asked (.stop tone now) stopped, .asked (.release tone) released] :: parts,
      .cons ⟨stopped, released, rfl⟩ hparts, ?_⟩
    rw [hcalls, hfirst, List.flatten_cons, List.append_assoc]

end Engine

end MusicMacro
