import MusicMacro.Proofs.Performance.Protocol

/-!
# A song on a device that refuses

A device may refuse any call. A player tries every tone of a song all the same, each of them once and in its turn, and
what it could not finish it gives up. The tones that were accepted are active afterwards, and no others but the old
ones.

* `Engine.active_performAll` : the tones that were accepted are added to the active ones;
* `Player.Performance` : what a player does with a song; `playSong_performance` : it does so whatever is refused.
-/

namespace MusicMacro

namespace Engine
variable {D D' R H : Type} [DecidableEq H] [Scalar R] [ToneDevice D R H] [ToneDevice D' R H]

theorem performAll_through {f : D → D'} (hf : Relays f) (e : Engine D R H) (is : List (Instruction R)) :
    (e.through f).performAll is = Prod.map id (through f) (e.performAll is) := by
  induction is generalizing e with
  | nil => rfl
  | cons i rest ih =>
    have hnow : ((e.through f).perform i).value = Prod.map id (through f) (e.perform i).value := by
      cases i with
      | rest start duration => rfl
      | play frequency start duration volume =>
        rw [value_perform_play, value_perform_play, play_through hf]
        rfl
    rw [performAll_cons, hnow, performAll_cons]
    show (_ :: (((e.perform i).value.2.through f).performAll rest).1,
      (((e.perform i).value.2.through f).performAll rest).2) = _
    rw [ih]
    rfl

variable [FreshHandles D R H] {e : Engine D R H}

omit [ToneDevice D' R H] in
theorem active_perform (he : e.Consistent) (i : Instruction R) :
    (e.perform i).value.2.active = e.active ++ (Tally.tone? (e.perform i).value.1).toList := by
  cases i with
  | rest start duration => exact (List.append_nil _).symm
  | play frequency start duration volume =>
    rw [value_perform_play]
    rcases hplay : (e.play frequency start duration volume).value with ⟨failure | tone, next⟩
    · obtain ⟨hactive, -⟩ := play_error he hplay
      rw [hactive]
      exact (List.append_nil _).symm
    · obtain ⟨-, -, hactive, -⟩ := play_ok he hplay
      exact hactive

omit [ToneDevice D' R H] in
theorem active_performAll (he : e.Consistent) (is : List (Instruction R)) :
    (e.performAll is).2.active = e.active ++ (e.performAll is).1.filterMap Tally.tone? ∧
      (e.performAll is).2.Consistent := by
  induction is generalizing e with
  | nil => exact ⟨(List.append_nil _).symm, he⟩
  | cons i rest ih =>
    have hnext : (e.perform i).value.2.Consistent := he.act (.perform i)
    obtain ⟨hactive, hconsistent⟩ := ih hnext
    refine ⟨?_, hconsistent⟩
    rw [performAll_cons, hactive, active_perform he, List.append_assoc, List.filterMap_cons]
    cases Tally.tone? (e.perform i).value.1 <;> rfl

end Engine

/-! ## Songs -/

namespace Player
variable {D R H : Type} [DecidableEq H] [Scalar R] [ToneDevice D R H]

def recorded (p : Player D R H) : Player (Recorder D R H) R H := { p with engine := p.engine.recorded }

/-- How a player performs a song. -/
structure Performance (p : Player D R H) (song : Song R) (trials : List (Trial R H)) : Prop where
  tries : List.Forall₂ (Tries p.engine.envelope) (song.tracks.flatMap Track.instructions) trials
  replies : Replies p.engine.device (trials.flatMap Trial.replies) (p.playSong song).value.2.engine.device
  calls : (p.recorded.playSong song).value.2.engine.device.calls =
    (trials.flatMap Trial.replies).map Reply.attempt
  /-- Tones are counted if there are any, and also if nothing was refused. -/
  accepted : (trials.map Trial.answer).filterMap Tally.tone? ≠ [] ∨
      (trials.flatMap Trial.replies).filterMap Reply.failure? = [] →
    (p.playSong song).value.1 = .ok ((trials.map Trial.answer).filterMap Tally.tone?).length
  /-- Otherwise the first refusal is the answer. -/
  refused : ∀ first rest, (trials.map Trial.answer).filterMap Tally.tone? = [] →
    (trials.flatMap Trial.replies).filterMap Reply.failure? = first :: rest →
      (p.playSong song).value.1 = .error first
  active : (p.playSong song).value.2.engine.active =
    p.engine.active ++ (trials.map Trial.answer).filterMap Tally.tone?
  nodup : (p.playSong song).value.2.engine.active.Nodup

theorem value_playMade (p : Player D R H) (song : Song R) :
    (p.playMade song).value = ((p.playSong song).value.1.map fun _ => song, (p.playSong song).value.2) := rfl

variable [FreshHandles D R H] {p : Player D R H}

theorem performance (he : p.engine.Consistent) (song : Song R) : ∃ trials, p.Performance song trials := by
  -- the trials are those on the recorder, which passes every call on
  have hthrough := Engine.performAll_through (Recorder.relays_device : Relays (Recorder.device : Recorder D R H → D))
    p.engine.recorded (song.tracks.flatMap Track.instructions)
  obtain ⟨trials, htries, hanswers, hreplies⟩ :=
    p.engine.recorded.performAll_tries (song.tracks.flatMap Track.instructions)
  have hsame : p.engine.recorded.through Recorder.device = p.engine := rfl
  rw [hsame] at hthrough
  have hanswers' : (p.engine.performAll (song.tracks.flatMap Track.instructions)).1 = trials.map Trial.answer := by
    rw [hthrough, ← hanswers]
    rfl
  obtain ⟨hactive, hconsistent⟩ := Engine.active_performAll he (song.tracks.flatMap Track.instructions)
  have hfailures := failures_head? htries
  refine ⟨trials, htries, ?_, ?_, fun hsome => ?_, fun first rest hnone hfirst => ?_, ?_, ?_⟩
  · rw [value_playSong, hthrough]
    exact hreplies.relays Recorder.relays_device
  · rw [value_playSong]
    exact hreplies.calls_eq
  · rw [value_playSong, hanswers', outcome_of_accepted]
    refine hsome.imp_right fun hnone => ?_
    rw [hnone] at hfailures
    exact List.head?_eq_none_iff.1 hfailures
  · rw [hfirst] at hfailures
    rw [value_playSong, hanswers']
    exact outcome_of_refused hnone hfailures
  · rw [value_playSong, ← hanswers']
    exact hactive
  · rw [value_playSong]
    exact hconsistent.nodup

theorem active_of_error (he : p.engine.Consistent) {song : Song R} {failure : Failure}
    (h : (p.playSong song).value.1 = .error failure) :
    (p.playSong song).value.2.engine.active = p.engine.active := by
  rw [value_playSong] at h ⊢
  rw [(Engine.active_performAll he _).1, tones_of_outcome_error h, List.append_nil]

theorem active_playMade_of_error (he : p.engine.Consistent) {song : Song R} {failure : Failure}
    (h : (p.playMade song).value.1 = .error failure) :
    (p.playMade song).value.2.engine.active = p.engine.active := by
  rw [value_playMade] at h ⊢
  rcases hsong : (p.playSong song).value.1 with failure' | tones
  · exact active_of_error he hsong
  · rw [hsong] at h
    cases h

end Player

/-- **Songs on a device that refuses.** Whatever it refuses, every tone of every track is tried once, in its turn, and
nothing is called for silences. The answer is the number of tones that were accepted, if there are any or if nothing was
refused, and else the first refusal. The tones that were accepted are active afterwards, together with those that were
active before; so nothing changes if the answer is a refusal. -/
theorem playSong_performance {D R H : Type} [DecidableEq H] [Scalar R] [ToneDevice D R H] [FreshHandles D R H]
    {p : Player D R H} (he : p.engine.Consistent) :
    (∀ song, ∃ trials, p.Performance song trials) ∧
      (∀ song failure, (p.playSong song).value.1 = .error failure →
        (p.playSong song).value.2.engine.active = p.engine.active) ∧
      (∀ text failure, (p.compileAndPlay text).value.1 = .error failure →
        (p.compileAndPlay text).value.2.engine.active = p.engine.active) ∧
      ∀ tracks failure, (p.playTokens tracks).value.1 = .error failure →
        (p.playTokens tracks).value.2.engine.active = p.engine.active :=
  ⟨Player.performance he, fun _ _ => Player.active_of_error he, fun _ _ => Player.active_playMade_of_error he,
    fun _ _ => Player.active_playMade_of_error he⟩

/-- The first tone is accepted, and the second one is given up. -/
theorem playSong_performance_fickle :
    let p : Player (ScriptedDevice ℝ) ℝ ToneId := .fresh fickle { envelope := .ofRamp 1, leadIn := 0 }
    let song : Song ℝ := ⟨0, [⟨0, [], [.play 440 0 2 80]⟩, ⟨1, [], [.rest 0 1, .play 220 1 3 50]⟩]⟩
    p.engine.Consistent ∧ (p.playSong song).value.1 = .ok 1 ∧ ∃ trials, p.Performance song trials := by
  intro p song
  have hconsistent : p.engine.Consistent := Engine.consistent_fresh fickle (.ofRamp 1)
  exact ⟨hconsistent, rfl, (playSong_performance hconsistent).1 song⟩

end MusicMacro
