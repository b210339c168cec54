import MusicMacro.Performance.Engine

/-!
# What one call of the engine does

Each call of the engine is taken apart once, into the answers of the device and the tones that are active after it.

* `Engine.arm_cases` : a tone is scheduled up to the first refusal, and tracked just before the last request;
* `Engine.play_cases` : a tone is refused at once, or scheduled, or given up;
* `Engine.value_silence`, `Engine.active_silenceEach` : a tone is stopped and released, whatever the device answers.
-/

namespace MusicMacro.Engine
variable {D R H : Type} [DecidableEq H]

/-! ## The active tones -/

theorem mem_active_forget (e : Engine D R H) (tone other : H) :
    other ∈ (e.forget tone).active ↔ other ∈ e.active ∧ other ≠ tone := by
  simp [forget]

theorem active_track (e : Engine D R H) {tone : H} (h : tone ∉ e.active) :
    (e.track tone).active = e.active ++ [tone] := by
  rw [track, if_neg h]

theorem device_track (e : Engine D R H) (tone : H) : (e.track tone).device = e.device := by
  unfold track
  split <;> rfl

theorem forget_of_notMem (e : Engine D R H) {tone : H} (h : tone ∉ e.active) : e.forget tone = e := by
  have hkeep : e.active.filter (· ≠ tone) = e.active := by
    rw [List.filter_eq_self]
    intro other hother
    exact decide_eq_true fun heq => h (heq ▸ hother)
  unfold forget
  rw [hkeep]

/-- A tone that was tracked just now, or not yet, can be forgotten as if it had never been. -/
theorem active_forget (e next : Engine D R H) {tone : H} (h : tone ∉ e.active)
    (hnext : next.active = e.active ∨ next.active = e.active ++ [tone]) : (next.forget tone).active = e.active := by
  have hkeep := congrArg active (e.forget_of_notMem h)
  simp only [forget] at hkeep ⊢
  rcases hnext with hnext | hnext
  · rw [hnext, hkeep]
  · rw [hnext, List.filter_append, hkeep]
    simp

theorem device_ended (e : Engine D R H) (tones : List H) : (e.ended tones).device = e.device := by
  induction tones generalizing e with
  | nil => rfl
  | cons tone rest ih => exact ih (e.forget tone)

theorem mem_active_ended (e : Engine D R H) (tones : List H) (other : H) :
    other ∈ (e.ended tones).active ↔ other ∈ e.active ∧ other ∉ tones := by
  induction tones generalizing e with
  | nil => simp [ended]
  | cons tone rest ih =>
    refine (ih (e.forget tone)).trans ?_
    rw [mem_active_forget, List.mem_cons, not_or, and_assoc]

theorem nodup_ended {e : Engine D R H} (h : e.active.Nodup) (tones : List H) : (e.ended tones).active.Nodup := by
  induction tones generalizing e with
  | nil => exact h
  | cons tone rest ih => exact @ih (e.forget tone) (h.filter _)

variable [Scalar R] [ToneDevice D R H]

/-! ## One tone -/

theorem arm_cases (e : Engine D R H) (tone : H) (start stop : R) (volume : UInt32) :
    (∃ failure device,
      ToneDevice.submitAll e.device (armingRequests e.envelope tone start stop volume) = (.error failure, device) ∧
        e.arm tone start stop volume = (.error failure, { e with device })) ∨
    ∃ device,
      ToneDevice.submitAll e.device (armingRequests e.envelope tone start stop volume) = (.ok (), device) ∧
        e.arm tone start stop volume = ({ e with device }.track tone).submit (.onEnded tone tone) := by
  cases h : ToneDevice.submitAll e.device (armingRequests e.envelope tone start stop volume) with
  | mk answer device =>
    cases answer with
    | error failure => exact .inl ⟨failure, device, rfl, by rw [arm, h]⟩
    | ok accepted => exact .inr ⟨device, rfl, by rw [arm, h]⟩

theorem active_arm (e : Engine D R H) {tone : H} (start stop : R) (volume : UInt32) (h : tone ∉ e.active) :
    (e.arm tone start stop volume).2.active = e.active ∧ (∀ accepted, (e.arm tone start stop volume).1 ≠ .ok accepted) ∨
      (e.arm tone start stop volume).2.active = e.active ++ [tone] := by
  obtain ⟨failure, device, -, harm⟩ | ⟨device, -, harm⟩ := e.arm_cases tone start stop volume
  · rw [harm]
    exact .inl ⟨rfl, fun _ h => by cases h⟩
  · rw [harm]
    exact .inr (active_track { e with device } h)

omit [Scalar R] in
theorem value_abandon (e : Engine D R H) (tone : H) (failure : Failure) :
    (e.abandon tone failure).value = ((e.forget tone).submit (.release tone)).2 := by
  rcases hsubmit : (e.forget tone).submit (.release tone) with ⟨answer, next⟩
  cases answer with
  | error refusal => simp only [abandon, hsubmit]; rfl
  | ok accepted => simp only [abandon, hsubmit]; rfl

theorem play_cases (e : Engine D R H) (frequency start duration : R) (volume : UInt32) :
    (∃ failure device, ToneDevice.create e.device frequency = (.error failure, device) ∧
      (e.play frequency start duration volume).value = (.error failure, { e with device })) ∨
    ∃ tone device, ToneDevice.create e.device frequency = (.ok tone, device) ∧
      ((∃ next, { e with device }.arm tone start (start + duration) volume = (.ok (), next) ∧
        (e.play frequency start duration volume).value = (.ok tone, next)) ∨
      ∃ failure next, { e with device }.arm tone start (start + duration) volume = (.error failure, next) ∧
        (e.play frequency start duration volume).value =
          (.error failure, ((next.forget tone).submit (.release tone)).2)) := by
  cases h : ToneDevice.create e.device frequency with
  | mk answer device =>
    cases answer with
    | error failure => exact .inl ⟨failure, device, rfl, by rw [play, h]; rfl⟩
    | ok tone =>
      refine .inr ⟨tone, device, rfl, ?_⟩
      cases harm : { e with device }.arm tone start (start + duration) volume with
      | mk answer next =>
        cases answer with
        | error failure =>
          refine .inr ⟨failure, next, rfl, ?_⟩
          simp only [play, h, harm, Noted.value_bind, Noted.value_pure]
          rw [value_abandon]
        | ok accepted => exact .inl ⟨next, rfl, by simp only [play, h, harm]⟩

theorem envelope_arm (e : Engine D R H) (tone : H) (start stop : R) (volume : UInt32) :
    (e.arm tone start stop volume).2.envelope = e.envelope := by
  have htrack : ∀ (e : Engine D R H) (tone : H), (e.track tone).envelope = e.envelope := by
    intro e tone
    unfold track
    split <;> rfl
  obtain ⟨failure, device, -, harm⟩ | ⟨device, -, harm⟩ := e.arm_cases tone start stop volume
  · rw [harm]
  · rw [harm]
    exact htrack _ _

theorem envelope_play (e : Engine D R H) (frequency start duration : R) (volume : UInt32) :
    (e.play frequency start duration volume).value.2.envelope = e.envelope := by
  obtain ⟨failure, device, -, hplay⟩ |
      ⟨tone, device, -, ⟨next, harm, hplay⟩ | ⟨failure, next, harm, hplay⟩⟩ :=
    e.play_cases frequency start duration volume
  · rw [hplay]
  all_goals
    have harmed := envelope_arm { e with device } tone start (start + duration) volume
    rw [harm] at harmed
    rw [hplay]
    exact harmed

/-! ## All tones -/

omit [DecidableEq H] [Scalar R] in
theorem value_silence (e : Engine D R H) (now : R) (tone : H) :
    (e.silence now tone).value = ((e.submit (.stop tone now)).2.submit (.release tone)).2 := by
  rcases hstop : e.submit (.stop tone now) with ⟨stopped, next⟩
  rcases hrelease : next.submit (.release tone) with ⟨released, last⟩
  cases stopped with
  | error failure => cases released <;> simp only [silence, hstop, hrelease] <;> rfl
  | ok accepted => cases released <;> simp only [silence, hstop, hrelease] <;> rfl

omit [DecidableEq H] [Scalar R] in
theorem active_silenceEach (e : Engine D R H) (now : R) (tones : List H) :
    (e.silenceEach now tones).value.active = e.active := by
  induction tones generalizing e with
  | nil => rfl
  | cons tone rest ih =>
    unfold silenceEach
    rw [Noted.value_bind, ih, value_silence]
    rfl

omit [DecidableEq H] [Scalar R] in
/-- What no stop with its release breaks holds after all tones are silenced. -/
theorem silenceEach_induction {P : D → Prop} {now : R} {tones : List H}
    (hstep : ∀ d, ∀ tone ∈ tones, P d →
      P (ToneDevice.submit (ToneDevice.submit d (.stop tone now)).2 (.release tone)).2)
    {e : Engine D R H} (h : P e.device) : P (e.silenceEach now tones).value.device := by
  induction tones generalizing e with
  | nil => exact h
  | cons tone rest ih =>
    have hnext := hstep e.device tone List.mem_cons_self h
    unfold silenceEach
    rw [Noted.value_bind, value_silence]
    exact ih (fun d other hother => hstep d other (List.mem_cons_of_mem _ hother)) hnext

omit [DecidableEq H] [Scalar R] in
theorem value_stopAll (e : Engine D R H) :
    e.stopAll.value = (e.active.length,
      ({ e with active := [] }.silenceEach (ToneDevice.now e.device) e.active).value) := rfl

end MusicMacro.Engine
