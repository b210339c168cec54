import MusicMacro.Proofs.Performance.Calls

/-!
# The calls for one tone

A device may refuse any call. Whatever it refuses, the engine keeps to one order of calls for every tone, from the call
that makes the tone to its release.

* `Exchange` : the calls of an action; `Engine.exchanges` : those of many, `Engine.calls_after` : all that a recorder
  has on record;
* `Exchange.Orderly` : what one action may call; `Lifetime` : what may be called for one tone, action by action;
* `calls_in_order` : every run keeps to both.
-/

namespace MusicMacro

/-! ## Exchanges -/

/-- What an action asked of the device, and what time it was there. -/
structure Exchange (D R H : Type) [ToneDevice D R H] [FreshHandles D R H] where
  action : EngineAction D R H
  now : R
  calls : List (Attempt R H)

def EngineAction.Plays {D R H : Type} [ToneDevice D R H] [FreshHandles D R H] (action : EngineAction D R H)
    (frequency start duration : R) : Prop :=
  ∃ volume, action = .play frequency start duration volume ∨ action = .perform (.play frequency start duration volume)

namespace Engine

section Exchanges
variable {D R H : Type} [DecidableEq H] [Scalar R] [ToneDevice D R H] [FreshHandles D R H]

/-- The engine on a recorder, with nothing on record. -/
def recorded (e : Engine D R H) : Engine (Recorder D R H) R H := ⟨⟨e.device, []⟩, e.envelope, e.active⟩

def exchange (e : Engine D R H) (action : EngineAction D R H) : Exchange D R H :=
  ⟨action, ToneDevice.now e.device, (e.recorded.act (action.map .recorded)).2.device.calls⟩

def exchanges (e : Engine D R H) : List (EngineAction D R H) → List (Exchange D R H)
  | [] => []
  | action :: rest => e.exchange action :: (e.act action).2.exchanges rest

theorem act_recorded (e : Engine D R H) (action : EngineAction D R H) :
    e.recorded.act (action.map .recorded) =
      ((e.act action).1, (e.act action).2.recorded.through (Recorder.since (e.exchange action).calls)) := by
  have h := act_device e.recorded action
  have hsame : e.recorded.through Recorder.device = e := rfl
  rw [hsame] at h
  rw [h]
  refine Prod.ext rfl ?_
  show _ = (⟨⟨_, (e.recorded.act (action.map .recorded)).2.device.calls ++ []⟩, _, _⟩ : Engine (Recorder D R H) R H)
  rw [List.append_nil]
  rfl

theorem calls_after (e : Engine D R H) (actions : List (EngineAction D R H)) :
    (e.recorded.after (actions.map (.map .recorded))).device =
      ⟨(e.after actions).device, (e.exchanges actions).flatMap Exchange.calls⟩ := by
  have hrun : ∀ older, ((e.recorded.through (Recorder.since older)).after (actions.map (.map .recorded))).device =
      ⟨(e.after actions).device, older ++ (e.exchanges actions).flatMap Exchange.calls⟩ := by
    induction actions generalizing e with
    | nil => exact fun older => rfl
    | cons action rest ih =>
      intro older
      have hstep : ((e.recorded.through (Recorder.since older)).act (action.map .recorded)).2 =
          (e.act action).2.recorded.through (Recorder.since (older ++ (e.exchange action).calls)) := by
        rw [act_since, act_recorded]
        exact congrArg (fun calls => (⟨⟨_, calls⟩, _, _⟩ : Engine (Recorder D R H) R H)) (List.append_assoc ..).symm
      show (((e.recorded.through (Recorder.since older)).act (action.map .recorded)).2.after _).device = _
      rw [hstep, ih, exchanges, List.flatMap_cons, List.append_assoc]
      rfl
  exact hrun []

end Exchanges

end Engine

/-! ## What one action may call -/

section Shapes
variable {H : Type}

theorem Arming.tone_eq {tone : H} {start duration : ℝ} {requests : List (Request ℝ H)}
    (h : Arming tone start duration requests) : ∀ request ∈ requests, request.tone = tone := by
  obtain ⟨rise, fall, level, rfl, -⟩ := h
  simp [Request.tone]

theorem IsScheduling.tone?_eq {tone : H} {frequency start duration : ℝ} {calls : List (Attempt ℝ H)}
    (h : IsScheduling tone frequency start duration calls) : ∀ call ∈ calls, call.tone? = some tone := by
  obtain ⟨requests, harming, rfl⟩ := h
  intro call hcall
  rcases List.mem_cons.1 hcall with rfl | hcall
  · rfl
  · obtain ⟨request, hrequest, rfl⟩ := List.mem_map.1 hcall
    exact congrArg some (harming.tone_eq request hrequest)

theorem IsAbandonment.tone?_eq {tone : H} {frequency start duration : ℝ} {calls : List (Attempt ℝ H)}
    (h : IsAbandonment tone frequency start duration calls) : ∀ call ∈ calls, call.tone? = some tone := by
  obtain ⟨before, request, after, released, harming, rfl⟩ := h
  have hbefore : ∀ other ∈ before, other.tone = tone := fun other hother =>
    harming.tone_eq other (List.mem_append_left _ hother)
  have hrequest : request.tone = tone := harming.tone_eq request (List.mem_append_right _ List.mem_cons_self)
  intro call hcall
  simp only [List.mem_cons, List.mem_append, Attempt.accepted, List.mem_map, List.not_mem_nil, or_false] at hcall
  obtain rfl | ⟨other, hother, rfl⟩ | rfl | rfl := hcall
  · rfl
  · exact congrArg some (hbefore other hother)
  · exact congrArg some hrequest
  · rfl

theorem IsSilencing.tone?_eq {tone : H} {now : ℝ} {calls : List (Attempt ℝ H)} (h : IsSilencing tone now calls) :
    ∀ call ∈ calls, call.tone? = some tone := by
  obtain ⟨stopped, released, rfl⟩ := h
  simp [Attempt.tone?, Request.tone]

variable [DecidableEq H]

def callsFor (tone : H) (calls : List (Attempt ℝ H)) : List (Attempt ℝ H) :=
  calls.filter fun call => decide (call.tone? = some tone)

theorem callsFor_self {tone : H} {calls : List (Attempt ℝ H)} (h : ∀ call ∈ calls, call.tone? = some tone) :
    callsFor tone calls = calls :=
  List.filter_eq_self.2 fun call hcall => decide_eq_true (h call hcall)

theorem callsFor_other {tone other : H} {calls : List (Attempt ℝ H)} (h : ∀ call ∈ calls, call.tone? = some other)
    (hne : other ≠ tone) : callsFor tone calls = [] := by
  refine List.filter_eq_nil_iff.2 fun call hcall => ?_
  rw [h call hcall, decide_eq_true_eq, Option.some.injEq]
  exact hne

theorem callsFor_append (tone : H) (first second : List (Attempt ℝ H)) :
    callsFor tone (first ++ second) = callsFor tone first ++ callsFor tone second := List.filter_append ..

theorem callsFor_silencing {tone : H} {now : ℝ} {tones : List H} {parts : List (List (Attempt ℝ H))}
    (h : List.Forall₂ (fun tone part => IsSilencing tone now part) tones parts) :
    (tone ∉ tones → callsFor tone parts.flatten = []) ∧
      (tones.Nodup → tone ∈ tones → IsSilencing tone now (callsFor tone parts.flatten)) := by
  induction h with
  | nil => exact ⟨fun _ => rfl, fun _ hmem => absurd hmem List.not_mem_nil⟩
  | @cons first part rest parts hpart hparts ih =>
    obtain ⟨habsent, hpresent⟩ := ih
    rw [List.flatten_cons, callsFor_append]
    constructor
    · intro hnot
      rw [callsFor_other hpart.tone?_eq fun heq => hnot (heq ▸ List.mem_cons_self),
        habsent fun hmem => hnot (List.mem_cons_of_mem _ hmem), List.append_nil]
    · intro hnodup hmem
      obtain ⟨hfirst, hrest⟩ := List.nodup_cons.1 hnodup
      by_cases heq : first = tone
      · subst heq
        rw [callsFor_self hpart.tone?_eq, habsent hfirst, List.append_nil]
        exact hpart
      · rw [callsFor_other hpart.tone?_eq heq, List.nil_append]
        exact hpresent hrest ((List.mem_cons.1 hmem).resolve_left (Ne.symm heq))

end Shapes

section Orderly
variable {D H : Type} [DecidableEq H] [ToneDevice D ℝ H] [FreshHandles D ℝ H]

/-- A tone that is played is refused, or made and scheduled, or made and given up; all tones are stopped one after the
other; and nothing else asks anything of the device. -/
def Exchange.Orderly (x : Exchange D ℝ H) : Prop :=
  match x.action with
  | .play frequency start duration _ | .perform (.play frequency start duration _) =>
    x.calls = [.unmade frequency] ∨
      ∃ tone, IsScheduling tone frequency start duration x.calls ∨ IsAbandonment tone frequency start duration x.calls
  | .stopAll =>
    ∃ tones parts, tones.Nodup ∧ List.Forall₂ (fun tone part => IsSilencing tone x.now part) tones parts ∧
      x.calls = parts.flatten
  | .perform (.rest ..) | .ended _ | .elapse _ => x.calls = []

def EngineAction.Lasting (action : EngineAction D ℝ H) : Prop :=
  ∀ frequency start duration, action.Plays frequency start duration → 0 < duration

namespace Engine
variable {e : Engine D ℝ H}

theorem exchange_plays {ramp : ℝ} (henvelope : e.envelope = .ofRamp ramp) {action : EngineAction D ℝ H}
    {frequency start duration : ℝ} (hplays : action.Plays frequency start duration) (hduration : 0 < duration) :
    (e.exchange action).calls = [.unmade frequency] ∧ (∀ tone, (e.act action).1 ≠ .started tone) ∨
      ∃ tone, ¬ FreshHandles.issued e.device tone ∧ FreshHandles.issued (e.act action).2.device tone ∧
        (IsScheduling tone frequency start duration (e.exchange action).calls ∧ (e.act action).1 = .started tone ∨
          IsAbandonment tone frequency start duration (e.exchange action).calls ∧
            ∀ other, (e.act action).1 ≠ .started other) := by
  obtain ⟨volume, hplays⟩ := hplays
  -- an instruction that sounds is played
  have hsame : (e.exchange action).calls = (e.recorded.play frequency start duration volume).value.2.device.calls ∧
      e.act action = e.act (.play frequency start duration volume) := by
    rcases hplays with rfl | rfl
    · exact ⟨rfl, rfl⟩
    · exact ⟨congrArg (fun o => o.2.device.calls) (act_perform_play (e := e.recorded) ..), act_perform_play ..⟩
  obtain ⟨hcalls, hplay⟩ := hsame
  have hact := act_recorded e (.play frequency start duration volume)
  have hdevice : (e.act (.play frequency start duration volume)).2.device =
      (e.recorded.play frequency start duration volume).value.2.device.device :=
    (congrArg (fun o => o.2.device.device) hact).symm
  have hanswer : (e.act (.play frequency start duration volume)).1 =
      .ofPlay (e.recorded.play frequency start duration volume).value.1 := (congrArg Prod.fst hact).symm
  have hrefused : ∀ failure : Failure, ∀ tone : H, EngineAnswer.ofPlay (.error failure) ≠ .started tone := nofun
  rw [hcalls, hplay, hanswer, hdevice]
  obtain ⟨failure, hfailed, hrecord⟩ | ⟨tone, hfresh, hissued, hmade⟩ :=
    play_calls e.recorded frequency start duration volume
  · rw [hrecord, hfailed]
    exact .inl ⟨rfl, hrefused failure⟩
  · refine .inr ⟨tone, hfresh, hissued, ?_⟩
    have harming := arming_requests ramp tone start hduration volume
    rw [← henvelope] at harming
    obtain ⟨hok, hrecord⟩ | ⟨failure, before, request, after, released, hcut, hfailed, hrecord⟩ := hmade
    · rw [hrecord, hok]
      exact .inl ⟨⟨_, harming, rfl⟩, rfl⟩
    · rw [hrecord, hfailed]
      refine .inr ⟨⟨before, request, after, released, ?_, rfl⟩, hrefused failure⟩
      rw [← hcut]
      exact harming

theorem exchange_stopAll : ∃ parts,
    List.Forall₂ (fun tone part => IsSilencing tone (ToneDevice.now e.device) part) e.active parts ∧
      (e.exchange .stopAll).calls = parts.flatten :=
  silenceEach_calls { e.recorded with active := [] } (ToneDevice.now e.device) e.active

/-- A tone is played, or all tones are stopped, or nothing is asked of the device. -/
theorem exchange_cases (e : Engine D ℝ H) (action : EngineAction D ℝ H) :
    (∃ frequency start duration, action.Plays frequency start duration) ∨ action = .stopAll ∨
      (e.exchange action).calls = [] ∧ ∀ tone, (e.act action).1 ≠ .started tone := by
  cases action with
  | play frequency start duration volume => exact .inl ⟨frequency, start, duration, volume, .inl rfl⟩
  | perform i =>
    cases i with
    | play frequency start duration volume => exact .inl ⟨frequency, start, duration, volume, .inr rfl⟩
    | rest start duration => exact .inr (.inr ⟨rfl, nofun⟩)
  | stopAll => exact .inr (.inl rfl)
  | ended tone => exact .inr (.inr ⟨rfl, nofun⟩)
  | elapse step => exact .inr (.inr ⟨rfl, nofun⟩)

/-- **One action** calls the device in order. -/
theorem exchange_orderly {ramp : ℝ} (henvelope : e.envelope = .ofRamp ramp) (he : e.Consistent)
    {action : EngineAction D ℝ H} (hlasting : action.Lasting) : (e.exchange action).Orderly := by
  have hplays : ∀ frequency start duration, action.Plays frequency start duration →
      (e.exchange action).calls = [.unmade frequency] ∨
        ∃ tone, IsScheduling tone frequency start duration (e.exchange action).calls ∨
          IsAbandonment tone frequency start duration (e.exchange action).calls := by
    intro frequency start duration hplays
    obtain ⟨hunmade, -⟩ | ⟨tone, -, -, ⟨hscheduled, -⟩ | ⟨habandoned, -⟩⟩ :=
      exchange_plays henvelope hplays (hlasting frequency start duration hplays)
    · exact .inl hunmade
    · exact .inr ⟨tone, .inl hscheduled⟩
    · exact .inr ⟨tone, .inr habandoned⟩
  cases action with
  | play frequency start duration volume => exact hplays frequency start duration ⟨volume, .inl rfl⟩
  | perform i =>
    cases i with
    | play frequency start duration volume => exact hplays frequency start duration ⟨volume, .inr rfl⟩
    | rest start duration => exact rfl
  | stopAll =>
    obtain ⟨parts, hparts, hcalls⟩ := e.exchange_stopAll
    exact ⟨e.active, parts, he.nodup, hparts, hcalls⟩
  | ended tone => exact rfl
  | elapse step => exact rfl

end Engine

/-! ## What many actions may call -/

/-- What actions asked for a tone; those that asked nothing for it are left out. -/
def callsAbout (tone : H) (exchanges : List (Exchange D ℝ H)) : List (Exchange D ℝ H) :=
  (exchanges.map fun x => { x with calls := callsFor tone x.calls }).filter fun x => !x.calls.isEmpty

theorem callsAbout_cons (tone : H) (x : Exchange D ℝ H) (rest : List (Exchange D ℝ H)) :
    callsAbout tone (x :: rest) =
      if callsFor tone x.calls = [] then callsAbout tone rest
      else { x with calls := callsFor tone x.calls } :: callsAbout tone rest := by
  by_cases h : callsFor tone x.calls = [] <;> simp [callsAbout, h]

/-- All that may be asked for one tone, action by action: nothing; or all that schedules it, and maybe its stop and its
release when all tones are stopped; or a part of what schedules it, a refusal and the release. -/
inductive Lifetime (tone : H) : List (Exchange D ℝ H) → Prop where
  | unused : Lifetime tone []
  | scheduled {x : Exchange D ℝ H} {frequency start duration : ℝ} (plays : x.action.Plays frequency start duration)
      (calls : IsScheduling tone frequency start duration x.calls) : Lifetime tone [x]
  | stopped {x y : Exchange D ℝ H} {frequency start duration : ℝ} (plays : x.action.Plays frequency start duration)
      (calls : IsScheduling tone frequency start duration x.calls) (stops : y.action = .stopAll)
      (silences : IsSilencing tone y.now y.calls) : Lifetime tone [x, y]
  | abandoned {x : Exchange D ℝ H} {frequency start duration : ℝ} (plays : x.action.Plays frequency start duration)
      (calls : IsAbandonment tone frequency start duration x.calls) : Lifetime tone [x]

namespace Engine
variable {e : Engine D ℝ H}

theorem envelope_act (e : Engine D ℝ H) (action : EngineAction D ℝ H) : (e.act action).2.envelope = e.envelope := by
  cases action with
  | play frequency start duration volume => exact e.envelope_play frequency start duration volume
  | perform i =>
    cases i with
    | play frequency start duration volume =>
      rw [act_perform_play]
      exact e.envelope_play frequency start duration volume
    | rest start duration => rfl
  | stopAll =>
    have hall : ∀ (tones : List H) (now : ℝ) (e : Engine D ℝ H),
        (e.silenceEach now tones).value.envelope = e.envelope := by
      intro tones now
      induction tones with
      | nil => exact fun _ => rfl
      | cons tone rest ih =>
        intro e
        unfold silenceEach
        rw [Noted.value_bind, value_silence, ih]
        rfl
    exact hall e.active _ { e with active := [] }
  | ended tone => rfl
  | elapse step => rfl

theorem exchange_plays_issued {ramp : ℝ} (henvelope : e.envelope = .ofRamp ramp) {action : EngineAction D ℝ H}
    {frequency start duration : ℝ} (hplays : action.Plays frequency start duration) (hduration : 0 < duration)
    {tone : H} (hissued : FreshHandles.issued e.device tone) : callsFor tone (e.exchange action).calls = [] := by
  obtain ⟨hunmade, -⟩ | ⟨other, hfresh, -, hmade⟩ := exchange_plays henvelope hplays hduration
  · rw [hunmade]
    rfl
  · have hne : other ≠ tone := fun heq => hfresh (heq ▸ hissued)
    obtain ⟨hscheduled, -⟩ | ⟨habandoned, -⟩ := hmade
    · exact callsFor_other hscheduled.tone?_eq hne
    · exact callsFor_other habandoned.tone?_eq hne

/-- A tone that was given out and is not active stays so, and is not called. -/
theorem exchange_spared {ramp : ℝ} (henvelope : e.envelope = .ofRamp ramp) (he : e.Consistent)
    {action : EngineAction D ℝ H} (hlasting : action.Lasting) {tone : H} (hissued : FreshHandles.issued e.device tone)
    (hactive : tone ∉ e.active) :
    callsFor tone (e.exchange action).calls = [] ∧ FreshHandles.issued (e.act action).2.device tone ∧
      tone ∉ (e.act action).2.active := by
  have h := actSpec he action
  refine ⟨?_, h.keeps tone hissued, fun hmem => ?_⟩
  · obtain ⟨frequency, start, duration, hplays⟩ | rfl | ⟨hnone, -⟩ := e.exchange_cases action
    · exact exchange_plays_issued henvelope hplays (hlasting frequency start duration hplays) hissued
    · obtain ⟨parts, hparts, hcalls⟩ := e.exchange_stopAll
      rw [hcalls]
      exact (callsFor_silencing hparts).1 hactive
    · rw [hnone]
      rfl
  · rcases (h.mem_active tone).1 hmem with ⟨hold, -⟩ | hstarted
    · exact hactive hold
    · exact (h.fresh tone hstarted).1 hissued

/-- An active tone is called only when all tones are stopped. -/
theorem exchange_active {ramp : ℝ} (henvelope : e.envelope = .ofRamp ramp) (he : e.Consistent)
    {action : EngineAction D ℝ H} (hlasting : action.Lasting) {tone : H} (hactive : tone ∈ e.active) :
    callsFor tone (e.exchange action).calls = [] ∨
      action = .stopAll ∧ IsSilencing tone (ToneDevice.now e.device) (callsFor tone (e.exchange action).calls) ∧
        tone ∉ (e.act action).2.active := by
  obtain ⟨frequency, start, duration, hplays⟩ | rfl | ⟨hnone, -⟩ := e.exchange_cases action
  · have hissued := he.issued tone hactive
    exact .inl (exchange_plays_issued henvelope hplays (hlasting frequency start duration hplays) hissued)
  · obtain ⟨parts, hparts, hcalls⟩ := e.exchange_stopAll
    refine .inr ⟨rfl, ?_, ?_⟩
    · rw [hcalls]
      exact (callsFor_silencing hparts).2 he.nodup hactive
    · have hnone : (e.act .stopAll).2.active = [] := active_silenceEach _ _ _
      rw [hnone]
      exact List.not_mem_nil
  · rw [hnone]
    exact .inl rfl

/-- A tone that was not given out is called only when it is made. -/
theorem exchange_fresh {ramp : ℝ} (henvelope : e.envelope = .ofRamp ramp) (he : e.Consistent)
    {action : EngineAction D ℝ H} (hlasting : action.Lasting) {tone : H}
    (hfresh : ¬ FreshHandles.issued e.device tone) :
    callsFor tone (e.exchange action).calls = [] ∧ tone ∉ (e.act action).2.active ∨
      FreshHandles.issued (e.act action).2.device tone ∧ ∃ frequency start duration,
        action.Plays frequency start duration ∧
          (IsScheduling tone frequency start duration (callsFor tone (e.exchange action).calls) ∧
              tone ∈ (e.act action).2.active ∨
            IsAbandonment tone frequency start duration (callsFor tone (e.exchange action).calls) ∧
              tone ∉ (e.act action).2.active) := by
  have h := actSpec he action
  have hold : tone ∉ e.active := fun hmem => hfresh (he.issued tone hmem)
  have hquiet : (e.act action).1 ≠ .started tone → tone ∉ (e.act action).2.active := by
    intro hanswer hmem
    exact ((h.mem_active tone).1 hmem).elim (fun hactive => hold hactive.1) hanswer
  obtain ⟨frequency, start, duration, hplays⟩ | rfl | ⟨hnone, hanswer⟩ := e.exchange_cases action
  · obtain ⟨hunmade, hanswer⟩ | ⟨other, -, hissued, hmade⟩ :=
      exchange_plays henvelope hplays (hlasting frequency start duration hplays)
    · rw [hunmade]
      exact .inl ⟨rfl, hquiet (hanswer tone)⟩
    · by_cases heq : other = tone
      · subst heq
        refine .inr ⟨hissued, frequency, start, duration, hplays, ?_⟩
        obtain ⟨hscheduled, hanswer⟩ | ⟨habandoned, hanswer⟩ := hmade
        · rw [callsFor_self hscheduled.tone?_eq]
          exact .inl ⟨hscheduled, (h.mem_active other).2 (.inr hanswer)⟩
        · rw [callsFor_self habandoned.tone?_eq]
          exact .inr ⟨habandoned, hquiet (hanswer other)⟩
      · obtain ⟨hscheduled, hanswer⟩ | ⟨habandoned, hanswer⟩ := hmade
        · refine .inl ⟨callsFor_other hscheduled.tone?_eq heq, hquiet fun hstarted => heq ?_⟩
          rw [hanswer] at hstarted
          exact EngineAnswer.started.inj hstarted
        · exact .inl ⟨callsFor_other habandoned.tone?_eq heq, hquiet (hanswer tone)⟩
  · obtain ⟨parts, hparts, hcalls⟩ := e.exchange_stopAll
    refine .inl ⟨?_, hquiet nofun⟩
    rw [hcalls]
    exact (callsFor_silencing hparts).1 hold
  · rw [hnone]
    exact .inl ⟨rfl, hquiet (hanswer tone)⟩

/-! ## Runs -/

variable {actions : List (EngineAction D ℝ H)}

theorem exchanges_spared {ramp : ℝ} (henvelope : e.envelope = .ofRamp ramp) (he : e.Consistent)
    (hlasting : ∀ action ∈ actions, action.Lasting) {tone : H} (hissued : FreshHandles.issued e.device tone)
    (hactive : tone ∉ e.active) : callsAbout tone (e.exchanges actions) = [] := by
  induction actions generalizing e with
  | nil => rfl
  | cons action rest ih =>
    obtain ⟨hfirst, hrest⟩ := List.forall_mem_cons.1 hlasting
    obtain ⟨hcalls, hissued', hactive'⟩ := exchange_spared henvelope he hfirst hissued hactive
    rw [exchanges, callsAbout_cons, if_pos hcalls]
    exact ih ((e.envelope_act action).trans henvelope) (he.act action) hrest hissued' hactive'

theorem exchanges_active {ramp : ℝ} (henvelope : e.envelope = .ofRamp ramp) (he : e.Consistent)
    (hlasting : ∀ action ∈ actions, action.Lasting) {tone : H} (hactive : tone ∈ e.active) :
    callsAbout tone (e.exchanges actions) = [] ∨
      ∃ y, y.action = .stopAll ∧ IsSilencing tone y.now y.calls ∧ callsAbout tone (e.exchanges actions) = [y] := by
  -- the tone stays active until it is called, or until it ends by itself and is spared from then on
  induction actions generalizing e with
  | nil => exact .inl rfl
  | cons action rest ih =>
    obtain ⟨hfirst, hrest⟩ := List.forall_mem_cons.1 hlasting
    have henvelope' := (e.envelope_act action).trans henvelope
    have hissued' := (actSpec he action).keeps tone (he.issued tone hactive)
    have hspared := fun hgone => exchanges_spared henvelope' (he.act action) hrest hissued' hgone
    rw [exchanges, callsAbout_cons]
    obtain hcalls | ⟨rfl, hsilences, hgone⟩ := exchange_active henvelope he hfirst hactive
    · rw [if_pos hcalls]
      by_cases hactive' : tone ∈ (e.act action).2.active
      · exact ih henvelope' (he.act action) hrest hactive'
      · exact .inl (hspared hactive')
    · have hsome : callsFor tone (e.exchange .stopAll).calls ≠ [] := by
        obtain ⟨stopped, released, hcalls⟩ := hsilences
        rw [hcalls]
        exact List.cons_ne_nil _ _
      rw [if_neg hsome, hspared hgone]
      exact .inr ⟨_, rfl, hsilences, rfl⟩

/-- A tone that is not active is used once at most. -/
theorem lifetime_exchanges {ramp : ℝ} (henvelope : e.envelope = .ofRamp ramp) (he : e.Consistent)
    (hlasting : ∀ action ∈ actions, action.Lasting) {tone : H} (hactive : tone ∉ e.active) :
    Lifetime tone (callsAbout tone (e.exchanges actions)) := by
  -- up to the action that makes the tone it is not given out; what follows depends on whether it is active then
  induction actions generalizing e with
  | nil => exact .unused
  | cons action rest ih =>
    obtain ⟨hfirst, hrest⟩ := List.forall_mem_cons.1 hlasting
    have henvelope' := (e.envelope_act action).trans henvelope
    by_cases hissued : FreshHandles.issued e.device tone
    · rw [exchanges_spared henvelope he hlasting hissued hactive]
      exact .unused
    · rw [exchanges, callsAbout_cons]
      obtain ⟨hcalls, hactive'⟩ | ⟨hissued', frequency, start, duration, hplays, hmade⟩ :=
        exchange_fresh henvelope he hfirst hissued
      · rw [if_pos hcalls]
        exact ih henvelope' (he.act action) hrest hactive'
      · have hsome : callsFor tone (e.exchange action).calls ≠ [] := by
          obtain ⟨⟨requests, -, hcalls⟩, -⟩ | ⟨⟨before, request, after, released, -, hcalls⟩, -⟩ := hmade
          · rw [hcalls]
            exact List.cons_ne_nil _ _
          · rw [hcalls]
            exact List.cons_ne_nil _ _
        rw [if_neg hsome]
        obtain ⟨hscheduled, hactive'⟩ | ⟨habandoned, hactive'⟩ := hmade
        · obtain hnone | ⟨y, hstops, hsilences, hlast⟩ := exchanges_active henvelope' (he.act action) hrest hactive'
          · rw [hnone]
            exact .scheduled hplays hscheduled
          · rw [hlast]
            exact .stopped hplays hscheduled hstops hsilences
        · rw [exchanges_spared henvelope' (he.act action) hrest hissued' hactive']
          exact .abandoned hplays habandoned

theorem exchanges_forall {ramp : ℝ} (henvelope : e.envelope = .ofRamp ramp) (he : e.Consistent)
    (hlasting : ∀ action ∈ actions, action.Lasting) : ∀ x ∈ e.exchanges actions, x.Orderly := by
  induction actions generalizing e with
  | nil => exact fun _ hx => absurd hx List.not_mem_nil
  | cons action rest ih =>
    obtain ⟨hfirst, hrest⟩ := List.forall_mem_cons.1 hlasting
    exact List.forall_mem_cons.2 ⟨exchange_orderly henvelope he hfirst,
      ih ((e.envelope_act action).trans henvelope) (he.act action) hrest⟩

end Engine

/-! ## Releases -/

def Attempt.releases (tone : H) : Attempt ℝ H → Bool
  | .asked (.release other) _ => decide (other = tone)
  | _ => false

omit [ToneDevice D ℝ H] [FreshHandles D ℝ H] in
theorem Arming.releases_eq {tone : H} {start duration : ℝ} {requests : List (Request ℝ H)}
    (h : Arming tone start duration requests) (other : H) (answer : Bool) :
    ∀ request ∈ requests, Attempt.releases other (.asked request answer) = false := by
  obtain ⟨rise, fall, level, rfl, -⟩ := h
  intro request hrequest
  simp only [List.mem_cons, List.not_mem_nil, or_false] at hrequest
  obtain rfl | rfl | rfl | rfl | rfl | rfl | rfl := hrequest <;> rfl

omit [ToneDevice D ℝ H] [FreshHandles D ℝ H] in
theorem countP_accepted {tone : H} {requests : List (Request ℝ H)}
    (h : ∀ request ∈ requests, Attempt.releases tone (.asked request true) = false) :
    (Attempt.accepted requests).countP (Attempt.releases tone) = 0 := by
  refine List.countP_eq_zero.2 fun call hcall => ?_
  obtain ⟨request, hrequest, rfl⟩ := List.mem_map.1 hcall
  rw [h request hrequest]
  exact Bool.false_ne_true

/-- Nothing is released twice in a lifetime. -/
theorem Lifetime.countP_releases {tone : H} {exchanges : List (Exchange D ℝ H)} (h : Lifetime tone exchanges) :
    (exchanges.flatMap Exchange.calls).countP (Attempt.releases tone) ≤ 1 := by
  have hmade : ∀ frequency, Attempt.releases tone (.made tone frequency) = false := fun _ => rfl
  have hstop : ∀ now answer, Attempt.releases tone (.asked (.stop tone now) answer) = false := fun _ _ => rfl
  have hrelease : ∀ answer, Attempt.releases tone (.asked (.release tone) answer) = true := fun _ =>
    decide_eq_true rfl
  have hscheduled : ∀ {frequency start duration calls}, IsScheduling tone frequency start duration calls →
      calls.countP (Attempt.releases tone) = 0 := by
    rintro frequency start duration _ ⟨requests, harming, rfl⟩
    rw [List.countP_cons, hmade, countP_accepted (harming.releases_eq tone true)]
    rfl
  cases h with
  | unused => exact Nat.zero_le _
  | scheduled plays calls => simp [hscheduled calls]
  | stopped plays calls stops silences =>
    obtain ⟨stopped, released, hcalls⟩ := silences
    simp [hscheduled calls, hcalls, hstop, hrelease]
  | abandoned plays calls =>
    obtain ⟨before, request, after, released, harming, hcalls⟩ := calls
    have hbefore := countP_accepted fun other hother =>
      harming.releases_eq tone true other (List.mem_append_left _ hother)
    have hrefused := harming.releases_eq tone false request (List.mem_append_right _ List.mem_cons_self)
    simp [hcalls, hmade, hbefore, hrefused, hrelease]

theorem calls_callsAbout (tone : H) (exchanges : List (Exchange D ℝ H)) :
    (callsAbout tone exchanges).flatMap Exchange.calls = callsFor tone (exchanges.flatMap Exchange.calls) := by
  induction exchanges with
  | nil => rfl
  | cons x rest ih =>
    rw [callsAbout_cons, List.flatMap_cons, callsFor_append]
    split
    · rename_i hnone
      rw [ih, hnone, List.nil_append]
    · rw [List.flatMap_cons, ih]

omit [ToneDevice D ℝ H] [FreshHandles D ℝ H] in
theorem countP_callsFor (tone : H) (calls : List (Attempt ℝ H)) :
    (callsFor tone calls).countP (Attempt.releases tone) = calls.countP (Attempt.releases tone) := by
  unfold callsFor
  rw [List.countP_filter]
  refine List.countP_congr fun call _ => ?_
  rw [Bool.and_eq_true, and_iff_left_iff_imp]
  intro hreleases
  unfold Attempt.releases at hreleases
  split at hreleases
  · exact decide_eq_true (congrArg some (of_decide_eq_true hreleases))
  · cases hreleases

/-! ## Every run -/

/-- The calls of a run are in order. -/
structure Engine.KeepsOrder (e : Engine D ℝ H) (actions : List (EngineAction D ℝ H)) : Prop where
  record : (e.recorded.after (actions.map (.map .recorded))).device.calls =
    (e.exchanges actions).flatMap Exchange.calls
  actions_eq : (e.exchanges actions).map Exchange.action = actions
  orderly : ∀ x ∈ e.exchanges actions, x.Orderly
  lifetime : ∀ tone, Lifetime tone (callsAbout tone (e.exchanges actions))
  released : ∀ tone, ((e.exchanges actions).flatMap Exchange.calls).countP (Attempt.releases tone) ≤ 1

/-- **The order of calls**, whatever the device refuses. What one action calls is not mixed with what another calls. A
tone that is made is scheduled by seven requests in their order; the first of them that is refused is followed by one
release and by nothing else. A tone that was scheduled is called once more at most, when all tones are stopped, with
its stop and its release. -/
theorem calls_in_order (device : D) (ramp : ℝ) {actions : List (EngineAction D ℝ H)}
    (hlasting : ∀ action ∈ actions, action.Lasting) :
    (Engine.fresh device (.ofRamp ramp) : Engine D ℝ H).KeepsOrder actions := by
  have hfresh := Engine.consistent_fresh (H := H) device (.ofRamp ramp)
  have hlifetime : ∀ tone : H,
      Lifetime tone (callsAbout tone ((Engine.fresh device (.ofRamp ramp) : Engine D ℝ H).exchanges actions)) :=
    fun tone => Engine.lifetime_exchanges rfl hfresh hlasting List.not_mem_nil
  refine ⟨congrArg Recorder.calls (Engine.calls_after _ actions), ?_, Engine.exchanges_forall rfl hfresh hlasting,
    hlifetime, fun tone => ?_⟩
  · have hactions : ∀ (e : Engine D ℝ H), (e.exchanges actions).map Exchange.action = actions := by
      clear hlasting hlifetime
      induction actions with
      | nil => exact fun _ => rfl
      | cons action rest ih => exact fun e => congrArg (action :: ·) (ih (e.act action).2)
    exact hactions _
  · rw [← countP_callsFor, ← calls_callsAbout]
    exact (hlifetime tone).countP_releases

end Orderly

/-- A device that refuses the third gain of its second tone, and the stop that is meant to silence the first. -/
noncomputable def fickle : ScriptedDevice ℝ where
  time := 0
  rules := [⟨.gain, some 2, 2, some 1, .bufferFull⟩, ⟨.stop, some 1, 1, none, .bufferFull⟩]

theorem calls_in_order_fickle :
    let actions : List (EngineAction (ScriptedDevice ℝ) ℝ ToneId) :=
      [.play 440 0 2 80, .perform (.play 220 1 3 50), .perform (.rest 1 1), .stopAll, .ended 1]
    (∀ action ∈ actions, action.Lasting) ∧
      (Engine.fresh fickle (.ofRamp 1) : Engine (ScriptedDevice ℝ) ℝ ToneId).KeepsOrder actions := by
  intro actions
  have hlasting : ∀ action ∈ actions, action.Lasting := by
    intro action haction frequency start duration hplays
    obtain ⟨volume, rfl | rfl⟩ := hplays
    · simp [actions] at haction
      linarith [haction.2.2.1]
    · simp [actions] at haction
      linarith [haction.2.2.1]
  exact ⟨hlasting, calls_in_order fickle 1 hlasting⟩

end MusicMacro
