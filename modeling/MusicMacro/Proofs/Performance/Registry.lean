import MusicMacro.Proofs.Device.Fresh
import MusicMacro.Proofs.Performance.Steps

/-!
# The registry of active tones

An engine is used for a while, and its device refuses what it wants. Which tones are active then is a matter of
record.

* `EngineAction`, `Engine.act` : what can happen to an engine, and what comes of it;
* `Engine.after`, `Engine.log` : the engine after some actions, and the record of them;
* `Tracked` : by the record, a tone was started, and it has neither ended nor been stopped with all others since;
* `Engine.Consistent` : an active tone was given out by the device, and no tone is active twice; `actSpec` says what
  one action does to the registry, `mem_active_after` what many do;
* `registry_accounts` : the active tones are those that the record says.
-/

namespace MusicMacro

/-- Something that a device does by itself. It forgets no handle that it has given out. -/
structure DeviceStep (D R H : Type) [ToneDevice D R H] [FreshHandles D R H] where
  next : D → D
  keeps : ∀ d tone, FreshHandles.issued d tone → FreshHandles.issued (next d) tone

/-- What can happen to an engine. -/
inductive EngineAction (D R H : Type) [ToneDevice D R H] [FreshHandles D R H] where
  | play (frequency start duration : R) (volume : UInt32)
  | perform (i : Instruction R)
  | stopAll
  /-- The end callback of a tone runs. -/
  | ended (tone : H)
  | elapse (step : DeviceStep D R H)

/-- What comes of an action. -/
inductive EngineAnswer (H : Type) where
  | started (tone : H)
  | refused (failure : Failure)
  | stopped (count : Nat)
  | done

def EngineAnswer.ofPlay {H : Type} : Except Failure H → EngineAnswer H
  | .ok tone => started tone
  | .error failure => refused failure

def EngineAnswer.ofPerform {H : Type} : Except Failure (Option H) → EngineAnswer H
  | .ok (some tone) => started tone
  | .ok none => done
  | .error failure => refused failure

/-- An action in the record, with its answer and the tones that were active before it. -/
structure EngineEntry (D R H : Type) [ToneDevice D R H] [FreshHandles D R H] where
  action : EngineAction D R H
  answer : EngineAnswer H
  before : List H

/-- Whether a tone is not active any more after an action, if it was before: its end callback has run, or it was there
when all tones were stopped. -/
def EngineEntry.Removes {D R H : Type} [ToneDevice D R H] [FreshHandles D R H] (entry : EngineEntry D R H)
    (tone : H) : Prop :=
  match entry.action with
  | .ended other => other = tone
  | .stopAll => tone ∈ entry.before
  | _ => False

/-- By the record, a tone was started and was not removed since. -/
def Tracked {D R H : Type} [ToneDevice D R H] [FreshHandles D R H] (log : List (EngineEntry D R H)) (tone : H) : Prop :=
  ∃ earlier entry later, log = earlier ++ entry :: later ∧ entry.answer = .started tone ∧
    ∀ next ∈ later, ¬ next.Removes tone

section Engine
variable {D R H : Type} [DecidableEq H] [Scalar R] [ToneDevice D R H] [FreshHandles D R H]

namespace Engine

def act (e : Engine D R H) : EngineAction D R H → EngineAnswer H × Engine D R H
  | .play frequency start duration volume =>
    let played := (e.play frequency start duration volume).value
    (.ofPlay played.1, played.2)
  | .perform i =>
    let performed := (e.perform i).value
    (.ofPerform performed.1, performed.2)
  | .stopAll =>
    let stopped := e.stopAll.value
    (.stopped stopped.1, stopped.2)
  | .ended tone => (.done, e.ended [tone])
  | .elapse step => (.done, { e with device := step.next e.device })

def after (e : Engine D R H) (actions : List (EngineAction D R H)) : Engine D R H :=
  actions.foldl (fun e action => (e.act action).2) e

def entry (e : Engine D R H) (action : EngineAction D R H) : EngineEntry D R H := ⟨action, (e.act action).1, e.active⟩

/-- The record of some actions. -/
def log (e : Engine D R H) : List (EngineAction D R H) → List (EngineEntry D R H)
  | [] => []
  | action :: rest => e.entry action :: (e.act action).2.log rest

/-- An active tone was given out by the device, and no tone is active twice. -/
structure Consistent (e : Engine D R H) : Prop where
  issued : ∀ tone ∈ e.active, FreshHandles.issued e.device tone
  nodup : e.active.Nodup

/-! ## Handles stay given out -/

/-- `Keeps e e'` : what the device of `e` has given out, the device of `e'` has given out too. -/
def Keeps (e e' : Engine D R H) : Prop :=
  ∀ tone, FreshHandles.issued e.device tone → FreshHandles.issued e'.device tone

omit [DecidableEq H] [Scalar R] in
theorem Keeps.trans {e e' e'' : Engine D R H} (h : Keeps e e') (h' : Keeps e' e'') : Keeps e e'' :=
  fun tone ht => h' tone (h tone ht)

omit [DecidableEq H] [Scalar R] in
theorem keeps_submit (e : Engine D R H) (request : Request R H) : Keeps e (e.submit request).2 :=
  fun tone h => FreshHandles.submit_keeps e.device request tone h

theorem keeps_arm (e : Engine D R H) (tone : H) (start stop : R) (volume : UInt32) :
    Keeps e (e.arm tone start stop volume).2 := by
  intro other h
  have hall := FreshHandles.submitAll_keeps e.device (armingRequests e.envelope tone start stop volume) h
  obtain ⟨failure, device, hsubmit, harm⟩ | ⟨device, hsubmit, harm⟩ := e.arm_cases tone start stop volume
  · rw [hsubmit] at hall
    rw [harm]
    exact hall
  · rw [hsubmit] at hall
    rw [harm]
    refine keeps_submit _ _ other ?_
    rw [device_track]
    exact hall

omit [DecidableEq H] [Scalar R] in
theorem keeps_silenceEach (e : Engine D R H) (now : R) (tones : List H) :
    Keeps e (e.silenceEach now tones).value := by
  induction tones generalizing e with
  | nil => exact fun _ h => h
  | cons tone rest ih =>
    unfold silenceEach
    rw [Noted.value_bind, value_silence]
    exact ((keeps_submit e _).trans (keeps_submit _ _)).trans (ih _)

/-! ## One tone -/

variable {e : Engine D R H}

theorem play_ok (he : e.Consistent) {frequency start duration : R} {volume : UInt32} {tone : H} {next : Engine D R H}
    (h : (e.play frequency start duration volume).value = (.ok tone, next)) :
    ¬ FreshHandles.issued e.device tone ∧ FreshHandles.issued next.device tone ∧
      next.active = e.active ++ [tone] ∧ Keeps e next := by
  have hkeep := FreshHandles.create_keeps e.device frequency
  obtain ⟨failure, device, -, hplay⟩ | ⟨tone', device, hcreate, ⟨next', harm, hplay⟩ | ⟨failure, next', -, hplay⟩⟩ :=
    e.play_cases frequency start duration volume
  · cases hplay.symm.trans h
  · cases hplay.symm.trans h
    obtain ⟨hfresh, hissued⟩ := FreshHandles.create_fresh hcreate
    have hkeeps := keeps_arm { e with device } tone start (start + duration) volume
    have hactive := active_arm { e with device } start (start + duration) volume fun hmem => hfresh (he.issued _ hmem)
    rw [hcreate] at hkeep
    rw [harm] at hkeeps hactive
    refine ⟨hfresh, hkeeps tone hissued, ?_, fun other hother => hkeeps other (hkeep other hother)⟩
    rcases hactive with ⟨-, hrefused⟩ | hactive
    · exact absurd rfl (hrefused ())
    · exact hactive
  · cases hplay.symm.trans h

theorem play_error (he : e.Consistent) {frequency start duration : R} {volume : UInt32} {failure : Failure}
    {next : Engine D R H} (h : (e.play frequency start duration volume).value = (.error failure, next)) :
    next.active = e.active ∧ Keeps e next := by
  have hkeep := FreshHandles.create_keeps e.device frequency
  obtain ⟨failure', device, hcreate, hplay⟩ |
      ⟨tone, device, hcreate, ⟨next', -, hplay⟩ | ⟨failure', next', harm, hplay⟩⟩ :=
    e.play_cases frequency start duration volume
  · cases hplay.symm.trans h
    rw [hcreate] at hkeep
    exact ⟨rfl, hkeep⟩
  · cases hplay.symm.trans h
  · cases hplay.symm.trans h
    have hfresh : tone ∉ e.active := fun hmem => (FreshHandles.create_fresh hcreate).1 (he.issued _ hmem)
    have hkeeps := keeps_arm { e with device } tone start (start + duration) volume
    have hactive := active_arm { e with device } start (start + duration) volume hfresh
    rw [hcreate] at hkeep
    rw [harm] at hkeeps hactive
    refine ⟨active_forget e next' hfresh (hactive.imp And.left id), fun other hother => ?_⟩
    exact keeps_submit (next'.forget tone) _ other (hkeeps other (hkeep other hother))

/-! ## One action -/

theorem act_perform_play (frequency start duration : R) (volume : UInt32) :
    e.act (.perform (.play frequency start duration volume)) = e.act (.play frequency start duration volume) := by
  have hanswer : ∀ answer : Except Failure H,
      EngineAnswer.ofPerform (answer.map some) = EngineAnswer.ofPlay answer := by
    intro answer
    cases answer <;> rfl
  exact Prod.ext (hanswer _) rfl

/-- What one action leaves behind. -/
structure ActSpec (e : Engine D R H) (action : EngineAction D R H) : Prop where
  keeps : Keeps e (e.act action).2
  fresh : ∀ tone, (e.act action).1 = .started tone →
    ¬ FreshHandles.issued e.device tone ∧ FreshHandles.issued (e.act action).2.device tone
  mem_active : ∀ tone, tone ∈ (e.act action).2.active ↔
    tone ∈ e.active ∧ ¬ (e.entry action).Removes tone ∨ (e.act action).1 = .started tone
  nodup : (e.act action).2.active.Nodup
  refused : ∀ failure, (e.act action).1 = .refused failure → (e.act action).2.active = e.active

theorem actSpec_play (he : e.Consistent) (frequency start duration : R) (volume : UInt32) :
    ActSpec e (.play frequency start duration volume) := by
  rcases hplay : (e.play frequency start duration volume).value with ⟨answer, next⟩
  cases answer with
  | error failure =>
    obtain ⟨hactive, hkeeps⟩ := play_error he hplay
    have hact : e.act (.play frequency start duration volume) = (.refused failure, next) := by
      rw [act, hplay]
      rfl
    refine ⟨?_, ?_, ?_, ?_, ?_⟩ <;> simp only [entry, hact]
    · exact hkeeps
    · exact fun tone h => by cases h
    · simp [hactive, EngineEntry.Removes]
    · exact hactive ▸ he.nodup
    · exact fun _ _ => hactive
  | ok tone =>
    obtain ⟨hfresh, hissued, hactive, hkeeps⟩ := play_ok he hplay
    have hact : e.act (.play frequency start duration volume) = (.started tone, next) := by
      rw [act, hplay]
      rfl
    refine ⟨?_, ?_, ?_, ?_, ?_⟩ <;> simp only [entry, hact]
    · exact hkeeps
    · intro other h
      cases h
      exact ⟨hfresh, hissued⟩
    · simp [hactive, EngineEntry.Removes, eq_comm]
    · rw [hactive, List.nodup_append]
      refine ⟨he.nodup, by simp, fun other hother last hlast heq => ?_⟩
      rw [List.mem_singleton] at hlast
      exact hfresh (he.issued tone (hlast ▸ heq ▸ hother))
    · exact fun _ h => by cases h

/-- **One action**: the tones that it removes are no longer active, the one that it starts is, and a refused one
changes nothing. -/
theorem actSpec (he : e.Consistent) (action : EngineAction D R H) : ActSpec e action := by
  cases action with
  | play frequency start duration volume => exact actSpec_play he frequency start duration volume
  | perform i =>
    cases i with
    | play frequency start duration volume =>
      have h := actSpec_play he frequency start duration volume
      have hact := act_perform_play (e := e) frequency start duration volume
      refine ⟨?_, ?_, ?_, ?_, ?_⟩ <;> simp only [entry, hact]
      · exact h.keeps
      · exact h.fresh
      · exact h.mem_active
      · exact h.nodup
      · exact h.refused
    | rest start duration =>
      refine ⟨fun _ h => h, nofun, fun tone => ?_, he.nodup, nofun⟩
      have hact : e.act (.perform (.rest start duration)) = (.done, e) := rfl
      simp [entry, hact, EngineEntry.Removes]
  | stopAll =>
    have hactive : (e.act .stopAll).2.active = [] := active_silenceEach _ _ _
    refine ⟨keeps_silenceEach { e with active := [] } _ _, nofun, fun tone => ?_, ?_, nofun⟩
    · have hanswer : (e.act .stopAll).1 = .stopped e.active.length := rfl
      simp [hactive, hanswer, entry, EngineEntry.Removes]
    · rw [hactive]
      exact List.nodup_nil
  | ended tone =>
    refine ⟨fun _ h => h, nofun, fun other => ?_, he.nodup.filter _, nofun⟩
    have hact : e.act (.ended tone) = (.done, e.forget tone) := rfl
    simp [entry, hact, EngineEntry.Removes, mem_active_forget, eq_comm]
  | elapse step =>
    refine ⟨step.keeps e.device, nofun, fun tone => ?_, he.nodup, nofun⟩
    have hanswer : (e.act (.elapse step)).1 = .done := rfl
    have hactive : (e.act (.elapse step)).2.active = e.active := rfl
    simp [hanswer, hactive, entry, EngineEntry.Removes]

theorem Consistent.act (he : e.Consistent) (action : EngineAction D R H) : (e.act action).2.Consistent := by
  have h := actSpec he action
  refine ⟨fun tone htone => ?_, h.nodup⟩
  rcases (h.mem_active tone).1 htone with ⟨hold, -⟩ | hstarted
  · exact h.keeps tone (he.issued tone hold)
  · exact (h.fresh tone hstarted).2

/-! ## Many actions -/

theorem Consistent.after (he : e.Consistent) (actions : List (EngineAction D R H)) : (e.after actions).Consistent := by
  induction actions generalizing e with
  | nil => exact he
  | cons action rest ih => exact ih (he.act action)

theorem keeps_after (he : e.Consistent) (actions : List (EngineAction D R H)) : Keeps e (e.after actions) := by
  induction actions generalizing e with
  | nil => exact fun _ h => h
  | cons action rest ih => exact (actSpec he action).keeps.trans (ih (he.act action))

omit [DecidableEq H] [Scalar R] in
theorem tracked_cons (entry : EngineEntry D R H) (log : List (EngineEntry D R H)) (tone : H) :
    Tracked (entry :: log) tone ↔
      entry.answer = .started tone ∧ (∀ next ∈ log, ¬ next.Removes tone) ∨ Tracked log tone := by
  constructor
  · rintro ⟨earlier, started, later, hlog, hanswer, hlater⟩
    cases earlier with
    | nil =>
      obtain ⟨rfl, rfl⟩ := List.cons.inj hlog
      exact .inl ⟨hanswer, hlater⟩
    | cons first earlier =>
      obtain ⟨-, rfl⟩ := List.cons.inj hlog
      exact .inr ⟨earlier, started, later, rfl, hanswer, hlater⟩
  · rintro (⟨hanswer, hlater⟩ | ⟨earlier, started, later, rfl, hanswer, hlater⟩)
    · exact ⟨[], entry, log, rfl, hanswer, hlater⟩
    · exact ⟨entry :: earlier, started, later, rfl, hanswer, hlater⟩

/-- **Many actions**: a tone is active if it was and no action has removed it, or if the record has it for tracked. -/
theorem mem_active_after (he : e.Consistent) (actions : List (EngineAction D R H)) (tone : H) :
    tone ∈ (e.after actions).active ↔
      tone ∈ e.active ∧ (∀ entry ∈ e.log actions, ¬ entry.Removes tone) ∨ Tracked (e.log actions) tone := by
  induction actions generalizing e with
  | nil =>
    have hnone : ¬ Tracked ([] : List (EngineEntry D R H)) tone := by
      rintro ⟨earlier, entry, later, hlog, -⟩
      exact absurd hlog.symm (List.append_ne_nil_of_right_ne_nil _ (List.cons_ne_nil _ _))
    simp [after, log, hnone]
  | cons action rest ih =>
    have hnext := (actSpec he action).mem_active tone
    have hanswer : (e.entry action).answer = (e.act action).1 := rfl
    rw [log, tracked_cons, List.forall_mem_cons, hanswer]
    show tone ∈ ((e.act action).2.after rest).active ↔ _
    rw [ih (he.act action), hnext, or_and_right, and_assoc, or_assoc]

theorem notMem_active_after (he : e.Consistent) (actions : List (EngineAction D R H)) {tone : H}
    (hissued : FreshHandles.issued e.device tone) (hactive : tone ∉ e.active) : tone ∉ (e.after actions).active := by
  induction actions generalizing e with
  | nil => exact hactive
  | cons action rest ih =>
    have h := actSpec he action
    refine ih (he.act action) (h.keeps tone hissued) fun hmem => ?_
    rcases (h.mem_active tone).1 hmem with ⟨hold, -⟩ | hstarted
    · exact hactive hold
    · exact (h.fresh tone hstarted).1 hissued

theorem issued_of_started (he : e.Consistent) (actions : List (EngineAction D R H)) {tone : H}
    {entry : EngineEntry D R H} (hentry : entry ∈ e.log actions) (hanswer : entry.answer = .started tone) :
    FreshHandles.issued (e.after actions).device tone := by
  induction actions generalizing e with
  | nil => cases hentry
  | cons action rest ih =>
    rcases List.mem_cons.1 hentry with rfl | hentry
    · exact keeps_after (he.act action) rest tone ((actSpec he action).fresh tone hanswer).2
    · exact ih (he.act action) hentry

omit [DecidableEq H] [Scalar R] in
theorem consistent_fresh (device : D) (envelope : Envelope R) : (fresh device envelope : Engine D R H).Consistent :=
  ⟨nofun, List.nodup_nil⟩

end Engine

/-- **The registry keeps account**, whatever the device refuses: the active tones are those that were started and
have neither ended nor been stopped with the others since. A refusal leaves them as they were; stopping all of them
says how many there were, leaves none, and asks nothing of the device if there was none; and a tone that was started
before and ends after that changes nothing. -/
theorem registry_accounts (device : D) (envelope : Envelope R) (actions : List (EngineAction D R H)) :
    let e := (Engine.fresh device envelope : Engine D R H).after actions
    let log := (Engine.fresh device envelope : Engine D R H).log actions
    e.active.Nodup ∧ (∀ tone, tone ∈ e.active ↔ Tracked log tone) ∧
      (∀ action failure, (e.act action).1 = .refused failure → (e.act action).2.active = e.active) ∧
      e.stopAll.value.1 = e.active.length ∧ e.stopAll.value.2.active = [] ∧
      (e.active = [] → e.stopAll.value.2 = e) ∧
      ∀ entry ∈ log, ∀ tone, entry.answer = .started tone → ∀ later,
        (e.stopAll.value.2.after later).ended [tone] = e.stopAll.value.2.after later := by
  intro e log
  have hfresh := Engine.consistent_fresh (H := H) device envelope
  have he : e.Consistent := hfresh.after actions
  have hnone : e.stopAll.value.2.active = [] := Engine.active_silenceEach _ _ _
  refine ⟨he.nodup, fun tone => ?_, fun action => (Engine.actSpec he action).refused, rfl, hnone, fun hempty => ?_,
    fun entry hentry tone hanswer later => ?_⟩
  · rw [Engine.mem_active_after hfresh actions tone]
    simp [Engine.fresh, log]
  · rw [Engine.value_stopAll, hempty]
    show { e with active := [] } = e
    rw [← hempty]
  · have hissued := Engine.issued_of_started hfresh actions hentry hanswer
    have hstop := Engine.actSpec he .stopAll
    refine Engine.forget_of_notMem _ ?_
    exact Engine.notMem_active_after (he.act .stopAll) later (hstop.keeps tone hissued) (by
      show tone ∉ e.stopAll.value.2.active
      rw [hnone]
      exact List.not_mem_nil)

end Engine

end MusicMacro
