import MusicMacro.Proofs.Device.Waiting
import MusicMacro.Proofs.Performance.Programme
import MusicMacro.Proofs.Timeline.Pace

/-!
# Playing into memory

A player plays songs on a device that renders into memory, and its engine forgets every tone that is reported.

* `OfflineAction`, `OfflinePlayer.act`, `OfflinePlayer.run` : what can be asked of the player, and what comes of it;
* `OfflineEngine.InStep` : the active tones are those that the device holds;
* `OfflineEngine.Adds` : tones were scheduled, one of them (`InStep.play`) or all of a song (`InStep.performAll`);
* `OfflinePlayer.Leads` : what becomes of the tones in an action (`InStep.act`) and in many (`InStep.run`);
* `OfflinePlayer.tones_in_step` : engine, voices and reports know the same tones, and rendering plays each of them to
  its end.
-/

namespace MusicMacro

/-- An engine on a device that renders into memory. -/
abbrev OfflineEngine (R S : Type) := Engine (OfflineDevice R S) R ToneId

/-- A player on a device that renders into memory. -/
abbrev OfflinePlayer (R S : Type) := Player (OfflineDevice R S) R ToneId

/-- What can be asked of a player and its device. -/
inductive OfflineAction (R : Type) where
  | compileAndPlay (text : List Char)
  | playTokens (tracks : List (List Token))
  | render
  | renderUntil (time : R)
  | stopAll

/-! ## Scheduling -/

namespace OfflineEngine
variable {S : Type}

/-- The engine and its device know the same tones. -/
structure InStep (e : OfflineEngine ℝ S) : Prop where
  nodup : e.active.Nodup
  holds : e.device.Holds e.active

/-- Tones were scheduled while the clock stood still. -/
structure Adds (e next : OfflineEngine ℝ S) : Prop where
  inStep : next.InStep
  time : next.device.time = e.device.time
  nextId_le : e.device.nextId ≤ next.device.nextId
  active : ∀ id ∈ next.active, id < e.device.nextId → id ∈ e.active

namespace Adds
variable {e mid next : OfflineEngine ℝ S}

theorem refl (h : e.InStep) : Adds e e := ⟨h, rfl, Nat.le_refl _, fun _ hid _ => hid⟩

theorem trans (h : Adds e mid) (h' : Adds mid next) : Adds e next :=
  ⟨h'.inStep, h'.time.trans h.time, h.nextId_le.trans h'.nextId_le, fun id hid hold =>
    h.active id (h'.active id hid (Nat.lt_of_lt_of_le hold h.nextId_le)) hold⟩

end Adds

namespace InStep
variable [Amplitude S] [Sampling ℝ S] {e : OfflineEngine ℝ S}

/-- **One tone**: the device refuses nothing, so the tone is active and held. -/
theorem play (h : e.InStep) (frequency : ℝ) {start duration : ℝ} (volume : UInt32) (hahead : e.device.time ≤ start)
    (hlasts : 0 < duration) : Adds e (e.play frequency start duration volume).value.2 := by
  have hnew := h.holds.notMem_nextId
  let gains := e.envelope.points start (start + duration - start) volume
  have hplay : (e.play frequency start duration volume).value.2 = { e with
      device := e.device.scheduled frequency gains start (start + duration)
      active := e.active ++ [e.device.nextId] } := by
    have hcreate : ToneDevice.create e.device frequency = (.ok e.device.nextId, (e.device.create frequency).2) := rfl
    simp only [Engine.play, Engine.arm, hcreate, OfflineDevice.submitAll_eq, Engine.track, if_neg hnew]
    rfl
  have hholds := h.holds.scheduled frequency (show gains.length = 4 from rfl) hahead (lt_add_of_pos_right start hlasts)
  rw [hplay]
  refine ⟨⟨?_, hholds⟩, OfflineDevice.time_scheduled .., ?_, fun id hid hold => ?_⟩
  · refine List.nodup_append.2 ⟨h.nodup, List.nodup_singleton _, ?_⟩
    rintro id hid _ hlast rfl
    exact hnew (List.mem_singleton.1 hlast ▸ hid)
  · rw [OfflineDevice.nextId_scheduled]
    exact Nat.le_succ _
  · rcases List.mem_append.1 hid with hid | hlast
    · exact hid
    · exact absurd (List.mem_singleton.1 hlast) (Nat.ne_of_lt hold)

theorem perform (h : e.InStep) {i : Instruction ℝ} (hahead : e.device.time ≤ i.start) (hlasts : 0 < i.duration) :
    Adds e (e.perform i).value.2 := by
  cases i with
  | play frequency start duration volume => exact h.play frequency volume hahead hlasts
  | rest start duration => exact .refl h

theorem performAll (h : e.InStep) {is : List (Instruction ℝ)}
    (hpaced : ∀ i ∈ is, e.device.time ≤ i.start ∧ 0 < i.duration) : Adds e (e.performAll is).2 := by
  induction is generalizing e with
  | nil => exact .refl h
  | cons i rest ih =>
    obtain ⟨hahead, hlasts⟩ := hpaced i List.mem_cons_self
    have hnow := h.perform hahead hlasts
    have hrest : ∀ j ∈ rest, (e.perform i).value.2.device.time ≤ j.start ∧ 0 < j.duration := by
      rw [hnow.time]
      exact fun j hj => hpaced j (List.mem_cons_of_mem _ hj)
    exact hnow.trans (ih hnow.inStep hrest)

/-! ## Silence -/

omit [Amplitude S] [Sampling ℝ S] in
theorem holds_silenceEach {tones : List ToneId} {e : OfflineEngine ℝ S} (h : e.device.Holds tones) (now : ℝ)
    (stopped : List ToneId) :
    (e.silenceEach now stopped).value.device.Holds (tones.filter (· ∉ stopped)) := by
  induction stopped generalizing e tones with
  | nil => exact h.congr fun id => by simp
  | cons tone rest ih =>
    have hnow : (e.silence now tone).value.device.Holds (tones.filter (· ≠ tone)) := by
      rw [Engine.value_silence]
      exact h.release tone now
    refine (ih hnow).congr fun id => ?_
    simp [and_assoc, and_comm]

omit [Amplitude S] [Sampling ℝ S] in
theorem stopAll (h : e.InStep) :
    InStep e.stopAll.value.2 ∧ e.stopAll.value.2.active = [] ∧
      e.stopAll.value.2.device.nextId = e.device.nextId := by
  have hactive : e.stopAll.value.2.active = [] := Engine.active_silenceEach _ _ _
  have hholds := holds_silenceEach (e := { e with active := [] }) h.holds (ToneDevice.now e.device) e.active
  have hnone : e.active.filter (· ∉ e.active) = [] := by simp
  rw [hnone] at hholds
  refine ⟨⟨?_, ?_⟩, hactive, ?_⟩
  · rw [hactive]
    exact .nil
  · rw [hactive]
    exact hholds
  · exact Engine.silenceEach_induction (P := fun d : OfflineDevice ℝ S => d.nextId = e.device.nextId)
      (fun _ _ _ hd => hd) (e := { e with active := [] }) rfl

end InStep

end OfflineEngine

/-! ## The player -/

namespace OfflinePlayer
variable {R S : Type} [Scalar R] [Amplitude S] [Sampling R S]

/-- The device has rendered something. -/
def hear (p : OfflinePlayer R S) (rendered : Rendering S × OfflineDevice R S) : Rendering S × OfflinePlayer R S :=
  (rendered.1, p.afterStep rendered.2 rendered.1.reports)

def act (p : OfflinePlayer R S) : OfflineAction R → Rendering S × OfflinePlayer R S
  | .compileAndPlay text => (⟨[], []⟩, (p.compileAndPlay text).value.2)
  | .playTokens tracks => (⟨[], []⟩, (p.playTokens tracks).value.2)
  | .render => p.hear p.engine.device.render.value
  | .renderUntil time => p.hear (p.engine.device.renderUntil time).value
  | .stopAll => (⟨[], []⟩, p.stopAll.value.2)

def run (p : OfflinePlayer R S) : List (OfflineAction R) → Rendering S × OfflinePlayer R S
  | [] => (⟨[], []⟩, p)
  | action :: rest =>
    let (now, next) := p.act action
    let (later, last) := next.run rest
    (⟨now.samples ++ later.samples, now.reports ++ later.reports⟩, last)

/-- A player whose engine is in step, and whose songs do not begin in the past. -/
structure InStep (p : OfflinePlayer ℝ S) : Prop where
  engine : OfflineEngine.InStep p.engine
  leadIn : 0 ≤ p.leadIn

/-- What becomes of the tones while some of them are reported: no tone that was there before becomes active again, and
what is reported was active and is gone. -/
structure Leads (p : OfflinePlayer ℝ S) (reports : List ToneId) (next : OfflinePlayer ℝ S) : Prop where
  inStep : InStep next
  nextId_le : p.engine.device.nextId ≤ next.engine.device.nextId
  active : ∀ id ∈ next.engine.active, id < p.engine.device.nextId → id ∈ p.engine.active
  nodup : reports.Nodup
  reported : ∀ id ∈ reports, id < p.engine.device.nextId → id ∈ p.engine.active
  gone : ∀ id ∈ reports, id < next.engine.device.nextId ∧ id ∉ next.engine.active

section Steps
variable {S : Type} {p mid next : OfflinePlayer ℝ S}

theorem Leads.refl (h : InStep p) : Leads p [] p :=
  ⟨h, Nat.le_refl _, fun _ hid _ => hid, .nil, nofun, nofun⟩

theorem Leads.trans {now later : List ToneId} (h : Leads p now mid) (h' : Leads mid later next) :
    Leads p (now ++ later) next := by
  have hissued : ∀ {id}, id < p.engine.device.nextId → id < mid.engine.device.nextId := fun hold =>
    Nat.lt_of_lt_of_le hold h.nextId_le
  -- what was reported is gone, and what is gone is not reported again
  have hapart : ∀ id ∈ now, id ∉ later := by
    intro id hnow hlater
    obtain ⟨hid, hgone⟩ := h.gone id hnow
    exact hgone (h'.reported id hlater hid)
  refine ⟨h'.inStep, h.nextId_le.trans h'.nextId_le, fun id hid hold => ?_, ?_, fun id hid hold => ?_, fun id hid => ?_⟩
  · exact h.active id (h'.active id hid (hissued hold)) hold
  · exact List.nodup_append.2 ⟨h.nodup, h'.nodup, fun id hnow _ hlater heq => hapart id hnow (heq ▸ hlater)⟩
  · rcases List.mem_append.1 hid with hnow | hlater
    · exact h.reported id hnow hold
    · exact h.active id (h'.reported id hlater (hissued hold)) hold
  · rcases List.mem_append.1 hid with hnow | hlater
    · obtain ⟨hmid, hgone⟩ := h.gone id hnow
      exact ⟨Nat.lt_of_lt_of_le hmid h'.nextId_le, fun hback => hgone (h'.active id hback hmid)⟩
    · exact h'.gone id hlater

variable [Amplitude S] [Sampling ℝ S]

omit [Amplitude S] [Sampling ℝ S] in
theorem InStep.adds (h : InStep p) {e : OfflineEngine ℝ S} (he : OfflineEngine.Adds p.engine e) :
    Leads p [] { p with engine := e } :=
  ⟨⟨he.inStep, h.leadIn⟩, he.nextId_le, he.active, .nil, nofun, nofun⟩

theorem InStep.playSong (h : InStep p) {song : Song ℝ} (hpaced : Song.Paced p.origin song.tracks) :
    Leads p [] (p.playSong song).value.2 := by
  have hahead : p.engine.device.time ≤ p.origin := le_add_of_nonneg_right h.leadIn
  rw [Player.value_playSong]
  refine h.adds (h.engine.performAll fun i hi => ?_)
  obtain ⟨track, htrack, hi⟩ := List.mem_flatMap.1 hi
  exact hpaced.mono hahead track htrack i hi

omit [Amplitude S] [Sampling ℝ S] in
theorem InStep.hear (h : InStep p) {frames : Nat} {sound : Rendering S} {device : OfflineDevice ℝ S}
    (hpasses : p.engine.device.Passes p.engine.active frames sound device) :
    Leads p sound.reports (p.hear (sound, device)).2 := by
  have hmem : ∀ id, id ∈ (p.hear (sound, device)).2.engine.active ↔ id ∈ p.engine.active ∧ id ∉ sound.reports :=
    fun id => Engine.mem_active_ended _ sound.reports id
  have hdevice : (p.hear (sound, device)).2.engine.device = device := Engine.device_ended _ sound.reports
  have hnodup : (p.hear (sound, device)).2.engine.active.Nodup :=
    Engine.nodup_ended (e := { p.engine with device }) h.engine.nodup sound.reports
  refine ⟨⟨⟨hnodup, ?_⟩, h.leadIn⟩, ?_, fun id hid _ => ((hmem id).1 hid).1,
    hpasses.reports_nodup, fun id hid _ => hpasses.reports_sub id hid, fun id hid => ⟨?_, fun hback => ?_⟩⟩
  · rw [hdevice]
    refine hpasses.holds.congr fun id => ?_
    rw [hmem, List.mem_filter, decide_eq_true_eq]
  · rw [hdevice, hpasses.nextId]
  · rw [hdevice, hpasses.nextId]
    exact h.engine.holds.issued id (hpasses.reports_sub id hid)
  · exact ((hmem id).1 hback).2 hid

/-- Without tones there is nothing to render. -/
theorem InStep.act_render (h : InStep p) (hnone : p.engine.active = []) : p.act .render = (⟨[], []⟩, p) := by
  have hrender : p.engine.device.render.value = (⟨[], []⟩, p.engine.device) := by
    have hholds := h.engine.holds
    rw [hnone] at hholds
    unfold OfflineDevice.render
    rw [hholds.finishTime?_nil]
    rfl
  rw [act, hrender]
  rfl

/-- **One action**. -/
theorem InStep.act (h : InStep p) (action : OfflineAction ℝ) : Leads p (p.act action).1.reports (p.act action).2 := by
  cases action with
  | compileAndPlay text => exact h.playSong (Song.paced_compile text p.defaults p.origin)
  | playTokens tracks => exact h.playSong (Song.paced_schedule tracks p.defaults p.origin)
  | render =>
    -- the end of the last tone is known only while there is one
    by_cases hnone : p.engine.active = []
    · rw [h.act_render hnone]
      exact .refl h
    · obtain ⟨latest, -, hpasses, -⟩ := h.engine.holds.render hnone
      exact h.hear hpasses
  | renderUntil time => exact h.hear (h.engine.holds.renderUntil time)
  | stopAll =>
    obtain ⟨hengine, hactive, hid⟩ := h.engine.stopAll
    refine ⟨⟨hengine, h.leadIn⟩, hid.ge, fun id hmem => ?_, .nil, nofun, nofun⟩
    have hnone : id ∈ p.engine.stopAll.value.2.active := hmem
    rw [hactive] at hnone
    exact absurd hnone List.not_mem_nil

/-- **Many actions**. -/
theorem InStep.run (h : InStep p) (actions : List (OfflineAction ℝ)) :
    Leads p (p.run actions).1.reports (p.run actions).2 := by
  induction actions generalizing p with
  | nil => exact .refl h
  | cons action rest ih =>
    have hnow := h.act action
    exact hnow.trans (ih hnow.inStep)

omit [Sampling ℝ S] in
theorem inStep_fresh (w : Waveform) (rate channels : Nat) (master : MasterBus S) (options : PlayerOptions ℝ) :
    InStep (Player.fresh (OfflineDevice.fresh w rate channels master) options : OfflinePlayer ℝ S) := by
  refine ⟨⟨.nil, OfflineDevice.holds_fresh w rate channels master⟩, ?_⟩
  show 0 ≤ Scalar.maxOf options.leadIn ((0 : Nat) : ℝ)
  rw [maxOf_eq, Nat.cast_zero]
  exact le_max_right _ _

/-! ## Nothing is left -/

/-- Nothing is active, no voice is left, and nothing is to be reported. -/
structure Silent (p : OfflinePlayer ℝ S) : Prop where
  active : p.engine.active = []
  voices : p.engine.device.bank.voices.ids = []
  reports : p.engine.device.reports.ids = []

omit [Amplitude S] [Sampling ℝ S] in
theorem InStep.silent (h : InStep p) (hnone : p.engine.active = []) : Silent p := by
  have hvoices : p.engine.device.bank.voices.ids = [] := by
    refine List.eq_nil_iff_forall_not_mem.2 fun id hid => ?_
    have hactive := (h.engine.holds.mem_ids id).1 hid
    rw [hnone] at hactive
    exact List.not_mem_nil hactive
  exact ⟨hnone, hvoices, h.engine.holds.ids_reports.trans hvoices⟩

/-- **Rendering to the end** reports every active tone once and leaves none. -/
theorem InStep.render_spec (h : InStep p) :
    (p.act .render).1.reports.Perm p.engine.active ∧ Silent (p.act .render).2 ∧
      (p.engine.active ≠ [] → ∃ latest, IsGreatest p.engine.device.stops latest ∧
        (p.act .render).1.samples.length =
          p.engine.device.channels * (⌈latest * p.engine.device.sampleRate⌉₊ - p.engine.device.frame)) := by
  by_cases hnone : p.engine.active = []
  · rw [h.act_render hnone, hnone]
    exact ⟨.nil, h.silent hnone, fun hsome => absurd rfl hsome⟩
  · obtain ⟨latest, hgreatest, hpasses, hall⟩ := h.engine.holds.render hnone
    have hsame : ∀ id, id ∈ (p.act .render).1.reports ↔ id ∈ p.engine.active := fun id =>
      ⟨hpasses.reports_sub id, hall id⟩
    refine ⟨(List.perm_ext_iff_of_nodup hpasses.reports_nodup h.engine.nodup).2 hsame,
      (h.act .render).inStep.silent ?_, fun _ => ⟨latest, hgreatest, ?_⟩⟩
    · refine List.eq_nil_iff_forall_not_mem.2 fun id hid => ?_
      obtain ⟨hactive, hreport⟩ := (Engine.mem_active_ended _ _ id).1 hid
      exact hreport (hall id hactive)
    · rw [Nat.mul_comm]
      exact hpasses.samples

/-- **Stopping all tones** leaves none, and none of them is ever reported. -/
theorem InStep.stopAll_spec (h : InStep p) :
    Silent (p.act .stopAll).2 ∧
      ∀ later, ∀ id ∈ p.engine.active, id ∉ ((p.act .stopAll).2.run later).1.reports := by
  obtain ⟨-, hactive, -⟩ := h.engine.stopAll
  have hstop := h.act .stopAll
  refine ⟨hstop.inStep.silent hactive, fun later id hid hreport => ?_⟩
  have hissued := Nat.lt_of_lt_of_le (h.engine.holds.issued id hid) hstop.nextId_le
  have hback : id ∈ p.engine.stopAll.value.2.active := (hstop.inStep.run later).reported id hreport hissued
  rw [hactive] at hback
  exact List.not_mem_nil hback

/-- **Engine, voices and reports know the same tones**, whatever is played, rendered and stopped, and each of these
tones waits for a stop that lies ahead. Rendering to the end plays exactly up to the last of the stops; it reports
each tone once and leaves none. Stopping all tones leaves none either, and none of them is ever reported. -/
theorem tones_in_step (w : Waveform) (rate channels : Nat) (master : MasterBus S) (options : PlayerOptions ℝ)
    (actions : List (OfflineAction ℝ)) :
    let start : OfflinePlayer ℝ S := .fresh (.fresh w rate channels master) options
    let p := (start.run actions).2
    let d := p.engine.device
    (p.engine.active.Nodup ∧ (∀ id, id ∈ p.engine.active ↔ id ∈ d.bank.voices.ids) ∧
      (∀ id, id ∈ p.engine.active ↔ id ∈ d.reports.ids) ∧ ∀ id, ∀ v ∈ d.bank.voices.get? id, v.WaitsAt d.time) ∧
    ((p.engine.active = [] → (p.act .render).1.samples = []) ∧
      (p.engine.active ≠ [] → ∃ latest, IsGreatest d.stops latest ∧
        (p.act .render).1.samples.length = d.channels * (⌈latest * d.sampleRate⌉₊ - d.frame)) ∧
      (p.act .render).1.reports.Perm p.engine.active ∧ Silent (p.act .render).2) ∧
    (Silent (p.act .stopAll).2 ∧
      ∀ later, ∀ id ∈ p.engine.active, id ∉ ((p.act .stopAll).2.run later).1.reports) ∧
    (start.run actions).1.reports.Nodup := by
  intro start p d
  have hleads := (inStep_fresh w rate channels master options).run actions
  have h : InStep p := hleads.inStep
  have hvoices : ∀ id, id ∈ p.engine.active ↔ id ∈ d.bank.voices.ids := fun id => (h.engine.holds.mem_ids id).symm
  have hreports : ∀ id, id ∈ p.engine.active ↔ id ∈ d.reports.ids := by
    rw [h.engine.holds.ids_reports]
    exact hvoices
  have hidle : p.engine.active = [] → (p.act .render).1.samples = [] := by
    intro hnone
    rw [h.act_render hnone]
  obtain ⟨hperm, hsilent, hsound⟩ := h.render_spec
  exact ⟨⟨h.engine.nodup, hvoices, hreports, h.engine.holds.waits⟩, ⟨hidle, hsound, hperm, hsilent⟩, h.stopAll_spec,
    hleads.nodup⟩

end Steps

end OfflinePlayer

end MusicMacro
