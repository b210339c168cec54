import MusicMacro.Proofs.Performance.Session
import MusicMacro.Proofs.Scalar.Exact

/-!
# What becomes of cancelled tones

An engine cancels a tone when all tones are stopped, and when it could not be scheduled. It forgets the tone and sends
its release to the card; if the command queue is full then, nobody sends it again.

* `plain` : a small card, on which the results are seen to say something;
* `held_after_stopAll` : a tone that was stopped with all others is held if and only if its release was refused, until
  it ends;
* `held_after_failed_play` : a tone that could not be scheduled is held if and only if its release was refused, and it
  has no end;
* `no_tone_lost` : if the queue refuses nothing, the active tones are those that are held or about to report their end.
-/

namespace MusicMacro.LiveEngine
variable {R S : Type} [Scalar R] [Amplitude S] [Sampling R S] {e : LiveEngine R S}

/-- A card with one sample in a second, and with a command queue of some capacity. -/
noncomputable def plain (commands : Nat) (waits : List (List (List ℝ))) : LiveSetup ℝ ℝ :=
  ⟨⟨1, 1, none, ""⟩, .square, .usual, 1, commands, 1, ⟨0⟩, waits⟩

/-! ## Tones that were let go -/

omit [Amplitude S] [Sampling R S] in
/-- A tone that was let go is held if and only if its release was refused, unless it has ended. -/
theorem Kept.held_iff_of_spared {next last : LiveEngine R S} {fired : List ToneId} (hlast : Kept last)
    (h : Episode next fired last) {tone : ToneId} (hissued : tone < next.device.synth.nextId)
    (hactive : tone ∉ next.active) :
    tone ∉ last.active ∧ (tone ∈ last.device.held ↔ next.device.Withheld tone ∧ tone ∉ last.device.ended) := by
  have hgone : tone ∉ last.active := fun hid => hactive (h.active_sub tone hid hissued)
  refine ⟨hgone, ?_⟩
  rw [hlast.accounted.held_iff, (h.spares tone hissued hactive).withheld]
  constructor
  · rintro ⟨hended, hid | hid⟩
    · exact absurd hid hgone
    · exact ⟨hid, hended⟩
  · rintro ⟨hid, hended⟩
    exact ⟨hended, .inr hid⟩

theorem ids_run_fill (e : LiveEngine R S) (later : List (LiveAction R S)) (buffer : List S) :
    let last := (e.run (later ++ [.fill buffer])).2
    last.device.synth.thread.bank.voices.ids = last.device.held := by
  intro last
  have hlast : last.device = (e.run later).2.device.fill buffer := by
    show ((e.run (later ++ [.fill buffer])).2).device = _
    rw [run_append]
    rfl
  rw [hlast]
  exact congrArg (fun b : ToneBank R => b.voices.ids) ((e.run later).2.device.synth.thread.bank_fill buffer)

/-! ## All tones are stopped -/

/-- With room for a stop and a release of every tone, nothing is refused. -/
theorem refused_silenceEach {tones : List ToneId} (h : 2 * tones.length ≤ e.device.synth.thread.commands.room)
    (now : R) :
    (e.silenceEach now tones).value.device.refused = e.device.refused := by
  induction tones generalizing e with
  | nil => rfl
  | cons tone rest ih =>
    rw [List.length_cons] at h
    obtain ⟨hstop, hroom⟩ := e.device.refused_submit (by omega) (.stop tone now)
    obtain ⟨hrelease, hroom'⟩ := (e.device.submit (.stop tone now)).2.refused_submit (by omega) (.release tone)
    unfold Engine.silenceEach
    rw [Noted.value_bind, Engine.value_silence]
    refine (@ih ((e.submit (.stop tone now)).2.submit (.release tone)).2 ?_).trans (hrelease.trans hstop)
    show 2 * rest.length ≤ ((e.device.submit (.stop tone now)).2.submit (.release tone)).2.synth.thread.commands.room
    omega

/-- **Stopping all tones** takes those from the card whose release is accepted. The others are held, although the
engine knows them no more, until they end by themselves. -/
theorem held_after_stopAll (setup : LiveSetup R S) (before later : List (LiveAction R S)) (buffer : List S) :
    let e := (setup.engine.run before).2
    let stopped : LiveEngine R S := e.stopAll.value.2
    let last := (stopped.run (later ++ [.fill buffer])).2
    (∀ tone ∈ e.active, tone ∈ last.device.synth.thread.bank.voices.ids ↔
      stopped.device.Withheld tone ∧ tone ∉ last.device.ended) ∧
    (2 * e.active.length ≤ e.device.synth.thread.commands.room →
      ∀ tone ∈ e.active, tone ∉ last.device.synth.thread.bank.voices.ids) := by
  intro e stopped last
  obtain ⟨he, -⟩ := (kept_engine setup).run_spec before
  obtain ⟨hstopped, hepisode⟩ := he.stopAll_spec
  obtain ⟨hlast, hlater⟩ := hstopped.run_spec (later ++ [.fill buffer])
  have hnone : stopped.active = [] := Engine.active_silenceEach _ _ _
  have hheld : ∀ tone ∈ e.active, tone ∈ last.device.synth.thread.bank.voices.ids ↔
      stopped.device.Withheld tone ∧ tone ∉ last.device.ended := by
    intro tone htone
    have hissued : tone < stopped.device.synth.nextId :=
      Nat.lt_of_lt_of_le (he.accounted.owned_lt htone) hepisode.nextId_le
    rw [ids_run_fill]
    exact (hlast.held_iff_of_spared hlater hissued (by rw [hnone]; exact List.not_mem_nil)).2
  refine ⟨hheld, fun hroom tone htone hid => ?_⟩
  have hrefused : stopped.device.refused = e.device.refused :=
    refused_silenceEach (e := { e with active := [] }) hroom (ToneDevice.now e.device)
  obtain ⟨hwithheld, -⟩ := (hheld tone htone).1 hid
  rw [LiveSynth.Withheld, hrefused] at hwithheld
  exact (he.accounted.owned_fresh tone htone).2 hwithheld

theorem bank_fill_nil (t : AudioThread R S) :
    (t.fill []).2.bank = (t.settled.retire (Scalar.frameTime t.sampleRate t.clock)).2 := by
  obtain ⟨bank, master, hdrain⟩ := t.drain_cases
  rw [AudioThread.bank_fill, AudioThread.settled_fill, hdrain]
  simp only [ToneBank.render, AudioThread.silenced, List.map_nil, List.length_nil, Nat.zero_div, ToneBank.mix,
    Nat.add_zero]

/-- One note fills the queue: its stop and its release are refused when all tones are stopped, and it sounds on. -/
theorem held_after_stopAll_full :
    let e := ((plain 7 []).engine.run [.play 1 0 1 100]).2
    0 ∈ e.active ∧ 0 ∈ (run e.stopAll.value.2 [.fill []]).2.device.synth.thread.bank.voices.ids := by
  intro e
  let stopped : LiveEngine ℝ ℝ := e.stopAll.value.2
  have hthread : stopped.device.synth.thread = e.device.synth.thread := rfl
  obtain ⟨v, hv, hstop⟩ : ∃ v, e.device.synth.thread.settled.voices.get? 0 = some v ∧ v.stop? = some (0 + 1) :=
    ⟨_, rfl, rfl⟩
  have hsounds : v.stoppedBy (Scalar.frameTime 1 0) = false := by
    rw [Voice.stoppedBy, hstop, Scalar.frameTime]
    simp
  refine ⟨List.mem_singleton_self 0, ?_⟩
  show 0 ∈ (stopped.device.synth.thread.fill []).2.bank.voices.ids
  rw [hthread, bank_fill_nil, Roster.mem_ids_iff]
  refine ⟨v, ?_⟩
  rw [ToneBank.retire, Roster.get?_filter, hv, Option.filter_some]
  show (if !v.stoppedBy (Scalar.frameTime 1 0) then some v else none) = some v
  rw [hsounds]
  rfl

/-! ## A tone could not be scheduled -/

/-- **A failed play** leaves neither an active tone nor a report. The tone that it made is held from then on if and only
if its release was refused: it has no stop, so it does not even end by itself. -/
theorem held_after_failed_play (setup : LiveSetup R S) (before later : List (LiveAction R S)) (buffer : List S)
    (frequency start duration : R) (volume : UInt32) {failure : Failure} {tone : ToneId}
    (hcreate : ((setup.engine.run before).2.device.create frequency).1 = .ok tone)
    (hplay : ((setup.engine.run before).2.play frequency start duration volume).value.1 = .error failure) :
    let next : LiveEngine R S := ((setup.engine.run before).2.play frequency start duration volume).value.2
    let last := (next.run (later ++ [.fill buffer])).2
    (tone ∉ next.active ∧ next.device.synth.reports.get? tone = none) ∧
      (tone ∉ last.active ∧ last.device.synth.reports.get? tone = none) ∧
      (tone ∈ last.device.synth.thread.bank.voices.ids ↔ next.device.Withheld tone) := by
  intro next last
  obtain ⟨he, -⟩ := (kept_engine setup).run_spec before
  obtain ⟨hnext, -, habandoned⟩ := he.play_spec frequency start duration volume
  obtain ⟨hactive, hfresh, hissued, hlasting⟩ := habandoned failure tone hplay hcreate
  obtain ⟨hlast, hlater⟩ := hnext.run_spec (later ++ [.fill buffer])
  have hgone : tone ∉ next.active := fun hid => hfresh (hactive ▸ hid)
  obtain ⟨hlastGone, hheld⟩ := hlast.held_iff_of_spared hlater hissued hgone
  have hended : tone ∉ last.device.ended := ((hlater.spares tone hissued hgone).lasting hlasting).1
  refine ⟨⟨hgone, hnext.accounted.report_eq_none hgone⟩, ⟨hlastGone, hlast.accounted.report_eq_none hlastGone⟩, ?_⟩
  rw [ids_run_fill]
  exact hheld.trans (and_iff_left hended)

/-- The second note finds room to be made, and for no more. -/
theorem held_after_failed_play_second :
    let e := ((plain 8 []).engine.run [.play 1 0 1 100]).2
    let next : LiveEngine ℝ ℝ := (e.play 1 0 1 100).value.2
    let last := (next.run ([] ++ [.fill []])).2
    (e.device.create 1).1 = .ok 1 ∧ (e.play 1 0 1 100).value.1 = .error .bufferFull ∧
      (1 ∉ next.active ∧ next.device.synth.reports.get? 1 = none) ∧
      (1 ∉ last.active ∧ last.device.synth.reports.get? 1 = none) ∧
      (1 ∈ last.device.synth.thread.bank.voices.ids ↔ next.device.Withheld 1) :=
  ⟨rfl, rfl, held_after_failed_play (plain 8 []) [.play 1 0 1 100] [] [] 1 0 1 100 rfl rfl⟩

/-- A note is made, cannot be scheduled, and stays on the card. -/
theorem held_after_failed_play_full :
    let e := ((plain 1 []).engine.run []).2
    (e.device.create 1).1 = .ok 0 ∧ (e.play 1 0 1 100).value.1 = .error .bufferFull ∧
      (run (e.play 1 0 1 100).value.2 [.fill []]).2.device.synth.thread.bank.voices.ids = [0] :=
  ⟨rfl, rfl, rfl⟩

/-! ## Nothing is refused -/

omit [Amplitude S] [Sampling R S] in
theorem Kept.mem_active_iff (h : Kept e) (id : ToneId) : id ∈ e.active ↔ id ∈ e.device.synth.reports.ids := by
  rw [Roster.mem_ids_iff]
  constructor
  · exact fun hid => ⟨id, (h.accounted.report_iff id id).2 ⟨rfl, hid⟩⟩
  · rintro ⟨report, hreport⟩
    exact ((h.accounted.report_iff id report).1 hreport).2

omit [Amplitude S] [Sampling R S] in
theorem Kept.mem_active_of_held (h : Kept e) (hrefused : e.device.refused = []) {id : ToneId}
    (hid : id ∈ e.device.held) : id ∈ e.active := by
  obtain ⟨-, howner⟩ := (h.accounted.held_iff id).1 hid
  rw [LiveSynth.Withheld, hrefused] at howner
  exact howner.resolve_right List.not_mem_nil

omit [Amplitude S] [Sampling R S] in
/-- An active tone that is not held waits in one place to report its end. -/
theorem Kept.count_reported (h : Kept e) {id : ToneId} (hid : id ∈ e.active) (hheld : id ∉ e.device.held) :
    (e.device.synth.thread.unreported ++ e.device.synth.thread.ended.toList).count id = 1 := by
  have hreported := h.accounted.mem_reported hid hheld
  have honce : e.device.synth.thread.reported.Nodup := (List.nodup_append.1 h.accounted.ended_nodup).2.1
  rw [List.count_append, Nat.add_comm, ← List.count_append]
  exact List.count_eq_one_of_mem honce hreported

/-- After all tones were stopped, none of them reports its end. -/
theorem Kept.quiet_after_stopAll (h : Kept e) (after : List (LiveAction R S)) :
    ∀ id ∈ e.active, id ∉ (run e.stopAll.value.2 after).1 := by
  intro id hid hfired
  obtain ⟨hstopped, hstop⟩ := h.stopAll_spec
  obtain ⟨-, hafter⟩ := hstopped.run_spec after
  have hissued := Nat.lt_of_lt_of_le (h.accounted.owned_lt hid) hstop.nextId_le
  have hnone : e.stopAll.value.2.active = [] := Engine.active_silenceEach _ _ _
  have hstill := hafter.fired_active id hfired hissued
  rw [hnone] at hstill
  exact List.not_mem_nil hstill

/-- **No tone is lost** as long as the command queue refuses nothing: the active tones are those with a report; what is
held, once all commands are done, is active; an active tone that is not held waits in just one place to report its end.
So no report runs twice, or after its tone was stopped with all others. -/
theorem no_tone_lost (setup : LiveSetup R S) (actions : List (LiveAction R S))
    (hrefused : (setup.engine.run actions).2.device.refused = []) :
    let fired := (setup.engine.run actions).1
    let e := (setup.engine.run actions).2
    let thread := e.device.synth.thread
    let held := thread.drain.bank.voices.ids
    (∀ id, id ∈ e.active ↔ id ∈ e.device.synth.reports.ids) ∧
    (∀ id ∈ held, id ∈ e.active) ∧
    (∀ id ∈ e.active, id ∉ held → (thread.unreported ++ thread.ended.toList).count id = 1) ∧
    fired.Nodup ∧
    (∀ before after, actions = before ++ .stopAll :: after →
      ∀ id ∈ (setup.engine.run before).2.active, id ∉ (run (setup.engine.run before).2.stopAll.value.2 after).1) ∧
    (thread.unreported = [] → thread.ended.toList = [] → ∀ id, id ∈ e.active ↔ id ∈ held) := by
  intro fired e thread held
  obtain ⟨he, hepisode⟩ := (kept_engine setup).run_spec actions
  have hheld : held = e.device.held := congrArg (fun b : ToneBank R => b.voices.ids) (AudioThread.bank_drain _)
  have hactive : ∀ id ∈ held, id ∈ e.active := fun id hid => he.mem_active_of_held hrefused (hheld ▸ hid)
  have hcount : ∀ id ∈ e.active, id ∉ held → (thread.unreported ++ thread.ended.toList).count id = 1 :=
    fun id hid hnot => he.count_reported hid (hheld ▸ hnot)
  refine ⟨he.mem_active_iff, hactive, hcount, hepisode.fired_nodup, ?_,
    fun hkept hqueued id => ⟨fun hid => ?_, hactive id⟩⟩
  · intro before after _
    exact ((kept_engine setup).run_spec before).1.quiet_after_stopAll after
  · by_contra hnot
    have hone := hcount id hid hnot
    rw [hkept, hqueued] at hone
    simp at hone

/-- One note is stopped and another one is left, with buffers in between. -/
theorem no_tone_lost_second :
    let setup := plain 9 [[[7, 7, 7]], [], [[]]]
    let actions : List (LiveAction ℝ ℝ) := [.poll, .play 1 0 1 100, .stopAll, .fill [7, 7], .poll, .play 1 5 1 100]
    let e := (setup.engine.run actions).2
    let thread := e.device.synth.thread
    let held := thread.drain.bank.voices.ids
    e.device.refused = [] ∧ e.active = [1] ∧
      (∀ id, id ∈ e.active ↔ id ∈ e.device.synth.reports.ids) ∧
      (∀ id ∈ e.active, id ∉ held → (thread.unreported ++ thread.ended.toList).count id = 1) ∧
      (setup.engine.run actions).1.Nodup ∧ ∀ id, id ∈ e.active ↔ id ∈ held :=
  have h := no_tone_lost (plain 9 [[[7, 7, 7]], [], [[]]])
    [.poll, .play 1 0 1 100, .stopAll, .fill [7, 7], .poll, .play 1 5 1 100] rfl
  ⟨rfl, rfl, h.1, h.2.2.1, h.2.2.2.1, h.2.2.2.2.2 rfl rfl⟩

end MusicMacro.LiveEngine
