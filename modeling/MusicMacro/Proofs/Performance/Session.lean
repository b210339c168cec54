import MusicMacro.Proofs.Device.Account
import MusicMacro.Proofs.Device.Spared
import MusicMacro.Proofs.Performance.Steps

/-!
# An engine on a live synthesizer

An engine plays through a synthesizer while the card takes its buffers.

* `LiveEngine`, `LiveSetup` : such an engine, and what it starts from;
* `LiveEngine.step`, `LiveEngine.run` : what can happen to it, and the reports that run then;
* `LiveEngine.Kept` : the active tones are those that the synthesizer accounts for, and those that are registered;
* `LiveEngine.Episode` : what any time spares: a tone that is not active is left alone, and no report runs twice;
* `LiveEngine.step_spec`, `LiveEngine.run_spec` : every step is an episode and keeps the account, and so is every run.
-/

namespace MusicMacro
variable {R S : Type} [Scalar R] [Amplitude S] [Sampling R S]

/-- An engine on a synthesizer. -/
abbrev LiveEngine (R S : Type) := Engine (LiveSynth R S) R ToneId

/-- What an engine on a synthesizer starts from; the queues for commands and for ended tones have these capacities. -/
structure LiveSetup (R S : Type) where
  card : Card
  waveform : Waveform
  master : MasterBus S
  sampleRate : Nat
  commands : Nat
  ended : Nat
  envelope : Envelope R
  waits : List (List (List S))

omit [Scalar R] [Amplitude S] [Sampling R S] in
def LiveSetup.engine (s : LiveSetup R S) : LiveEngine R S :=
  .fresh (.fresh s.card s.waveform s.master s.sampleRate s.commands s.ended s.waits) s.envelope

/-- Something that happens to an engine on a synthesizer. -/
inductive LiveAction (R S : Type) where
  | play (frequency start duration : R) (volume : UInt32)
  | stopAll
  | poll
  | fill (buffer : List S)
  | setVolume (value : S)

namespace LiveEngine

/-- What one action does: the reports that run, and the engine after it. -/
def step (e : LiveEngine R S) : LiveAction R S → List ToneId × LiveEngine R S
  | .play frequency start duration volume => ([], (e.play frequency start duration volume).value.2)
  | .stopAll => ([], e.stopAll.value.2)
  | .poll => (e.device.poll.1, Engine.ended { e with device := e.device.poll.2 } e.device.poll.1)
  | .fill buffer => ([], { e with device := e.device.fill buffer })
  | .setVolume value => ([], { e with device := e.device.setVolume value })

def run (e : LiveEngine R S) : List (LiveAction R S) → List ToneId × LiveEngine R S
  | [] => ([], e)
  | action :: rest =>
    let (fired, next) := e.step action
    let (later, last) := next.run rest
    (fired ++ later, last)

theorem run_append (e : LiveEngine R S) (before after : List (LiveAction R S)) :
    e.run (before ++ after) =
      ((e.run before).1 ++ ((e.run before).2.run after).1, ((e.run before).2.run after).2) := by
  induction before generalizing e with
  | nil => rfl
  | cons action rest ih =>
    simp only [List.cons_append, run, ih, List.append_assoc]

/-! ## The account of the active tones -/

/-- The active tones are accounted for, and they are those with a report. -/
structure Kept (e : LiveEngine R S) : Prop where
  nodup : e.active.Nodup
  accounted : Accounted {id | id ∈ e.active} {id | id ∈ e.active} e.device

/-- What may come of an engine, with the reports that run meanwhile. -/
structure Episode (e : LiveEngine R S) (fired : List ToneId) (next : LiveEngine R S) : Prop where
  nextId_le : e.device.synth.nextId ≤ next.device.synth.nextId
  active_sub : ∀ id ∈ next.active, id < e.device.synth.nextId → id ∈ e.active
  polled_sub : ∀ id ∈ e.device.polled, id ∈ next.device.polled
  spares : ∀ id < e.device.synth.nextId, id ∉ e.active → LiveSynth.Spares id e.device next.device
  fired_nodup : fired.Nodup
  fired_polled : ∀ id ∈ fired, id ∉ e.device.polled ∧ id ∈ next.device.polled
  fired_active : ∀ id ∈ fired, id < e.device.synth.nextId → id ∈ e.active

namespace Episode
variable {e mid next : LiveEngine R S}

omit [Amplitude S] [Sampling R S] in
theorem quiet (hnext : e.device.synth.nextId ≤ next.device.synth.nextId)
    (hactive : ∀ id ∈ next.active, id < e.device.synth.nextId → id ∈ e.active)
    (hpolled : next.device.polled = e.device.polled)
    (hspares : ∀ id < e.device.synth.nextId, id ∉ e.active → LiveSynth.Spares id e.device next.device) :
    Episode e [] next :=
  ⟨hnext, hactive, fun _ hid => hpolled ▸ hid, hspares, List.nodup_nil, fun _ hid => absurd hid List.not_mem_nil,
    fun _ hid => absurd hid List.not_mem_nil⟩

omit [Amplitude S] [Sampling R S] in
theorem refl (e : LiveEngine R S) : Episode e [] e :=
  quiet (Nat.le_refl _) (fun _ hid _ => hid) rfl fun id _ _ => .refl id e.device

omit [Amplitude S] [Sampling R S] in
theorem trans {fired later : List ToneId} (h : Episode e fired mid) (h' : Episode mid later next) :
    Episode e (fired ++ later) next := by
  have hlt : ∀ {id}, id < e.device.synth.nextId → id < mid.device.synth.nextId := fun hid =>
    Nat.lt_of_lt_of_le hid h.nextId_le
  refine ⟨h.nextId_le.trans h'.nextId_le, fun id hid hissued => ?_,
    fun id hid => h'.polled_sub id (h.polled_sub id hid), fun id hissued hactive => ?_, ?_, fun id hid => ?_,
    fun id hid hissued => ?_⟩
  · exact h.active_sub id (h'.active_sub id hid (hlt hissued)) hissued
  · exact (h.spares id hissued hactive).trans
      (h'.spares id (hlt hissued) fun hid => hactive (h.active_sub id hid hissued))
  · -- what was reported first was asked for by then, and what is reported later was not
    refine List.nodup_append.2 ⟨h.fired_nodup, h'.fired_nodup, ?_⟩
    rintro id hfirst _ hlater rfl
    exact (h'.fired_polled id hlater).1 (h.fired_polled id hfirst).2
  · rcases List.mem_append.1 hid with hid | hid
    · obtain ⟨hnot, hpolled⟩ := h.fired_polled id hid
      exact ⟨hnot, h'.polled_sub id hpolled⟩
    · obtain ⟨hnot, hpolled⟩ := h'.fired_polled id hid
      exact ⟨fun hold => hnot (h.polled_sub id hold), hpolled⟩
  · rcases List.mem_append.1 hid with hid | hid
    · exact h.fired_active id hid hissued
    · exact h.active_sub id (h'.fired_active id hid (hlt hissued)) hissued

end Episode

/-! ## One tone is played -/

variable {e : LiveEngine R S}

omit [Amplitude S] [Sampling R S] in
theorem schedules_arming (envelope : Envelope R) (tone : ToneId) (start stop : R) (volume : UInt32) :
    ∀ request ∈ Engine.armingRequests envelope tone start stop volume, request.Schedules tone := by
  intro request hrequest
  rcases List.mem_append.1 hrequest with hgain | hedge
  · obtain ⟨point, -, rfl⟩ := List.mem_map.1 hgain
    rfl
  · rcases List.mem_cons.1 hedge with rfl | hlast
    · rfl
    · rw [List.mem_singleton.1 hlast]
      rfl

/-- A tone was made for an engine and is not active yet. -/
structure Pending (e : LiveEngine R S) (tone : ToneId) (d : LiveSynth R S) : Prop where
  tone_eq : tone = e.device.synth.nextId
  nextId_eq : d.synth.nextId = e.device.synth.nextId + 1
  polled_eq : d.polled = e.device.polled
  accounted : Accounted (insert tone {id | id ∈ e.active}) {id | id ∈ e.active} d
  spares : ∀ id < e.device.synth.nextId, LiveSynth.Spares id e.device d

theorem Kept.create_cases (h : e.Kept) (frequency : R) :
    (∃ device, e.device.create frequency = (.ok e.device.synth.nextId, device) ∧
        Pending e e.device.synth.nextId device ∧ device.Lasting e.device.synth.nextId) ∨
      ∃ failure device, e.device.create frequency = (.error failure, device) ∧
        Kept { e with device } ∧ Episode e [] { e with device } := by
  have hpolled := e.device.polled_create frequency
  have hspares := fun id => LiveSynth.Spares.create id e.device frequency
  obtain ⟨device, hcreate, hnext, haccounted, hlasting⟩ | ⟨failure, device, hcreate, hnext, haccounted⟩ :=
    h.accounted.create frequency
  · rw [hcreate] at hpolled hspares
    exact .inl ⟨device, hcreate, ⟨rfl, hnext, hpolled, haccounted, fun id _ => hspares id⟩, hlasting⟩
  · rw [hcreate] at hpolled hspares
    exact .inr ⟨failure, device, hcreate, ⟨h.nodup, haccounted⟩,
      .quiet (Nat.le_of_eq hnext.symm) (fun id hid _ => hid) hpolled fun id _ _ => hspares id⟩

/-- A tone that was made is given up because it could not be scheduled. -/
structure Abandoned (e : LiveEngine R S) (tone : ToneId) (next : LiveEngine R S) : Prop where
  active_eq : next.active = e.active
  notMem : tone ∉ e.active
  tone_lt : tone < next.device.synth.nextId
  lasting : next.device.Lasting tone

omit [Amplitude S] [Sampling R S] in
theorem armingRequests_eq (envelope : Envelope R) (tone : ToneId) (start stop : R) (volume : UInt32) :
    ∃ requests : List (Request R ToneId),
      Engine.armingRequests envelope tone start stop volume = requests ++ [.stop tone stop] ∧
        ∀ request ∈ requests, ∀ time, request ≠ .stop tone time := by
  refine ⟨(envelope.points start (stop - start) volume).map (fun p => .gain tone p.time p.value) ++ [.start tone start],
    by simp [Engine.armingRequests], fun request hrequest time => ?_⟩
  rcases List.mem_append.1 hrequest with hgain | hedge
  · obtain ⟨point, -, rfl⟩ := List.mem_map.1 hgain
    simp
  · rw [List.mem_singleton.1 hedge]
    simp

namespace Pending
variable {tone : ToneId} {d : LiveSynth R S}

omit [Amplitude S] [Sampling R S] in
theorem notMem (hp : Pending e tone d) (h : e.Kept) : tone ∉ e.active := fun hid =>
  Nat.lt_irrefl _ (hp.tone_eq ▸ h.accounted.owned_lt hid)

/-- What a tone is scheduled with does not concern the others. -/
theorem arming (hp : Pending e tone d) (envelope : Envelope R) (start stop : R) (volume : UInt32) :
    Pending e tone (ToneDevice.submitAll d (Engine.armingRequests envelope tone start stop volume)).2 := by
  have hschedules := schedules_arming envelope tone start stop volume
  refine ToneDevice.submitAll_induction (P := Pending e tone) (fun mid request hrequest hmid => ?_) hp
  obtain ⟨hpolled, hnext⟩ := mid.submit_keeps request
  refine ⟨hmid.tone_eq, hnext.trans hmid.nextId_eq, hpolled.trans hmid.polled_eq,
    hmid.accounted.submit (hschedules request hrequest), fun id hid => ?_⟩
  have hother : request.tone ≠ id := by
    rw [(hschedules request hrequest).tone_eq, hp.tone_eq]
    exact Nat.ne_of_gt hid
  exact (hmid.spares id hid).trans (.submit mid hother)

theorem armed (hp : Pending e tone d) (h : e.Kept) :
    let next := ((Engine.track { e with device := d } tone).submit (.onEnded tone tone)).2
    Kept next ∧ Episode e [] next := by
  intro next
  have hfresh := hp.notMem h
  have hactive : next.active = e.active ++ [tone] := Engine.active_track { e with device := d } hfresh
  have hdevice : next.device = (d.submit (.onEnded tone tone)).2 := by
    have hsame : (Engine.track { e with device := d } tone).device = d := Engine.device_track _ _
    show ((Engine.track { e with device := d } tone).device.submit (.onEnded tone tone)).2 = _
    rw [hsame]
  obtain ⟨hpolled, hnext⟩ := d.submit_keeps (.onEnded tone tone)
  have hset : insert tone {id | id ∈ e.active} = {id | id ∈ next.active} := by
    ext id
    simp [hactive, or_comm]
  refine ⟨⟨?_, ?_⟩, .quiet ?_ (fun id hid hissued => ?_) ?_ fun id hissued _ => ?_⟩
  · rw [hactive, List.nodup_append]
    refine ⟨h.nodup, List.nodup_singleton tone, ?_⟩
    rintro id hid _ hlast rfl
    exact hfresh (List.mem_singleton.1 hlast ▸ hid)
  · rw [← hset, hdevice]
    exact (hp.accounted.onEnded tone).2
  · rw [hdevice, hnext, hp.nextId_eq]
    exact Nat.le_succ _
  · rw [hactive, List.mem_append, List.mem_singleton] at hid
    rcases hid with hid | rfl
    · exact hid
    · exact absurd hp.tone_eq (Nat.ne_of_lt hissued)
  · rw [hdevice, hpolled, hp.polled_eq]
  · rw [hdevice]
    exact (hp.spares id hissued).trans (.submit d (hp.tone_eq ▸ Nat.ne_of_gt hissued))

/-- Scheduled in full or not at all, as far as the engine knows. -/
theorem arm (hp : Pending e tone d) (h : e.Kept) (hlasting : d.Lasting tone) (start stop : R) (volume : UInt32) :
    (∃ next, Engine.arm { e with device := d } tone start stop volume = (.ok (), next) ∧
        Kept next ∧ Episode e [] next) ∨
      ∃ failure device, Engine.arm { e with device := d } tone start stop volume = (.error failure, { e with device }) ∧
        Pending e tone device ∧ device.Lasting tone := by
  have hall := hp.arming e.envelope start stop volume
  obtain ⟨failure, device, hsubmit, harm⟩ | ⟨device, hsubmit, harm⟩ :=
    Engine.arm_cases { e with device := d } tone start stop volume
  · rw [hsubmit] at hall
    obtain ⟨requests, hrequests, hnostop⟩ := armingRequests_eq e.envelope tone start stop volume
    have hsubmit' : ToneDevice.submitAll d (requests ++ [.stop tone stop]) = (.error failure, device) :=
      hrequests ▸ hsubmit
    exact .inr ⟨failure, device, harm, hall, hlasting.submitAll_refused hnostop hsubmit'⟩
  · rw [hsubmit] at hall
    obtain ⟨hkept, hepisode⟩ := hall.armed h
    exact .inl ⟨_, harm, hkept, hepisode⟩

/-- A tone that is given up is gone from the engine, though maybe not from the card. -/
theorem abandoned (hp : Pending e tone d) (h : e.Kept) (hlasting : d.Lasting tone) :
    let next := ((Engine.forget { e with device := d } tone).submit (.release tone)).2
    Kept next ∧ Episode e [] next ∧ Abandoned e tone next := by
  intro next
  have hfresh := hp.notMem h
  have hactive : next.active = e.active := Engine.active_forget e { e with device := d } hfresh (.inl rfl)
  have hdevice : next.device = (d.submit (.release tone)).2 := rfl
  obtain ⟨hpolled, hnext⟩ := d.submit_keeps (.release tone)
  have hnext' : next.device.synth.nextId = e.device.synth.nextId + 1 := by rw [hdevice, hnext, hp.nextId_eq]
  have hregistered : {id | id ∈ e.active} \ {tone} = {id | id ∈ next.active} := by
    rw [hactive]
    exact Set.sdiff_singleton_eq_self hfresh
  have howned : insert tone {id | id ∈ e.active} \ {tone} = {id | id ∈ next.active} := by
    rw [Set.insert_sdiff_of_mem _ (Set.mem_singleton tone), hregistered]
  have hleft := hp.accounted.release (Set.mem_insert tone _)
  rw [howned, hregistered] at hleft
  refine ⟨⟨hactive ▸ h.nodup, hleft⟩, .quiet ?_ (fun id hid _ => hactive ▸ hid) ?_ fun id hissued _ => ?_,
    hactive, hfresh, ?_, hlasting.submit (by simp)⟩
  · rw [hnext']
    exact Nat.le_succ _
  · rw [hdevice, hpolled, hp.polled_eq]
  · exact (hp.spares id hissued).trans (.submit d (hp.tone_eq ▸ Nat.ne_of_gt hissued))
  · rw [hnext', hp.tone_eq]
    exact Nat.lt_succ_self _

end Pending

/-- A tone is played, or nothing is made, or what was made is given up. -/
theorem Kept.play_spec (h : e.Kept) (frequency start duration : R) (volume : UInt32) :
    let played := (e.play frequency start duration volume).value
    Kept played.2 ∧ Episode e [] played.2 ∧
      ∀ failure tone, played.1 = .error failure → (e.device.create frequency).1 = .ok tone →
        Abandoned e tone played.2 := by
  intro played
  obtain ⟨failure, device, hcreate, hplay⟩ | ⟨tone, device, hcreate, hplay⟩ :=
    e.play_cases frequency start duration volume
  · obtain ⟨device', hcreate', -⟩ | ⟨failure', device', hcreate', hkept, hepisode⟩ := h.create_cases frequency
    · cases hcreate.symm.trans hcreate'
    cases hcreate.symm.trans hcreate'
    rw [show played = _ from hplay]
    exact ⟨hkept, hepisode, fun _ tone _ hmade => by cases (congrArg Prod.fst hcreate').symm.trans hmade⟩
  · obtain ⟨device', hcreate', hp, hlasting⟩ | ⟨failure', device', hcreate', -⟩ := h.create_cases frequency
    swap
    · cases hcreate.symm.trans hcreate'
    cases hcreate.symm.trans hcreate'
    have harm := hp.arm h hlasting start (start + duration) volume
    obtain ⟨next, hnext, hplay⟩ | ⟨failure, next, hnext, hplay⟩ := hplay
    · obtain ⟨next', hnext', hkept, hepisode⟩ | ⟨failure, device', hnext', -⟩ := harm
      · cases hnext.symm.trans hnext'
        rw [show played = _ from hplay]
        exact ⟨hkept, hepisode, fun _ _ hfailed => by cases hfailed⟩
      · cases hnext.symm.trans hnext'
    · obtain ⟨next', hnext', -⟩ | ⟨failure', device', hnext', hp', hlasting'⟩ := harm
      · cases hnext.symm.trans hnext'
      · cases hnext.symm.trans hnext'
        obtain ⟨hkept, hepisode, habandoned⟩ := hp'.abandoned h hlasting'
        rw [show played = _ from hplay]
        refine ⟨hkept, hepisode, fun _ tone _ hmade => ?_⟩
        cases (congrArg Prod.fst hcreate').symm.trans hmade
        exact habandoned

/-! ## All tones are stopped -/

theorem accounted_silenceEach {tones : List ToneId} (hnodup : tones.Nodup)
    (h : Accounted {id | id ∈ tones} {id | id ∈ tones} e.device) (now : R) :
    Accounted ∅ ∅ (e.silenceEach now tones).value.device := by
  induction tones generalizing e with
  | nil =>
    have hnone : {id | id ∈ ([] : List ToneId)} = ∅ := by simp
    rw [hnone] at h
    exact h
  | cons tone rest ih =>
    obtain ⟨htone, hrest⟩ := List.nodup_cons.1 hnodup
    have hcons : {id | id ∈ tone :: rest} = insert tone {id | id ∈ rest} := by
      ext id
      simp
    have hset : insert tone {id | id ∈ rest} \ {tone} = {id | id ∈ rest} := by
      rw [Set.insert_sdiff_of_mem _ (Set.mem_singleton tone)]
      exact Set.sdiff_singleton_eq_self htone
    rw [hcons] at h
    have hstopped : Accounted _ _ (e.device.submit (.stop tone now)).2 := h.submit rfl
    have hreleased := hstopped.release (Set.mem_insert tone _)
    rw [hset] at hreleased
    unfold Engine.silenceEach
    rw [Noted.value_bind, Engine.value_silence]
    exact ih hrest hreleased

/-- Some requests were made, for active tones only. -/
structure Attended (e : LiveEngine R S) (d : LiveSynth R S) : Prop where
  polled_eq : d.polled = e.device.polled
  nextId_eq : d.synth.nextId = e.device.synth.nextId
  spares : ∀ id, id ∉ e.active → LiveSynth.Spares id e.device d

theorem Attended.submit {d : LiveSynth R S} (h : Attended e d) {request : Request R ToneId}
    (hactive : request.tone ∈ e.active) : Attended e (d.submit request).2 := by
  obtain ⟨hpolled, hnext⟩ := d.submit_keeps request
  exact ⟨hpolled.trans h.polled_eq, hnext.trans h.nextId_eq, fun id hid =>
    (h.spares id hid).trans (.submit d fun heq => hid (heq ▸ hactive))⟩

theorem Kept.stopAll_spec (h : e.Kept) : Kept e.stopAll.value.2 ∧ Episode e [] e.stopAll.value.2 := by
  let now := ToneDevice.now e.device
  have hactive : e.stopAll.value.2.active = [] := Engine.active_silenceEach _ _ _
  have haccounted : Accounted ∅ ∅ e.stopAll.value.2.device :=
    accounted_silenceEach (e := { e with active := [] }) h.nodup h.accounted now
  obtain ⟨hpolled, hnext, hspares⟩ : Attended e e.stopAll.value.2.device :=
    Engine.silenceEach_induction (P := Attended e) (e := { e with active := [] })
      (fun d tone htone hd => Attended.submit (Attended.submit hd htone) htone)
      ⟨rfl, rfl, fun id _ => .refl id e.device⟩
  refine ⟨⟨hactive ▸ List.nodup_nil, ?_⟩, .quiet (Nat.le_of_eq hnext.symm) (fun id hid _ => ?_) hpolled
    fun id _ hid => hspares id hid⟩
  · have hnone : {id | id ∈ e.stopAll.value.2.active} = ∅ := by simp [hactive]
    rw [hnone]
    exact haccounted
  · rw [hactive] at hid
    exact absurd hid List.not_mem_nil

/-! ## Actions -/

theorem Kept.poll_spec (h : e.Kept) : Kept (e.step .poll).2 ∧ Episode e (e.step .poll).1 (e.step .poll).2 := by
  obtain ⟨hmem, hnodup, haccounted⟩ := h.accounted.poll
  have hdevice : (e.step .poll).2.device = e.device.poll.2 := Engine.device_ended _ _
  have hactive : ∀ id, id ∈ (e.step .poll).2.active ↔ id ∈ e.active ∧ id ∉ e.device.poll.1 :=
    Engine.mem_active_ended { e with device := e.device.poll.2 } _
  have hset : {id | id ∈ e.active} \ {id | id ∈ e.device.synth.thread.ended.toList} =
      {id | id ∈ (e.step .poll).2.active} := by
    ext id
    simp only [Set.mem_sdiff, Set.mem_ofPred_eq, hactive, hmem]
    tauto
  have hnext : e.device.poll.2.synth.nextId = e.device.synth.nextId := by rw [e.device.poll_eq]
  have hpolled := e.device.polled_poll
  have honce : (e.step .poll).2.active.Nodup :=
    Engine.nodup_ended (e := { e with device := e.device.poll.2 }) h.nodup _
  refine ⟨⟨honce, ?_⟩, ?_, fun id hid _ => ((hactive id).1 hid).1, fun id hid => ?_,
    fun id _ _ => ?_, hnodup, fun id hid => ?_, fun id hid _ => ((hmem id).1 hid).2⟩
  · rw [hdevice, ← hset]
    exact haccounted
  · rw [hdevice, hnext]
  · rw [hdevice, hpolled]
    exact List.mem_append_left _ hid
  · rw [hdevice]
    exact .poll id e.device
  · obtain ⟨htaken, hid'⟩ := (hmem id).1 hid
    rw [hdevice, hpolled]
    exact ⟨(h.accounted.owned_fresh id hid').1, List.mem_append_right _ htaken⟩

/-- **One action** keeps the account of the active tones. -/
theorem Kept.step_spec (h : e.Kept) (action : LiveAction R S) :
    Kept (e.step action).2 ∧ Episode e (e.step action).1 (e.step action).2 := by
  cases action with
  | play frequency start duration volume =>
    obtain ⟨hkept, hepisode, -⟩ := h.play_spec frequency start duration volume
    exact ⟨hkept, hepisode⟩
  | stopAll => exact h.stopAll_spec
  | poll => exact h.poll_spec
  | fill buffer =>
    exact ⟨⟨h.nodup, h.accounted.fill buffer⟩,
      .quiet (Nat.le_refl _) (fun _ hid _ => hid) rfl fun id _ _ => .fill id e.device buffer⟩
  | setVolume value =>
    have hnext : (e.device.setVolume value).synth.nextId = e.device.synth.nextId := SynthDevice.nextId_send _ _
    exact ⟨⟨h.nodup, h.accounted.setVolume value⟩,
      .quiet (Nat.le_of_eq hnext.symm) (fun _ hid _ => hid) rfl fun id _ _ => .setVolume id e.device value⟩

theorem Kept.run_spec (h : e.Kept) (actions : List (LiveAction R S)) :
    Kept (e.run actions).2 ∧ Episode e (e.run actions).1 (e.run actions).2 := by
  induction actions generalizing e with
  | nil => exact ⟨h, .refl e⟩
  | cons action rest ih =>
    obtain ⟨hkept, hepisode⟩ := h.step_spec action
    obtain ⟨hlast, hlater⟩ := ih hkept
    exact ⟨hlast, hepisode.trans hlater⟩

omit [Amplitude S] [Sampling R S] in
theorem kept_engine (setup : LiveSetup R S) : Kept setup.engine := by
  refine ⟨List.nodup_nil, ?_⟩
  have h := accounted_fresh (R := R) setup.card setup.waveform setup.master setup.sampleRate setup.commands setup.ended
    setup.waits
  simpa [LiveSetup.engine, Engine.fresh] using h

end LiveEngine

end MusicMacro
