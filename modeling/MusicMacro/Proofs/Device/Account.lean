import MusicMacro.Proofs.Device.Live

/-!
# The account of a live synthesizer

Every voice on the card belongs to a tone that somebody answers for.

* `Accounted` : what is held is what is owned or was withheld, as long as it has not ended, and registered tones report
  themselves;
* `Accounted.fill`, `Accounted.create`, `Accounted.submit`, `Accounted.onEnded`, `Accounted.release`,
  `Accounted.poll` : what each step does to the account;
* `SynthDevice.collect_spec` : the reports of ended tones run once.
-/

namespace MusicMacro
variable {R S : Type} [Scalar R]

/-! ## Reports -/

theorem SynthDevice.report_iff_erase {reports : Roster ToneId} {registered : Set ToneId}
    (h : ∀ id report, reports.get? id = some report ↔ report = id ∧ id ∈ registered) (tone id report : ToneId) :
    (reports.erase tone).get? id = some report ↔ report = id ∧ id ∈ registered \ {tone} := by
  rw [Roster.get?_erase, Set.mem_sdiff, Set.mem_singleton_iff]
  split_ifs with hid
  · simp [hid]
  · rw [h]
    simp [hid]

/-- The reports of distinct tones are given once and are gone then. -/
theorem SynthDevice.collect_spec {reports : Roster ToneId} {registered : Set ToneId}
    (h : ∀ id report, reports.get? id = some report ↔ report = id ∧ id ∈ registered) {ids : List ToneId}
    (hids : ids.Nodup) :
    (∀ id, id ∈ (collect reports ids).1 ↔ id ∈ ids ∧ id ∈ registered) ∧ (collect reports ids).1.Nodup ∧
      ∀ id report, (collect reports ids).2.get? id = some report ↔ report = id ∧ id ∈ registered \ {id | id ∈ ids} := by
  induction ids generalizing reports registered with
  | nil => exact ⟨by simp [collect], List.nodup_nil, by simpa [collect] using h⟩
  | cons tone rest ih =>
    obtain ⟨htone, hrest⟩ := List.nodup_cons.1 hids
    obtain ⟨hmem, hnodup, hlast⟩ := ih (report_iff_erase h tone) hrest
    have hnow : ∀ id, id ∈ (reports.get? tone).toList ↔ id = tone ∧ id ∈ registered := by
      intro id
      rw [Option.mem_toList, h]
      constructor
      · rintro ⟨rfl, hid⟩
        exact ⟨rfl, hid⟩
      · rintro ⟨rfl, hid⟩
        exact ⟨rfl, hid⟩
    refine ⟨fun id => ?_, ?_, fun id report => ?_⟩
    · show id ∈ (reports.get? tone).toList ++ (collect (reports.erase tone) rest).1 ↔ _
      rw [List.mem_append, hnow, hmem, List.mem_cons, Set.mem_sdiff, Set.mem_singleton_iff]
      constructor
      · rintro (⟨rfl, hid⟩ | ⟨hid, hregistered, -⟩)
        · exact ⟨.inl rfl, hid⟩
        · exact ⟨.inr hid, hregistered⟩
      · rintro ⟨rfl | hid, hregistered⟩
        · exact .inl ⟨rfl, hregistered⟩
        · exact .inr ⟨hid, hregistered, fun heq => htone (heq ▸ hid)⟩
    · show ((reports.get? tone).toList ++ (collect (reports.erase tone) rest).1).Nodup
      refine List.nodup_append.2 ⟨?_, hnodup, ?_⟩
      · cases reports.get? tone <;> simp
      · rintro id hid _ hlater rfl
        exact htone (((hnow id).1 hid).1 ▸ ((hmem id).1 hlater).1)
    · refine (hlast id report).trans (and_congr_right fun _ => ?_)
      simp only [Set.mem_sdiff, Set.mem_singleton_iff, Set.mem_ofPred_eq, List.mem_cons, not_or, and_assoc]

/-! ## The account -/

/-- Some tones are somebody's own, and some of those are registered with the synthesizer. A tone is held if it is owned
or its release was refused, unless it has ended; a registered tone reports itself; and no tone ends twice. -/
structure Accounted (owned registered : Set ToneId) (d : LiveSynth R S) : Prop where
  held_iff : ∀ id, id ∈ d.held ↔ id ∉ d.ended ∧ (id ∈ owned ∨ d.Withheld id)
  report_iff : ∀ id report, d.synth.reports.get? id = some report ↔ report = id ∧ id ∈ registered
  ended_nodup : d.ended.Nodup
  issued : ∀ id, id ∈ d.held ∨ id ∈ d.ended → id < d.synth.nextId
  owned_fresh : ∀ id ∈ owned, id ∉ d.polled ∧ ¬ d.Withheld id

namespace Accounted
variable {owned registered : Set ToneId} {d : LiveSynth R S}

theorem owned_lt (h : Accounted owned registered d) {id : ToneId} (hid : id ∈ owned) : id < d.synth.nextId := by
  by_cases hended : id ∈ d.ended
  · exact h.issued id (.inr hended)
  · exact h.issued id (.inl ((h.held_iff id).2 ⟨hended, .inl hid⟩))

theorem withheld_lt (h : Accounted owned registered d) {id : ToneId} (hid : d.Withheld id) : id < d.synth.nextId := by
  by_cases hended : id ∈ d.ended
  · exact h.issued id (.inr hended)
  · exact h.issued id (.inl ((h.held_iff id).2 ⟨hended, .inr hid⟩))

theorem mem_reported (h : Accounted owned registered d) {id : ToneId} (hid : id ∈ owned) (hheld : id ∉ d.held) :
    id ∈ d.synth.thread.reported := by
  have hended : id ∈ d.ended := by
    by_contra hnot
    exact hheld ((h.held_iff id).2 ⟨hnot, .inl hid⟩)
  rcases List.mem_append.1 hended with hpolled | hreported
  · exact absurd hpolled (h.owned_fresh id hid).1
  · exact hreported

theorem report_eq_none (h : Accounted owned registered d) {id : ToneId} (hid : id ∉ registered) :
    d.synth.reports.get? id = none :=
  Option.eq_none_iff_forall_ne_some.2 fun report hreport => hid ((h.report_iff id report).1 hreport).2

/-- Commands that leave the voices where they are do not change the account. -/
theorem same (h : Accounted owned registered d) {next : LiveSynth R S} (hheld : next.held = d.held)
    (hended : next.synth.thread.reported = d.synth.thread.reported) (hpolled : next.polled = d.polled)
    (hreports : next.synth.reports = d.synth.reports) (hnext : next.synth.nextId = d.synth.nextId)
    (hrefused : ∀ id, next.Withheld id ↔ d.Withheld id) : Accounted owned registered next := by
  have hall : next.ended = d.ended := by rw [LiveSynth.ended, hended, hpolled]; rfl
  refine ⟨fun id => ?_, fun id report => ?_, ?_, fun id hid => ?_, fun id hid => ?_⟩
  · rw [hheld, hall, hrefused]
    exact h.held_iff id
  · rw [hreports]
    exact h.report_iff id report
  · rw [hall]
    exact h.ended_nodup
  · rw [hheld, hall] at hid
    rw [hnext]
    exact h.issued id hid
  · rw [hpolled, hrefused]
    exact h.owned_fresh id hid

section Calls
variable [Amplitude S] [Sampling R S]

theorem fill (h : Accounted owned registered d) (buffer : List S) : Accounted owned registered (d.fill buffer) := by
  have hheld : ∀ id, id ∈ (d.fill buffer).held ↔ id ∈ d.held ∧ id ∉ d.synth.thread.endings buffer :=
    d.synth.thread.mem_ids_fill buffer
  have hended := d.ended_fill buffer
  have hperm := d.synth.thread.endings_fill_perm buffer
  have hsub : ∀ id ∈ d.synth.thread.endings buffer, id ∈ d.held := fun id hid =>
    hperm.subset (List.mem_append_left _ hid)
  obtain ⟨hnodup, -, -⟩ := List.nodup_append.1 (hperm.nodup_iff.2 d.synth.thread.settled.voices.nodup_ids)
  refine ⟨fun id => ?_, h.report_iff, ?_, fun id hid => ?_, h.owned_fresh⟩
  · rw [hheld, hended, List.mem_append, h.held_iff]
    constructor
    · rintro ⟨⟨hnot, howner⟩, hnow⟩
      exact ⟨fun hid => hid.elim hnot hnow, howner⟩
    · rintro ⟨hnot, howner⟩
      exact ⟨⟨fun hid => hnot (.inl hid), howner⟩, fun hid => hnot (.inr hid)⟩
  · rw [hended, List.nodup_append]
    refine ⟨h.ended_nodup, hnodup, ?_⟩
    rintro id hpast _ hnow rfl
    exact ((h.held_iff id).1 (hsub id hnow)).1 hpast
  · rw [hheld, hended, List.mem_append] at hid
    rcases hid with ⟨hid, -⟩ | hid | hid
    · exact h.issued id (.inl hid)
    · exact h.issued id (.inr hid)
    · exact h.issued id (.inl (hsub id hid))

theorem wait (h : Accounted owned registered d) : Accounted owned registered d.wait :=
  LiveSynth.wait_induction (P := Accounted owned registered) (fun _ buffer hd => hd.fill buffer)
    (fun _ _ hd => ⟨hd.held_iff, hd.report_iff, hd.ended_nodup, hd.issued, hd.owned_fresh⟩) h

omit [Amplitude S] [Sampling R S] in
theorem refuse (h : Accounted owned registered d) {call : Call R ToneId}
    (hcall : ∀ id, call ≠ .request (.release id)) :
    Accounted owned registered { d with refused := d.refused ++ [call] } := by
  refine h.same rfl rfl rfl rfl rfl fun id => ?_
  have hnew : (Call.request (.release id) : Call R ToneId) ≠ call := (hcall id).symm
  simp [LiveSynth.Withheld, hnew]

omit [Amplitude S] [Sampling R S] in
/-- A command that leaves the voices where they are changes nothing, whether or not there is room for it. -/
theorem send (h : Accounted owned registered d) {command : AudioCommand R S}
    (hcommand : ∀ b : ToneBank R, (command.voice b).voices.ids = b.voices.ids) :
    Accounted owned registered { d with synth := (d.synth.send command).2 } := by
  rcases d.synth.send_cases command with ⟨thread, hpush, hsend⟩ | hsend
  · rw [hsend]
    refine h.same ?_ (AudioThread.reported_of_push? hpush) rfl rfl rfl fun id => Iff.rfl
    show thread.settled.voices.ids = d.held
    rw [AudioThread.settled_of_push? hpush]
    exact hcommand _
  · rw [hsend]
    exact h

omit [Amplitude S] [Sampling R S] in
theorem setVolume (h : Accounted owned registered d) (volume : S) : Accounted owned registered (d.setVolume volume) :=
  h.send fun _ => rfl

omit [Amplitude S] [Sampling R S] in
theorem record_schedule (h : Accounted owned registered d) {call : Call R ToneId}
    (hcall : ∀ id, call ≠ .request (.release id)) (tone : ToneId) {request : ToneRequest R}
    (hrequest : request.isSchedule = true) :
    Accounted owned registered (d.record call (d.synth.send (.tone tone request))).2 := by
  have hsent : Accounted owned registered { d with synth := (d.synth.send (.tone tone request)).2 } :=
    h.send fun b => b.ids_apply tone hrequest
  rcases d.synth.send_cases (.tone tone request) with ⟨thread, -, hsend⟩ | hsend
  · rw [hsend] at hsent ⊢
    exact hsent
  · rw [hsend]
    exact h.refuse hcall

omit [Amplitude S] [Sampling R S] in
theorem create_accepted (h : Accounted owned registered d) {frequency : R} {sent : AudioThread R S}
    (hpush : d.synth.thread.push? (.tone d.synth.nextId (.create frequency)) = some sent) :
    Accounted (insert d.synth.nextId owned) registered
      { d with synth := { d.synth with thread := sent, nextId := d.synth.nextId + 1 } } := by
  -- the new number was never given out, so the tone has neither ended nor was it withheld
  have hnew : d.synth.nextId ∉ d.ended := fun hid => Nat.lt_irrefl _ (h.issued _ (.inr hid))
  have hheld : ∀ id, id ∈ sent.settled.voices.ids ↔ id = d.synth.nextId ∨ id ∈ d.held := by
    rw [AudioThread.settled_of_push? hpush]
    exact fun id => ToneBank.mem_ids_create _ _ _ _
  have hended := LiveSynth.ended_of_push? hpush
  refine ⟨fun id => ?_, h.report_iff, ?_, fun id hid => ?_, ?_⟩
  · show id ∈ sent.settled.voices.ids ↔ id ∉ d.polled ++ sent.reported ∧ _
    rw [hheld, hended, h.held_iff, Set.mem_insert_iff]
    constructor
    · rintro (rfl | ⟨hnot, hid | hid⟩)
      · exact ⟨hnew, .inl (.inl rfl)⟩
      · exact ⟨hnot, .inl (.inr hid)⟩
      · exact ⟨hnot, .inr hid⟩
    · rintro ⟨hnot, (hid | hid) | hid⟩
      · exact .inl hid
      · exact .inr ⟨hnot, .inl hid⟩
      · exact .inr ⟨hnot, .inr hid⟩
  · show (d.polled ++ sent.reported).Nodup
    rw [hended]
    exact h.ended_nodup
  · have hid' : id ∈ sent.settled.voices.ids ∨ id ∈ d.polled ++ sent.reported := hid
    rw [hheld, hended] at hid'
    rcases hid' with (rfl | hid') | hid'
    · exact Nat.lt_succ_self _
    · exact Nat.lt_succ_of_lt (h.issued id (.inl hid'))
    · exact Nat.lt_succ_of_lt (h.issued id (.inr hid'))
  · rintro id (rfl | hid)
    · exact ⟨fun hpolled => hnew (List.mem_append_left _ hpolled), fun hid => Nat.lt_irrefl _ (h.withheld_lt hid)⟩
    · exact h.owned_fresh id hid

/-- A new tone belongs to whoever has asked for it. -/
theorem create (h : Accounted owned registered d) (frequency : R) :
    (∃ next, d.create frequency = (.ok d.synth.nextId, next) ∧ next.synth.nextId = d.synth.nextId + 1 ∧
        Accounted (insert d.synth.nextId owned) registered next ∧ next.Lasting d.synth.nextId) ∨
      ∃ failure next, d.create frequency = (.error failure, next) ∧ next.synth.nextId = d.synth.nextId ∧
        Accounted owned registered next := by
  obtain ⟨thread, waits, hwait⟩ := d.wait_cases
  have hnext : d.wait.synth.nextId = d.synth.nextId := by rw [hwait]
  have hw := h.wait
  unfold LiveSynth.create SynthDevice.create
  rw [← hnext]
  generalize d.wait = w at hw ⊢
  rcases w.synth.send_cases (.tone w.synth.nextId (.create frequency)) with ⟨sent, hpush, hsend⟩ | hsend
  · refine .inl ⟨_, by rw [hsend]; rfl, rfl, hw.create_accepted hpush, ?_, ?_⟩
    · show w.synth.nextId ∉ w.polled ++ sent.reported
      rw [LiveSynth.ended_of_push? hpush]
      exact fun hid => Nat.lt_irrefl _ (hw.issued _ (.inr hid))
    · show sent.settled.Endless _
      rw [AudioThread.settled_of_push? hpush]
      exact ToneBank.Endless.create _ _ _
  · let call : Call R ToneId := .create w.synth.nextId frequency
    refine .inr ⟨.bufferFull, { w with refused := w.refused ++ [call] }, ?_, rfl, hw.refuse (by simp [call])⟩
    rw [hsend]
    rfl

theorem submit (h : Accounted owned registered d) {tone : ToneId} {request : Request R ToneId}
    (hrequest : request.Schedules tone) : Accounted owned registered (d.submit request).2 := by
  cases request with
  | onEnded id report => exact hrequest.elim
  | release id => exact hrequest.elim
  | gain id time value => exact h.wait.record_schedule (by simp) id rfl
  | start id time => exact h.wait.record_schedule (by simp) id rfl
  | stop id time => exact h.wait.record_schedule (by simp) id rfl

/-- An owned tone can be registered; this is never refused. -/
theorem onEnded (h : Accounted owned registered d) (tone : ToneId) :
    (d.submit (.onEnded tone tone)).1 = .ok () ∧
      Accounted owned (insert tone registered) (d.submit (.onEnded tone tone)).2 := by
  have hw := h.wait
  refine ⟨rfl, hw.held_iff, fun id report => ?_, hw.ended_nodup, hw.issued, hw.owned_fresh⟩
  show (d.wait.synth.reports.insert tone tone).get? id = some report ↔ _
  rw [Roster.get?_insert, Set.mem_insert_iff]
  split_ifs with hid
  · subst hid
    simp [eq_comm]
  · rw [hw.report_iff]
    simp [hid]

omit [Amplitude S] [Sampling R S] in
theorem release_accepted (h : Accounted owned registered d) {tone : ToneId} (htone : tone ∈ owned)
    {sent : AudioThread R S} (hpush : d.synth.thread.push? (.tone tone .release) = some sent) :
    Accounted (owned \ {tone}) (registered \ {tone})
      { d with synth := { d.synth with thread := sent, reports := d.synth.reports.erase tone } } := by
  obtain ⟨-, hkept⟩ := h.owned_fresh tone htone
  have hheld : ∀ id, id ∈ sent.settled.voices.ids ↔ id ∈ d.held ∧ id ≠ tone := by
    rw [AudioThread.settled_of_push? hpush]
    exact fun id => ToneBank.mem_ids_release _ _ _
  have hended := LiveSynth.ended_of_push? hpush
  refine ⟨fun id => ?_, SynthDevice.report_iff_erase h.report_iff tone, ?_, fun id hid => ?_,
    fun id hid => h.owned_fresh id hid.1⟩
  · show id ∈ sent.settled.voices.ids ↔ id ∉ d.polled ++ sent.reported ∧ (id ∈ owned \ {tone} ∨ d.Withheld id)
    rw [hheld, hended, h.held_iff, Set.mem_sdiff, Set.mem_singleton_iff]
    constructor
    · rintro ⟨⟨hnot, hid | hid⟩, hne⟩
      · exact ⟨hnot, .inl ⟨hid, hne⟩⟩
      · exact ⟨hnot, .inr hid⟩
    · rintro ⟨hnot, ⟨hid, hne⟩ | hid⟩
      · exact ⟨⟨hnot, .inl hid⟩, hne⟩
      · exact ⟨⟨hnot, .inr hid⟩, fun heq => hkept (heq ▸ hid)⟩
  · show (d.polled ++ sent.reported).Nodup
    rw [hended]
    exact h.ended_nodup
  · have hid' : id ∈ sent.settled.voices.ids ∨ id ∈ d.polled ++ sent.reported := hid
    rw [hheld, hended] at hid'
    exact h.issued id (hid'.imp And.left fun hid => hid)

omit [Amplitude S] [Sampling R S] in
/-- The report of a tone whose release is refused is dropped all the same. -/
theorem release_refused (h : Accounted owned registered d) {tone : ToneId} (htone : tone ∈ owned) :
    Accounted (owned \ {tone}) (registered \ {tone})
      { d with
        synth := { d.synth with reports := d.synth.reports.erase tone }
        refused := d.refused ++ [.request (.release tone)] } := by
  let next : LiveSynth R S :=
    { d with
      synth := { d.synth with reports := d.synth.reports.erase tone }
      refused := d.refused ++ [.request (.release tone)] }
  have hwithheld : ∀ id, next.Withheld id ↔ d.Withheld id ∨ id = tone := by
    intro id
    simp [LiveSynth.Withheld, next]
  refine ⟨fun id => ?_, SynthDevice.report_iff_erase h.report_iff tone, h.ended_nodup, h.issued, fun id hid => ?_⟩
  · show id ∈ d.held ↔ id ∉ d.ended ∧ (id ∈ owned \ {tone} ∨ next.Withheld id)
    rw [h.held_iff, hwithheld, Set.mem_sdiff, Set.mem_singleton_iff]
    refine and_congr_right fun _ => ?_
    constructor
    · rintro (hid | hid)
      · by_cases heq : id = tone
        · exact .inr (.inr heq)
        · exact .inl ⟨hid, heq⟩
      · exact .inr (.inl hid)
    · rintro (⟨hid, -⟩ | hid | rfl)
      · exact .inl hid
      · exact .inr hid
      · exact .inl htone
  · obtain ⟨hpolled, hnot⟩ := h.owned_fresh id hid.1
    exact ⟨hpolled, fun hid' => ((hwithheld id).1 hid').elim hnot hid.2⟩

/-- A tone is given up. If this is refused, its voice is withheld. -/
theorem release (h : Accounted owned registered d) {tone : ToneId} (htone : tone ∈ owned) :
    Accounted (owned \ {tone}) (registered \ {tone}) (d.submit (.release tone)).2 := by
  have hw := h.wait
  unfold LiveSynth.submit SynthDevice.submit
  generalize d.wait = w at hw ⊢
  rcases SynthDevice.send_cases { w.synth with reports := w.synth.reports.erase tone } (.tone tone .release) with
    ⟨sent, hpush, hsend⟩ | hsend
  · simp only [hsend]
    exact hw.release_accepted htone hpush
  · simp only [hsend]
    exact hw.release_refused htone

end Calls

end Accounted

theorem accounted_fresh (card : Card) (w : Waveform) (master : MasterBus S) (sampleRate commands ended : Nat)
    (waits : List (List (List S))) :
    Accounted ∅ ∅ (.fresh card w master sampleRate commands ended waits : LiveSynth R S) := by
  refine ⟨fun id => ?_, fun id report => ?_, List.nodup_nil, fun id hid => ?_, fun id hid => hid.elim⟩
  · show id ∈ ([] : List ToneId) ↔ _
    simp [LiveSynth.Withheld, LiveSynth.fresh]
  · simp [LiveSynth.fresh]
  · rcases hid with hid | hid <;> cases hid

/-- Registered tones that have ended report themselves and are nobody's own any more. -/
theorem Accounted.poll {owned : Set ToneId} {d : LiveSynth R S} (h : Accounted owned owned d) :
    (∀ id, id ∈ d.poll.1 ↔ id ∈ d.synth.thread.ended.toList ∧ id ∈ owned) ∧ d.poll.1.Nodup ∧
      Accounted (owned \ {id | id ∈ d.synth.thread.ended.toList}) (owned \ {id | id ∈ d.synth.thread.ended.toList})
        d.poll.2 := by
  have hsplit : d.ended = d.polled ++ (d.synth.thread.ended.toList ++ d.synth.thread.unreported) := rfl
  have hnodup : d.synth.thread.ended.toList.Nodup := by
    have hall := h.ended_nodup
    rw [hsplit] at hall
    exact (List.nodup_append.1 (List.nodup_append.1 hall).2.1).1
  have hended : ∀ id, id ∈ d.synth.thread.ended.toList → id ∈ d.ended := fun id hid => by
    rw [hsplit]
    exact List.mem_append_right _ (List.mem_append_left _ hid)
  obtain ⟨hmem, honce, hlast⟩ := SynthDevice.collect_spec h.report_iff hnodup
  have hfired : d.poll.1 = (SynthDevice.collect d.synth.reports d.synth.thread.ended.toList).1 := by rw [d.poll_eq]
  have hheld : d.poll.2.held = d.held := by rw [d.poll_eq]; rfl
  have hrefused : d.poll.2.refused = d.refused := by rw [d.poll_eq]
  rw [hfired]
  refine ⟨hmem, honce, fun id => ?_, ?_, ?_, fun id hid => ?_, fun id hid => ?_⟩
  · rw [hheld, d.ended_poll, LiveSynth.Withheld, hrefused, h.held_iff]
    -- a tone that is taken from the queue has ended, so it made no difference before either
    refine and_congr_right fun hnot => or_congr_left ?_
    exact ⟨fun hid => ⟨hid, fun htaken => hnot (hended id htaken)⟩, And.left⟩
  · rw [d.poll_eq]
    exact hlast
  · rw [d.ended_poll]
    exact h.ended_nodup
  · rw [hheld, d.ended_poll] at hid
    rw [d.poll_eq]
    exact h.issued id hid
  · obtain ⟨hpolled, hkept⟩ := h.owned_fresh id hid.1
    rw [d.polled_poll, LiveSynth.Withheld, hrefused]
    exact ⟨fun hall => (List.mem_append.1 hall).elim hpolled hid.2, hkept⟩

end MusicMacro
