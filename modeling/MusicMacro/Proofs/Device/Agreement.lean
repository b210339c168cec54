import MusicMacro.Proofs.Device.Turns

/-!
# The synthesizer and the offline device agree

Both devices are asked for the same tones at the same frames. One of them sends what it is asked for through a queue
and fills the buffers of a sound card, the other does it at once and renders up to given times.

* `Alike` : the synthesizer, once it has done what waits in its queue, is where the offline device is;
* `Alike.perform` : turns in step keep both devices alike, and what is heard from them is the same;
* `EndsOnce` : no tone ends twice;
* `devices_agree` : from the first frame on, the samples, the voices and the ended tones are the same on both sides.
-/

namespace MusicMacro
variable {R S : Type}

/-- The same was heard: the same samples, the same voices, and the same tones have ended. -/
structure Heard.Same (a b : Heard R S) : Prop where
  samples : a.samples = b.samples
  ended : a.ended.Perm b.ended
  held : a.held = b.held

theorem Heard.Same.join {a b c d : Heard R S} (h : a.Same b) (h' : c.Same d) : (a.join c).Same (b.join d) := by
  refine ⟨?_, h.ended.append h'.ended, ?_⟩
  · show a.samples ++ c.samples = b.samples ++ d.samples
    rw [h.samples, h'.samples]
  · show a.held ++ c.held = b.held ++ d.held
    rw [h.held, h'.held]

variable [Scalar R]

theorem OfflineDevice.submit_cases (o : OfflineDevice R S) (request : Request R ToneId) :
    ∃ bank lastCalls reports, o.submit request = { o with bank, lastCalls, reports } := by
  cases request <;> exact ⟨_, _, _, rfl⟩

/-! ## Every tone ends once -/

/-- The tones that have ended are all different, none of them is still held, and no new tone will be one of them. -/
structure EndsOnce (past : List ToneId) (o : OfflineDevice R S) : Prop where
  nodup : past.Nodup
  gone : ∀ id ∈ past, id ∉ o.bank.voices.ids
  past_lt : ∀ id ∈ past, id < o.nextId
  held_lt : ∀ id ∈ o.bank.voices.ids, id < o.nextId

namespace EndsOnce
variable {past : List ToneId} {o : OfflineDevice R S}

omit [Scalar R] in
/-- A voice that comes in between has a number that is not given out yet. -/
theorem of_ids (h : EndsOnce past o) {next : OfflineDevice R S} (hnext : o.nextId ≤ next.nextId)
    (hids : ∀ id ∈ next.bank.voices.ids, id ∈ o.bank.voices.ids ∨ o.nextId ≤ id ∧ id < next.nextId) :
    EndsOnce past next := by
  refine ⟨h.nodup, ?_, ?_, ?_⟩
  · intro id hpast hid
    rcases hids id hid with hold | ⟨hle, -⟩
    · exact h.gone id hpast hold
    · exact Nat.not_lt.2 hle (h.past_lt id hpast)
  · intro id hpast
    exact Nat.lt_of_lt_of_le (h.past_lt id hpast) hnext
  · intro id hid
    rcases hids id hid with hold | ⟨-, hlt⟩
    · exact Nat.lt_of_lt_of_le (h.held_lt id hold) hnext
    · exact hlt

theorem create (h : EndsOnce past o) (frequency : R) : EndsOnce past (o.create frequency).2 := by
  refine h.of_ids (Nat.le_succ _) fun id hid => ?_
  rcases ToneBank.mem_ids_apply hid with hold | ⟨hnew, -⟩
  · exact .inl hold
  · exact .inr ⟨Nat.le_of_eq hnew.symm, hnew ▸ Nat.lt_succ_self _⟩

theorem submit (h : EndsOnce past o) (request : Request R ToneId) : EndsOnce past (o.submit request) := by
  have hnext : o.nextId ≤ (o.submit request).nextId := by
    obtain ⟨bank, calls, reports, hasked⟩ := o.submit_cases request
    rw [hasked]
  refine h.of_ids hnext fun id hid => .inl ?_
  cases request with
  | onEnded tone report => exact hid
  | _ =>
    rcases ToneBank.mem_ids_apply hid with hold | ⟨-, frequency, hcreate⟩
    · exact hold
    · cases hcreate

variable [Amplitude S] [Sampling R S]

theorem play (h : EndsOnce past o) (p : Passage R S) :
    EndsOnce (past ++ (o.play p).1.ended) (o.play p).2 := by
  obtain ⟨reports, htimes⟩ := o.playTimes_eq p.times
  have hperm := o.bank.ids_renderBlocks_perm (S := S) o.channels o.sampleRate o.frame
    (OfflineDevice.plan o.sampleRate o.frame p.times)
  obtain ⟨hended, -, hapart⟩ := List.nodup_append.1 (hperm.nodup_iff.2 o.bank.voices.nodup_ids)
  simp only [OfflineDevice.play, htimes]
  refine ⟨?_, ?_, ?_, ?_⟩
  · refine List.nodup_append.2 ⟨h.nodup, hended, ?_⟩
    rintro id hpast _ hnow rfl
    exact h.gone id hpast (hperm.subset (List.mem_append_left _ hnow))
  · intro id hid hheld
    rcases List.mem_append.1 hid with hpast | hnow
    · exact h.gone id hpast (hperm.subset (List.mem_append_right _ hheld))
    · exact hapart id hnow id hheld rfl
  · intro id hid
    rcases List.mem_append.1 hid with hpast | hnow
    · exact h.past_lt id hpast
    · exact h.held_lt id (hperm.subset (List.mem_append_left _ hnow))
  · intro id hid
    exact h.held_lt id (hperm.subset (List.mem_append_right _ hid))

theorem perform (h : EndsOnce past o) {turns : List (Turn R S)} {heard : Heard R S}
    {last : OfflineDevice R S} (hrun : MusicMacro.perform OfflineDevice.play o turns = some (heard, last)) :
    EndsOnce (past ++ heard.ended) last := by
  induction turns generalizing past o heard with
  | nil =>
    cases hrun
    rw [List.append_nil]
    exact h
  | cons turn rest ih =>
    cases turn with
    | create frequency => exact ih (h.create frequency) hrun
    | ask request => exact ih (h.submit request) hrun
    | sound passage =>
      obtain ⟨⟨later, _⟩, hrest, heq⟩ := Option.map_eq_some_iff.1 hrun
      cases heq
      have hlast := ih (h.play passage) hrest
      rw [List.append_assoc] at hlast
      exact hlast

end EndsOnce

/-! ## The same place -/

section Amplitude
variable [Amplitude S]

/-- The synthesizer, once it has done what waits, is where the offline device is. -/
structure Alike (s : SynthDevice R S) (o : OfflineDevice R S) : Prop where
  bank : s.thread.drain.bank = o.bank
  master : s.thread.drain.master = o.master
  frame : s.thread.clock = o.frame
  sampleRate : s.thread.sampleRate = o.sampleRate
  channels : s.thread.channels = o.channels
  nextId : s.nextId = o.nextId

namespace Alike
variable {s next : SynthDevice R S} {o : OfflineDevice R S}

theorem send (h : Alike s o) {id : ToneId} {request : ToneRequest R}
    (hsend : s.send (.tone id request) = (.ok (), next)) : Alike next { o with bank := o.bank.apply id request } := by
  unfold SynthDevice.send at hsend
  split at hsend
  · rename_i thread hpush
    cases hsend
    have hdrain := AudioThread.drain_of_push? hpush
    obtain ⟨commands, -, rfl⟩ := Option.map_eq_some_iff.1 hpush
    refine ⟨?_, ?_, h.frame, h.sampleRate, h.channels, h.nextId⟩
    · rw [hdrain, ← h.bank]
      rfl
    · rw [hdrain, ← h.master]
      rfl
  · cases hsend

/-- The logs and the reports of the devices need not be the same. -/
theorem logged (h : Alike s o) (reports : Roster ToneId) (calls : List (Call R ToneId)) (kept : Roster ToneId) :
    Alike { s with reports } { o with lastCalls := calls, reports := kept } :=
  ⟨h.bank, h.master, h.frame, h.sampleRate, h.channels, h.nextId⟩

theorem create (h : Alike s o) {frequency : R} {id : ToneId} (hcreate : s.create frequency = (.ok id, next)) :
    Alike next (o.create frequency).2 := by
  unfold SynthDevice.create at hcreate
  split at hcreate
  · rename_i sent hsend
    cases hcreate
    have hsent := h.send hsend
    rw [h.nextId] at hsent
    exact ⟨hsent.bank, hsent.master, hsent.frame, hsent.sampleRate, hsent.channels, congrArg (· + 1) h.nextId⟩
  · cases hcreate

theorem submit (h : Alike s o) {request : Request R ToneId} (hsubmit : s.submit request = (.ok (), next)) :
    Alike next (o.submit request) := by
  cases request with
  | gain id time value => exact (h.send hsubmit).logged next.reports (_ :: o.lastCalls) o.reports
  | start id time => exact (h.send hsubmit).logged next.reports (_ :: o.lastCalls) o.reports
  | stop id time => exact (h.send hsubmit).logged next.reports (_ :: o.lastCalls) o.reports
  | onEnded id report =>
    cases hsubmit
    exact h.logged (s.reports.insert id report) (_ :: o.lastCalls) (o.reports.insert id report)
  | release id =>
    have herased := h.logged (s.reports.erase id) o.lastCalls o.reports
    exact (herased.send hsubmit).logged next.reports (_ :: o.lastCalls) (o.reports.erase id)

theorem drained (h : Alike s o) :
    s.thread.drain.commands = .empty s.thread.drain.commands.capacity ∧ s.thread.drain.clock = o.frame ∧
      s.thread.drain.sampleRate = o.sampleRate ∧ s.thread.drain.channels = o.channels := by
  obtain ⟨bank, master, hdrain⟩ := s.thread.drain_cases
  rw [hdrain]
  exact ⟨rfl, h.frame, h.sampleRate, h.channels⟩

end Alike

end Amplitude

variable [Amplitude S] [Sampling R S]

/-- A passage that ends at the same frame on both sides sounds the same, and the devices stay alike. -/
theorem Alike.play [SteadyClock R] {s : SynthDevice R S} {o : OfflineDevice R S} (h : Alike s o) {p : Passage R S}
    (hp : p.Meets o.sampleRate o.channels o.frame) :
    (s.play p).1.Same (o.play p).1 ∧ Alike (s.play p).2 (o.play p).2 ∧
      (o.play p).2.frame = o.frame + p.frames o.channels ∧ (o.play p).2.sampleRate = o.sampleRate ∧
        (o.play p).2.channels = o.channels := by
  obtain ⟨hcounts, hplan, hsum⟩ := hp.sizes o.channels_pos
  have hagree :=
    o.bank.renderBlocks_agree_of_sum_eq (S := S) o.channels_pos o.sampleRate_pos o.frame hcounts hplan hsum
  obtain ⟨hidle, hframe, hrate, hchannels⟩ := h.drained
  have hwhole : ∀ b ∈ p.buffers, s.thread.drain.channels ∣ b.length := by
    rw [hchannels]
    exact fun b hb => (hp.whole b hb).2
  obtain ⟨ended, unreported, hbuffers⟩ :=
    AudioThread.playBuffers_of_idle hidle (by rw [hchannels]; exact o.channels_pos) hwhole
  obtain ⟨reports, htimes⟩ := o.playTimes_eq p.times
  simp only [hchannels, hrate, hframe, h.bank, h.master, AudioThread.playBuffers_drain _ hp.some_buffer] at hbuffers
  simp only [SynthDevice.play, OfflineDevice.play, hbuffers, htimes]
  refine ⟨⟨?_, hagree.ended, ?_⟩, ?_, hp.meet, trivial, trivial⟩
  · rw [hagree.samples]
  · rw [hagree.bank]
  · refine ⟨?_, ?_, hp.meet.symm, rfl, rfl, h.nextId⟩
    · refine Eq.trans (congrArg AudioThread.bank (AudioThread.drain_of_idle ?_)) hagree.bank
      exact hidle
    · refine congrArg AudioThread.master (AudioThread.drain_of_idle ?_)
      exact hidle

theorem Alike.perform [SteadyClock R] {s last : SynthDevice R S} {o : OfflineDevice R S} (h : Alike s o)
    {turns : List (Turn R S)} (hstep : InStep o.sampleRate o.channels o.frame turns) {heard : Heard R S}
    (hrun : perform SynthDevice.play s turns = some (heard, last)) :
    ∃ other finish, MusicMacro.perform OfflineDevice.play o turns = some (other, finish) ∧
      heard.Same other ∧ Alike last finish := by
  induction turns generalizing s o heard with
  | nil =>
    cases hrun
    exact ⟨⟨[], [], []⟩, o, rfl, ⟨rfl, .refl _, rfl⟩, h⟩
  | cons turn rest ih =>
    cases turn with
    | create frequency =>
      unfold MusicMacro.perform at hrun
      split at hrun
      · rename_i id next hcreate
        exact ih (h.create hcreate) hstep hrun
      · cases hrun
    | ask request =>
      unfold MusicMacro.perform at hrun
      split at hrun
      · rename_i next hsubmit
        obtain ⟨bank, calls, reports, hasked⟩ := o.submit_cases request
        exact ih (h.submit hsubmit) (by rw [hasked]; exact hstep) hrun
      · cases hrun
    | sound passage =>
      obtain ⟨hmeets, hlater⟩ := hstep
      obtain ⟨hsame, hnext, hframe, hrate, hchannels⟩ := h.play hmeets
      rw [← hframe, ← hrate, ← hchannels] at hlater
      obtain ⟨⟨heardLater, _⟩, hrest, heq⟩ := Option.map_eq_some_iff.1 hrun
      cases heq
      obtain ⟨other, finish, hother, hsameLater, halike⟩ := ih hnext hlater hrest
      refine ⟨(o.play passage).1.join other, finish, ?_, hsame.join hsameLater, halike⟩
      exact Option.map_eq_some_iff.2 ⟨(other, finish), hother, rfl⟩

/-- **Two devices, one sound.** Turns are taken with a synthesizer whose queue is never full, and with an offline
device; both begin at the first frame. What they hold before they are filled makes no difference to the buffers: the
samples are those that are rendered offline, the voices held after each passage are the same, and the same tones
have ended, each once. All of those are reported by the audio thread. -/
theorem devices_agree [SteadyClock R] (w : Waveform) (master : MasterBus S) {sampleRate channels : Nat}
    (hrate : 1 ≤ sampleRate) (hchannels : 1 ≤ channels) (commands ended : Nat) (card : Card) (reports : Roster ToneId)
    (playing : Bool) {turns : List (Turn R S)} (hstep : InStep sampleRate channels 0 turns) {heard : Heard R S}
    {last : SynthDevice R S}
    (hrun : perform SynthDevice.play
      ⟨card, .fresh w master channels sampleRate commands ended 0, reports, 0, playing⟩ turns = some (heard, last)) :
    ∃ other finish,
      perform OfflineDevice.play (.fresh w sampleRate channels master) turns = some (other, finish) ∧
        heard.samples = other.samples ∧ heard.held = other.held ∧ heard.ended.Perm other.ended ∧ heard.ended.Nodup ∧
          last.thread.reported = heard.ended ∧ Alike last finish := by
  let thread : AudioThread R S := .fresh w master channels sampleRate commands ended 0
  let offline : OfflineDevice R S := .fresh w sampleRate channels master
  have hsameRate : sampleRate = offline.sampleRate := (Nat.max_eq_left hrate).symm
  have hsameChannels : channels = offline.channels := (Nat.max_eq_left hchannels).symm
  have hidle : thread.drain = thread := AudioThread.drain_of_idle rfl
  have halike : Alike ⟨card, thread, reports, 0, playing⟩ offline :=
    ⟨congrArg AudioThread.bank hidle, congrArg AudioThread.master hidle, rfl, hsameRate, hsameChannels, rfl⟩
  rw [hsameRate, hsameChannels] at hstep
  obtain ⟨other, finish, hother, hsame, hfinish⟩ := halike.perform hstep hrun
  have hnone : EndsOnce [] offline :=
    ⟨.nil, fun _ h => absurd h List.not_mem_nil, fun _ h => absurd h List.not_mem_nil,
      fun _ h => absurd h List.not_mem_nil⟩
  have honce := (hnone.perform hother).nodup
  have hreported := SynthDevice.reported_perform hrun
  exact ⟨other, finish, hother, hsame.samples, hsame.held, hsame.ended, hsame.ended.nodup_iff.2 honce, hreported,
    hfinish⟩

/-- A note that stops within a buffer, released after it has ended. -/
theorem devices_agree_note :
    let turns : List (Turn ℝ ℝ) :=
      [.create 1, .ask (.gain 0 0 1), .ask (.start 0 0), .ask (.stop 0 (1 / 2)),
        .sound ⟨[[7, 7], [7, 7, 7, 7]], [Scalar.frameTime 4 1, Scalar.frameTime 4 3]⟩,
        .ask (.release 0), .sound ⟨[[7, 7]], [Scalar.frameTime 4 4]⟩]
    ∃ heard last other finish,
      perform SynthDevice.play
          ⟨⟨4, 2, none, ""⟩, .fresh .square .usual 2 4 8 1 0, .empty, 0, true⟩ turns = some (heard, last) ∧
        perform OfflineDevice.play (.fresh .square 4 2 .usual) turns = some (other, finish) ∧
          heard.samples = other.samples ∧ heard.held = other.held ∧ heard.ended.Perm other.ended ∧
            heard.ended.Nodup ∧ last.thread.reported = heard.ended ∧ Alike last finish := by
  intro turns
  have hreach : ∀ n, OfflineDevice.frameAt 4 (Scalar.frameTime 4 n : ℝ) = n :=
    OfflineDevice.frameAt_frameTime (by decide)
  have hstep : InStep 4 2 0 turns := by
    refine ⟨⟨?_, ?_, ?_⟩, ⟨?_, ?_, ?_⟩, trivial⟩
    · simp
    · simp
    · simp [OfflineDevice.reach, hreach, Passage.frames, AudioThread.frameCounts]
    · simp
    · simp
    · simp [OfflineDevice.reach, hreach, Passage.frames, AudioThread.frameCounts]
  let thread : AudioThread ℝ ℝ := .fresh .square .usual 2 4 8 1 0
  have hroom : turns.length ≤ thread.commands.room := by decide
  obtain ⟨⟨heard, last⟩, hrun⟩ := SynthDevice.perform_of_room (d := ⟨⟨4, 2, none, ""⟩, thread, .empty, 0, true⟩) hroom
  obtain ⟨other, finish, hagree⟩ :=
    devices_agree .square .usual (by decide) (by decide) 8 1 ⟨4, 2, none, ""⟩ .empty true hstep hrun
  exact ⟨heard, last, other, finish, hrun, hagree⟩

end MusicMacro
