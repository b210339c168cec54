import MusicMacro.Proofs.Device.Live

/-!
# Tones that are left alone

A tone without a stop does not end, and a tone that nobody asks for stays as it is.

* `LiveSynth.Lasting.fill`, `LiveSynth.Lasting.submit` : a lasting tone stays so, unless a stop is accepted for it;
* `LiveSynth.Lasting.submitAll_refused` : a tone whose schedule was refused is lasting;
* `LiveSynth.Spares` : nothing has become of a tone; so it is with every step that is not about this tone.
-/

namespace MusicMacro.LiveSynth
variable {R S : Type} [Scalar R]

section Calls
variable [Amplitude S] [Sampling R S] {tone : ToneId} {d : LiveSynth R S}

theorem Lasting.fill (h : d.Lasting tone) (buffer : List S) : (d.fill buffer).Lasting tone := by
  obtain ⟨hnot, hendless⟩ := h
  obtain ⟨hstays, hlast⟩ := hendless.render (AudioThread.silenced buffer)
    d.synth.thread.drain.channels d.synth.thread.drain.clock d.synth.thread.drain.sampleRate
  rw [← AudioThread.endings_eq] at hstays
  rw [← AudioThread.settled_fill] at hlast
  refine ⟨?_, hlast⟩
  rw [ended_fill, List.mem_append]
  exact fun hended => hended.elim hnot hstays

theorem Lasting.wait (h : d.Lasting tone) : d.wait.Lasting tone :=
  wait_induction (P := fun w => w.Lasting tone) (fun _ buffer hw => hw.fill buffer) (fun _ _ hw => hw) h

omit [Amplitude S] [Sampling R S] in
theorem Lasting.send (h : d.Lasting tone) {command : AudioCommand R S}
    (hcommand : ∀ b : ToneBank R, b.Endless tone → (command.voice b).Endless tone) :
    Lasting { d with synth := (d.synth.send command).2 } tone := by
  rcases d.synth.send_cases command with ⟨thread, hpush, hsend⟩ | hsend
  · rw [hsend]
    refine ⟨?_, ?_⟩
    · show tone ∉ d.polled ++ thread.reported
      rw [ended_of_push? hpush]
      exact h.1
    · show thread.settled.Endless tone
      rw [AudioThread.settled_of_push? hpush]
      exact hcommand _ h.2
  · rw [hsend]
    exact h

omit [Amplitude S] [Sampling R S] in
theorem Lasting.record (h : d.Lasting tone) (call : Call R ToneId) {command : AudioCommand R S}
    (hcommand : ∀ b : ToneBank R, b.Endless tone → (command.voice b).Endless tone) :
    (d.record call (d.synth.send command)).2.Lasting tone := by
  obtain ⟨hpolled, hsynth⟩ := d.record_snd call (d.synth.send command)
  rw [Lasting, ended, hpolled, hsynth]
  exact h.send hcommand

theorem Lasting.create (h : d.Lasting tone) (frequency : R) : (d.create frequency).2.Lasting tone := by
  have hw := h.wait
  unfold LiveSynth.create SynthDevice.create
  generalize d.wait = w at hw ⊢
  have hlast : (w.record (.create w.synth.nextId frequency)
      (w.synth.send (.tone w.synth.nextId (.create frequency)))).2.Lasting tone :=
    hw.record _ fun b hb => hb.apply _ _ (by simp)
  rcases w.synth.send_cases (.tone w.synth.nextId (.create frequency)) with ⟨sent, -, hsend⟩ | hsend
  · rw [hsend] at hlast ⊢
    exact hlast
  · rw [hsend] at hlast ⊢
    exact hlast

theorem Lasting.submit (h : d.Lasting tone) {request : Request R ToneId} (hstop : ∀ time, request ≠ .stop tone time) :
    (d.submit request).2.Lasting tone := by
  have hw := h.wait
  cases request with
  | gain id time value => exact hw.record _ fun b hb => hb.apply _ _ (by simp)
  | start id time => exact hw.record _ fun b hb => hb.apply _ _ (by simp)
  | stop id time => exact hw.record _ fun b hb => hb.apply _ _ fun hid => absurd (hid ▸ rfl) (hstop time)
  | onEnded id report => exact hw
  | release id =>
    let freed : LiveSynth R S :=
      { d.wait with synth := { d.wait.synth with reports := d.wait.synth.reports.erase id } }
    have hfreed : freed.Lasting tone := hw
    exact hfreed.record _ fun b hb => hb.apply _ _ (by simp)

theorem Lasting.stop_refused (h : d.Lasting tone) {id : ToneId} {time : R} {failure : Failure} {next : LiveSynth R S}
    (hsubmit : d.submit (.stop id time) = (.error failure, next)) : next.Lasting tone := by
  have hw := h.wait
  rcases d.wait.synth.send_cases (.tone id (.stop time)) with ⟨sent, -, hsend⟩ | hsend
  · simp only [LiveSynth.submit, SynthDevice.submit, hsend] at hsubmit
    cases hsubmit
  · simp only [LiveSynth.submit, SynthDevice.submit, hsend] at hsubmit
    cases hsubmit
    exact hw

/-- Requests that end with a stop, and are refused, stop nothing. -/
theorem Lasting.submitAll_refused (h : d.Lasting tone) {requests : List (Request R ToneId)}
    (hrequests : ∀ request ∈ requests, ∀ time, request ≠ .stop tone time) {id : ToneId} {time : R} {failure : Failure}
    {next : LiveSynth R S}
    (hsubmit : ToneDevice.submitAll d (requests ++ [.stop id time]) = (.error failure, next)) : next.Lasting tone := by
  induction requests generalizing d with
  | nil =>
    simp only [List.nil_append, ToneDevice.submitAll] at hsubmit
    split at hsubmit
    · cases hsubmit
    · rename_i failure' mid hstop
      cases hsubmit
      exact h.stop_refused hstop
  | cons request rest ih =>
    have hmid := h.submit (hrequests request List.mem_cons_self)
    simp only [List.cons_append, ToneDevice.submitAll] at hsubmit
    split at hsubmit
    · rename_i mid haccepted
      have hfirst : (d.submit request).2 = mid := congrArg Prod.snd haccepted
      exact ih (hfirst ▸ hmid) (fun other hother => hrequests other (List.mem_cons_of_mem _ hother)) hsubmit
    · rename_i failure' mid hrefused
      have hfirst : (d.submit request).2 = mid := congrArg Prod.snd hrefused
      cases hsubmit
      exact hfirst ▸ hmid

omit [Scalar R] [Amplitude S] [Sampling R S] in
theorem withheld_record {α : Type} (d : LiveSynth R S) {call : Call R ToneId} (hcall : call ≠ .request (.release tone))
    (sent : Except Failure α × SynthDevice R S) : (d.record call sent).2.Withheld tone ↔ d.Withheld tone := by
  obtain ⟨_ | _, synth⟩ := sent
  · simp [record, Withheld, hcall.symm]
  · exact Iff.rfl

theorem withheld_create (d : LiveSynth R S) (frequency : R) :
    (d.create frequency).2.Withheld tone ↔ d.Withheld tone := by
  have hcall : (.create d.wait.synth.nextId frequency : Call R ToneId) ≠ .request (.release tone) := by simp
  refine (d.wait.withheld_record hcall _).trans ?_
  rw [Withheld, refused_wait]
  rfl

theorem withheld_submit (d : LiveSynth R S) {request : Request R ToneId} (hrelease : request ≠ .release tone) :
    (d.submit request).2.Withheld tone ↔ d.Withheld tone := by
  have hcall : (.request request : Call R ToneId) ≠ .request (.release tone) := by simpa using hrelease
  refine (d.wait.withheld_record hcall _).trans ?_
  rw [Withheld, refused_wait]
  rfl

end Calls

/-- Nothing has become of a tone that was lasting, and its release was not refused. -/
structure Spares (tone : ToneId) (d next : LiveSynth R S) : Prop where
  withheld : next.Withheld tone ↔ d.Withheld tone
  lasting : d.Lasting tone → next.Lasting tone

namespace Spares
variable {tone : ToneId} {d next last : LiveSynth R S}

theorem refl (tone : ToneId) (d : LiveSynth R S) : Spares tone d d := ⟨Iff.rfl, fun h => h⟩

theorem trans (h : Spares tone d next) (h' : Spares tone next last) : Spares tone d last :=
  ⟨h'.withheld.trans h.withheld, fun hd => h'.lasting (h.lasting hd)⟩

theorem poll (tone : ToneId) (d : LiveSynth R S) : Spares tone d d.poll.2 := by
  have hsettled : d.poll.2.synth.thread.settled = d.synth.thread.settled := by rw [d.poll_eq]; rfl
  refine ⟨by rw [d.poll_eq]; rfl, fun ⟨hnot, hendless⟩ => ⟨?_, ?_⟩⟩
  · rw [d.ended_poll]
    exact hnot
  · rw [hsettled]
    exact hendless

theorem setVolume (tone : ToneId) (d : LiveSynth R S) (volume : S) : Spares tone d (d.setVolume volume) :=
  ⟨Iff.rfl, fun h => h.send fun _ hb => hb⟩

variable [Amplitude S] [Sampling R S]

theorem fill (tone : ToneId) (d : LiveSynth R S) (buffer : List S) : Spares tone d (d.fill buffer) :=
  ⟨Iff.rfl, fun h => h.fill buffer⟩

theorem create (tone : ToneId) (d : LiveSynth R S) (frequency : R) : Spares tone d (d.create frequency).2 :=
  ⟨d.withheld_create frequency, fun h => h.create frequency⟩

theorem submit (d : LiveSynth R S) {request : Request R ToneId} (hrequest : request.tone ≠ tone) :
    Spares tone d (d.submit request).2 := by
  refine ⟨d.withheld_submit ?_, fun h => h.submit fun time => ?_⟩
  · rintro rfl
    exact hrequest rfl
  · rintro rfl
    exact hrequest rfl

end Spares

end MusicMacro.LiveSynth
