import MusicMacro.Proofs.Device.Fresh
import MusicMacro.Proofs.Device.Settled

/-!
# A synthesizer while its card plays

The card asks for buffers whenever it likes, also between two calls for one tone. A live synthesizer is one with the
buffers that are filled before each of the next calls, and with a record of what its queue has refused.

* `LiveSynth` : the synthesizer, what the card will ask for, and the record; it is a device like any other;
* `LiveSynth.held` : the tones with a voice, once all commands that wait are done; `LiveSynth.ended` : those that have
  ended so far; `LiveSynth.Withheld` : those whose release the queue has refused;
* `LiveSynth.wait_induction` : what no buffer breaks holds after a wait;
* `LiveSynth.submit_keeps`, `LiveSynth.refused_submit` : what a request leaves alone, and when it is refused.
-/

namespace MusicMacro

/-- A synthesizer with what happens around it. -/
structure LiveSynth (R S : Type) where
  synth : SynthDevice R S
  /-- The buffers that are filled before each of the next calls. -/
  waits : List (List (List S))
  /-- The calls that found the command queue full. -/
  refused : List (Call R ToneId)
  /-- The ended tones that were asked for. -/
  polled : List ToneId

def Request.Schedules {R H : Type} (tone : H) : Request R H → Prop
  | .gain id _ _ | .start id _ | .stop id _ => id = tone
  | .onEnded _ _ | .release _ => False

theorem Request.Schedules.tone_eq {R H : Type} {tone : H} {request : Request R H} (h : request.Schedules tone) :
    request.tone = tone := by
  cases request with
  | onEnded => exact h.elim
  | release => exact h.elim
  | _ => exact h

variable {R S : Type} [Scalar R]

namespace LiveSynth

omit [Scalar R] in
def fresh (card : Card) (w : Waveform) (master : MasterBus S) (sampleRate commands ended : Nat)
    (waits : List (List (List S))) : LiveSynth R S where
  synth := ⟨card, .fresh w master card.channels sampleRate commands ended 0, .empty, 0, true⟩
  waits := waits
  refused := []
  polled := []

/-! ## Calls -/

omit [Scalar R] in
def record {α : Type} (d : LiveSynth R S) (call : Call R ToneId) :
    Except Failure α × SynthDevice R S → Except Failure α × LiveSynth R S
  | (.ok a, synth) => (.ok a, { d with synth })
  | (.error failure, synth) => (.error failure, { d with synth, refused := d.refused ++ [call] })

section Calls
variable [Amplitude S] [Sampling R S]

def fill (d : LiveSynth R S) (buffer : List S) : LiveSynth R S :=
  { d with synth := { d.synth with thread := (d.synth.thread.fill buffer).2 } }

/-- The card asks for what it does before the next call. -/
def wait (d : LiveSynth R S) : LiveSynth R S :=
  { (d.waits.headD []).foldl fill d with waits := d.waits.tail }

def create (d : LiveSynth R S) (frequency : R) : Except Failure ToneId × LiveSynth R S :=
  d.wait.record (.create d.wait.synth.nextId frequency) (d.wait.synth.create frequency)

def submit (d : LiveSynth R S) (request : Request R ToneId) : Except Failure Unit × LiveSynth R S :=
  d.wait.record (.request request) (d.wait.synth.submit request)

instance : ToneDevice (LiveSynth R S) R ToneId where
  create := create
  submit := submit
  now d := d.synth.time
  label d id := ToneDevice.label d.synth id

end Calls

def poll (d : LiveSynth R S) : List ToneId × LiveSynth R S :=
  let (fired, synth) := d.synth.poll.value
  (fired, { d with synth, polled := d.polled ++ d.synth.thread.ended.toList })

omit [Scalar R] in
def setVolume (d : LiveSynth R S) (volume : S) : LiveSynth R S := { d with synth := (d.synth.setVolume volume).2 }

section Calls
variable [Amplitude S] [Sampling R S]

/-- What no buffer breaks holds after a wait. -/
theorem wait_induction {P : LiveSynth R S → Prop} (hfill : ∀ d buffer, P d → P (d.fill buffer))
    (hwaits : ∀ (d : LiveSynth R S) (waits : List (List (List S))), P d → P { d with waits })
    {d : LiveSynth R S} (h : P d) : P d.wait := by
  have hfold : ∀ (buffers : List (List S)) (d : LiveSynth R S), P d → P (buffers.foldl fill d) := by
    intro buffers
    induction buffers with
    | nil => exact fun _ h => h
    | cons buffer rest ih => exact fun d h => ih (d.fill buffer) (hfill d buffer h)
  exact hwaits _ _ (hfold _ d h)

/-- While it waits, only the audio thread works. -/
theorem wait_cases (d : LiveSynth R S) :
    ∃ thread waits, d.wait = { d with synth := { d.synth with thread }, waits } := by
  refine wait_induction (P := fun w => ∃ thread waits, w = { d with synth := { d.synth with thread }, waits }) ?_ ?_
    ⟨_, _, rfl⟩
  · rintro _ buffer ⟨thread, waits, rfl⟩
    exact ⟨_, _, rfl⟩
  · rintro _ waits ⟨thread, _, rfl⟩
    exact ⟨_, _, rfl⟩

end Calls

/-! ## Views -/

/-- The tones with a voice, once all commands that wait are done. -/
def held (d : LiveSynth R S) : List ToneId := d.synth.thread.settled.voices.ids

omit [Scalar R] in
/-- The tones that have ended, in their order. -/
def ended (d : LiveSynth R S) : List ToneId := d.polled ++ d.synth.thread.reported

omit [Scalar R] in
/-- The release of a tone was refused. -/
def Withheld (d : LiveSynth R S) (tone : ToneId) : Prop := .request (.release tone) ∈ d.refused

/-- A tone has not ended, and it has no stop. -/
def Lasting (d : LiveSynth R S) (tone : ToneId) : Prop := tone ∉ d.ended ∧ d.synth.thread.settled.Endless tone

omit [Scalar R] in
theorem ended_of_push? {d : LiveSynth R S} {command : AudioCommand R S} {sent : AudioThread R S}
    (h : d.synth.thread.push? command = some sent) : d.polled ++ sent.reported = d.ended := by
  rw [AudioThread.reported_of_push? h]
  rfl

theorem ended_fill [Amplitude S] [Sampling R S] (d : LiveSynth R S) (buffer : List S) :
    (d.fill buffer).ended = d.ended ++ d.synth.thread.endings buffer := by
  show d.polled ++ (d.synth.thread.fill buffer).2.reported = _
  rw [AudioThread.reported_fill, ← List.append_assoc]
  rfl

end LiveSynth

/-! ## What a call leaves alone -/

omit [Scalar R] in
theorem SynthDevice.send_cases (d : SynthDevice R S) (command : AudioCommand R S) :
    (∃ thread, d.thread.push? command = some thread ∧ d.send command = (.ok (), { d with thread })) ∨
      d.send command = (.error .bufferFull, d) := by
  unfold send
  cases h : d.thread.push? command with
  | some thread => exact .inl ⟨thread, rfl, rfl⟩
  | none => exact .inr rfl

namespace LiveSynth

omit [Scalar R] in
theorem record_snd {α : Type} (d : LiveSynth R S) (call : Call R ToneId) (sent : Except Failure α × SynthDevice R S) :
    (d.record call sent).2.polled = d.polled ∧ (d.record call sent).2.synth = sent.2 := by
  obtain ⟨_ | _, synth⟩ := sent
  · exact ⟨rfl, rfl⟩
  · exact ⟨rfl, rfl⟩

omit [Scalar R] in
theorem refused_record (d : LiveSynth R S) (h : 0 < d.synth.thread.commands.room) (call : Call R ToneId)
    (command : AudioCommand R S) :
    (d.record call (d.synth.send command)).2.refused = d.refused ∧
      (d.record call (d.synth.send command)).2.synth.thread.commands.room + 1 = d.synth.thread.commands.room := by
  obtain ⟨commands, hpush, hroom⟩ := Queue.exists_push? h command
  have hsend : d.synth.send command = (.ok (), { d.synth with thread := { d.synth.thread with commands } }) := by
    simp [SynthDevice.send, AudioThread.push?, hpush]
  rw [hsend]
  exact ⟨rfl, hroom⟩

section Calls
variable [Amplitude S] [Sampling R S]

theorem polled_create (d : LiveSynth R S) (frequency : R) : (d.create frequency).2.polled = d.polled := by
  obtain ⟨thread, waits, hwait⟩ := d.wait_cases
  refine (d.wait.record_snd _ _).1.trans ?_
  rw [hwait]

theorem submit_keeps (d : LiveSynth R S) (request : Request R ToneId) :
    (d.submit request).2.polled = d.polled ∧ (d.submit request).2.synth.nextId = d.synth.nextId := by
  obtain ⟨thread, waits, hwait⟩ := d.wait_cases
  obtain ⟨hpolled, hsynth⟩ := d.wait.record_snd (.request request) (d.wait.synth.submit request)
  refine ⟨hpolled.trans (by rw [hwait]), ?_⟩
  show (d.wait.record _ _).2.synth.nextId = _
  rw [hsynth, SynthDevice.nextId_submit, hwait]

theorem room_wait (d : LiveSynth R S) : d.synth.thread.commands.room ≤ d.wait.synth.thread.commands.room :=
  wait_induction (P := fun w => d.synth.thread.commands.room ≤ w.synth.thread.commands.room)
    (fun w buffer h => h.trans (w.synth.thread.room_fill buffer)) (fun _ _ h => h) (Nat.le_refl _)

theorem refused_wait (d : LiveSynth R S) : d.wait.refused = d.refused := by
  obtain ⟨thread, waits, hwait⟩ := d.wait_cases
  rw [hwait]

theorem refused_submit (d : LiveSynth R S) (h : 0 < d.synth.thread.commands.room) (request : Request R ToneId) :
    (d.submit request).2.refused = d.refused ∧
      d.synth.thread.commands.room ≤ (d.submit request).2.synth.thread.commands.room + 1 := by
  have hroom := d.room_wait
  unfold submit
  rcases d.wait.synth.submit_cases request with ⟨reports, hsubmit⟩ | ⟨command, reports, hsubmit⟩
  · rw [hsubmit]
    exact ⟨d.refused_wait, hroom.trans (Nat.le_succ _)⟩
  · rw [hsubmit]
    obtain ⟨hrefused, hleft⟩ := refused_record { d.wait with synth := { d.wait.synth with reports } }
      (Nat.lt_of_lt_of_le h hroom) (.request request) command
    exact ⟨hrefused.trans d.refused_wait, hleft.symm ▸ hroom⟩

end Calls

end LiveSynth

/-! ## Reports -/

omit [Scalar R] in
theorem LiveSynth.poll_eq (d : LiveSynth R S) :
    d.poll =
      ((SynthDevice.collect d.synth.reports d.synth.thread.ended.toList).1,
        { d with
          synth :=
            { d.synth with
              thread := { d.synth.thread with ended := .empty d.synth.thread.ended.capacity }
              reports := (SynthDevice.collect d.synth.reports d.synth.thread.ended.toList).2 }
          polled := d.polled ++ d.synth.thread.ended.toList }) := by
  have htaken : d.synth.thread.ended.take d.synth.thread.ended.size =
      (d.synth.thread.ended.toList, .empty d.synth.thread.ended.capacity) :=
    Prod.ext (Queue.drain_fst _) (Queue.drain_snd _)
  simp only [poll, SynthDevice.poll, AudioThread.takeEnded, htaken]
  rfl

omit [Scalar R] in
theorem LiveSynth.ended_poll (d : LiveSynth R S) : d.poll.2.ended = d.ended := by
  rw [d.poll_eq]
  show (d.polled ++ d.synth.thread.ended.toList) ++ ([] ++ d.synth.thread.unreported) = d.ended
  rw [List.nil_append, List.append_assoc]
  rfl

omit [Scalar R] in
theorem LiveSynth.polled_poll (d : LiveSynth R S) : d.poll.2.polled = d.polled ++ d.synth.thread.ended.toList := by
  rw [d.poll_eq]

end MusicMacro
