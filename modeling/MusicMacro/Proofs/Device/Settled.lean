import MusicMacro.Proofs.Device.Buffers

/-!
# Voices once all commands are done

Commands wait in a queue until the next buffer is filled. What the audio thread holds is described as if all of them
were done by now.

* `ToneBank.mem_ids_create`, `ToneBank.mem_ids_release`, `ToneBank.ids_apply` : which tones have voices after a request;
* `ToneBank.ids_render_perm` : a block of sound drops the voices that it reports, and no other;
* `ToneBank.Endless` : a tone that has no stop, and so is not dropped (`ToneBank.Endless.render`);
* `AudioThread.settled` : the voices once the commands that wait are done, and what the steps of the thread do to them
  (`settled_of_push?`, `settled_fill`); `AudioThread.settledMaster` : the same for the master bus.
-/

namespace MusicMacro
variable {R S : Type} [Scalar R]

/-- A change to the schedule of a voice, not its beginning and not its end. -/
def ToneRequest.isSchedule : ToneRequest R → Bool
  | .gain _ _ | .start _ | .stop _ => true
  | .create _ | .release => false

namespace ToneBank

/-! ## Requests -/

theorem mem_ids_create (b : ToneBank R) (tone id : ToneId) (frequency : R) :
    id ∈ (b.apply tone (.create frequency)).voices.ids ↔ id = tone ∨ id ∈ b.voices.ids := by
  simp only [Roster.mem_ids_iff, apply, Roster.get?_insert]
  split <;> simp_all

theorem mem_ids_release (b : ToneBank R) (tone id : ToneId) :
    id ∈ (b.apply tone .release).voices.ids ↔ id ∈ b.voices.ids ∧ id ≠ tone := by
  simp only [Roster.mem_ids_iff, apply, Roster.get?_erase]
  split <;> simp_all

theorem ids_apply (b : ToneBank R) (tone : ToneId) {request : ToneRequest R} (h : request.isSchedule = true) :
    (b.apply tone request).voices.ids = b.voices.ids := by
  cases request with
  | create frequency => cases h
  | release => cases h
  | _ => exact Roster.ids_modify _ _ _

/-- The voice of a tone, if there is one, has no stop. -/
def Endless (b : ToneBank R) (tone : ToneId) : Prop := ∀ v, b.voices.get? tone = some v → v.stop? = none

theorem Endless.create (b : ToneBank R) (tone : ToneId) (frequency : R) :
    (b.apply tone (.create frequency)).Endless tone := by
  intro v hv
  simp only [apply, Roster.get?_insert, if_true] at hv
  cases hv
  rfl

theorem stop?_addPoint (v : Voice R) (time value : R) : (v.addPoint time value).stop? = v.stop? := by
  unfold Voice.addPoint
  split <;> rfl

/-- Only a stop of its own gives a tone a stop. -/
theorem Endless.apply {b : ToneBank R} {tone : ToneId} (h : b.Endless tone) (id : ToneId) (request : ToneRequest R)
    (hother : id = tone → ∀ time, request ≠ .stop time) : (b.apply id request).Endless tone := by
  intro v hv
  cases request with
  | create frequency =>
    simp only [ToneBank.apply, Roster.get?_insert] at hv
    split at hv
    · cases hv
      rfl
    · exact h v hv
  | release =>
    simp only [ToneBank.apply, Roster.get?_erase] at hv
    split at hv
    · cases hv
    · exact h v hv
  | gain time value =>
    simp only [ToneBank.apply, Roster.get?_modify] at hv
    split at hv
    · obtain ⟨u, hu, rfl⟩ := Option.map_eq_some_iff.1 hv
      rw [stop?_addPoint]
      exact h u hu
    · exact h v hv
  | start time =>
    simp only [ToneBank.apply, Roster.get?_modify] at hv
    split at hv
    · obtain ⟨u, hu, rfl⟩ := Option.map_eq_some_iff.1 hv
      exact h u hu
    · exact h v hv
  | stop time =>
    simp only [ToneBank.apply, Roster.get?_modify] at hv
    split at hv
    · rename_i heq
      exact absurd rfl (hother heq.symm time)
    · exact h v hv

/-! ## Blocks -/

variable [Amplitude S] [Sampling R S]

theorem stop?_mix (b : ToneBank R) (channels rate n frames : Nat) (buffer : List S) (id : ToneId) :
    ((b.mix channels rate n frames buffer).2.voices.get? id).map Voice.stop? = (b.voices.get? id).map Voice.stop? := by
  induction frames generalizing b n buffer with
  | zero => rfl
  | succ frames ih =>
    rw [mix_succ, ih, get?_frame, Option.map_map]
    exact congrArg (fun f => (b.voices.get? id).map f) (funext fun v => Voice.stop?_tick b.waveform rate n v)

theorem Endless.mix {b : ToneBank R} {tone : ToneId} (h : b.Endless tone) (channels rate n frames : Nat)
    (buffer : List S) : (b.mix channels rate n frames buffer).2.Endless tone := by
  intro v hv
  have hstop := b.stop?_mix channels rate n frames buffer tone
  rw [hv, Option.map_some] at hstop
  obtain ⟨u, hu, huv⟩ := Option.map_eq_some_iff.1 hstop.symm
  rw [← huv]
  exact h u hu

omit [Amplitude S] [Sampling R S] in
theorem Endless.retire {b : ToneBank R} {tone : ToneId} (h : b.Endless tone) (time : R) :
    tone ∉ (b.retire time).1 ∧ (b.retire time).2.Endless tone := by
  constructor
  · intro hended
    obtain ⟨v, hv⟩ := Roster.mem_ids_iff.1 hended
    rw [Roster.get?_filter, Option.filter_eq_some_iff] at hv
    have hnone := h v hv.1
    simp [Voice.stoppedBy, hnone] at hv
  · intro v hv
    simp only [ToneBank.retire, Roster.get?_filter, Option.filter_eq_some_iff] at hv
    exact h v hv.1

/-- A tone without a stop does not end. -/
theorem Endless.render {b : ToneBank R} {tone : ToneId} (h : b.Endless tone) (buffer : List S)
    (channels first rate : Nat) :
    tone ∉ (b.render buffer channels first rate).2.1 ∧ (b.render buffer channels first rate).2.2.Endless tone :=
  (h.mix _ _ _ _ buffer).retire _

end ToneBank

/-! ## Commands that wait -/

def AudioCommand.voice (b : ToneBank R) : AudioCommand R S → ToneBank R
  | .tone id request => b.apply id request
  | .volume _ => b

def AudioCommand.onMaster [Amplitude S] (m : MasterBus S) : AudioCommand R S → MasterBus S
  | .tone _ _ => m
  | .volume value => m.setVolume value

namespace AudioThread

/-- The bank once all commands that wait are done. -/
def settled (t : AudioThread R S) : ToneBank R := t.commands.toList.foldl AudioCommand.voice t.bank

theorem settled_of_push? {t next : AudioThread R S} {command : AudioCommand R S} (h : t.push? command = some next) :
    next.settled = command.voice t.settled := by
  obtain ⟨commands, hpush, rfl⟩ := Option.map_eq_some_iff.1 h
  show commands.toList.foldl AudioCommand.voice t.bank = _
  rw [Queue.toList_of_push? hpush, List.foldl_append]
  rfl

omit [Scalar R] in
theorem reported_of_push? {t next : AudioThread R S} {command : AudioCommand R S} (h : t.push? command = some next) :
    next.reported = t.reported := by
  obtain ⟨commands, -, rfl⟩ := Option.map_eq_some_iff.1 h
  rfl

variable [Amplitude S]

theorem bank_foldl_obey (commands : List (AudioCommand R S)) (t : AudioThread R S) :
    (commands.foldl obey t).bank = commands.foldl AudioCommand.voice t.bank := by
  induction commands generalizing t with
  | nil => rfl
  | cons command rest ih =>
    rw [List.foldl_cons, List.foldl_cons, ih]
    cases command <;> rfl

def settledMaster (t : AudioThread R S) : MasterBus S := t.commands.toList.foldl AudioCommand.onMaster t.master

omit [Scalar R] in
theorem settledMaster_of_push? {t next : AudioThread R S} {command : AudioCommand R S}
    (h : t.push? command = some next) : next.settledMaster = command.onMaster t.settledMaster := by
  obtain ⟨commands, hpush, rfl⟩ := Option.map_eq_some_iff.1 h
  show commands.toList.foldl AudioCommand.onMaster t.master = _
  rw [Queue.toList_of_push? hpush, List.foldl_append]
  rfl

theorem master_foldl_obey (commands : List (AudioCommand R S)) (t : AudioThread R S) :
    (commands.foldl obey t).master = commands.foldl AudioCommand.onMaster t.master := by
  induction commands generalizing t with
  | nil => rfl
  | cons command rest ih =>
    rw [List.foldl_cons, List.foldl_cons, ih]
    cases command <;> rfl

theorem master_drain (t : AudioThread R S) : t.drain.master = t.settledMaster := by
  rw [drain_eq, master_foldl_obey]
  rfl

/-- The next buffer begins with the settled bank. -/
theorem bank_drain (t : AudioThread R S) : t.drain.bank = t.settled := by
  rw [drain_eq, bank_foldl_obey]
  rfl

variable [Sampling R S]

theorem bank_fill (t : AudioThread R S) (buffer : List S) :
    (t.fill buffer).2.bank = (t.fill buffer).2.settled := by
  unfold settled
  rw [commands_fill]
  rfl

theorem settled_fill (t : AudioThread R S) (buffer : List S) :
    (t.fill buffer).2.settled =
      (t.settled.render (silenced buffer) t.drain.channels t.drain.clock t.drain.sampleRate).2.2 := by
  rw [← bank_fill, ← bank_drain]
  rfl

theorem endings_eq (t : AudioThread R S) (buffer : List S) :
    t.endings buffer =
      (t.settled.render (silenced buffer) t.drain.channels t.drain.clock t.drain.sampleRate).2.1 := by
  rw [← bank_drain]
  rfl

/-- A buffer ends some of the tones that are held, and the others stay. -/
theorem endings_fill_perm (t : AudioThread R S) (buffer : List S) :
    (t.endings buffer ++ (t.fill buffer).2.settled.voices.ids).Perm t.settled.voices.ids := by
  rw [settled_fill, endings_eq]
  exact ToneBank.ids_render_perm _ _ _ _ _

theorem mem_ids_fill (t : AudioThread R S) (buffer : List S) (id : ToneId) :
    id ∈ (t.fill buffer).2.settled.voices.ids ↔ id ∈ t.settled.voices.ids ∧ id ∉ t.endings buffer := by
  have hperm := t.endings_fill_perm buffer
  have hnodup := hperm.nodup_iff.2 t.settled.voices.nodup_ids
  obtain ⟨-, -, hapart⟩ := List.nodup_append.1 hnodup
  rw [← hperm.mem_iff, List.mem_append]
  constructor
  · intro hheld
    exact ⟨.inr hheld, fun hended => hapart id hended id hheld rfl⟩
  · rintro ⟨hended | hheld, hnot⟩
    · exact absurd hended hnot
    · exact hheld

end AudioThread

end MusicMacro
