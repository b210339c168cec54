import MusicMacro.Proofs.Device.Buffers

/-!
# Turns with a device

What is done with a device is a list of turns: tones are made and changed, and in between there are passages of sound.

* `Turn` : something asked for a tone, or a passage of sound; `perform` takes turns with a device up to the first
  refusal;
* `SynthDevice.play`, `OfflineDevice.play` : a passage fills buffers, or is rendered up to given times;
* `Passage.Meets`, `InStep` : what both devices play in a passage ends at the same frame;
* `SynthDevice.perform_of_room` : a queue with room for all turns never refuses one;
* `SynthDevice.reported_perform` : every tone that ends is reported by the audio thread.
-/

namespace MusicMacro
variable {R S : Type}

/-- A stretch of sound, as it is asked of either device. -/
structure Passage (R S : Type) where
  /-- The output buffers of a sound card, with what they hold before they are filled. -/
  buffers : List (List S)
  /-- The times up to which sound is rendered. -/
  times : List R

/-- What is done with a device. -/
inductive Turn (R S : Type) where
  | create (frequency : R)
  | ask (request : Request R ToneId)
  | sound (passage : Passage R S)

/-- What came of some turns. -/
structure Heard (R S : Type) where
  samples : List S
  ended : List ToneId
  /-- The voices that are held at the end of each passage. -/
  held : List (ToneBank R)

def Heard.join (now later : Heard R S) : Heard R S where
  samples := now.samples ++ later.samples
  ended := now.ended ++ later.ended
  held := now.held ++ later.held

/-- Takes turns with a device that plays passages of sound, up to the first refusal. -/
def perform {D : Type} [ToneDevice D R ToneId] (play : D → Passage R S → Heard R S × D) :
    D → List (Turn R S) → Option (Heard R S × D)
  | d, [] => some (⟨[], [], []⟩, d)
  | d, .create frequency :: rest =>
    match ToneDevice.create d frequency with
    | (.ok _, next) => perform play next rest
    | (.error _, _) => none
  | d, .ask request :: rest =>
    match ToneDevice.submit d request with
    | (.ok (), next) => perform play next rest
    | (.error _, _) => none
  | d, .sound passage :: rest =>
    let (now, next) := play d passage
    (perform play next rest).map fun (later, last) => (now.join later, last)

def Passage.frames (channels : Nat) (p : Passage R S) : Nat := (AudioThread.frameCounts channels p.buffers).sum

theorem Passage.frames_pos {channels : Nat} (hchannels : 0 < channels) {p : Passage R S} (hsome : p.buffers ≠ [])
    (hwhole : ∀ b ∈ p.buffers, b ≠ [] ∧ channels ∣ b.length) : 0 < p.frames channels := by
  obtain ⟨buffer, hmem⟩ := List.exists_mem_of_ne_nil _ hsome
  obtain ⟨hne, hdvd⟩ := hwhole buffer hmem
  have hlong : channels ≤ buffer.length := Nat.le_of_dvd (List.length_pos_iff.2 hne) hdvd
  have hframes : 0 < buffer.length / channels := Nat.div_pos hlong hchannels
  have hle : buffer.length / channels ≤ p.frames channels := List.le_sum_of_mem (List.mem_map_of_mem hmem)
  omega

/-! ## Devices that play -/

section Play
variable [Scalar R]

/-- A passage from a frame on: there are buffers, each of them holds some whole frames, and rendering up to the
given times ends where the last buffer does. -/
structure Passage.Meets (rate channels frame : Nat) (p : Passage R S) : Prop where
  some_buffer : p.buffers ≠ []
  whole : ∀ b ∈ p.buffers, b ≠ [] ∧ channels ∣ b.length
  meet : OfflineDevice.reach rate frame p.times = frame + p.frames channels

theorem Passage.Meets.sizes {rate channels frame : Nat} {p : Passage R S} (h : p.Meets rate channels frame)
    (hchannels : 0 < channels) :
    AudioThread.frameCounts channels p.buffers ≠ [] ∧ OfflineDevice.plan rate frame p.times ≠ [] ∧
      (AudioThread.frameCounts channels p.buffers).sum = (OfflineDevice.plan rate frame p.times).sum := by
  have hpos := Passage.frames_pos hchannels h.some_buffer h.whole
  have hplan := OfflineDevice.sum_plan rate frame p.times
  rw [h.meet] at hplan
  have hsum : p.frames channels = (OfflineDevice.plan rate frame p.times).sum := (Nat.add_left_cancel hplan).symm
  refine ⟨fun hnil => ?_, fun hnil => ?_, hsum⟩
  · exact h.some_buffer (List.map_eq_nil_iff.1 hnil)
  · rw [hnil, List.sum_nil] at hsum
    omega

/-- Turns from a frame on in which every passage ends at the same frame on both sides, so that whatever is asked for
between two passages is asked for at the same frame. -/
def InStep (rate channels : Nat) : Nat → List (Turn R S) → Prop
  | _, [] => True
  | frame, .sound passage :: rest =>
    passage.Meets rate channels frame ∧ InStep rate channels (frame + passage.frames channels) rest
  | frame, _ :: rest => InStep rate channels frame rest

variable [Amplitude S] [Sampling R S]

def SynthDevice.play (d : SynthDevice R S) (p : Passage R S) : Heard R S × SynthDevice R S :=
  let ((samples, ended), thread) := d.thread.playBuffers p.buffers
  (⟨samples, ended, [thread.bank]⟩, { d with thread })

def OfflineDevice.play (d : OfflineDevice R S) (p : Passage R S) : Heard R S × OfflineDevice R S :=
  let ((samples, ended), next) := d.playTimes p.times
  (⟨samples, ended, [next.bank]⟩, next)

end Play

namespace SynthDevice

/-! ## Room in the queue -/

theorem send_of_room {d : SynthDevice R S} (h : 0 < d.thread.commands.room) (command : AudioCommand R S) :
    ∃ next, d.send command = (.ok (), next) ∧ next.thread.commands.room + 1 = d.thread.commands.room := by
  obtain ⟨commands, hpush, hroom⟩ := Queue.exists_push? h command
  refine ⟨{ d with thread := { d.thread with commands } }, ?_, hroom⟩
  simp only [send, AudioThread.push?, hpush, Option.map_some]

theorem create_of_room {d : SynthDevice R S} (h : 0 < d.thread.commands.room) (frequency : R) :
    ∃ next, d.create frequency = (.ok d.nextId, next) ∧ next.thread.commands.room + 1 = d.thread.commands.room := by
  obtain ⟨next, hsend, hroom⟩ := send_of_room h (.tone d.nextId (.create frequency))
  refine ⟨{ next with nextId := d.nextId + 1 }, ?_, hroom⟩
  simp only [create, hsend]

theorem submit_of_room {d : SynthDevice R S} (h : 0 < d.thread.commands.room) (request : Request R ToneId) :
    ∃ next, d.submit request = (.ok (), next) ∧ d.thread.commands.room ≤ next.thread.commands.room + 1 := by
  cases request with
  | onEnded id report => exact ⟨_, rfl, Nat.le_succ _⟩
  | release id =>
    obtain ⟨next, hsend, hroom⟩ := send_of_room (d := { d with reports := d.reports.erase id }) h (.tone id .release)
    exact ⟨next, hsend, Nat.le_of_eq hroom.symm⟩
  | _ =>
    obtain ⟨next, hsend, hroom⟩ := send_of_room h _
    exact ⟨next, hsend, Nat.le_of_eq hroom.symm⟩

section Play
variable [Scalar R] [Amplitude S] [Sampling R S]

/-- A queue with room for as many commands as there are turns is never full. -/
theorem perform_of_room {d : SynthDevice R S} {turns : List (Turn R S)}
    (h : turns.length ≤ d.thread.commands.room) : ∃ outcome, perform play d turns = some outcome := by
  induction turns generalizing d with
  | nil => exact ⟨_, rfl⟩
  | cons turn rest ih =>
    rw [List.length_cons] at h
    have hpos : 0 < d.thread.commands.room := by omega
    cases turn with
    | create frequency =>
      obtain ⟨next, hcreate, hroom⟩ := create_of_room hpos frequency
      have hcreated : ToneDevice.create d frequency = (.ok d.nextId, next) := hcreate
      rw [perform, hcreated]
      exact ih (by omega)
    | ask request =>
      obtain ⟨next, hsubmit, hroom⟩ := submit_of_room hpos request
      have hsubmitted : ToneDevice.submit d request = (.ok (), next) := hsubmit
      rw [perform, hsubmitted]
      exact ih (by omega)
    | sound passage =>
      have hroom := d.thread.room_playBuffers passage.buffers
      obtain ⟨outcome, hrest⟩ := @ih (d.play passage).2 (by show _ ≤ (d.thread.playBuffers _).2.commands.room; omega)
      exact ⟨((d.play passage).1.join outcome.1, outcome.2), Option.map_eq_some_iff.2 ⟨outcome, hrest, rfl⟩⟩

end Play

/-! ## Reports of the audio thread -/

theorem reported_send (d : SynthDevice R S) (command : AudioCommand R S) :
    (d.send command).2.thread.reported = d.thread.reported := by
  unfold send
  split
  · rename_i thread hpush
    obtain ⟨commands, -, rfl⟩ := Option.map_eq_some_iff.1 hpush
    rfl
  · rfl

theorem reported_create (d : SynthDevice R S) (frequency : R) :
    (d.create frequency).2.thread.reported = d.thread.reported := by
  have hsend := d.reported_send (.tone d.nextId (.create frequency))
  unfold create
  split
  · rename_i next h
    rw [h] at hsend
    exact hsend
  · rename_i failure next h
    rw [h] at hsend
    exact hsend

theorem reported_submit (d : SynthDevice R S) (request : Request R ToneId) :
    (d.submit request).2.thread.reported = d.thread.reported := by
  cases request with
  | onEnded id report => rfl
  | release id => exact reported_send { d with reports := d.reports.erase id } _
  | _ => exact d.reported_send _

variable [Scalar R] [Amplitude S] [Sampling R S]

/-- While nobody asks for them, the ended tones are in the queue or wait for room in it, in the order in which they
ended. -/
theorem reported_perform {d last : SynthDevice R S} {turns : List (Turn R S)} {heard : Heard R S}
    (hrun : perform play d turns = some (heard, last)) :
    last.thread.reported = d.thread.reported ++ heard.ended := by
  induction turns generalizing d heard with
  | nil =>
    cases hrun
    exact (List.append_nil _).symm
  | cons turn rest ih =>
    cases turn with
    | create frequency =>
      unfold perform at hrun
      split at hrun
      · rename_i id next hcreate
        have hnow := d.reported_create frequency
        rw [show d.create frequency = (.ok id, next) from hcreate] at hnow
        rw [ih hrun, hnow]
      · cases hrun
    | ask request =>
      unfold perform at hrun
      split at hrun
      · rename_i next hsubmit
        have hnow := d.reported_submit request
        rw [show d.submit request = (.ok (), next) from hsubmit] at hnow
        rw [ih hrun, hnow]
      · cases hrun
    | sound passage =>
      obtain ⟨⟨later, _⟩, hrest, heq⟩ := Option.map_eq_some_iff.1 hrun
      cases heq
      rw [ih hrest]
      show (d.thread.playBuffers passage.buffers).2.reported ++ later.ended = _
      rw [AudioThread.reported_playBuffers, List.append_assoc]
      rfl

end SynthDevice

end MusicMacro
