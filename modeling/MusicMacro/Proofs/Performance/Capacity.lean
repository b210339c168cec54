import Mathlib.Data.List.Forall2
import MusicMacro.Proofs.Device.Buffers
import MusicMacro.Proofs.Performance.Trials

/-!
# How many tones the command queue takes

Every tone is seven commands to the audio thread. While nobody takes commands out of the queue, the first tones of a
song get into it, the next one as far as there is room, and the others not at all.

* `Instruction.commands` : the commands of a tone;
* `SynthDevice.Takes` : commands got into the queue; `send_takes`, `submitAll_takes` : as many as there is room for;
* `Engine.play_takes` : a tone that does not fit is refused, and its first commands stay in the queue;
* `Engine.performAll_takes` : the queue takes the beginning of all commands of all tones;
* `SynthCall`, `SynthDevice.handOut` : whatever is done with a synthesizer, it counts its tones;
* `playSong_capacity` : what becomes of a song, for every room and every number of tones.
-/

namespace MusicMacro

/-! ## The commands of a tone -/

namespace Instruction
variable {R S : Type} [Scalar R]

/-- The commands that schedule a tone: the points of its envelope, its start and its stop. -/
def armingCommands (envelope : Envelope R) (id : ToneId) (start stop : R) (volume : UInt32) :
    List (AudioCommand R S) :=
  (envelope.points start (stop - start) volume).map (fun p => .tone id (.gain p.time p.value)) ++
    [.tone id (.start start), .tone id (.stop stop)]

theorem length_armingCommands (envelope : Envelope R) (id : ToneId) (start stop : R) (volume : UInt32) :
    (armingCommands envelope id start stop volume : List (AudioCommand R S)).length = 6 := rfl

def commands (envelope : Envelope R) (id : ToneId) : Instruction R → List (AudioCommand R S)
  | .play frequency start duration volume =>
    .tone id (.create frequency) :: armingCommands envelope id start (start + duration) volume
  | .rest .. => []

theorem length_commands {i : Instruction R} (h : i.isPlay) (envelope : Envelope R) (id : ToneId) :
    (i.commands envelope id : List (AudioCommand R S)).length = 7 := by
  cases i with
  | play frequency start duration volume => rfl
  | rest start duration => cases h

/-- The commands of tones with numbers from `first` on. -/
def allCommands (envelope : Envelope R) (first : ToneId) (plays : List (Instruction R)) : List (AudioCommand R S) :=
  (plays.zipIdx first).flatMap fun tone => tone.1.commands envelope tone.2

theorem allCommands_cons (envelope : Envelope R) (first : ToneId) (i : Instruction R) (rest : List (Instruction R)) :
    (allCommands envelope first (i :: rest) : List (AudioCommand R S)) =
      i.commands envelope first ++ allCommands envelope (first + 1) rest := by
  rw [allCommands, List.zipIdx_cons, List.flatMap_cons]
  rfl

theorem length_allCommands (envelope : Envelope R) (first : ToneId) {plays : List (Instruction R)}
    (hplays : ∀ i ∈ plays, i.isPlay) :
    (allCommands envelope first plays : List (AudioCommand R S)).length = 7 * plays.length := by
  induction plays generalizing first with
  | nil => rfl
  | cons i rest ih =>
    rw [allCommands_cons, List.length_append, length_commands (hplays i List.mem_cons_self),
      ih (first + 1) fun j hj => hplays j (List.mem_cons_of_mem _ hj), List.length_cons, Nat.mul_add, Nat.add_comm]

/-- The beginning of the commands of some tones: those of the first ones, and some of the next. -/
theorem take_allCommands (envelope : Envelope R) (first : ToneId) {plays : List (Instruction R)}
    (hplays : ∀ i ∈ plays, i.isPlay) (room : Nat) :
    (allCommands envelope first plays : List (AudioCommand R S)).take room =
      allCommands envelope first (plays.take (room / 7)) ++
        plays[room / 7]?.elim [] fun i => (i.commands envelope (first + room / 7)).take (room % 7) := by
  induction plays generalizing first room with
  | nil => simp [allCommands]
  | cons i rest ih =>
    have hlength : (i.commands envelope first : List (AudioCommand R S)).length = 7 :=
      length_commands (hplays i List.mem_cons_self) envelope first
    rw [allCommands_cons]
    by_cases hfits : 7 ≤ room
    · obtain ⟨m, rfl⟩ := Nat.exists_eq_add_of_le' hfits
      have hdiv : (m + 7) / 7 = m / 7 + 1 := by omega
      have hmod : (m + 7) % 7 = m % 7 := by omega
      have hlater := ih (first + 1) (fun j hj => hplays j (List.mem_cons_of_mem _ hj)) m
      have htake : (i.commands envelope first ++ allCommands envelope (first + 1) rest :
          List (AudioCommand R S)).take (m + 7) =
            i.commands envelope first ++ (allCommands envelope (first + 1) rest).take m := by
        rw [List.take_append, hlength, List.take_of_length_le (by omega), Nat.add_sub_cancel]
      rw [htake, hlater, hdiv, hmod, List.take_succ_cons, allCommands_cons, List.getElem?_cons_succ, List.append_assoc,
        Nat.add_assoc first 1, Nat.add_comm 1]
    · have hdiv : room / 7 = 0 := by omega
      have hmod : room % 7 = room := by omega
      rw [List.take_append_of_le_length (by omega), hdiv, hmod]
      rfl

end Instruction

/-! ## The queue -/

namespace SynthDevice
variable {R S : Type}

/-- How many commands can be sent before the queue is full. -/
def room (d : SynthDevice R S) : Nat := d.thread.commands.room

/-- Some commands got into the queue. -/
structure Takes (d : SynthDevice R S) (commands : List (AudioCommand R S)) (next : SynthDevice R S) : Prop where
  toList : next.thread.commands.toList = d.thread.commands.toList ++ commands
  room : next.room + commands.length = d.room

namespace Takes
variable {d mid next : SynthDevice R S} {now later : List (AudioCommand R S)}

theorem refl (d : SynthDevice R S) : Takes d [] d := ⟨(List.append_nil _).symm, rfl⟩

theorem trans (h : Takes d now mid) (h' : Takes mid later next) : Takes d (now ++ later) next := by
  constructor
  · rw [h'.toList, h.toList, List.append_assoc]
  · rw [List.length_append, Nat.add_comm now.length, ← Nat.add_assoc, h'.room, h.room]

theorem room_eq (h : Takes d (now.take d.room) next) : next.room = d.room - now.length := by
  have htaken := h.room
  rw [List.length_take] at htaken
  omega

end Takes

theorem send_takes (d : SynthDevice R S) (command : AudioCommand R S) :
    ∃ next, d.send command = (if 0 < d.room then .ok () else .error .bufferFull, next) ∧
      Takes d ([command].take d.room) next ∧ next.nextId = d.nextId := by
  by_cases hroom : 0 < d.room
  · obtain ⟨commands, hpush, hless⟩ := Queue.exists_push? hroom command
    have hone : [command].take d.room = [command] := List.take_of_length_le hroom
    refine ⟨{ d with thread := { d.thread with commands } }, ?_, ⟨?_, ?_⟩, rfl⟩
    · simp only [send, AudioThread.push?, hpush, Option.map_some, if_pos hroom]
    · rw [hone]
      exact Queue.toList_of_push? hpush
    · rw [hone]
      exact hless
  · have hpush : d.thread.commands.push? command = none := by
      have hfull : ¬ d.thread.commands.size < d.thread.commands.capacity := fun hfree =>
        hroom (Nat.sub_pos_of_lt hfree)
      exact dif_neg hfull
    have hnone : [command].take d.room = [] := by
      rw [Nat.eq_zero_of_not_pos hroom, List.take_zero]
    refine ⟨d, ?_, ?_, rfl⟩
    · simp only [send, AudioThread.push?, hpush, Option.map_none, if_neg hroom]
    · rw [hnone]
      exact .refl d

/-- A tone that does not fit uses up no number. -/
theorem create_takes (d : SynthDevice R S) (frequency : R) :
    ∃ next, d.create frequency = (if 0 < d.room then .ok d.nextId else .error .bufferFull, next) ∧
      Takes d ([.tone d.nextId (.create frequency)].take d.room) next ∧
      next.nextId = d.nextId + min 1 d.room := by
  obtain ⟨next, hsend, htakes, hid⟩ := d.send_takes (.tone d.nextId (.create frequency))
  by_cases hroom : 0 < d.room
  · rw [if_pos hroom] at hsend ⊢
    refine ⟨{ next with nextId := d.nextId + 1 }, ?_, ⟨htakes.toList, htakes.room⟩, ?_⟩
    · rw [create, hsend]
    · rw [Nat.min_eq_left hroom]
  · rw [if_neg hroom] at hsend ⊢
    refine ⟨next, ?_, htakes, ?_⟩
    · rw [create, hsend]
    · rw [hid, Nat.eq_zero_of_not_pos hroom]
      rfl

variable [Scalar R]

/-- The request is one command. -/
def Sends (request : Request R ToneId) (command : AudioCommand R S) : Prop :=
  ∀ d : SynthDevice R S, ToneDevice.submit d request = d.send command

/-- Requests get into the queue as far as there is room. -/
theorem submitAll_takes {requests : List (Request R ToneId)} {commands : List (AudioCommand R S)}
    (hsends : List.Forall₂ Sends requests commands) (d : SynthDevice R S) :
    ∃ next,
      ToneDevice.submitAll d requests = (if commands.length ≤ d.room then .ok () else .error .bufferFull, next) ∧
      Takes d (commands.take d.room) next ∧ next.nextId = d.nextId := by
  induction hsends generalizing d with
  | nil => exact ⟨d, rfl, by rw [List.take_nil]; exact .refl d, rfl⟩
  | @cons request command rest later hsend _ ih =>
    obtain ⟨mid, hfirst, htakes, hid⟩ := d.send_takes command
    by_cases hroom : 0 < d.room
    · have hone : [command].take d.room = [command] := List.take_of_length_le hroom
      rw [if_pos hroom] at hfirst
      rw [hone] at htakes
      obtain ⟨next, hrest, htakes', hid'⟩ := ih mid
      have hmore : mid.room + 1 = d.room := htakes.room
      refine ⟨next, ?_, ?_, hid'.trans hid⟩
      · rw [ToneDevice.submitAll, hsend, hfirst]
        simp only [hrest, List.length_cons, ← hmore, Nat.add_le_add_iff_right]
      · rw [← hmore, List.take_succ_cons]
        exact htakes.trans htakes'
    · have hnone : d.room = 0 := Nat.eq_zero_of_not_pos hroom
      rw [if_neg hroom] at hfirst
      rw [hnone] at htakes ⊢
      refine ⟨mid, ?_, htakes, hid⟩
      rw [ToneDevice.submitAll, hsend, hfirst]
      rfl

theorem arming_sends (envelope : Envelope R) (id : ToneId) (start stop : R) (volume : UInt32) :
    List.Forall₂ (Sends (S := S)) (Engine.armingRequests envelope id start stop volume)
      (Instruction.armingCommands envelope id start stop volume) := by
  refine List.rel_append ?_ (.cons (fun _ => rfl) (.cons (fun _ => rfl) .nil))
  rw [List.forall₂_map_left_iff, List.forall₂_map_right_iff]
  exact List.forall₂_same.2 fun _ _ _ => rfl

theorem release_takes {d : SynthDevice R S} (hfull : d.room = 0) (id : ToneId) :
    d.Takes [] (ToneDevice.submit d (.release id)).2 ∧ (ToneDevice.submit d (.release id)).2.nextId = d.nextId := by
  obtain ⟨next, hsend, htakes, hid⟩ := send_takes { d with reports := d.reports.erase id } (.tone id .release)
  have hsubmit : (ToneDevice.submit d (.release id)).2 = next := congrArg Prod.snd hsend
  have hnone : room { d with reports := d.reports.erase id } = 0 := hfull
  rw [hnone, List.take_zero] at htakes
  rw [hsubmit]
  exact ⟨⟨htakes.toList, htakes.room⟩, hid⟩

end SynthDevice

/-! ## Tones -/

namespace Engine
variable {R S : Type} [Scalar R] (e : Engine (SynthDevice R S) R ToneId)

theorem arm_takes (id : ToneId) (start stop : R) (volume : UInt32) :
    ∃ next, e.arm id start stop volume = (if 6 ≤ e.device.room then .ok () else .error .bufferFull, next) ∧
      e.device.Takes ((Instruction.armingCommands e.envelope id start stop volume).take e.device.room) next.device ∧
      next.device.nextId = e.device.nextId := by
  obtain ⟨last, hall, htakes, hid⟩ :=
    SynthDevice.submitAll_takes (SynthDevice.arming_sends e.envelope id start stop volume) e.device
  rw [Instruction.length_armingCommands] at hall
  obtain ⟨failure, device, hsubmit, harm⟩ | ⟨device, hsubmit, harm⟩ := e.arm_cases id start stop volume
  · rw [hsubmit] at hall
    obtain ⟨hanswer, rfl⟩ := Prod.mk.inj hall
    refine ⟨{ e with device }, ?_, htakes, hid⟩
    rw [harm, hanswer]
  · -- what to report is kept on this side, and has no need of room
    rw [hsubmit] at hall
    obtain ⟨hanswer, rfl⟩ := Prod.mk.inj hall
    have htracked : (Engine.track { e with device } id).device = device := device_track _ _
    rw [← htracked] at htakes hid
    refine ⟨((Engine.track { e with device } id).submit (.onEnded id id)).2, ?_, ⟨htakes.toList, htakes.room⟩, hid⟩
    rw [harm, ← hanswer]
    rfl

/-- **One tone** gets into the queue with its seven commands, or with as many of them as fit. -/
theorem play_takes (frequency start duration : R) (volume : UInt32) :
    ∃ next, (e.play frequency start duration volume).value =
        (if 7 ≤ e.device.room then .ok e.device.nextId else .error .bufferFull, next) ∧
      e.device.Takes (((Instruction.play frequency start duration volume).commands e.envelope e.device.nextId).take
        e.device.room) next.device ∧
      next.device.nextId = e.device.nextId + min 1 e.device.room := by
  obtain ⟨made, hmade, htakes, hid⟩ := e.device.create_takes frequency
  have hcreate : ToneDevice.create e.device frequency = _ := hmade
  by_cases hroom : 0 < e.device.room
  · have hone : ([.tone e.device.nextId (.create frequency)] : List (AudioCommand R S)).take e.device.room =
        [.tone e.device.nextId (.create frequency)] := List.take_of_length_le hroom
    rw [if_pos hroom] at hcreate
    rw [hone] at htakes
    have hleft : made.room + 1 = e.device.room := htakes.room
    obtain ⟨next, harm, htakes', hid'⟩ :=
      arm_takes { e with device := made } e.device.nextId start (start + duration) volume
    have hall : e.device.Takes (((Instruction.play frequency start duration volume).commands e.envelope
        e.device.nextId).take e.device.room) next.device := by
      rw [← hleft, Instruction.commands, List.take_succ_cons]
      exact htakes.trans htakes'
    by_cases hfits : 7 ≤ e.device.room
    · have hrest : 6 ≤ made.room := by omega
      rw [if_pos hrest] at harm
      rw [if_pos hfits]
      refine ⟨next, ?_, hall, hid'.trans hid⟩
      simp only [play, hcreate, harm]
    · have hrest : ¬ 6 ≤ made.room := by omega
      rw [if_neg hrest] at harm
      rw [if_neg hfits]
      -- the release finds no room either
      have hfull : next.device.room = 0 := by
        rw [hall.room_eq, Instruction.length_commands rfl]
        omega
      obtain ⟨hrelease, hsame⟩ := SynthDevice.release_takes hfull e.device.nextId
      refine ⟨((next.forget e.device.nextId).submit (.release e.device.nextId)).2, ?_, ?_, ?_⟩
      · simp only [play, hcreate, harm, Noted.value_bind, Noted.value_pure, value_abandon]
      · have hboth := hall.trans hrelease
        rw [List.append_nil] at hboth
        exact hboth
      · exact hsame.trans (hid'.trans hid)
  · rw [if_neg hroom] at hcreate
    have hnone : e.device.room = 0 := Nat.eq_zero_of_not_pos hroom
    rw [hnone] at htakes ⊢
    refine ⟨{ e with device := made }, ?_, htakes, ?_⟩
    · simp only [play, hcreate]
      rfl
    · rw [hid, hnone]

/-- What becomes of some instructions while nobody takes commands out of the queue. -/
structure FillsQueue (is : List (Instruction R)) : Prop where
  answers : (e.performAll is).1.filterMap Tally.toneAnswer? =
    (List.range' e.device.nextId (min (is.countP Instruction.isPlay) (e.device.room / 7))).map .ok ++
      List.replicate (is.countP Instruction.isPlay - e.device.room / 7) (.error .bufferFull)
  takes : e.device.Takes
    ((Instruction.allCommands e.envelope e.device.nextId (is.filter Instruction.isPlay)).take e.device.room)
    (e.performAll is).2.device
  nextId : (e.performAll is).2.device.nextId =
    e.device.nextId + min (is.countP Instruction.isPlay) ((e.device.room + 6) / 7)

variable {e} in
theorem FillsQueue.play {frequency start duration : R} {volume : UInt32} {is : List (Instruction R)}
    (hlater : FillsQueue (e.play frequency start duration volume).value.2 is) :
    e.FillsQueue (.play frequency start duration volume :: is) := by
  obtain ⟨next, hplay, htakes, hid⟩ := e.play_takes frequency start duration volume
  rw [hplay] at hlater
  obtain ⟨hanswers, htakes', hid'⟩ := hlater
  let i : Instruction R := .play frequency start duration volume
  have hperform : (e.perform i).value.2 = next := congrArg Prod.snd hplay
  have hanswer : Tally.toneAnswer? (e.perform i).value.1 =
      some (if 7 ≤ e.device.room then .ok e.device.nextId else .error .bufferFull) := by
    rw [value_perform_play, hplay]
    split <;> rfl
  have henvelope : next.envelope = e.envelope := hperform ▸ e.envelope_perform i
  have hlength : (i.commands e.envelope e.device.nextId : List (AudioCommand R S)).length = 7 := rfl
  have hleft : next.device.room = e.device.room - 7 := by rw [htakes.room_eq, hlength]
  rw [henvelope, hleft] at htakes'
  rw [hleft] at hanswers hid'
  refine ⟨?_, ?_, ?_⟩
  · rw [performAll_cons, List.filterMap_cons_some hanswer, hperform, hanswers, List.countP_cons_of_pos rfl]
    by_cases hfits : 7 ≤ e.device.room
    · obtain ⟨m, hm⟩ := Nat.exists_eq_add_of_le' hfits
      have hone : min 1 (m + 7) = 1 := by omega
      have hdiv : (m + 7) / 7 = m / 7 + 1 := by omega
      rw [if_pos hfits, hid, hm, hone, hdiv, Nat.add_sub_cancel, Nat.succ_min_succ, List.range'_succ,
        Nat.add_sub_add_right]
      rfl
    · have hnone : e.device.room - 7 = 0 := by omega
      have hdiv : e.device.room / 7 = 0 := by omega
      rw [if_neg hfits, hnone, hdiv]
      simp [List.replicate_succ]
  · have hall := htakes.trans htakes'
    rw [performAll_cons, hperform, List.filter_cons_of_pos rfl, Instruction.allCommands_cons, List.take_append,
      hlength]
    by_cases hfits : 7 ≤ e.device.room
    · have hone : min 1 e.device.room = 1 := by omega
      rw [hid, hone] at hall
      exact hall
    · have hnone : e.device.room - 7 = 0 := by omega
      rw [hnone, List.take_zero] at hall ⊢
      exact hall
  · have hcount : ∀ plays, min 1 e.device.room + min plays ((e.device.room - 7 + 6) / 7) =
        min (plays + 1) ((e.device.room + 6) / 7) := by
      intro plays
      omega
    rw [performAll_cons, hperform, hid', hid, List.countP_cons_of_pos rfl, Nat.add_assoc, hcount]

theorem performAll_fills (is : List (Instruction R)) : e.FillsQueue is := by
  induction is generalizing e with
  | nil => exact ⟨by simp [performAll], by simpa [Instruction.allCommands] using .refl e.device, by simp [performAll]⟩
  | cons i rest ih =>
    cases i with
    | play frequency start duration volume => exact (ih (e.play frequency start duration volume).value.2).play
    | rest start duration =>
      obtain ⟨hanswers, htakes, hid⟩ := ih e
      exact ⟨hanswers, htakes, hid⟩

end Engine

/-! ## Numbers -/

/-- What is done with a synthesizer. -/
inductive SynthCall (R S : Type) where
  | create (frequency : R)
  | submit (request : Request R ToneId)
  | setVolume (volume : S)
  | pull (frames : Nat)
  | poll
  | pause
  | resume

def Reply.call {R : Type} (S : Type) : Reply R ToneId → SynthCall R S
  | .create frequency _ => .create frequency
  | .submit request _ => .submit request

namespace SynthDevice
variable {R S : Type} [Scalar R] [Amplitude S] [Sampling R S]

/-- The number that is given to a new tone, if there is one, and the device after the call. -/
def respond (d : SynthDevice R S) : SynthCall R S → Option ToneId × SynthDevice R S
  | .create frequency => ((d.create frequency).1.toOption, (d.create frequency).2)
  | .submit request => (none, (d.submit request).2)
  | .setVolume volume => (none, (d.setVolume volume).2)
  | .pull frames => (none, ((d.pull frames).map Prod.snd).getD d)
  | .poll => (none, d.poll.value.2)
  | .pause => (none, d.pause.2)
  | .resume => (none, d.resume.2)

def handOut (d : SynthDevice R S) : List (SynthCall R S) → List ToneId × SynthDevice R S
  | [] => ([], d)
  | call :: rest =>
    let (id?, next) := d.respond call
    let (later, last) := next.handOut rest
    (id?.toList ++ later, last)

theorem respond_cases (d : SynthDevice R S) (call : SynthCall R S) :
    (d.respond call).1 = none ∧ (d.respond call).2.nextId = d.nextId ∨
      (d.respond call).1 = some d.nextId ∧ (d.respond call).2.nextId = d.nextId + 1 := by
  cases call with
  | create frequency =>
    obtain ⟨next, hcreate, -, hid⟩ := d.create_takes frequency
    simp only [respond, hcreate]
    by_cases hroom : 0 < d.room
    · rw [if_pos hroom]
      rw [Nat.min_eq_left hroom] at hid
      exact .inr ⟨rfl, hid⟩
    · rw [if_neg hroom]
      rw [Nat.eq_zero_of_not_pos hroom] at hid
      exact .inl ⟨rfl, hid⟩
  | submit request => exact .inl ⟨rfl, d.nextId_submit request⟩
  | setVolume volume => exact .inl ⟨rfl, d.nextId_send (.volume volume)⟩
  | pull frames =>
    refine .inl ⟨rfl, ?_⟩
    simp only [respond, pull]
    split <;> rfl
  | poll => exact .inl ⟨rfl, rfl⟩
  | pause =>
    refine .inl ⟨rfl, ?_⟩
    simp only [respond, pause]
    split <;> rfl
  | resume =>
    refine .inl ⟨rfl, ?_⟩
    simp only [respond, resume]
    split <;> rfl

/-- **Tones are counted**, whatever is done. -/
theorem handOut_eq_range' (d : SynthDevice R S) (calls : List (SynthCall R S)) :
    ∃ count, (d.handOut calls).1 = List.range' d.nextId count ∧ (d.handOut calls).2.nextId = d.nextId + count := by
  induction calls generalizing d with
  | nil => exact ⟨0, rfl, rfl⟩
  | cons call rest ih =>
    obtain ⟨count, hlater, hlast⟩ := ih (d.respond call).2
    have hids : (d.handOut (call :: rest)).1 = (d.respond call).1.toList ++ ((d.respond call).2.handOut rest).1 := rfl
    have hdevice : (d.handOut (call :: rest)).2 = ((d.respond call).2.handOut rest).2 := rfl
    rw [hids, hdevice, hlater, hlast]
    rcases d.respond_cases call with ⟨hnone, hid⟩ | ⟨hsome, hid⟩
    · rw [hnone, hid]
      exact ⟨count, rfl, rfl⟩
    · rw [hsome, hid]
      exact ⟨count + 1, rfl, by rw [Nat.add_assoc, Nat.add_comm 1]⟩

/-- What an engine asks are calls like others. -/
theorem handOut_replies {d last : SynthDevice R S} {replies : List (Reply R ToneId)} (h : Replies d replies last) :
    (d.handOut (replies.map (Reply.call S))).2 = last := by
  induction h with
  | nil d => rfl
  | @create d mid last frequency answer later now _ ih =>
    have hnow : (d.respond (.create frequency)).2 = mid := congrArg Prod.snd now
    show ((d.respond (.create frequency)).2.handOut _).2 = last
    rw [hnow, ih]
  | @submit d mid last request answer later now _ ih =>
    have hnow : (d.respond (.submit request)).2 = mid := congrArg Prod.snd now
    show ((d.respond (.submit request)).2.handOut _).2 = last
    rw [hnow, ih]

end SynthDevice

/-! ## Songs -/

theorem Player.outcome_of_tones {H : Type} {answers : List (Except Failure (Option H))} {tones : List H}
    {refused : Nat} {failure : Failure}
    (h : answers.filterMap Tally.toneAnswer? = tones.map .ok ++ List.replicate refused (.error failure)) :
    outcome answers = if tones.length = 0 ∧ 0 < refused then .error failure else .ok tones.length := by
  have htones : answers.filterMap Tally.tone? = tones := by
    have hok : (Except.toOption ∘ (Except.ok : H → Except Failure H)) = some := rfl
    rw [Tally.tones_eq, h, List.filterMap_append, List.filterMap_map, hok, List.filterMap_some,
      List.filterMap_replicate]
    exact List.append_nil tones
  have hfailures : answers.filterMap Tally.failure? = List.replicate refused failure := by
    have hok : (Tally.failure? ∘ (Except.ok : H → Except Failure H)) = fun _ => none := rfl
    rw [Tally.failures_eq, h, List.filterMap_append, List.filterMap_map, hok, List.filterMap_none,
      List.filterMap_replicate]
    rfl
  split_ifs with hall
  · obtain ⟨hnone, hsome⟩ := hall
    refine outcome_of_refused (htones.trans (List.length_eq_zero_iff.1 hnone)) ?_
    rw [hfailures, List.head?_replicate, if_neg hsome.ne']
  · rw [outcome_of_accepted, htones]
    rw [htones, hfailures, List.replicate_eq_nil_iff]
    by_contra hneither
    obtain ⟨hnone, hsome⟩ := not_or.1 hneither
    exact hall ⟨List.length_eq_zero_iff.2 (not_not.1 hnone), Nat.pos_of_ne_zero hsome⟩

/-- **The capacity of the command queue.** While nobody takes commands out of it, every tone of a song takes up seven
commands of the room that there is. -/
theorem playSong_capacity {R S : Type} [Scalar R] [Amplitude S] [Sampling R S]
    (p : Player (SynthDevice R S) R ToneId) (song : Song R) :
    let d := p.engine.device
    let room := d.room
    let plays := (song.tracks.flatMap Track.instructions).filter Instruction.isPlay
    let accepted := min song.playCount (room / 7)
    let performed := p.engine.performAll (song.tracks.flatMap Track.instructions)
    let last := (p.playSong song).value.2.engine.device
    -- the first tones are accepted, and all others refused
    ((p.playSong song).value.2.engine = performed.2 ∧
      performed.1.filterMap Tally.toneAnswer? =
        (List.range' d.nextId accepted).map .ok ++ List.replicate (song.playCount - accepted) (.error .bufferFull) ∧
      (p.playSong song).value.1 = if room < 7 ∧ 0 < song.playCount then .error .bufferFull else .ok accepted) ∧
    -- the queue
    (∃ abandoned, last.thread.commands.toList = d.thread.commands.toList ++
          (Instruction.allCommands p.engine.envelope d.nextId (plays.take accepted) ++ abandoned) ∧
      (∀ i ∈ plays, ∀ id, (i.commands p.engine.envelope id : List (AudioCommand R S)).length = 7) ∧
      (song.playCount ≤ room / 7 → abandoned = []) ∧
      (room / 7 < song.playCount → last.room = 0) ∧
      ∀ i, plays[room / 7]? = some i →
        abandoned = (i.commands p.engine.envelope (d.nextId + room / 7)).take (room % 7)) ∧
    -- the numbers of the tones
    (∃ calls, d.handOut calls = (List.range' d.nextId (min song.playCount ((room + 6) / 7)), last)) ∧
    ∀ (other : SynthDevice R S) calls, (other.handOut calls).1.Nodup := by
  intro d room plays accepted performed last
  have hfills := p.engine.performAll_fills (song.tracks.flatMap Track.instructions)
  have hplays : ∀ i ∈ plays, i.isPlay := fun i hi => (List.mem_filter.1 hi).2
  have hcount : song.playCount = plays.length := List.countP_eq_length_filter
  have hlast : last = performed.2.device := congrArg (fun o => o.2.engine.device) (p.value_playSong song)
  have hanswers : performed.1.filterMap Tally.toneAnswer? =
      (List.range' d.nextId accepted).map .ok ++ List.replicate (song.playCount - accepted) (.error .bufferFull) := by
    have hrefused : song.playCount - accepted = song.playCount - room / 7 := by omega
    rw [hrefused]
    exact hfills.answers
  refine ⟨⟨?_, hanswers, ?_⟩, ⟨plays[room / 7]?.elim [] fun i =>
      (i.commands p.engine.envelope (d.nextId + room / 7)).take (room % 7), ?_, ?_, ?_, ?_, ?_⟩, ?_, ?_⟩
  · exact congrArg (fun o => o.2.engine) (p.value_playSong song)
  · have houtcome : (p.playSong song).value.1 = Player.outcome performed.1 := congrArg Prod.fst (p.value_playSong song)
    rw [houtcome, Player.outcome_of_tones hanswers, List.length_range']
    refine if_congr ?_ rfl rfl
    omega
  · have htake : plays.take accepted = plays.take (room / 7) := by
      rw [List.take_eq_take_iff]
      omega
    rw [hlast, hfills.takes.toList, Instruction.take_allCommands _ _ hplays, htake]
  · exact fun i hi id => Instruction.length_commands (hplays i hi) _ id
  · intro hfits
    have hnone : plays[room / 7]? = none := List.getElem?_eq_none (by omega)
    rw [hnone]
    rfl
  · intro hmore
    rw [hlast, hfills.takes.room_eq, Instruction.length_allCommands _ _ hplays, ← hcount]
    show room - 7 * song.playCount = 0
    omega
  · intro i hi
    rw [hi]
    rfl
  · obtain ⟨trials, -, -, hreplies⟩ := p.engine.performAll_tries (song.tracks.flatMap Track.instructions)
    have hcalls := SynthDevice.handOut_replies hreplies
    obtain ⟨count, hids, hnext⟩ := d.handOut_eq_range' ((trials.flatMap Trial.replies).map (Reply.call S))
    rw [hcalls] at hnext
    have hcount' := Nat.add_left_cancel (hnext.symm.trans hfills.nextId)
    refine ⟨_, Prod.ext ?_ (hcalls.trans hlast.symm)⟩
    rw [hids, hcount']
    rfl
  · intro other calls
    obtain ⟨count, hids, -⟩ := other.handOut_eq_range' calls
    rw [hids]
    exact List.nodup_range'

end MusicMacro
