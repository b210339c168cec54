import MusicMacro.Proofs.Device.Settled

/-!
# Word of ended tones

The audio thread sends word of every tone that has ended through a queue of a fixed capacity. The other side takes from
it whenever it likes, also between two pushes of the thread, and what finds no room waits for the next buffer.

* `Queue.pushAmid` : pushes one after the other, with some taken in between; nothing is lost (`toList_pushAmid`);
* `ThreadEvent`, `AudioThread.watch` : what happens to a thread, and what is seen of it: the ended tones that are taken,
  and the tones that end in each buffer;
* `AudioThread.reported_watch` : what is taken, then what waits, is what has ended;
* `AudioThread.notMem_endings_of_mem` : a tone that is held has not ended since it was made, and one that was released
  does not end;
* `taken_append_waiting` : both for a thread from its first buffer on.
-/

namespace MusicMacro

/-- Pushes one after the other until the queue is full, while the other side takes as many as the numbers say, one of
them before each push: what it takes, what did not fit, and the queue. -/
def Queue.pushAmid {α : Type} (q : Queue α) : List Nat → List α → List α × List α × Queue α
  | _, [] => ([], [], q)
  | [], a :: rest => ([], q.pushAll (a :: rest))
  | n :: pops, a :: rest =>
    match (q.drop n).push? a with
    | none => (q.toList.take n, a :: rest, q.drop n)
    | some next =>
      let (later, left, last) := next.pushAmid pops rest
      (q.toList.take n ++ later, left, last)

theorem Queue.pushAmid_nil {α : Type} (q : Queue α) (as : List α) : q.pushAmid [] as = ([], q.pushAll as) := by
  cases as <;> rfl

/-- What is taken, what waits and what found no room are together, in their order, what waited and what there was to
push. -/
theorem Queue.toList_pushAmid {α : Type} (q : Queue α) (pops : List Nat) (as : List α) :
    (q.pushAmid pops as).1 ++ ((q.pushAmid pops as).2.2.toList ++ (q.pushAmid pops as).2.1) = q.toList ++ as := by
  induction as generalizing q pops with
  | nil => simp [pushAmid]
  | cons a rest ih =>
    cases pops with
    | nil => exact q.toList_pushAll (a :: rest)
    | cons n pops =>
      have hcut : q.toList.take n ++ (q.drop n).toList = q.toList := by
        rw [toList_drop, List.take_append_drop]
      unfold pushAmid
      cases hpush : (q.drop n).push? a with
      | none =>
        simp only
        rw [← List.append_assoc, hcut]
      | some next =>
        have hlater := ih next pops
        rw [toList_of_push? hpush] at hlater
        simp only
        rw [List.append_assoc, hlater, ← List.append_assoc, ← List.append_assoc, hcut]
        simp

/-- Something that happens to an audio thread. -/
inductive ThreadEvent (R S : Type) where
  /-- A command is sent; it is lost if the queue is full. -/
  | send (command : AudioCommand R S)
  /-- The card asks for a buffer, and the other side takes ended tones while the thread reports more of them. -/
  | fill (buffer : List S) (pops : List Nat)
  | takeEnded (most : Nat)

def ThreadEvent.Makes {R S : Type} (id : ToneId) (event : ThreadEvent R S) : Prop :=
  ∃ frequency, event = .send (.tone id (.create frequency))

/-- What is seen of an audio thread. -/
structure Sighting where
  taken : List ToneId
  endings : List (List ToneId)

namespace AudioThread
variable {R S : Type} [Scalar R] [Amplitude S] [Sampling R S]

/-- Fills one buffer, as `AudioThread.fill` does, while the other side takes ended tones: what it takes, and the
thread after it. -/
def fillAmid (t : AudioThread R S) (buffer : List S) (pops : List Nat) : List ToneId × AudioThread R S :=
  let played := (t.drain.play buffer).2
  let (taken, unreported, ended) := played.ended.pushAmid pops played.unreported
  (taken, { played with unreported, ended })

theorem fillAmid_nil (t : AudioThread R S) (buffer : List S) :
    t.fillAmid buffer [] = ([], (t.fill buffer).2) := by
  unfold fillAmid
  simp only [Queue.pushAmid_nil]
  rfl

def see (t : AudioThread R S) : ThreadEvent R S → Sighting × AudioThread R S
  | .send command => (⟨[], []⟩, (t.push? command).getD t)
  | .fill buffer pops =>
    let (taken, next) := t.fillAmid buffer pops
    (⟨taken, [t.endings buffer]⟩, next)
  | .takeEnded most =>
    let (taken, next) := t.takeEnded most
    (⟨taken, []⟩, next)

/-- What is seen of a thread while some things happen, and the thread after them. -/
def watch (t : AudioThread R S) : List (ThreadEvent R S) → Sighting × AudioThread R S
  | [] => (⟨[], []⟩, t)
  | event :: rest =>
    let (now, next) := t.see event
    let (later, last) := next.watch rest
    (⟨now.taken ++ later.taken, now.endings ++ later.endings⟩, last)

theorem watch_append (t : AudioThread R S) (before after : List (ThreadEvent R S)) :
    (t.watch (before ++ after)).1.endings =
        (t.watch before).1.endings ++ ((t.watch before).2.watch after).1.endings ∧
      (t.watch (before ++ after)).2 = ((t.watch before).2.watch after).2 := by
  induction before generalizing t with
  | nil => exact ⟨rfl, rfl⟩
  | cons event rest ih =>
    obtain ⟨hendings, hlast⟩ := ih (t.see event).2
    refine ⟨?_, hlast⟩
    show (t.see event).1.endings ++ ((t.see event).2.watch (rest ++ after)).1.endings = _
    rw [hendings, ← List.append_assoc]
    rfl

/-! ## Nothing is lost on the way -/

theorem reported_see (t : AudioThread R S) (event : ThreadEvent R S) :
    (t.see event).1.taken ++ (t.see event).2.reported = t.reported ++ (t.see event).1.endings.flatten := by
  cases event with
  | send command =>
    show (((t.push? command).getD t).reported : List ToneId) = t.reported ++ []
    rw [List.append_nil]
    cases hpush : t.push? command with
    | none => rfl
    | some next => exact reported_of_push? hpush
  | fill buffer pops =>
    obtain ⟨bank, master, hdrain⟩ := t.drain_cases
    have hended : (t.drain.play buffer).2.ended = t.ended := by rw [hdrain]; rfl
    have hwaiting : (t.drain.play buffer).2.unreported = t.unreported ++ t.endings buffer := by
      unfold endings
      rw [hdrain]
      rfl
    have hpushed := (t.drain.play buffer).2.ended.toList_pushAmid pops (t.drain.play buffer).2.unreported
    rw [hended, hwaiting, ← List.append_assoc t.ended.toList] at hpushed
    simp only [see, fillAmid, hended, hwaiting, reported, List.flatten_cons, List.flatten_nil, List.append_nil]
    exact hpushed
  | takeEnded most =>
    show t.ended.toList.take most ++ ((t.ended.drop most).toList ++ t.unreported) = t.reported ++ []
    rw [Queue.toList_drop, ← List.append_assoc, List.take_append_drop, List.append_nil]
    rfl

/-- **Nothing is lost**: what is taken, then what waits, is what waited and what has ended since. -/
theorem reported_watch (t : AudioThread R S) (events : List (ThreadEvent R S)) :
    (t.watch events).1.taken ++ (t.watch events).2.reported =
      t.reported ++ (t.watch events).1.endings.flatten := by
  induction events generalizing t with
  | nil => exact (List.append_nil _).symm
  | cons event rest ih =>
    have hnow := t.reported_see event
    have hlater := ih (t.see event).2
    show ((t.see event).1.taken ++ ((t.see event).2.watch rest).1.taken) ++ ((t.see event).2.watch rest).2.reported =
      t.reported ++ ((t.see event).1.endings ++ ((t.see event).2.watch rest).1.endings).flatten
    rw [List.append_assoc, hlater, ← List.append_assoc, hnow, List.flatten_append, List.append_assoc]

/-! ## What a tone contributes -/

theorem settled_fillAmid (t : AudioThread R S) (buffer : List S) (pops : List Nat) :
    (t.fillAmid buffer pops).2.settled = (t.fill buffer).2.settled := rfl

/-- Nothing but its making gives a tone a voice, and it has one no more once it has ended. -/
theorem mem_settled_see (t : AudioThread R S) {id : ToneId} {event : ThreadEvent R S} (hmakes : ¬ event.Makes id) :
    (id ∈ (t.see event).2.settled.voices.ids → id ∈ t.settled.voices.ids ∧ id ∉ (t.see event).1.endings.flatten) ∧
      (id ∈ (t.see event).1.endings.flatten → id ∈ t.settled.voices.ids) := by
  cases event with
  | send command =>
    refine ⟨fun hid => ⟨?_, List.not_mem_nil⟩, fun hid => absurd hid List.not_mem_nil⟩
    cases hpush : t.push? command with
    | none =>
      simp only [see, hpush, Option.getD_none] at hid
      exact hid
    | some next =>
      simp only [see, hpush, Option.getD_some, settled_of_push? hpush] at hid
      cases command with
      | volume value => exact hid
      | tone other request =>
        rcases ToneBank.mem_ids_apply hid with hold | ⟨rfl, frequency, rfl⟩
        · exact hold
        · exact absurd ⟨frequency, rfl⟩ hmakes
  | fill buffer pops =>
    have hendings : (t.see (.fill buffer pops)).1.endings.flatten = t.endings buffer := List.append_nil _
    have hsettled : (t.see (.fill buffer pops)).2.settled = (t.fill buffer).2.settled :=
      t.settled_fillAmid buffer pops
    rw [hendings, hsettled]
    refine ⟨fun hid => (t.mem_ids_fill buffer id).1 hid, fun hid => ?_⟩
    exact (t.endings_fill_perm buffer).subset (List.mem_append_left _ hid)
  | takeEnded most => exact ⟨fun hid => ⟨hid, List.not_mem_nil⟩, fun hid => absurd hid List.not_mem_nil⟩

/-- A tone that is held at last was held all the time, and has not ended. -/
theorem notMem_endings_of_mem (t : AudioThread R S) {id : ToneId} {events : List (ThreadEvent R S)}
    (hmakes : ∀ event ∈ events, ¬ event.Makes id) (hlast : id ∈ (t.watch events).2.settled.voices.ids) :
    id ∈ t.settled.voices.ids ∧ id ∉ (t.watch events).1.endings.flatten := by
  induction events generalizing t with
  | nil => exact ⟨hlast, List.not_mem_nil⟩
  | cons event rest ih =>
    obtain ⟨hnext, hlater⟩ := ih (t.see event).2 (fun e he => hmakes e (List.mem_cons_of_mem _ he)) hlast
    obtain ⟨hheld, hnow⟩ := (t.mem_settled_see (hmakes event List.mem_cons_self)).1 hnext
    refine ⟨hheld, ?_⟩
    show id ∉ ((t.see event).1.endings ++ ((t.see event).2.watch rest).1.endings).flatten
    rw [List.flatten_append, List.mem_append, not_or]
    exact ⟨hnow, hlater⟩

theorem notMem_endings_of_notMem (t : AudioThread R S) {id : ToneId} {events : List (ThreadEvent R S)}
    (hmakes : ∀ event ∈ events, ¬ event.Makes id) (hgone : id ∉ t.settled.voices.ids) :
    id ∉ (t.watch events).1.endings.flatten := by
  induction events generalizing t with
  | nil => exact List.not_mem_nil
  | cons event rest ih =>
    obtain ⟨hback, hends⟩ := t.mem_settled_see (hmakes event List.mem_cons_self)
    have hlater := ih (t.see event).2 (fun e he => hmakes e (List.mem_cons_of_mem _ he)) fun hid => hgone (hback hid).1
    show id ∉ ((t.see event).1.endings ++ ((t.see event).2.watch rest).1.endings).flatten
    rw [List.flatten_append, List.mem_append, not_or]
    exact ⟨fun hid => hgone (hends hid), hlater⟩

theorem notMem_settled_release (t : AudioThread R S) (id : ToneId)
    (haccepted : (t.push? (.tone id .release)).isSome) :
    id ∉ (t.see (.send (.tone id .release))).2.settled.voices.ids := by
  obtain ⟨next, hpush⟩ := Option.isSome_iff_exists.1 haccepted
  simp only [see, hpush, Option.getD_some, settled_of_push? hpush]
  intro hid
  exact ((ToneBank.mem_ids_release _ _ _).1 hid).2 rfl

/-- **Word of ended tones is neither lost nor doubled nor out of order.** A thread is sent anything and fills buffers of
any lengths, and ended tones are taken at any moment, whatever the capacity of their queue: those that were taken, then
those in the queue, then those that found no room are what the bank has reported, buffer by buffer. A tone that is
released while it is held does not end: nothing is reported of it from its making on, until its number is used again. -/
theorem taken_append_waiting (w : Waveform) (master : MasterBus S) (channels rate commands ended clock : Nat)
    (events : List (ThreadEvent R S)) :
    let start : AudioThread R S := fresh w master channels rate commands ended clock
    let seen := (start.watch events).1
    let last := (start.watch events).2
    seen.taken ++ last.ended.toList ++ last.unreported = seen.endings.flatten ∧
      ∀ before life id after, events = before ++ (life ++ .send (.tone id .release) :: after) →
        (∀ event ∈ life ++ after, ¬ event.Makes id) →
        let made := (start.watch before).2
        let held := (made.watch life).2
        id ∈ held.settled.voices.ids → (held.push? (.tone id .release)).isSome →
          id ∉ (made.watch (life ++ .send (.tone id .release) :: after)).1.endings.flatten := by
  intro start seen last
  constructor
  · rw [List.append_assoc]
    exact start.reported_watch events
  · intro before life id after _ hmakes made held hheld haccepted
    obtain ⟨-, hlife⟩ := made.notMem_endings_of_mem
      (fun event hevent => hmakes event (List.mem_append_left _ hevent)) hheld
    have hafter := (held.see (.send (.tone id .release))).2.notMem_endings_of_notMem
      (fun event hevent => hmakes event (List.mem_append_right _ hevent)) (held.notMem_settled_release id haccepted)
    rw [(made.watch_append life _).1, List.flatten_append, List.mem_append, not_or]
    exact ⟨hlife, hafter⟩

/-- Two tones end in one buffer and a queue with room for one. -/
example :
    let tone (id : ToneId) : List (ThreadEvent Float Float32) :=
      [.send (.tone id (.create 10)), .send (.tone id (.start 0)), .send (.tone id (.stop 0))]
    let seen := (fresh .square .usual 1 1000 8 1 0).watch
      (tone 1 ++ tone 2 ++ [.fill [0] [], .takeEnded 4, .takeEnded 4, .fill [0] [], .takeEnded 4])
    seen.1.taken = [1, 2] ∧ seen.1.endings = [[1, 2], []] := by
  decide +kernel

end AudioThread

end MusicMacro
