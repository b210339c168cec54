import MusicMacro.Performance.Player
import MusicMacro.Proofs.Performance.Steps

/-!
# A song as one list of instructions

A player goes through the tracks of a song, and through the instructions of each of them. Whatever the device refuses,
it goes on; so a song is played as one long list of instructions, and its outcome is a matter of the answers to them.

* `Engine.performAll` : instructions one after the other, with their answers;
* `Tally.foldl_add` : a tally counts what was accepted and what was refused, and keeps the first refusal;
* `Player.outcome` : what becomes of a song with some answers;
* `Player.value_playSong` : a song is played as the list of the instructions of all its tracks.
-/

namespace MusicMacro

/-! ## Answers -/

namespace Tally
variable {H : Type}

def tone? : Except Failure (Option H) → Option H
  | .ok tone? => tone?
  | .error _ => none

def failure? {α : Type} : Except Failure α → Option Failure
  | .ok _ => none
  | .error failure => some failure

def toneAnswer? : Except Failure (Option H) → Option (Except Failure H)
  | .ok tone? => tone?.map .ok
  | .error failure => some (.error failure)

theorem tones_eq (answers : List (Except Failure (Option H))) :
    answers.filterMap tone? = (answers.filterMap toneAnswer?).filterMap Except.toOption := by
  have hsame : ∀ answer : Except Failure (Option H), (toneAnswer? answer).bind Except.toOption = tone? answer := by
    rintro (_ | _ | _) <;> rfl
  rw [List.filterMap_filterMap, funext hsame]

theorem failures_eq (answers : List (Except Failure (Option H))) :
    answers.filterMap failure? = (answers.filterMap toneAnswer?).filterMap failure? := by
  have hsame : ∀ answer : Except Failure (Option H), (toneAnswer? answer).bind failure? = failure? answer := by
    rintro (_ | _ | _) <;> rfl
  rw [List.filterMap_filterMap, funext hsame]

theorem foldl_add (t : Tally) (answers : List (Except Failure (Option H))) :
    answers.foldl add t =
      { tones := t.tones + (answers.filterMap tone?).length
        failed := t.failed + (answers.filterMap failure?).length
        firstFailure? := t.firstFailure?.or (answers.filterMap failure?).head? } := by
  induction answers generalizing t with
  | nil => simp
  | cons answer rest ih =>
    rw [List.foldl_cons, ih]
    rcases answer with failure | _ | tone
    · -- a refusal is kept only if there was none before
      have htone : tone? (.error failure : Except Failure (Option H)) = none := rfl
      have hfailure : failure? (.error failure : Except Failure (Option H)) = some failure := rfl
      rw [List.filterMap_cons_none htone, List.filterMap_cons_some hfailure, List.length_cons, List.head?_cons]
      cases hfirst : t.firstFailure? <;> simp [add, hfirst, Nat.add_assoc, Nat.add_comm 1]
    · have htone : tone? (.ok none : Except Failure (Option H)) = none := rfl
      have hfailure : failure? (.ok none : Except Failure (Option H)) = none := rfl
      rw [List.filterMap_cons_none htone, List.filterMap_cons_none hfailure, add]
    · have htone : tone? (.ok (some tone) : Except Failure (Option H)) = some tone := rfl
      have hfailure : failure? (.ok (some tone) : Except Failure (Option H)) = none := rfl
      rw [List.filterMap_cons_some htone, List.filterMap_cons_none hfailure, List.length_cons, add, Nat.add_assoc,
        Nat.add_comm 1]

end Tally

/-! ## One list of instructions -/

namespace Engine
variable {D R H : Type} [DecidableEq H] [Scalar R] [ToneDevice D R H]

/-- Performs instructions one after the other, whatever becomes of them: the answers, and the engine after them. -/
def performAll (e : Engine D R H) : List (Instruction R) → List (Except Failure (Option H)) × Engine D R H
  | [] => ([], e)
  | i :: rest =>
    let (answer, next) := (e.perform i).value
    let (later, last) := next.performAll rest
    (answer :: later, last)

theorem performAll_cons (e : Engine D R H) (i : Instruction R) (rest : List (Instruction R)) :
    e.performAll (i :: rest) =
      ((e.perform i).value.1 :: ((e.perform i).value.2.performAll rest).1,
        ((e.perform i).value.2.performAll rest).2) := rfl

theorem performAll_append (e : Engine D R H) (before after : List (Instruction R)) :
    e.performAll (before ++ after) =
      ((e.performAll before).1 ++ ((e.performAll before).2.performAll after).1,
        ((e.performAll before).2.performAll after).2) := by
  induction before generalizing e with
  | nil => rfl
  | cons i rest ih =>
    rw [List.cons_append, performAll_cons, performAll_cons, ih]
    rfl

theorem value_perform_play (e : Engine D R H) (frequency start duration : R) (volume : UInt32) :
    (e.perform (.play frequency start duration volume)).value =
      ((e.play frequency start duration volume).value.1.map some,
        (e.play frequency start duration volume).value.2) := rfl

theorem envelope_perform (e : Engine D R H) (i : Instruction R) : (e.perform i).value.2.envelope = e.envelope := by
  cases i with
  | play frequency start duration volume => exact e.envelope_play frequency start duration volume
  | rest start duration => rfl

end Engine

namespace Player
variable {D R H : Type} [DecidableEq H] [Scalar R] [ToneDevice D R H]

theorem value_performEach (track : Nat) (e : Engine D R H) (t : Tally) (is : List (Instruction R)) :
    (performEach track e t is).value = ((e.performAll is).1.foldl Tally.add t, (e.performAll is).2) := by
  induction is generalizing e t with
  | nil => rfl
  | cons i rest ih =>
    have hnext : (performEach track e t (i :: rest)).value =
        (performEach track (e.perform i).value.2 (t.add (e.perform i).value.1) rest).value := by
      simp only [performEach, Noted.value_bind]
      cases (e.perform i).value.1 <;> rfl
    rw [hnext, ih, Engine.performAll_cons, List.foldl_cons]

theorem value_performTracks (e : Engine D R H) (t : Tally) (tracks : List (Track R)) :
    (performTracks e t tracks).value =
      ((e.performAll (tracks.flatMap Track.instructions)).1.foldl Tally.add t,
        (e.performAll (tracks.flatMap Track.instructions)).2) := by
  induction tracks generalizing e t with
  | nil => rfl
  | cons track rest ih =>
    have hnext : (performTracks e t (track :: rest)).value =
        (performTracks (performEach track.index e t track.instructions).value.2
          (performEach track.index e t track.instructions).value.1 rest).value := rfl
    rw [hnext, value_performEach, ih, List.flatMap_cons, Engine.performAll_append, List.foldl_append]

/-- What becomes of a song: the number of its tones, or the first refusal if there are none for it. -/
def outcome (answers : List (Except Failure (Option H))) : Except Failure Nat :=
  match (answers.filterMap Tally.tone?).length, (answers.filterMap Tally.failure?).head? with
  | 0, some failure => .error failure
  | tones, _ => .ok tones

omit [DecidableEq H] in
theorem outcome_of_accepted {answers : List (Except Failure (Option H))}
    (h : answers.filterMap Tally.tone? ≠ [] ∨ answers.filterMap Tally.failure? = []) :
    outcome answers = .ok (answers.filterMap Tally.tone?).length := by
  unfold outcome
  split
  · rename_i failure hnone hfailure
    rcases h with hsome | hfailures
    · exact absurd (List.length_eq_zero_iff.1 hnone) hsome
    · rw [hfailures] at hfailure
      cases hfailure
  · rfl

omit [DecidableEq H] in
theorem outcome_of_refused {answers : List (Except Failure (Option H))} {failure : Failure}
    (hnone : answers.filterMap Tally.tone? = []) (hfirst : (answers.filterMap Tally.failure?).head? = some failure) :
    outcome answers = .error failure := by
  unfold outcome
  rw [hnone, hfirst]
  rfl

omit [DecidableEq H] in
theorem tones_of_outcome_error {answers : List (Except Failure (Option H))} {failure : Failure}
    (h : outcome answers = .error failure) : answers.filterMap Tally.tone? = [] := by
  rcases hanswers : answers.filterMap Tally.tone? with _ | ⟨tone, rest⟩
  · rfl
  · rw [outcome_of_accepted (.inl (hanswers ▸ List.cons_ne_nil tone rest))] at h
    cases h

/-- **A song** is played as the list of the instructions of all its tracks. -/
theorem value_playSong (p : Player D R H) (song : Song R) :
    (p.playSong song).value =
      (outcome (p.engine.performAll (song.tracks.flatMap Track.instructions)).1,
        { p with engine := (p.engine.performAll (song.tracks.flatMap Track.instructions)).2 }) := by
  simp only [playSong, Noted.value_bind, value_performTracks, Tally.foldl_add, Option.none_or, Nat.zero_add, outcome]
  generalize (p.engine.performAll (song.tracks.flatMap Track.instructions)).1 = answers
  generalize (answers.filterMap Tally.tone?).length = tones
  generalize (answers.filterMap Tally.failure?).head? = first?
  cases tones <;> cases first? <;> rfl

end Player

end MusicMacro
