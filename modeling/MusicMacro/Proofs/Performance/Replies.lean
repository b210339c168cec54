import Mathlib.Data.List.Forall2
import MusicMacro.Proofs.Performance.Programme
import MusicMacro.Proofs.Performance.Recorder

/-!
# What a device answers

The calls for an instruction follow the answers of the device: a tone is made and scheduled up to the first refusal, and
a tone that could not be scheduled is released.

* `Reply` : a call with the answer of the device; `Replies` : what a device answers, call by call;
* `Replies.calls_eq` : a recorder has all of it on record;
* `Tries` : the calls for one instruction, up to the first refusal, and what comes of them;
* `Engine.perform_tries`, `Engine.performAll_tries` : an engine tries one instruction, and many.
-/

namespace MusicMacro

/-- A call to a device, with its answer. -/
inductive Reply (R H : Type) where
  | create (frequency : R) (answer : Except Failure H)
  | submit (request : Request R H) (answer : Except Failure Unit)

namespace Reply
variable {R H : Type}

def attempt : Reply R H → Attempt R H
  | create frequency answer => .ofCreate frequency answer
  | submit request answer => .ofSubmit request answer

def failure? : Reply R H → Option Failure
  | create _ (.error failure) | submit _ (.error failure) => some failure
  | _ => none

def accepted (requests : List (Request R H)) : List (Reply R H) := requests.map fun request => .submit request (.ok ())

theorem attempts_accepted (requests : List (Request R H)) :
    (accepted requests).map attempt = Attempt.accepted requests := List.map_map

theorem failures_accepted (requests : List (Request R H)) : (accepted requests).filterMap failure? = [] := by
  refine List.filterMap_eq_nil_iff.2 fun reply hreply => ?_
  obtain ⟨request, -, rfl⟩ := List.mem_map.1 hreply
  rfl

end Reply

/-- What a device answers to one call after the other. -/
inductive Replies {D R H : Type} [ToneDevice D R H] : D → List (Reply R H) → D → Prop
  | nil (d : D) : Replies d [] d
  | create {d mid last : D} {frequency : R} {answer : Except Failure H} {later : List (Reply R H)}
      (now : ToneDevice.create d frequency = (answer, mid)) (rest : Replies mid later last) :
      Replies d (.create frequency answer :: later) last
  | submit {d mid last : D} {request : Request R H} {answer : Except Failure Unit} {later : List (Reply R H)}
      (now : ToneDevice.submit d request = (answer, mid)) (rest : Replies mid later last) :
      Replies d (.submit request answer :: later) last

namespace Replies
variable {D D' R H : Type} [ToneDevice D R H] [ToneDevice D' R H] {d mid last : D}

theorem append {before after : List (Reply R H)} (h : Replies d before mid) (h' : Replies mid after last) :
    Replies d (before ++ after) last := by
  induction h with
  | nil d => exact h'
  | create now _ ih => exact .create now (ih h')
  | submit now _ ih => exact .submit now (ih h')

theorem single {request : Request R H} {answer : Except Failure Unit}
    (h : ToneDevice.submit d request = (answer, last)) : Replies d [.submit request answer] last :=
  .submit h (.nil last)

/-- A device that passes on every call answers as the other does. -/
theorem relays {f : D → D'} (hf : Relays f) {replies : List (Reply R H)} (h : Replies d replies last) :
    Replies (f d) replies (f last) := by
  induction h with
  | nil d => exact .nil (f d)
  | @create d mid last frequency answer later now _ ih =>
    have hnow : ToneDevice.create (f d) frequency = (answer, f mid) := by
      rw [hf.create, now]
      rfl
    exact .create hnow ih
  | @submit d mid last request answer later now _ ih =>
    have hnow : ToneDevice.submit (f d) request = (answer, f mid) := by
      rw [hf.submit, now]
      rfl
    exact .submit hnow ih

/-- What is called is what gets on record. -/
theorem calls_eq {r r' : Recorder D R H} {replies : List (Reply R H)} (h : Replies r replies r') :
    r'.calls = r.calls ++ replies.map Reply.attempt := by
  induction h with
  | nil r => simp
  | @create r mid last frequency answer later now _ ih =>
    have hnow : mid.calls = r.calls ++ [.ofCreate frequency answer] := by
      cases now
      rfl
    rw [ih, hnow, List.append_assoc]
    rfl
  | @submit r mid last request answer later now _ ih =>
    have hnow : mid.calls = r.calls ++ [.ofSubmit request answer] := by
      cases now
      rfl
    rw [ih, hnow, List.append_assoc]
    rfl

theorem keeps [FreshHandles D R H] {replies : List (Reply R H)} (h : Replies d replies last) {tone : H}
    (hissued : FreshHandles.issued d tone) : FreshHandles.issued last tone := by
  induction h with
  | nil d => exact hissued
  | @create d mid last frequency answer later now _ ih =>
    have hkeep := FreshHandles.create_keeps d frequency tone hissued
    rw [now] at hkeep
    exact ih hkeep
  | @submit d mid last request answer later now _ ih =>
    have hkeep := FreshHandles.submit_keeps d request tone hissued
    rw [now] at hkeep
    exact ih hkeep

theorem submitAll (d : D) (requests : List (Request R H)) :
    (∃ last, ToneDevice.submitAll d requests = (.ok (), last) ∧ Replies d (Reply.accepted requests) last) ∨
      ∃ failure last before request after, requests = before ++ request :: after ∧
        ToneDevice.submitAll d requests = (.error failure, last) ∧
        Replies d (Reply.accepted before ++ [.submit request (.error failure)]) last := by
  induction requests generalizing d with
  | nil => exact .inl ⟨d, rfl, .nil d⟩
  | cons request rest ih =>
    rcases hsubmit : ToneDevice.submit d request with ⟨failure | accepted, mid⟩
    · refine .inr ⟨failure, mid, [], request, rest, rfl, ?_, .single hsubmit⟩
      rw [ToneDevice.submitAll, hsubmit]
    · have hall : ToneDevice.submitAll d (request :: rest) = ToneDevice.submitAll mid rest := by
        rw [ToneDevice.submitAll, hsubmit]
      rw [hall]
      obtain ⟨last, hrest, hreplies⟩ | ⟨failure, last, before, refused, after, rfl, hrest, hreplies⟩ := ih mid
      · exact .inl ⟨last, hrest, .submit hsubmit hreplies⟩
      · exact .inr ⟨failure, last, request :: before, refused, after, rfl, hrest, .submit hsubmit hreplies⟩

end Replies

/-! ## One instruction -/

/-- All requests for a tone that was made. -/
def schedulingRequests {R H : Type} [Scalar R] (envelope : Envelope R) (tone : H) (start duration : R)
    (volume : UInt32) : List (Request R H) :=
  Engine.armingRequests envelope tone start (start + duration) volume ++ [.onEnded tone tone]

/-- What an instruction came to. -/
structure Trial (R H : Type) where
  answer : Except Failure (Option H)
  replies : List (Reply R H)

/-- The calls for an instruction, and what comes of them. A silence needs none. A tone is made and scheduled, and the
first refusal is the answer; if it comes after the tone was made, the tone is released, and that is the end of it. -/
inductive Tries {R H : Type} [Scalar R] (envelope : Envelope R) : Instruction R → Trial R H → Prop
  | silence {start duration : R} : Tries envelope (.rest start duration) ⟨.ok none, []⟩
  | refused {frequency start duration : R} {volume : UInt32} {failure : Failure} :
      Tries envelope (.play frequency start duration volume)
        ⟨.error failure, [.create frequency (.error failure)]⟩
  | scheduled {frequency start duration : R} {volume : UInt32} {tone : H} :
      Tries envelope (.play frequency start duration volume)
        ⟨.ok (some tone), .create frequency (.ok tone) ::
          Reply.accepted (schedulingRequests envelope tone start duration volume)⟩
  | abandoned {frequency start duration : R} {volume : UInt32} {tone : H} {failure : Failure}
      {before after : List (Request R H)} {request : Request R H} {released : Except Failure Unit}
      (requests : schedulingRequests envelope tone start duration volume = before ++ request :: after) :
      Tries envelope (.play frequency start duration volume)
        ⟨.error failure, .create frequency (.ok tone) :: (Reply.accepted before ++
          [.submit request (.error failure), .submit (.release tone) released])⟩

theorem Tries.failure_eq {R H : Type} [Scalar R] {envelope : Envelope R} {i : Instruction R} {trial : Trial R H}
    (h : Tries envelope i trial) : Tally.failure? trial.answer = (trial.replies.filterMap Reply.failure?).head? := by
  cases h with
  | silence => rfl
  | refused => rfl
  | scheduled =>
    rw [List.filterMap_cons_none rfl, Reply.failures_accepted]
    rfl
  | abandoned =>
    rw [List.filterMap_cons_none rfl, List.filterMap_append, Reply.failures_accepted]
    rfl

theorem failures_head? {R H : Type} [Scalar R] {envelope : Envelope R} {is : List (Instruction R)}
    {trials : List (Trial R H)} (h : List.Forall₂ (Tries envelope) is trials) :
    ((trials.map Trial.answer).filterMap Tally.failure?).head? =
      ((trials.flatMap Trial.replies).filterMap Reply.failure?).head? := by
  induction h with
  | nil => rfl
  | @cons i trial rest later hfirst _ ih =>
    rw [List.flatMap_cons, List.filterMap_append, List.head?_append, ← hfirst.failure_eq, ← ih, List.map_cons,
      List.filterMap_cons]
    cases Tally.failure? trial.answer <;> rfl

namespace Engine
variable {D R H : Type} [DecidableEq H] [Scalar R] [ToneDevice D R H]

/-- A tone is scheduled up to the first refusal. -/
theorem arm_replies (e : Engine D R H) (tone : H) (start duration : R) (volume : UInt32) :
    let requests := schedulingRequests e.envelope tone start duration volume
    (∃ next, e.arm tone start (start + duration) volume = (.ok (), next) ∧
        Replies e.device (Reply.accepted requests) next.device) ∨
      ∃ failure next before request after, requests = before ++ request :: after ∧
        e.arm tone start (start + duration) volume = (.error failure, next) ∧
        Replies e.device (Reply.accepted before ++ [.submit request (.error failure)]) next.device := by
  intro requests
  have hall := Replies.submitAll e.device (armingRequests e.envelope tone start (start + duration) volume)
  obtain ⟨failure, device, hsubmit, harm⟩ | ⟨device, hsubmit, harm⟩ :=
    e.arm_cases tone start (start + duration) volume
  · obtain ⟨last, hall, -⟩ | ⟨failure', last, before, request, after, hcut, hall, hreplies⟩ := hall
    · cases hsubmit.symm.trans hall
    · cases hsubmit.symm.trans hall
      refine .inr ⟨failure, _, before, request, after ++ [.onEnded tone tone], ?_, harm, hreplies⟩
      show armingRequests _ _ _ _ _ ++ [.onEnded tone tone] = _
      rw [hcut, List.append_assoc, List.cons_append]
  · obtain ⟨last, hall, hreplies⟩ | ⟨failure, last, before, request, after, -, hall, -⟩ := hall
    · cases hsubmit.symm.trans hall
      have htracked : (Engine.track { e with device } tone).device = device := device_track _ _
      rcases hreport : ToneDevice.submit device (.onEnded tone tone) with ⟨failure | accepted, last⟩
      · refine .inr ⟨failure, { Engine.track { e with device } tone with device := last }, _, _, [], rfl, ?_,
          hreplies.append (.single hreport)⟩
        rw [harm, submit, htracked, hreport]
      · refine .inl ⟨{ Engine.track { e with device } tone with device := last }, ?_, ?_⟩
        · rw [harm, submit, htracked, hreport]
        · show Replies e.device (Reply.accepted (_ ++ [.onEnded tone tone])) last
          rw [Reply.accepted, List.map_append]
          exact hreplies.append (.single hreport)
    · cases hsubmit.symm.trans hall

theorem perform_tries (e : Engine D R H) (i : Instruction R) :
    ∃ trial, Tries e.envelope i trial ∧ trial.answer = (e.perform i).value.1 ∧
      Replies e.device trial.replies (e.perform i).value.2.device := by
  cases i with
  | rest start duration => exact ⟨_, .silence, rfl, .nil e.device⟩
  | play frequency start duration volume =>
    rw [value_perform_play]
    obtain ⟨failure, device, hcreate, hplay⟩ | ⟨tone, device, hcreate, hplay⟩ :=
      e.play_cases frequency start duration volume
    · rw [hplay]
      exact ⟨_, .refused, rfl, .create hcreate (.nil device)⟩
    · have harms := arm_replies { e with device } tone start duration volume
      obtain ⟨next, harm, hplay⟩ | ⟨failure, next, harm, hplay⟩ := hplay
      · rw [hplay]
        obtain ⟨next', harm', hreplies⟩ | ⟨failure, next', before, request, after, -, harm', -⟩ := harms
        · cases harm.symm.trans harm'
          exact ⟨_, .scheduled, rfl, .create hcreate hreplies⟩
        · cases harm.symm.trans harm'
      · rw [hplay]
        obtain ⟨next', harm', -⟩ | ⟨failure', next', before, request, after, hcut, harm', hreplies⟩ := harms
        · cases harm.symm.trans harm'
        · cases harm.symm.trans harm'
          let released := (ToneDevice.submit next.device (.release tone)).1
          have hrelease : Replies next.device [.submit (.release tone) released]
              ((next.forget tone).submit (.release tone)).2.device := .single rfl
          have hboth := hreplies.append hrelease
          rw [List.append_assoc] at hboth
          exact ⟨_, .abandoned hcut, rfl, .create hcreate hboth⟩

theorem performAll_tries (e : Engine D R H) (is : List (Instruction R)) :
    ∃ trials, List.Forall₂ (Tries e.envelope) is trials ∧ (e.performAll is).1 = trials.map Trial.answer ∧
      Replies e.device (trials.flatMap Trial.replies) (e.performAll is).2.device := by
  induction is generalizing e with
  | nil => exact ⟨[], .nil, rfl, .nil e.device⟩
  | cons i rest ih =>
    obtain ⟨trial, hnow, hanswer, hreplies⟩ := e.perform_tries i
    obtain ⟨trials, hlater, hanswers, hreplies'⟩ := ih (e.perform i).value.2
    rw [envelope_perform] at hlater
    refine ⟨trial :: trials, .cons hnow hlater, ?_, hreplies.append hreplies'⟩
    rw [performAll_cons, hanswers, ← hanswer, List.map_cons]

end Engine

end MusicMacro
