import MusicMacro.Proofs.Performance.Registry

/-!
# A device on record

Every call to a device is put on record, with its answer, and passed on. The device cannot tell, and neither can the
engine.

* `Attempt` : a call and whether it was accepted;
* `Recorder` : a device with the record of the calls to it;
* `Relays` : a step of one device is a step of another; so it is for the device of a recorder (`Recorder.relays_device`)
  and for a recorder with an older record (`Recorder.relays_since`);
* `Engine.act_device` : an engine does on a recorder what it does on the device itself;
* `Engine.act_since` : what it does there is added to the record.
-/

namespace MusicMacro

/-- A call to a device, as it went. -/
inductive Attempt (R H : Type) where
  | made (tone : H) (frequency : R)
  | unmade (frequency : R)
  | asked (request : Request R H) (accepted : Bool)
  deriving DecidableEq, Repr

namespace Attempt
variable {R H : Type}

def tone? : Attempt R H → Option H
  | made tone _ => some tone
  | unmade _ => none
  | asked request _ => some request.tone

def ofCreate (frequency : R) : Except Failure H → Attempt R H
  | .ok tone => made tone frequency
  | .error _ => unmade frequency

def ofSubmit (request : Request R H) (answer : Except Failure Unit) : Attempt R H := asked request answer.isOk

def accepted (requests : List (Request R H)) : List (Attempt R H) := requests.map fun request => asked request true

end Attempt

/-- A device with the record of the calls to it. -/
structure Recorder (D R H : Type) where
  device : D
  calls : List (Attempt R H)

section Recorder
variable {D R H : Type} [ToneDevice D R H]

namespace Recorder

instance : ToneDevice (Recorder D R H) R H where
  create r frequency :=
    let (answer, device) := ToneDevice.create r.device frequency
    (answer, ⟨device, r.calls ++ [.ofCreate frequency answer]⟩)
  submit r request :=
    let (answer, device) := ToneDevice.submit r.device request
    (answer, ⟨device, r.calls ++ [.ofSubmit request answer]⟩)
  now r := ToneDevice.now r.device
  label r := ToneDevice.label r.device

instance [FreshHandles D R H] : FreshHandles (Recorder D R H) R H where
  issued r := FreshHandles.issued r.device
  create_fresh {r next frequency tone} h := by
    have hcreate : ToneDevice.create r.device frequency = (.ok tone, next.device) := by
      have hanswer := congrArg Prod.fst h
      have hdevice := congrArg (fun o => o.2.device) h
      exact Prod.ext hanswer hdevice
    exact FreshHandles.create_fresh hcreate
  create_keeps r frequency tone h := FreshHandles.create_keeps r.device frequency tone h
  submit_keeps r request tone h := FreshHandles.submit_keeps r.device request tone h

end Recorder

/-! ## Devices that pass on every call -/

/-- Every step of a device is a step of another one, with the same answer. -/
structure Relays {D D' R H : Type} [ToneDevice D R H] [ToneDevice D' R H] (f : D → D') : Prop where
  create : ∀ d frequency, ToneDevice.create (f d) frequency = Prod.map id f (ToneDevice.create d frequency)
  submit : ∀ d request, ToneDevice.submit (f d) request = Prod.map id f (ToneDevice.submit d request)
  now : ∀ d, ToneDevice.now (f d) = ToneDevice.now d

namespace Recorder

theorem relays_device : Relays (Recorder.device : Recorder D R H → D) := ⟨fun _ _ => rfl, fun _ _ => rfl, fun _ => rfl⟩

/-- A recorder, with an older record before its own. -/
def since (older : List (Attempt R H)) (r : Recorder D R H) : Recorder D R H := ⟨r.device, older ++ r.calls⟩

theorem relays_since (older : List (Attempt R H)) : Relays (since older : Recorder D R H → Recorder D R H) := by
  refine ⟨fun r frequency => ?_, fun r request => ?_, fun _ => rfl⟩
  · refine Prod.ext rfl (congrArg (Recorder.mk _) ?_)
    exact List.append_assoc ..
  · refine Prod.ext rfl (congrArg (Recorder.mk _) ?_)
    exact List.append_assoc ..

end Recorder

end Recorder

/-! ## Engines -/

namespace Engine

section Relays
variable {D D' R H : Type} {f : D → D'}

def through (f : D → D') (e : Engine D R H) : Engine D' R H := ⟨f e.device, e.envelope, e.active⟩

variable [DecidableEq H]

theorem track_through (e : Engine D R H) (tone : H) : (e.through f).track tone = (e.track tone).through f := by
  by_cases h : tone ∈ e.active
  · rw [track, track, if_pos h]
    exact if_pos h
  · rw [track, track, if_neg h]
    exact if_neg h

variable [ToneDevice D R H] [ToneDevice D' R H]

omit [DecidableEq H] in
theorem submit_through (hf : Relays f) (e : Engine D R H) (request : Request R H) :
    (e.through f).submit request = Prod.map id (through f) (e.submit request) := by
  simp only [submit, through, hf.submit, Prod.map, id]

omit [DecidableEq H] in
theorem submitAll_relays (hf : Relays f) (d : D) (requests : List (Request R H)) :
    ToneDevice.submitAll (f d) requests = Prod.map id f (ToneDevice.submitAll d requests) := by
  induction requests generalizing d with
  | nil => rfl
  | cons request rest ih =>
    rw [ToneDevice.submitAll, ToneDevice.submitAll, hf.submit]
    rcases ToneDevice.submit d request with ⟨answer, next⟩
    cases answer with
    | error failure => rfl
    | ok accepted => exact ih next

variable [Scalar R]

theorem arm_through (hf : Relays f) (e : Engine D R H) (tone : H) (start stop : R) (volume : UInt32) :
    (e.through f).arm tone start stop volume = Prod.map id (through f) (e.arm tone start stop volume) := by
  have hall := submitAll_relays hf e.device (armingRequests e.envelope tone start stop volume)
  obtain ⟨failure, device, hsubmit, harm⟩ | ⟨device, hsubmit, harm⟩ := e.arm_cases tone start stop volume
  · rw [hsubmit] at hall
    have hfirst : (e.through f).arm tone start stop volume =
        (.error failure, (Engine.mk device e.envelope e.active).through f) := by
      simp only [arm, through, hall, Prod.map, id]
    rw [hfirst, harm]
    rfl
  · rw [hsubmit] at hall
    have hfirst : (e.through f).arm tone start stop volume =
        (((Engine.mk device e.envelope e.active).through f).track tone).submit (.onEnded tone tone) := by
      simp only [arm, through, hall, Prod.map, id]
    rw [hfirst, harm, track_through, submit_through hf]

theorem play_through (hf : Relays f) (e : Engine D R H) (frequency start duration : R) (volume : UInt32) :
    ((e.through f).play frequency start duration volume).value =
      Prod.map id (through f) (e.play frequency start duration volume).value := by
  have hcreate := hf.create e.device frequency
  rcases hmake : ToneDevice.create e.device frequency with ⟨failure | tone, device⟩
  · rw [hmake] at hcreate
    simp only [play, through, hcreate, hmake, Prod.map, id, Noted.value_pure]
  · have harm := arm_through hf { e with device } tone start (start + duration) volume
    rw [hmake] at hcreate
    rcases hanswer : Engine.arm { e with device } tone start (start + duration) volume with ⟨failure | accepted, next⟩
    · rw [hanswer] at harm
      have hrelease := submit_through hf (next.forget tone) (.release tone)
      simp only [play, through, hcreate, hmake, hanswer, Prod.map, id] at harm ⊢
      simp only [harm, Noted.value_bind, Noted.value_pure, value_abandon]
      exact congrArg (fun o => (Except.error failure, o.2)) hrelease
    · rw [hanswer] at harm
      simp only [play, through, hcreate, hmake, hanswer, Prod.map, id] at harm ⊢
      simp only [harm]

omit [DecidableEq H] [Scalar R] in
theorem silenceEach_through (hf : Relays f) (e : Engine D R H) (now : R) (tones : List H) :
    ((e.through f).silenceEach now tones).value = (e.silenceEach now tones).value.through f := by
  induction tones generalizing e with
  | nil => rfl
  | cons tone rest ih =>
    unfold silenceEach
    simp only [Noted.value_bind, value_silence, submit_through hf, Prod.map, ih]

omit [DecidableEq H] [Scalar R] in
theorem stopAll_through (hf : Relays f) (e : Engine D R H) :
    (e.through f).stopAll.value = Prod.map id (through f) e.stopAll.value := by
  rw [value_stopAll, value_stopAll]
  have hnow : ToneDevice.now (e.through f).device = ToneDevice.now e.device := hf.now e.device
  rw [hnow]
  exact Prod.ext rfl (silenceEach_through hf { e with active := [] } (ToneDevice.now e.device) e.active)

end Relays

end Engine

/-! ## Actions on record -/

/-- What a device does by itself is not a call. -/
def DeviceStep.recorded {D R H : Type} [ToneDevice D R H] [FreshHandles D R H] (step : DeviceStep D R H) :
    DeviceStep (Recorder D R H) R H where
  next r := ⟨step.next r.device, r.calls⟩
  keeps r tone h := step.keeps r.device tone h

def EngineAction.map {D D' R H : Type} [ToneDevice D R H] [FreshHandles D R H] [ToneDevice D' R H] [FreshHandles D' R H]
    (g : DeviceStep D R H → DeviceStep D' R H) : EngineAction D R H → EngineAction D' R H
  | .play frequency start duration volume => .play frequency start duration volume
  | .perform i => .perform i
  | .stopAll => .stopAll
  | .ended tone => .ended tone
  | .elapse step => .elapse (g step)

namespace Engine

section Relays
variable {D₀ D D' R H : Type} {f : D → D'} [DecidableEq H] [Scalar R] [ToneDevice D₀ R H] [FreshHandles D₀ R H]
  [ToneDevice D R H] [FreshHandles D R H] [ToneDevice D' R H] [FreshHandles D' R H]

theorem act_through (hf : Relays f) {g : DeviceStep D₀ R H → DeviceStep D R H}
    {k : DeviceStep D₀ R H → DeviceStep D' R H} (hsteps : ∀ step d, (k step).next (f d) = f ((g step).next d))
    (e : Engine D R H) (action : EngineAction D₀ R H) :
    (e.through f).act (action.map k) = Prod.map id (through f) (e.act (action.map g)) := by
  have hplay : ∀ frequency start duration volume,
      (e.through f).act (.play frequency start duration volume) =
        Prod.map id (through f) (e.act (.play frequency start duration volume)) := by
    intro frequency start duration volume
    simp only [act, play_through hf, Prod.map, id]
  cases action with
  | play frequency start duration volume => exact hplay frequency start duration volume
  | perform i =>
    cases i with
    | play frequency start duration volume =>
      show (e.through f).act (.perform _) = Prod.map id (through f) (e.act (.perform _))
      rw [act_perform_play, act_perform_play]
      exact hplay frequency start duration volume
    | rest start duration => rfl
  | stopAll => simp only [EngineAction.map, act, stopAll_through hf, Prod.map, id]
  | ended tone => rfl
  | elapse step =>
    have hstep := hsteps step e.device
    simp only [EngineAction.map, act, through, Prod.map, id, hstep]

end Relays

section Recorded
variable {D R H : Type} [DecidableEq H] [Scalar R] [ToneDevice D R H] [FreshHandles D R H]

/-- **The recorder is not noticed**: an engine does on it what it does on its device. -/
theorem act_device (e : Engine (Recorder D R H) R H) (action : EngineAction D R H) :
    (e.through Recorder.device).act action = Prod.map id (through Recorder.device) (e.act (action.map .recorded)) := by
  have h := act_through Recorder.relays_device (g := DeviceStep.recorded) (k := id) (fun _ _ => rfl) e action
  have hsame : action.map id = action := by cases action <;> rfl
  rw [hsame] at h
  exact h

theorem act_since (older : List (Attempt R H)) (e : Engine (Recorder D R H) R H) (action : EngineAction D R H) :
    (e.through (Recorder.since older)).act (action.map .recorded) =
      Prod.map id (through (Recorder.since older)) (e.act (action.map .recorded)) :=
  act_through (Recorder.relays_since older) (fun _ _ => rfl) e action

end Recorded

end Engine

end MusicMacro
