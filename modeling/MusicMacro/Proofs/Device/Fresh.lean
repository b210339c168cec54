import MusicMacro.Device.Offline
import MusicMacro.Device.Scripted
import MusicMacro.Device.Synth

/-!
# Fresh handles

* `FreshHandles D R H` : a device of type `D` knows the handles that it has given out, and a tone that it makes gets
  another one; it may refuse whatever it wants;
* `FreshHandles.submitAll_keeps` : requests make no handle free again;
* every device of this library counts its tones: the scripted one, the offline one and the synthesizer have instances.
-/

namespace MusicMacro

/-- A device that gives out no handle twice. -/
class FreshHandles (D : Type) (R H : outParam Type) [ToneDevice D R H] where
  issued : D → H → Prop
  create_fresh : ∀ {d next : D} {frequency : R} {tone : H},
    ToneDevice.create d frequency = (.ok tone, next) → ¬ issued d tone ∧ issued next tone
  create_keeps : ∀ (d : D) (frequency : R) (tone : H), issued d tone → issued (ToneDevice.create d frequency).2 tone
  submit_keeps : ∀ (d : D) (request : Request R H) (tone : H),
    issued d tone → issued (ToneDevice.submit d request).2 tone

/-- What no request breaks holds after many, also if one of them is refused. -/
theorem ToneDevice.submitAll_induction {D R H : Type} [ToneDevice D R H] {P : D → Prop} {requests : List (Request R H)}
    (hstep : ∀ d, ∀ request ∈ requests, P d → P (submit d request).2) {d : D} (h : P d) :
    P (submitAll d requests).2 := by
  induction requests generalizing d with
  | nil => exact h
  | cons request rest ih =>
    have hnext := hstep d request List.mem_cons_self h
    unfold submitAll
    split
    · rename_i next hsubmit
      rw [hsubmit] at hnext
      exact ih (fun d other hother => hstep d other (List.mem_cons_of_mem _ hother)) hnext
    · rename_i failure next hsubmit
      rw [hsubmit] at hnext
      exact hnext

theorem FreshHandles.submitAll_keeps {D R H : Type} [ToneDevice D R H] [FreshHandles D R H] (d : D)
    (requests : List (Request R H)) {tone : H} (h : issued d tone) : issued (ToneDevice.submitAll d requests).2 tone :=
  ToneDevice.submitAll_induction (P := fun d => issued d tone) (fun d request _ => submit_keeps d request tone) h

/-! ## Devices that count -/

variable {R S : Type}

instance : FreshHandles (ScriptedDevice R) R ToneId where
  issued d tone := tone < d.nextHandle
  create_fresh {d next frequency tone} h := by
    simp only [ToneDevice.create, ScriptedDevice.create] at h
    split at h
    · cases h
    · cases h
      exact ⟨Nat.lt_irrefl _, Nat.lt_succ_self _⟩
  create_keeps d frequency tone h := by
    simp only [ToneDevice.create, ScriptedDevice.create]
    split
    · exact h
    · exact Nat.lt_succ_of_lt h
  submit_keeps d request tone h := by
    simp only [ToneDevice.submit, ScriptedDevice.submit]
    split
    · exact h
    · exact h

instance [Scalar R] [Amplitude S] [Sampling R S] : FreshHandles (OfflineDevice R S) R ToneId where
  issued d tone := tone < d.nextId
  create_fresh {d next frequency tone} h := by
    cases h
    exact ⟨Nat.lt_irrefl _, Nat.lt_succ_self _⟩
  create_keeps d frequency tone h := Nat.lt_succ_of_lt h
  submit_keeps d request tone h := by
    cases request <;> exact h

theorem SynthDevice.nextId_send (d : SynthDevice R S) (command : AudioCommand R S) :
    (d.send command).2.nextId = d.nextId := by
  unfold send
  split <;> rfl

theorem SynthDevice.submit_cases (d : SynthDevice R S) (request : Request R ToneId) :
    (∃ reports, d.submit request = (.ok (), { d with reports })) ∨
      ∃ command reports, d.submit request = { d with reports }.send command := by
  cases request with
  | onEnded id report => exact .inl ⟨_, rfl⟩
  | release id => exact .inr ⟨.tone id .release, d.reports.erase id, rfl⟩
  | gain id time value => exact .inr ⟨.tone id (.gain time value), d.reports, rfl⟩
  | start id time => exact .inr ⟨.tone id (.start time), d.reports, rfl⟩
  | stop id time => exact .inr ⟨.tone id (.stop time), d.reports, rfl⟩

theorem SynthDevice.nextId_submit (d : SynthDevice R S) (request : Request R ToneId) :
    (d.submit request).2.nextId = d.nextId := by
  rcases d.submit_cases request with ⟨reports, hsubmit⟩ | ⟨command, reports, hsubmit⟩
  · rw [hsubmit]
  · rw [hsubmit]
    exact SynthDevice.nextId_send { d with reports } command

instance [Scalar R] : FreshHandles (SynthDevice R S) R ToneId where
  issued d tone := tone < d.nextId
  create_fresh {d next frequency tone} h := by
    simp only [ToneDevice.create, SynthDevice.create] at h
    split at h
    · cases h
      exact ⟨Nat.lt_irrefl _, Nat.lt_succ_self _⟩
    · cases h
  create_keeps d frequency tone h := by
    have hid := d.nextId_send (.tone d.nextId (.create frequency))
    simp only [ToneDevice.create, SynthDevice.create]
    split
    · exact Nat.lt_succ_of_lt h
    · rename_i failure sent hsend
      rw [hsend] at hid
      exact Nat.lt_of_lt_of_eq h hid.symm
  submit_keeps d request tone h := Nat.lt_of_lt_of_eq h (d.nextId_submit request).symm

end MusicMacro
