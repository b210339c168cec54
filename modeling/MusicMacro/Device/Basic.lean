import MusicMacro.Device.Failure

/-!
# Tone devices

A tone device makes tones and changes them at absolute times on a clock of its own. Every request can be refused.

* `Request` : what can be asked for a tone once it is there;
* `ToneDevice` : a device, as the steps that it takes;
* `ToneDevice.submitAll` : requests one after the other, up to the first refusal;
* `Call` : an entry in the log of a device.
-/

namespace MusicMacro

/-- Something asked for a tone. -/
inductive Request (R H : Type) where
  /-- Reach a gain at a time, in a straight line from the gain before. -/
  | gain (tone : H) (time value : R)
  | start (tone : H) (time : R)
  /-- Stop at a time, instead of at any time named before. -/
  | stop (tone : H) (time : R)
  | onEnded (tone report : H)
  /-- Drop the tone now, and forget what was to be reported. -/
  | release (tone : H)
  deriving DecidableEq, Repr

def Request.tone {R H : Type} : Request R H → H
  | gain tone _ _ | start tone _ | stop tone _ | onEnded tone _ | release tone => tone

/-- A maker of tones. A step gives an answer and the device after it. -/
class ToneDevice (D : Type) (R H : outParam Type) where
  create : D → R → Except Failure H × D
  submit : D → Request R H → Except Failure Unit × D
  now : D → R
  label : D → H → String

namespace ToneDevice
variable {D R H : Type} [ToneDevice D R H]

/-- Submits requests one after the other, up to the first refusal. -/
def submitAll (d : D) : List (Request R H) → Except Failure Unit × D
  | [] => (.ok (), d)
  | request :: rest =>
    match submit d request with
    | (.ok (), next) => submitAll next rest
    | (.error failure, next) => (.error failure, next)

/-- Submits one request over and over, up to the first refusal or a number of times: how often it was accepted, and
the refusal. -/
def submitUpTo (request : Request R H) : Nat → D → Nat → (Nat × Option Failure) × D
  | 0, d, sent => ((sent, none), d)
  | most + 1, d, sent =>
    match submit d request with
    | (.ok (), next) => submitUpTo request most next (sent + 1)
    | (.error failure, next) => ((sent, some failure), next)

end ToneDevice

/-- An entry in the log of a device. -/
inductive Call (R H : Type) where
  | create (tone : H) (frequency : R)
  | request (r : Request R H)
  deriving DecidableEq, Repr

end MusicMacro
