import MusicMacro.Device.Basic
import MusicMacro.Journal.Event
import MusicMacro.Sound.Envelope

/-!
# The playback engine

The engine turns instructions into calls of a tone device. It remembers every tone that it has started until the tone
ends, so that all of them can be silenced.

* `Engine` : a device, an envelope, and the active tones;
* `Engine.play` : one tone; if the device refuses any part of it, the whole tone is given up;
* `Engine.perform` : one instruction;
* `Engine.stopAll` : silences and releases every active tone;
* `Engine.ended` : tones that have come to their ends by themselves.
-/

namespace MusicMacro

/-- A device and the tones that it was given. -/
structure Engine (D R H : Type) where
  device : D
  envelope : Envelope R
  /-- The tones that were started and have not ended. Their order is not specified; here it is that of the starts. -/
  active : List H

namespace Engine
variable {D R H : Type}

def fresh (device : D) (envelope : Envelope R) : Engine D R H := ⟨device, envelope, []⟩

variable [DecidableEq H]

def isActive (e : Engine D R H) (tone : H) : Bool := e.active.elem tone

def track (e : Engine D R H) (tone : H) : Engine D R H :=
  if tone ∈ e.active then e else { e with active := e.active ++ [tone] }

def forget (e : Engine D R H) (tone : H) : Engine D R H := { e with active := e.active.filter (· ≠ tone) }

/-- Tones have ended and have said so. -/
def ended (e : Engine D R H) (tones : List H) : Engine D R H := tones.foldl forget e

variable [Scalar R] [ToneDevice D R H]

def submit (e : Engine D R H) (request : Request R H) : Except Failure Unit × Engine D R H :=
  let (answer, device) := ToneDevice.submit e.device request
  (answer, { e with device })

/-- What schedules a tone: the points of its envelope, its start and its stop. -/
def armingRequests (envelope : Envelope R) (tone : H) (start stop : R) (volume : UInt32) : List (Request R H) :=
  (envelope.points start (stop - start) volume).map (fun p => .gain tone p.time p.value)
    ++ [.start tone start, .stop tone stop]

/-- Schedules a tone on the device and asks to be told of its end, up to the first refusal. -/
def arm (e : Engine D R H) (tone : H) (start stop : R) (volume : UInt32) : Except Failure Unit × Engine D R H :=
  match ToneDevice.submitAll e.device (armingRequests e.envelope tone start stop volume) with
  | (.error failure, device) => (.error failure, { e with device })
  | (.ok (), device) => ({ e with device }.track tone).submit (.onEnded tone tone)

/-- Gives up a tone that could not be scheduled. -/
def abandon (e : Engine D R H) (tone : H) (failure : Failure) : Noted R (Engine D R H) := do
  let label := ToneDevice.label e.device tone
  let (answer, next) := (e.forget tone).submit (.release tone)
  match answer with
  | .ok () => pure ()
  | .error refusal => Noted.note (.abandonedToneKept label refusal)
  Noted.note (.toneAbandoned label failure)
  return next

/-- Sounds a frequency from `start` for a duration, at a loudness from 0 to 100. -/
def play (e : Engine D R H) (frequency start duration : R) (volume : UInt32) :
    Noted R (Except Failure H × Engine D R H) :=
  match ToneDevice.create e.device frequency with
  | (.error failure, device) => pure (.error failure, { e with device })
  | (.ok tone, device) =>
    let stop := start + duration
    match { e with device }.arm tone start stop volume with
    | (.ok (), next) =>
      ⟨(.ok tone, next), [.toneScheduled (ToneDevice.label next.device tone) frequency start stop volume]⟩
    | (.error failure, next) => do
      let last ← next.abandon tone failure
      return (.error failure, last)

/-- Performs an instruction; a silence asks nothing of the device. -/
def perform (e : Engine D R H) : Instruction R → Noted R (Except Failure (Option H) × Engine D R H)
  | .play frequency start duration volume => do
    let (answer, next) ← e.play frequency start duration volume
    return (answer.map some, next)
  | .rest .. => pure (.ok none, e)

/-- Stops a tone at once and releases it, whether or not the device agrees. -/
def silence (e : Engine D R H) (now : R) (tone : H) : Noted R (Engine D R H) := do
  let label := ToneDevice.label e.device tone
  let (stopped, e) := e.submit (.stop tone now)
  match stopped with
  | .ok () => pure ()
  | .error failure => Noted.note (.stopRefused label failure)
  let (released, e) := e.submit (.release tone)
  match released with
  | .ok () => pure ()
  | .error failure => Noted.note (.releaseRefused label failure)
  return e

def silenceEach (e : Engine D R H) (now : R) : List H → Noted R (Engine D R H)
  | [] => pure e
  | tone :: rest => do
    let next ← e.silence now tone
    next.silenceEach now rest

/-- Silences and releases every active tone; the number of them. It goes from the oldest to the newest, which is a
choice: the order is not specified, and what is proved about stopping does not depend on it. -/
def stopAll (e : Engine D R H) : Noted R (Nat × Engine D R H) := do
  let tones := e.active
  let last ← { e with active := [] }.silenceEach (ToneDevice.now e.device) tones
  Noted.note (.allStopped tones.length)
  return (tones.length, last)

end Engine

end MusicMacro
