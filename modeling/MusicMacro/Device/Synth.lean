import MusicMacro.Device.AudioThread
import MusicMacro.Device.Basic
import MusicMacro.Journal.Event

/-!
# The synthesizer

The synthesizer plays through a sound card. What is asked of it goes to the audio thread through a queue, and is refused
when that is full; the tones that end are reported when somebody asks.

* `Card` : a sound card and the one call that it may fail at;
* `SynthDevice` : the sending side, with the audio thread on the other;
* `SynthDevice.connect` : opens the card;
* `SynthDevice.pull` : one buffer that the card asks for;
* `SynthDevice.poll` : what the ended tones report.
-/

namespace MusicMacro

/-- What is asked of a sound card. -/
inductive CardCall where
  | config
  | build
  | play
  | pause
  deriving DecidableEq, Repr

/-- A sound card: the configuration that it prefers, and the call that it refuses, if any. -/
structure Card where
  sampleRate : Nat
  channels : Nat
  fails? : Option CardCall := none
  cause : String := ""
  deriving Repr

def Card.failure (c : Card) : CardCall → Failure
  | .config => .deviceConfig c.cause
  | .build => .streamBuild c.cause
  | .play | .pause => .streamPlay c.cause

def Card.ask (c : Card) (call : CardCall) : Except Failure Unit :=
  if c.fails? = some call then .error (c.failure call) else .ok ()

/-- A synthesizer on a sound card. -/
structure SynthDevice (R S : Type) where
  card : Card
  thread : AudioThread R S
  reports : Roster ToneId
  nextId : ToneId
  playing : Bool

namespace SynthDevice
variable {R S : Type}

def commandCapacity : Nat := 65536

def endedCapacity : Nat := 4096

/-- Opens the card and starts its stream; a given sample rate goes before the one that the card prefers. -/
def connect [Amplitude S] (card? : Option Card) (w : Waveform) (volume : S) (sampleRate? : Option Nat) :
    Noted R (Except Failure (SynthDevice R S)) :=
  match card? with
  | none => pure (.error (.deviceUnavailable "no audio output device found"))
  | some card =>
    let sampleRate := sampleRate?.getD card.sampleRate
    match (do card.ask .config; card.ask .build; card.ask .play : Except Failure Unit) with
    | .error failure => pure (.error failure)
    | .ok () =>
      let master := MasterBus.ofVolume volume MasterBus.usualCeiling
      let thread := AudioThread.fresh w master card.channels sampleRate commandCapacity endedCapacity 0
      ⟨.ok ⟨card, thread, .empty, 0, true⟩, [.streamStarted sampleRate card.channels w]⟩

/-- The time of the last frame that the card has taken. -/
def time [Scalar R] (d : SynthDevice R S) : R := Scalar.frameTime d.thread.sampleRate d.thread.clock

/-! ## Requests -/

def send (d : SynthDevice R S) (command : AudioCommand R S) : Except Failure Unit × SynthDevice R S :=
  match d.thread.push? command with
  | some thread => (.ok (), { d with thread })
  | none => (.error .bufferFull, d)

/-- Makes a tone; a refused one uses up no number. -/
def create (d : SynthDevice R S) (frequency : R) : Except Failure ToneId × SynthDevice R S :=
  match d.send (.tone d.nextId (.create frequency)) with
  | (.ok (), next) => (.ok d.nextId, { next with nextId := d.nextId + 1 })
  | (.error failure, next) => (.error failure, next)

/-- Does what is asked for a tone. What to report is kept on this side and always accepted. -/
def submit (d : SynthDevice R S) (request : Request R ToneId) : Except Failure Unit × SynthDevice R S :=
  match request with
  | .gain id time value => d.send (.tone id (.gain time value))
  | .start id time => d.send (.tone id (.start time))
  | .stop id time => d.send (.tone id (.stop time))
  | .onEnded id report => (.ok (), { d with reports := d.reports.insert id report })
  | .release id => { d with reports := d.reports.erase id }.send (.tone id .release)

instance [Scalar R] : ToneDevice (SynthDevice R S) R ToneId where
  create := create
  submit := submit
  now := time
  label _ id := "ToneId(" ++ toString id ++ ")"

def setVolume (d : SynthDevice R S) (volume : S) : Except Failure Unit × SynthDevice R S := d.send (.volume volume)

/-! ## The card -/

/-- Fills one buffer of some frames, unless the stream is paused. -/
def pull [Scalar R] [Amplitude S] [Sampling R S] (d : SynthDevice R S) (frames : Nat) :
    Option (List S × SynthDevice R S) :=
  if d.playing then
    let (samples, thread) := d.thread.process (frames * d.card.channels)
    some (samples, { d with thread })
  else none

/-- What the tones report that have ended, one after the other; a tone without a report is passed over. -/
def collect (reports : Roster ToneId) : List ToneId → List ToneId × Roster ToneId
  | [] => ([], reports)
  | id :: rest =>
    let (later, last) := collect (reports.erase id) rest
    ((reports.get? id).toList ++ later, last)

def poll (d : SynthDevice R S) : Noted R (List ToneId × SynthDevice R S) := do
  let (ids, thread) := d.thread.takeEnded d.thread.ended.size
  let (fired, reports) := collect d.reports ids
  Noted.noteIf (!fired.isEmpty) (.tonesEnded fired.length)
  return (fired, { d with thread, reports })

/-- Pauses the stream, and the clock with it. -/
def pause (d : SynthDevice R S) : Except Failure Unit × SynthDevice R S :=
  match d.card.ask .pause with
  | .ok () => (.ok (), { d with playing := false })
  | .error failure => (.error failure, d)

def resume (d : SynthDevice R S) : Except Failure Unit × SynthDevice R S :=
  match d.card.ask .play with
  | .ok () => (.ok (), { d with playing := true })
  | .error failure => (.error failure, d)

end SynthDevice

end MusicMacro
