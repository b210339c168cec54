import MusicMacro.Device.Basic
import MusicMacro.Journal.Event
import MusicMacro.Sound.MasterBus
import MusicMacro.Sound.ToneBank

/-!
# Rendering without a sound card

The clock of this device stands still until sound is rendered, and then moves by exactly that much. It refuses nothing
and keeps a log of all calls.

* `OfflineDevice` : a bank, a master bus and a frame count;
* `OfflineDevice.block` : one block of sound, with the reports of the tones that end in it;
* `OfflineDevice.renderUntil` : sound up to a time, in blocks of at most 1024 frames;
* `OfflineDevice.render` : sound up to the end of the last tone.
-/

namespace MusicMacro

/-- A device that renders into memory. -/
structure OfflineDevice (R S : Type) where
  bank : ToneBank R
  master : MasterBus S
  frame : Nat
  sampleRate : Nat
  channels : Nat
  nextId : ToneId
  /-- The log, the last call first. -/
  lastCalls : List (Call R ToneId)
  reports : Roster ToneId
  sampleRate_pos : 0 < sampleRate
  channels_pos : 0 < channels

/-- What a rendering yields. -/
structure Rendering (S : Type) where
  samples : List S
  reports : List ToneId

namespace OfflineDevice
variable {R S : Type} [Scalar R] [Amplitude S] [Sampling R S]

def blockFrames : Nat := 1024

omit [Scalar R] [Sampling R S] in
/-- A device before its first sound; a sample rate or a number of channels of zero counts as one. -/
def fresh (w : Waveform) (sampleRate channels : Nat) (master : MasterBus S := .usual) : OfflineDevice R S where
  bank := .silent w
  master := master
  frame := 0
  sampleRate := max sampleRate 1
  channels := max channels 1
  nextId := 0
  lastCalls := []
  reports := .empty
  sampleRate_pos := by omega
  channels_pos := by omega

/-- The time up to which sound was rendered. -/
def time (d : OfflineDevice R S) : R := Scalar.frameTime d.sampleRate d.frame

omit [Scalar R] [Amplitude S] [Sampling R S] in
/-- The log, the first call first. -/
def calls (d : OfflineDevice R S) : List (Call R ToneId) := d.lastCalls.reverse

omit [Scalar R] [Amplitude S] [Sampling R S] in
/-- The number of tones that have not ended. -/
def pending (d : OfflineDevice R S) : Nat := d.bank.size

/-! ## Requests -/

def create (d : OfflineDevice R S) (frequency : R) : ToneId × OfflineDevice R S :=
  (d.nextId,
    { d with
      bank := d.bank.apply d.nextId (.create frequency)
      nextId := d.nextId + 1
      lastCalls := .create d.nextId frequency :: d.lastCalls })

def submit (d : OfflineDevice R S) (request : Request R ToneId) : OfflineDevice R S :=
  let logged := { d with lastCalls := .request request :: d.lastCalls }
  match request with
  | .gain id time value => { logged with bank := d.bank.apply id (.gain time value) }
  | .start id time => { logged with bank := d.bank.apply id (.start time) }
  | .stop id time => { logged with bank := d.bank.apply id (.stop time) }
  | .onEnded id report => { logged with reports := d.reports.insert id report }
  | .release id => { logged with bank := d.bank.apply id .release, reports := d.reports.erase id }

instance : ToneDevice (OfflineDevice R S) R ToneId where
  create d frequency := let (id, next) := d.create frequency; (.ok id, next)
  submit d request := (.ok (), d.submit request)
  now := time
  label _ id := "ToneId(" ++ toString id ++ ")"

/-! ## Rendering -/

/-- Renders one block: its samples, what the tones that ended in it report, and the device after it. -/
def block (d : OfflineDevice R S) (frames : Nat) : Rendering S × OfflineDevice R S :=
  let quiet : List S := List.replicate (frames * d.channels) Amplitude.silence
  let (mixed, ended, bank) := d.bank.render quiet d.channels d.frame d.sampleRate
  (⟨d.master.processBlock mixed, ended.filterMap d.reports.get?⟩,
    { d with
      bank
      frame := d.frame + frames
      reports := d.reports.filter fun id _ => !ended.contains id })

def blocks (d : OfflineDevice R S) : List Nat → Rendering S × OfflineDevice R S
  | [] => (⟨[], []⟩, d)
  | frames :: rest =>
    let (now, next) := d.block frames
    let (later, last) := next.blocks rest
    (⟨now.samples ++ later.samples, now.reports ++ later.reports⟩, last)

/-- The sizes of the blocks in which some frames are rendered: full ones, and what is left. -/
def blockSizes (frames : Nat) : List Nat :=
  List.replicate (frames / blockFrames) blockFrames
    ++ (if frames % blockFrames = 0 then [] else [frames % blockFrames])

/-- Renders up to a time; a time that has passed yields nothing. -/
def renderUntil (d : OfflineDevice R S) (finish : R) : Noted R (Rendering S × OfflineDevice R S) := do
  let target := Scalar.ceilNat (Scalar.maxOf finish ((0 : Nat) : R) * ((d.sampleRate : Nat) : R))
  let (rendering, last) := d.blocks (blockSizes (target - d.frame))
  Noted.note (.rendered (rendering.samples.length / d.channels) last.time)
  return (rendering, last)

/-- Renders up to the last stop of any tone. Nothing is rendered while some tone has no stop. -/
def render (d : OfflineDevice R S) : Noted R (Rendering S × OfflineDevice R S) :=
  match d.bank.finishTime? with
  | some finish => d.renderUntil finish
  | none => do
    Noted.noteIf (d.bank.size != 0) (.endlessTones d.bank.size)
    return (⟨[], []⟩, d)

end OfflineDevice

end MusicMacro
