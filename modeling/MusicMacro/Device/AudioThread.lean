import MusicMacro.Device.Queue
import MusicMacro.Sound.MasterBus
import MusicMacro.Sound.ToneBank

/-!
# The audio thread

A sound card asks for one buffer after the other. The thread that fills them takes its commands from one queue and
reports the tones that have ended through another, and it never waits for either.

* `AudioCommand` : what can be sent to the thread;
* `AudioThread` : the bank of the thread, its master bus, its clock and both queues;
* `AudioThread.push?` : the sending side of the command queue;
* `AudioThread.fill` : one buffer: commands, sound, limiter, clock, reports;
* `AudioThread.takeEnded` : the receiving side of the queue of ended tones.
-/

namespace MusicMacro

/-- What can be sent to the audio thread. -/
inductive AudioCommand (R S : Type) where
  | tone (id : ToneId) (request : ToneRequest R)
  | volume (value : S)
  deriving Repr

def AudioCommand.tone? {R S : Type} : AudioCommand R S → Option ToneId
  | .tone id _ => some id
  | .volume _ => none

/-- The thread that fills the buffers of a sound card, with both queues that lead to it. -/
structure AudioThread (R S : Type) where
  commands : Queue (AudioCommand R S)
  ended : Queue ToneId
  /-- Ended tones that found the queue full and are reported with a later buffer. -/
  unreported : List ToneId
  bank : ToneBank R
  master : MasterBus S
  clock : Nat
  channels : Nat
  sampleRate : Nat

namespace AudioThread
variable {R S : Type}

def fresh (w : Waveform) (master : MasterBus S) (channels sampleRate commands ended clock : Nat) : AudioThread R S where
  commands := .empty commands
  ended := .empty ended
  unreported := []
  bank := .silent w
  master := master
  clock := clock
  channels := channels
  sampleRate := sampleRate

def toneCount (t : AudioThread R S) : Nat := t.bank.size

/-- What the clock shows. It has 64 bits, and after the last frame that it can count it begins again at zero. -/
def position (t : AudioThread R S) : UInt64 := UInt64.ofNat t.clock

/-! ## The other ends of the queues -/

/-- Sends a command, unless the queue is full. -/
def push? (t : AudioThread R S) (command : AudioCommand R S) : Option (AudioThread R S) :=
  (t.commands.push? command).map fun commands => { t with commands }

def takeEnded (t : AudioThread R S) (most : Nat) : List ToneId × AudioThread R S :=
  let (ids, ended) := t.ended.take most
  (ids, { t with ended })

/-! ## Buffers -/

variable [Scalar R] [Amplitude S]

def obey (t : AudioThread R S) (command : AudioCommand R S) : AudioThread R S :=
  match command with
  | .tone id request => { t with bank := t.bank.apply id request }
  | .volume value => { t with master := t.master.setVolume value }

def drain (t : AudioThread R S) : AudioThread R S :=
  let (commands, rest) := t.commands.drain
  commands.foldl obey { t with commands := rest }

variable [Sampling R S]

/-- A buffer in which every sample is overwritten with silence. -/
def silenced (buffer : List S) : List S := buffer.map fun _ => Amplitude.silence

/-- Silences a buffer, renders into it, and moves the clock on by the frames in it. -/
def play (t : AudioThread R S) (buffer : List S) : List S × AudioThread R S :=
  let (mixed, ended, bank) := t.bank.render (silenced buffer) t.channels t.clock t.sampleRate
  (t.master.processBlock mixed,
    { t with bank, clock := t.clock + buffer.length / max t.channels 1, unreported := t.unreported ++ ended })

omit [Scalar R] [Amplitude S] [Sampling R S] in
def report (t : AudioThread R S) : AudioThread R S :=
  let (unreported, ended) := t.ended.pushAll t.unreported
  { t with unreported, ended }

/-- Fills a buffer that may hold anything: does the commands that wait, plays, and reports the tones that have ended. -/
def fill (t : AudioThread R S) (buffer : List S) : List S × AudioThread R S :=
  let (samples, played) := t.drain.play buffer
  (samples, played.report)

/-- Fills a new buffer of a length. -/
def process (t : AudioThread R S) (length : Nat) : List S × AudioThread R S :=
  t.fill (List.replicate length Amplitude.silence)

end AudioThread

end MusicMacro
