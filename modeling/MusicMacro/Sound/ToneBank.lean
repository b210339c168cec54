import MusicMacro.Sound.Roster
import MusicMacro.Sound.Voice

/-!
# Tone banks

A bank holds the voices of one device and mixes them into a buffer of samples. The samples of a frame, one for each
channel, stand next to each other.

* `ToneRequest` : what can be asked of the voice of a tone; `ToneBank.apply` does it;
* `ToneBank.frame` : what the voices add to one frame;
* `ToneBank.render` : a block of frames, after which the voices that have stopped are gone.
-/

namespace MusicMacro

/-- All voices of a device. -/
structure ToneBank (R : Type) where
  waveform : Waveform
  voices : Roster (Voice R)

/-- A change to the voice of one tone. -/
inductive ToneRequest (R : Type) where
  | create (frequency : R)
  | gain (time value : R)
  | start (time : R)
  | stop (time : R)
  | release
  deriving Repr

namespace ToneBank
variable {R S : Type}

def silent (w : Waveform) : ToneBank R := ⟨w, .empty⟩

def size (b : ToneBank R) : Nat := b.voices.size

/-- Changes the voice of a tone; a tone without a voice is left alone, but for its creation. -/
def apply [Scalar R] (b : ToneBank R) (id : ToneId) (request : ToneRequest R) : ToneBank R :=
  { b with
    voices := match request with
      | .create frequency => b.voices.insert id (.silent frequency)
      | .gain time value => b.voices.modify id fun v => v.addPoint time value
      | .start time => b.voices.modify id fun v => { v with start? := some time }
      | .stop time => b.voices.modify id fun v => { v with stop? := some time }
      | .release => b.voices.erase id }

/-- The latest stop of any voice, if every voice has one and it is finite. -/
def finishTime? [Scalar R] (b : ToneBank R) : Option R :=
  match b.voices.entries.mapM fun e => e.2.stop? with
  | some (first :: rest) => some (rest.foldl Scalar.maxOf first) |>.filter Scalar.isFinite
  | _ => none

variable [Scalar R] [Amplitude S] [Sampling R S]

/-- What the voices add to the samples of frame `n`, in the order of their numbers, and the bank for the next frame. -/
def frame (b : ToneBank R) (rate n : Nat) : List S × ToneBank R :=
  let (heard, voices) := b.voices.mapOut (Voice.tick b.waveform rate n)
  (heard.filterMap id, { b with voices })

/-- Mixes some frames, from frame `n` on, into the front of a buffer. -/
def mix (b : ToneBank R) (channels rate n : Nat) : Nat → List S → List S × ToneBank R
  | 0, buffer => (buffer, b)
  | frames + 1, buffer =>
    let (heard, next) := b.frame rate n
    let (rest, last) := next.mix channels rate (n + 1) frames (buffer.drop channels)
    ((buffer.take channels).map (fun s => heard.foldl (· + ·) s) ++ rest, last)

omit [Amplitude S] [Sampling R S] in
/-- The bank without the voices that have stopped by a time, and the numbers of their tones in ascending order. -/
def retire (b : ToneBank R) (time : R) : List ToneId × ToneBank R :=
  ((b.voices.filter fun _ v => v.stoppedBy time).ids, { b with voices := b.voices.filter fun _ v => !v.stoppedBy time })

/-- Mixes a block into a buffer: as many frames as it holds, from frame `first` on. At the end of the block the voices
that have stopped are dropped, and their tones are reported. -/
def render (b : ToneBank R) (buffer : List S) (channels first rate : Nat) : List S × List ToneId × ToneBank R :=
  let channels := max channels 1
  let frames := buffer.length / channels
  let (mixed, sounded) := b.mix channels rate first frames buffer
  let (ended, kept) := sounded.retire (Scalar.frameTime rate (first + frames))
  (mixed, ended, kept)

end ToneBank

end MusicMacro
