import MusicMacro.Device.Failure
import MusicMacro.Score.Token
import MusicMacro.Sound.Waveform
import MusicMacro.Timeline.Instruction

/-!
# The journal

While it works, the library notes what it passes over, refuses and completes. The notes never change what is computed.

* `Event` : one thing that happened, with everything there is to say about it;
* `Noted` : a value together with the events of its computation, oldest first.
-/

namespace MusicMacro

/-- Something worth a line in the journal. -/
inductive Event (R : Type) where
  | skippedCharacter (position : Nat) (character : Char)
  | settingWithoutValue (s : Setting)
  | settingTooLarge (s : Setting) (digits : List Char)
  /-- A piece of a duration could not be read and took the default length. -/
  | durationFallback (fault : Fault) (default : UInt32)
  | defaultOctaveRefused (octave : Int)
  | unschedulable (token : Token) (seconds : R)
  | unplayable (token : Token) (frequency : R)
  | stepRefused (step : OctaveStep) (octave : Int)
  | octaveRefused (octave : UInt32)
  | zeroLength
  | zeroTempo
  | trackScheduled (tokens instructions : Nat) (cursor : R)
  | toneScheduled (handle : String) (frequency start stop : R) (volume : UInt32)
  /-- A half-scheduled tone could not be released. -/
  | abandonedToneKept (handle : String) (failure : Failure)
  | toneAbandoned (handle : String) (failure : Failure)
  | stopRefused (handle : String) (failure : Failure)
  | releaseRefused (handle : String) (failure : Failure)
  | allStopped (count : Nat)
  | instructionSkipped (track : Nat) (instruction : Instruction R) (failure : Failure)
  | songScheduled (tracks tones failed : Nat) (origin finish : R)
  /-- Nothing was rendered because a tone has no end. -/
  | endlessTones (tones : Nat)
  | rendered (frames : Nat) (now : R)
  | streamStarted (sampleRate channels : Nat) (waveform : Waveform)
  | tonesEnded (count : Nat)
  | noSettings
  | settingsIgnored (cause : String)
  deriving Repr

/-- A value and the events of its computation, oldest first. -/
structure Noted (R α : Type) where
  value : α
  events : List (Event R) := []

namespace Noted
variable {R α β : Type}

instance : Monad (Noted R) where
  pure a := ⟨a, []⟩
  bind x f := ⟨(f x.value).value, x.events ++ (f x.value).events⟩

def note (e : Event R) : Noted R Unit := ⟨(), [e]⟩

def noteIf (c : Bool) (e : Event R) : Noted R Unit := ⟨(), if c then [e] else []⟩

def noteAll (es : List (Event R)) : Noted R Unit := ⟨(), es⟩

@[simp] theorem value_pure (a : α) : (pure a : Noted R α).value = a := rfl

@[simp] theorem value_bind (x : Noted R α) (f : α → Noted R β) : (x >>= f).value = (f x.value).value := rfl

@[simp] theorem value_map (f : α → β) (x : Noted R α) : (f <$> x).value = f x.value := rfl

@[simp] theorem events_pure (a : α) : (pure a : Noted R α).events = [] := rfl

@[simp] theorem events_bind (x : Noted R α) (f : α → Noted R β) :
    (x >>= f).events = x.events ++ (f x.value).events := rfl

@[simp] theorem events_map (f : α → β) (x : Noted R α) : (f <$> x).events = x.events := List.append_nil _

instance : LawfulMonad (Noted R) := LawfulMonad.mk' (Noted R)
  (fun x => by cases x; simp [Functor.map])
  (fun a f => by simp [pure, bind])
  (fun x f g => by simp [bind])

end Noted

end MusicMacro
