/-!
# Failures of sound output

* `Failure` : why a device did not do what it was asked for;
* `Failure.message` : the same in words.
-/

namespace MusicMacro

/-- Why a device did not do what it was asked for. -/
inductive Failure where
  | deviceUnavailable (cause : String)
  | deviceConfig (cause : String)
  | streamBuild (cause : String)
  | streamPlay (cause : String)
  | bufferFull
  | wav (cause : String)
  | io (cause : String)
  deriving DecidableEq, Repr

namespace Failure

def message : Failure → String
  | deviceUnavailable cause => "tone device unavailable: " ++ cause
  | deviceConfig cause => "device config error: " ++ cause
  | streamBuild cause => "stream build error: " ++ cause
  | streamPlay cause => "stream play error: " ++ cause
  | bufferFull => "audio command ring buffer is full"
  | wav cause => "wav error: " ++ cause
  | io cause => "io error: " ++ cause

/-- A sound file whose last frame lacks samples. -/
def unfinishedFrame : Failure :=
  wav "The number of samples written is not a multiple of the number of channels."

end Failure

end MusicMacro
