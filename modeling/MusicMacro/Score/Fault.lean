import MusicMacro.Text.Quoted

/-!
# Faults in a score

No text is too damaged to be played: what cannot be understood is passed over or replaced by a default. A `Fault` says
what was wrong, and `Fault.message` says it in words.
-/

namespace MusicMacro

/-- What can be wrong in the text of a score. -/
inductive Fault where
  | unknownCommand (character : Char)
  | malformedDuration (text : List Char)
  deriving DecidableEq, Repr

def Fault.message : Fault → String
  | .unknownCommand c => "unknown command character: '" ++ String.singleton c ++ "'"
  | .malformedDuration text => "malformed duration component: " ++ String.ofList (Quoted.quote text)

end MusicMacro
