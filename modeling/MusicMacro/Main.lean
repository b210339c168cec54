import MusicMacro.CommandLine.Run

/-!
# The program

Gathers what a task finds, runs it, and shows what it leaves. There is no sound card to be found.
-/

namespace MusicMacro.Program

/-- What the system says of an error. -/
def describe : IO.Error → String
  | .noFileOrDirectory .. => Settings.noSuchFile
  | .permissionDenied .. => "Permission denied (os error 13)"
  | .inappropriateType .. => "Is a directory (os error 21)"
  | e => toString e

def readContent (path : String) : IO Settings.FileContent := do
  try
    return .ok (← IO.FS.readBinFile path)
  catch e => return .error (describe e)

/-- Reads the file in the standard place, if there is one. -/
def readStandard : IO (Option (String × Option Settings.FileContent)) := do
  match ← IO.getEnv "HOME" with
  | none => return none
  | some home =>
    let path := home ++ "/.mmlplay/config.yaml"
    match ← readContent path with
    | .error cause => return some (path, if cause == Settings.noSuchFile then none else some (.error cause))
    | .ok bytes => return some (path, some (.ok bytes))

/-- Finds what a task needs. -/
def surroundings (i : Invocation) : IO Surroundings := do
  let config ← match i.options.config? with
    | some path => readContent path
    | none => pure (.error Settings.noSuchFile)
  let input : Settings.FileContent ←
    if i.source == "-" then do
      try
        pure (.ok (← (← IO.getStdin).readToEnd).toUTF8)
      catch e => pure (.error (describe e))
    else pure (.ok .empty)
  return { config, standard? := ← readStandard, input, card? := none }

def write (result : Except TaskError Output) : IO (Except TaskError Output) := do
  match result with
  | .ok { text, file? := some (path, bytes) } =>
    try
      IO.FS.writeBinFile path ⟨bytes.toArray⟩
      return .ok { text }
    catch e => return .error (.unwritten (describe e))
  | _ => return result

def present (r : Report) : IO UInt32 := do
  IO.print r.out
  IO.eprint r.err
  return r.code.toUInt32

end MusicMacro.Program

open MusicMacro in
def main (arguments : List String) : IO UInt32 := do
  match Arguments.read arguments with
  | .error stop => Program.present (.ofStop stop)
  | .ok invocation =>
    let result := invocation.run (← Program.surroundings invocation)
    Program.present (.ofRun (← Program.write result))
