import MusicMacro.Journal.Event
import MusicMacro.Timeline.Octave

/-!
# Lines of the journal

* `Level` : how much a line matters;
* `Entry` : a line: its level, its message and the named values that go with it;
* `Event.entry` : the line of an event.
-/

namespace MusicMacro

/-- How much a line of the journal matters. -/
inductive Level where
  | trace | debug | info | warn
  deriving DecidableEq, Repr

def Level.name : Level → String
  | .trace => "TRACE"
  | .debug => "DEBUG"
  | .info => "INFO"
  | .warn => "WARN"

/-- A value that goes with a line. -/
inductive Field where
  | number (x : Float)
  | count (n : Int)
  | text (s : String)
  deriving Repr

/-- A line of the journal. -/
structure Entry where
  level : Level
  message : String
  fields : List (String × Field) := []
  deriving Repr

def Setting.title : Setting → String
  | .octave => "OctaveSet"
  | .length => "Length"
  | .tempo => "Tempo"
  | .volume => "Volume"

namespace Event

def entry : Event Float → Entry
  | skippedCharacter position c =>
    ⟨.trace, "skipped: " ++ (Fault.unknownCommand c).message, [("pos", .count position)]⟩
  | settingWithoutValue s => ⟨.debug, "setting without a value ignored", [("kind", .text s.title)]⟩
  | settingTooLarge s digits =>
    ⟨.warn, "setting value " ++ String.ofList digits ++ " ignored: number too large to fit in target type",
      [("kind", .text s.title)]⟩
  | durationFallback fault default =>
    ⟨.warn, fault.message ++ "; using default length " ++ toString default.toNat, []⟩
  | defaultOctaveRefused octave =>
    ⟨.warn, "default octave out of range; using " ++ toString Octave.reference.number, [("octave", .count octave)]⟩
  | unschedulable token seconds =>
    ⟨.warn, "unschedulable duration; token skipped", [("token", .text token.text), ("seconds", .number seconds)]⟩
  | unplayable token frequency =>
    ⟨.warn, "unplayable pitch; scheduled as a rest",
      [("token", .text token.text), ("frequency", .number frequency)]⟩
  | stepRefused step octave => ⟨.warn, step.text ++ " out of range; ignored", [("octave", .count octave)]⟩
  | octaveRefused octave => ⟨.warn, "octave " ++ toString octave.toNat ++ " out of range; ignored", []⟩
  | zeroLength => ⟨.warn, "length 0 ignored", []⟩
  | zeroTempo => ⟨.warn, "tempo 0 ignored", []⟩
  | trackScheduled tokens instructions cursor =>
    ⟨.debug, "track scheduled",
      [("tokens", .count tokens), ("instructions", .count instructions), ("end", .number cursor)]⟩
  | toneScheduled handle frequency start stop volume =>
    ⟨.debug, "tone scheduled",
      [("handle", .text handle), ("frequency", .number frequency), ("start", .number start), ("end", .number stop),
        ("volume", .count volume.toNat)]⟩
  | abandonedToneKept handle failure =>
    ⟨.warn, "release after failed schedule failed: " ++ failure.message, [("handle", .text handle)]⟩
  | toneAbandoned handle failure => ⟨.warn, "tone abandoned: " ++ failure.message, [("handle", .text handle)]⟩
  | stopRefused handle failure => ⟨.warn, "stop failed: " ++ failure.message, [("handle", .text handle)]⟩
  | releaseRefused handle failure => ⟨.warn, "release failed: " ++ failure.message, [("handle", .text handle)]⟩
  | allStopped count => ⟨.debug, "all tones stopped", [("count", .count count)]⟩
  | instructionSkipped track instruction failure =>
    ⟨.warn, instruction.text ++ " skipped: " ++ failure.message, [("track", .text (trackLabel track))]⟩
  | songScheduled tracks tones failed origin finish =>
    ⟨.info, "song scheduled",
      [("tracks", .count tracks), ("tones", .count tones), ("failed", .count failed), ("origin", .number origin),
        ("end", .number finish)]⟩
  | endlessTones tones => ⟨.warn, "tones without a stop time; rendering nothing", [("tones", .count tones)]⟩
  | rendered frames now => ⟨.debug, "rendered", [("frames", .count frames), ("now", .number now)]⟩
  | streamStarted sampleRate channels waveform =>
    ⟨.info, "audio stream started",
      [("sample_rate", .count sampleRate), ("channels", .count channels), ("waveform", .text waveform.title)]⟩
  | tonesEnded count => ⟨.debug, "tones ended", [("count", .count count)]⟩
  | noSettings => ⟨.debug, "no config file", []⟩
  | settingsIgnored cause => ⟨.warn, cause ++ "; using defaults", []⟩

end Event

end MusicMacro
