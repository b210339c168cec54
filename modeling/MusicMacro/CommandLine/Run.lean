import MusicMacro.CommandLine.Arguments
import MusicMacro.Device.Offline
import MusicMacro.Device.Synth
import MusicMacro.Settings
import MusicMacro.Sound.Wav

/-!
# Running a task

* `Surroundings` : what a task finds: files, the standard input, a sound card;
* `Output` : what it leaves: lines of text, and perhaps a file;
* `Invocation.run` : a task, or why it could not be done;
* `Report` : what is shown, with `Report.ofRun` for a task and `Report.ofStop` where there is none.
-/

namespace MusicMacro

/-- What a task finds. -/
structure Surroundings where
  config : Settings.FileContent
  /-- The name of the standard place for settings, and the file there. -/
  standard? : Option (String × Option Settings.FileContent)
  input : Settings.FileContent
  card? : Option Card

/-- What a task leaves. -/
structure Output where
  text : String
  file? : Option (String × List UInt8) := none

/-- Why a task could not be done. -/
inductive TaskError where
  | settings (e : SettingsError)
  | playback (f : Failure)
  | input (cause : String)
  deriving Repr

def TaskError.message : TaskError → String
  | settings e => e.message
  | playback f => f.message
  | input cause => "cannot read stdin: " ++ cause

/-- The settings after the options have had their say. -/
def Options.applyTo (o : Options) (s : Settings) : Settings :=
  { s with
    defaults :=
      { octave := o.octave?.getD s.defaults.octave
        tempo := o.tempo?.getD s.defaults.tempo
        length := o.length?.getD s.defaults.length
        volume := o.volume?.getD s.defaults.volume }
    waveform := o.waveform?.getD s.waveform }

namespace Invocation

/-! ## What a task starts from -/

def settings (i : Invocation) (s : Surroundings) : Except TaskError Settings :=
  let found : Except TaskError Settings := match i.options.config?, s.standard? with
    | some path, _ => (Settings.ofFile path s.config).mapError .settings
    | none, some (path, content?) => .ok (Settings.load path content?).value
    | none, none => .ok {}
  found.map i.options.applyTo

/-- The score of a task: a dash stands for the standard input. -/
def score (i : Invocation) (s : Surroundings) : Except TaskError (List Char) :=
  if i.source == "-" then
    match s.input with
    | .error cause => .error (.input cause)
    | .ok bytes =>
      match String.fromUTF8? bytes with
      | some text => .ok text.toList
      | none => .error (.input "stream did not contain valid UTF-8")
  else .ok i.source.toList

/-! ## The tasks -/

/-- The tokens of a score, a line for each track. -/
def tokenLines (score : List Char) : List String :=
  (Song.tokenize score).zipIdx.map fun (tokens, index) =>
    trackLabel index ++ ": " ++ " ".intercalate (tokens.map Token.text)

/-- The instructions of a song, with a heading for each track and the end of the song below. -/
def scheduleLines (song : Song Float) : List String :=
  (song.tracks.flatMap fun track =>
    (trackLabel track.index ++ ":") :: track.instructions.map fun i => "  " ++ i.text)
    ++ ["end: " ++ Decimal.fixed 3 song.finish ++ "s"]

def renderScore (settings : Settings) (score : List Char) (output : String) (sampleRate channels : Nat) :
    Except TaskError Output :=
  let master := MasterBus.ofVolume settings.masterVolume MasterBus.usualCeiling
  let device : OfflineDevice Float Float32 := .fresh settings.waveform sampleRate channels master
  let player : Player (OfflineDevice Float Float32) Float ToneId :=
    .fresh device { settings.playerOptions with leadIn := 0.0 }
  match (player.compileAndPlay score).value with
  | (.error failure, _) => .error (.playback failure)
  | (.ok song, player) =>
    let device := player.engine.device
    let samples := device.render.value.1.samples
    let frames := samples.length / device.channels
    let seconds := Scalar.frameTime sampleRate frames
    let text := "wrote " ++ output ++ " (" ++ toString song.playCount ++ " tones, " ++ Decimal.fixed 2 seconds
      ++ "s, " ++ toString frames ++ " frames)\n"
    .ok ⟨text, some (output, Wav.encode device.sampleRate device.channels samples)⟩

/-- Plays a score. The card plays by itself, so every tone comes to its end. -/
def playScore (settings : Settings) (score : List Char) (card? : Option Card) : Except TaskError Output :=
  match (SynthDevice.connect card? settings.waveform settings.masterVolume
      (settings.sampleRate?.map UInt32.toNat) : Noted Float (Except Failure (SynthDevice Float Float32))).value with
  | .error failure => .error (.playback failure)
  | .ok device =>
    let player : Player (SynthDevice Float Float32) Float ToneId := .fresh device settings.playerOptions
    match (player.compileAndPlay score).value.1 with
    | .error failure => .error (.playback failure)
    | .ok song =>
      .ok { text :=
        "audio: " ++ toString device.thread.sampleRate ++ " Hz, " ++ toString device.thread.channels ++ " ch\n"
          ++ "playing " ++ toString song.tracks.length ++ " tracks, " ++ toString song.playCount ++ " tones, "
          ++ Decimal.fixed 1 (song.finish - song.origin) ++ "s\ndone.\n" }

/-- Lines of text, each with its end. -/
def lines (ls : List String) : Output := ⟨String.join (ls.map (· ++ "\n")), none⟩

def run (i : Invocation) (s : Surroundings) : Except TaskError Output := do
  let settings ← i.settings s
  let score ← i.score s
  match i.task with
  | .tokens => return lines (tokenLines score)
  | .schedule => return lines (scheduleLines (Song.compile score settings.defaults (0.0 : Float)).value)
  | .render =>
    renderScore settings score (i.options.output?.getD "") ((i.options.sampleRate?.map UInt32.toNat).getD 44100)
      (i.options.channels?.getD 1)
  | .play => playScore settings score s.card?

end Invocation

/-! ## What is shown -/

def versionText : String := "mmlplay 0.1.0\n"

def helpText : String :=
  "Music Macro Language player\n\nUsage: mmlplay [OPTIONS] <COMMAND>\n\nCommands: play, tokens, schedule, render\n"

/-- What a run of the program shows. -/
structure Report where
  code : UInt8
  out : String := ""
  err : String := ""

/-- What is shown for arguments that ask for no task. -/
def Report.ofStop : Stop → Report
  | .version => { code := 0, out := versionText }
  | .help => { code := 0, out := helpText }
  | .misuse => { code := 2, err := "error: unexpected arguments\n\n" ++ helpText }

/-- The error of a file that cannot be written. -/
def TaskError.unwritten (cause : String) : TaskError := .playback (.io cause)

def Report.ofRun : Except TaskError Output → Report
  | .ok output => { code := 0, out := output.text }
  | .error e => { code := 1, err := "mmlplay: " ++ e.message ++ "\n" }

end MusicMacro
