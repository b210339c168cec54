import MusicMacro.Performance.Player
import MusicMacro.Scalar.Binary
import MusicMacro.Sound.MasterBus
import MusicMacro.Yaml.Document
import MusicMacro.Yaml.Value

/-!
# Settings

Settings are kept in a YAML file. Every one of them has a default, so a file may name only some, or none.

* `Settings` : the values; `Settings.playerOptions` sets up a player with them;
* `Settings.ofDocument` : the settings that a document writes;
* `Settings.ofFile` : the settings in a file, or why there are none;
* `Settings.load` : the settings in the standard place, with the defaults in the place of everything unusable.
-/

namespace MusicMacro

/-! ## Values -/

/-- How sound is made. -/
structure Settings where
  defaults : Defaults := {}
  /-- The ramp of every note, in seconds. -/
  interNote : Float := Envelope.usualRamp
  waveform : Waveform := .sine
  masterVolume : Float32 := 0.5
  /-- Frames in a second, if not those that the device prefers. -/
  sampleRate? : Option UInt32 := none
  leadIn : Float := 0.1

def Settings.playerOptions (s : Settings) : PlayerOptions Float where
  defaults := s.defaults
  envelope := .ofRamp s.interNote
  leadIn := s.leadIn

/-! ## What can be wrong -/

/-- Why a text gives no settings. -/
inductive SettingsFault where
  | text (fault : Yaml.Fault)
  | notAGroup
  | notAKey
  | duplicate (name : String)
  | value (expected : String)
  deriving Repr

def SettingsFault.message : SettingsFault → String
  | text fault => fault.message
  | notAGroup => "expected a group of settings"
  | notAKey => "expected a name of a setting"
  | duplicate name => "duplicate setting " ++ name
  | value expected => "expected " ++ expected

/-- Why a file gives no settings. -/
inductive SettingsError where
  | unreadable (path cause : String)
  | invalid (path : String) (fault : SettingsFault)
  deriving Repr

def SettingsError.message : SettingsError → String
  | unreadable path cause => "cannot read " ++ path ++ ": " ++ cause
  | invalid path fault => "invalid config " ++ path ++ ": " ++ fault.message

namespace Settings

/-- A value read from a document, or what is wrong with it. -/
abbrev Value (α : Type) := Except SettingsFault α

/-! ## Reading values -/

/-- The text of a number: it stands without quotes, or it is a literal text with the tag of its kind. -/
def numberText? (kind : String) : Yaml.Node → Option String
  | .scalar _ .plain text => some text
  | .scalar p .literal text => if p.tag? = some (.core kind) then some text else none
  | _ => none

def readWord (node : Yaml.Node) : Value UInt32 :=
  match (numberText? "int" node).bind Yaml.readNat? with
  | some n => if n < UInt32.size then .ok (UInt32.ofNat n) else .error (.value "a smaller number")
  | none => .error (.value "a natural number")

def readInteger (node : Yaml.Node) : Value Int :=
  match (numberText? "int" node).bind Yaml.readInt? with
  | some n => if -2147483648 ≤ n ∧ n ≤ 2147483647 then .ok n else .error (.value "a number nearer to zero")
  | none => .error (.value "an integer")

def readNumber (node : Yaml.Node) : Value Float :=
  match (numberText? "float" node).bind Yaml.readFloat? with
  | some x => .ok x
  | none => .error (.value "a number")

/-- A number, or nothing. The tag of nothing allows nothing else, and under another tag there is always something. -/
def readOptionalWord (node : Yaml.Node) : Value (Option UInt32) :=
  match node with
  | .scalar ⟨none, _⟩ .plain text => if text.isEmpty || Yaml.isNull text then .ok none else (readWord node).map some
  | .scalar ⟨some tag, _⟩ .plain text =>
    if tag = .core "null" then (if Yaml.isNull text then .ok none else .error (.value "nothing"))
    else (readWord node).map some
  | _ => (readWord node).map some

/-- The name that a tag of the document's own gives, if it is one. -/
def ownName? (tag : Yaml.Tag) : Option String :=
  match tag.text?.map String.toList with
  | some ('!' :: name) => some (String.ofList name)
  | _ => none

/-- The name of a waveform, or a tag that names one before nothing. -/
def readWaveform (node : Yaml.Node) : Value Waveform :=
  let name? : Option String := match node.tag?.bind ownName?, node with
    | some name, .scalar _ .plain text => if text.isEmpty || Yaml.isNull text then some name else none
    | none, .scalar _ _ text => some text
    | _, _ => none
  match name?.bind Waveform.ofName? with
  | some w => .ok w
  | none => .error (.value "a waveform")

/-! ## Reading groups -/

def keyText : Yaml.Node → Value String
  | .scalar _ _ text => .ok text
  | _ => .error .notAKey

/-- The values of a group, by name; nothing at all is a group without values. Unknown names are passed over. -/
def group (document : Yaml.Document) (names : List String) (node : Yaml.Node) : Value (List (String × Yaml.Node)) :=
  match node with
  | .mapping _ entries => do
    let known ← entries.filterMapM fun (key, value) => do
      let name ← keyText (document.follow key)
      return if names.elem name then some (name, document.follow value) else none
    match known.find? fun e => (known.map Prod.fst).count e.1 > 1 with
    | some e => .error (.duplicate e.1)
    | none => .ok known
  | .scalar _ .plain "" => .ok []
  | _ => .error .notAGroup

/-- The value under a name in a group; the default, if there is none. -/
def valueOr {α : Type} (values : List (String × Yaml.Node)) (name : String) (read : Yaml.Node → Value α)
    (default : α) : Value α :=
  match values.lookup name with
  | some node => read node
  | none => .ok default

def readDefaults (document : Yaml.Document) (node : Yaml.Node) : Value Defaults := do
  let usual : Defaults := {}
  let values ← group document ["octave", "tempo", "length", "volume"] node
  return {
    octave := ← valueOr values "octave" readInteger usual.octave
    tempo := ← valueOr values "tempo" readWord usual.tempo
    length := ← valueOr values "length" readWord usual.length
    volume := ← valueOr values "volume" readWord usual.volume }

def ofDocument (document : Yaml.Document) : Value Settings := do
  let usual : Settings := {}
  let groups ← group document ["defaults", "envelope", "audio"] document.root
  let defaults ← valueOr groups "defaults" (readDefaults document) usual.defaults
  let envelope ← valueOr groups "envelope" (group document ["inter_note"]) []
  let interNote ← valueOr envelope "inter_note" readNumber usual.interNote
  let audio ← valueOr groups "audio" (group document ["waveform", "master_volume", "sample_rate", "lead_in"]) []
  return {
    defaults, interNote
    waveform := ← valueOr audio "waveform" readWaveform usual.waveform
    masterVolume := ← valueOr audio "master_volume" (fun node => (readNumber node).map Float.toFloat32)
      usual.masterVolume
    sampleRate? := ← valueOr audio "sample_rate" readOptionalWord usual.sampleRate?
    leadIn := ← valueOr audio "lead_in" readNumber usual.leadIn }

/-- The settings in a text; an empty text writes none. -/
def ofText (text : String) : Value Settings :=
  match Yaml.Document.read text.toList with
  | .error fault => .error (.text fault)
  | .ok none => .ok {}
  | .ok (some document) => ofDocument document

/-! ## Files -/

/-- What reading a file gave: its bytes, or why there are none. -/
abbrev FileContent := Except String ByteArray

/-- What the system says of a file that is not there. -/
def noSuchFile : String := "No such file or directory (os error 2)"

def ofFile (path : String) (content : FileContent) : Except SettingsError Settings :=
  match content with
  | .error cause => .error (.unreadable path cause)
  | .ok bytes =>
    match String.fromUTF8? bytes with
    | none => .error (.unreadable path "stream did not contain valid UTF-8")
    | some text =>
      match ofText text with
      | .ok settings => .ok settings
      | .error fault => .error (.invalid path fault)

/-- The settings in the standard place; the defaults, if there is no such file or it cannot be used. -/
def load (path : String) (content? : Option FileContent) : Noted Float Settings :=
  match content? with
  | none => ⟨{}, [.noSettings]⟩
  | some content =>
    match ofFile path content with
    | .ok settings => pure settings
    | .error e => ⟨{}, [.settingsIgnored e.message]⟩

end Settings

end MusicMacro
