import MusicMacro.Score.Token
import MusicMacro.Sound.Waveform
import MusicMacro.Text.Digits

/-!
# Command-line arguments

The arguments name a task, the score that it is about, and options. The options of the score may stand before or after
the task; those after it win.

* `Task` : what to do; `Invocation` : a task with everything that was said about it;
* `Arguments.step` : takes one argument;
* `Arguments.read` : takes all of them.
-/

namespace MusicMacro

/-! ## Invocations -/

/-- The kinds of tasks. -/
inductive Task where
  | play
  | tokens
  | schedule
  | render
  deriving DecidableEq, Repr

def Task.ofName? : String → Option Task
  | "play" => some .play
  | "tokens" => some .tokens
  | "schedule" => some .schedule
  | "render" => some .render
  | _ => none

/-- Everything that options can say. -/
structure Options where
  config? : Option String := none
  tempo? : Option UInt32 := none
  octave? : Option Int := none
  length? : Option UInt32 := none
  volume? : Option UInt32 := none
  waveform? : Option Waveform := none
  output? : Option String := none
  sampleRate? : Option UInt32 := none
  channels? : Option Nat := none
  deriving DecidableEq, Repr

/-- What to do. -/
structure Invocation where
  task : Task
  source : String
  options : Options
  deriving DecidableEq, Repr

/-- Why there is no task. -/
inductive Stop where
  | misuse
  | help
  | version
  deriving DecidableEq, Repr

namespace Arguments

/-! ## Options -/

/-- The names of options. -/
inductive OptionName where
  | config | tempo | octave | length | volume | waveform | output | sampleRate | channels
  deriving DecidableEq, Repr

/-- The option with a name; some belong to rendering alone. -/
def OptionName.ofText? (task? : Option Task) (text : String) : Option OptionName :=
  match text with
  | "config" => some .config
  | "tempo" => some .tempo
  | "octave" => some .octave
  | "length" => some .length
  | "volume" => some .volume
  | "waveform" => some .waveform
  | "output" => if task? = some .render then some .output else none
  | "sample-rate" => if task? = some .render then some .sampleRate else none
  | "channels" => if task? = some .render then some .channels else none
  | _ => none

def readInteger? (text : String) : Option Int :=
  let unsigned (digits : List Char) : Option Nat :=
    if digits.isEmpty || !digits.all Char.isDigit then none else some (Digits.value digits)
  match text.toList with
  | '+' :: digits => (unsigned digits).map Int.ofNat
  | '-' :: digits => (unsigned digits).map fun n => -(n : Int)
  | digits => (unsigned digits).map Int.ofNat

def readRange? (low high : Int) (text : String) : Option Int :=
  (readInteger? text).filter fun n => decide (low ≤ n) && decide (n ≤ high)

/-- A natural number of 32 bits. -/
def readWord? (text : String) : Option UInt32 := (readRange? 0 4294967295 text).map fun n => UInt32.ofNat n.toNat

def readPath? (text : String) : Option String := if text.isEmpty then none else some text

/-- Notes the value of an option, which may be given only once. -/
def assign? (o : Options) (name : OptionName) (text : String) : Option Options :=
  match name with
  | .config => if o.config?.isSome then none else (readPath? text).map fun v => { o with config? := some v }
  | .tempo => if o.tempo?.isSome then none else (readWord? text).map fun v => { o with tempo? := some v }
  | .octave =>
    if o.octave?.isSome then none
    else (readRange? (-2147483648) 2147483647 text).map fun v => { o with octave? := some v }
  | .length => if o.length?.isSome then none else (readWord? text).map fun v => { o with length? := some v }
  | .volume => if o.volume?.isSome then none else (readWord? text).map fun v => { o with volume? := some v }
  | .waveform =>
    if o.waveform?.isSome then none else (Waveform.ofName? text).map fun v => { o with waveform? := some v }
  | .output => if o.output?.isSome then none else (readPath? text).map fun v => { o with output? := some v }
  | .sampleRate =>
    if o.sampleRate?.isSome then none else (readWord? text).map fun v => { o with sampleRate? := some v }
  | .channels =>
    if o.channels?.isSome then none else (readRange? 0 65535 text).map fun v => { o with channels? := some v.toNat }

/-- Options of which the later ones win. -/
def merge (before after : Options) : Options where
  config? := after.config?.or before.config?
  tempo? := after.tempo?.or before.tempo?
  octave? := after.octave?.or before.octave?
  length? := after.length?.or before.length?
  volume? := after.volume?.or before.volume?
  waveform? := after.waveform?.or before.waveform?
  output? := after.output?
  sampleRate? := after.sampleRate?
  channels? := after.channels?

/-! ## Arguments -/

/-- What is known between two arguments. -/
structure Draft where
  before : Options := {}
  task? : Option Task := none
  after : Options := {}
  source? : Option String := none
  pending? : Option OptionName := none
  /-- Whether nothing that follows is an option. -/
  literal : Bool := false
  /-- The words after the word for help, once it has come, the last one first. -/
  topic? : Option (List String) := none
  deriving Repr

/-- A text cut at its first equals sign. -/
def splitValue (text : List Char) : String × Option String :=
  let name := text.takeWhile (· != '=')
  (String.ofList name, if name.length < text.length then some (String.ofList (text.drop (name.length + 1))) else none)

/-- Notes the value of an option on its side of the task. -/
def Draft.give (d : Draft) (name : OptionName) (value : String) : Except Stop Draft :=
  let d := { d with pending? := none }
  if d.task?.isNone then
    match assign? d.before name value with
    | some before => .ok { d with before }
    | none => .error .misuse
  else
    match assign? d.after name value with
    | some after => .ok { d with after }
    | none => .error .misuse

/-- Takes an option by its long name, with its value if that follows an equals sign. -/
def Draft.long (d : Draft) (text : List Char) : Except Stop Draft :=
  let (name, value?) := splitValue text
  if name == "help" && value?.isNone then .error .help
  else if name == "version" && value?.isNone && d.task?.isNone then .error .version
  else match OptionName.ofText? d.task? name, value? with
    | some name, some value => d.give name value
    | some name, none => .ok { d with pending? := some name }
    | none, _ => .error .misuse

/-- Takes an option by its letter, with its value if that follows at once. -/
def Draft.short (d : Draft) (letter : Char) (rest : List Char) : Except Stop Draft :=
  if letter == 'h' then .error .help
  else if letter == 'V' && d.task?.isNone then .error .version
  else if letter == 'o' && d.task? == some .render then
    match rest with
    | [] => .ok { d with pending? := some .output }
    | '=' :: value => d.give .output (String.ofList value)
    | value => d.give .output (String.ofList value)
  else .error .misuse

/-- Takes an argument that is no option: the task, and then the score. -/
def Draft.word (d : Draft) (text : String) : Except Stop Draft :=
  match d.task?, d.source? with
  | none, _ =>
    if d.literal then .error .misuse
    else if text == "help" then .ok { d with topic? := some [] }
    else match Task.ofName? text with
      | some task => .ok { d with task? := some task }
      | none => .error .misuse
  | some _, none => .ok { d with source? := some text }
  | some _, some _ => .error .misuse

/-- Takes one argument. Whatever follows the word for help belongs to the topic, even if it looks like an option. -/
def step (d : Draft) (argument : String) : Except Stop Draft :=
  match d.topic? with
  | some words => .ok { d with topic? := some (argument :: words) }
  | none =>
    if d.literal then d.word argument
    else match argument.toList, d.pending? with
      | ['-'], some name => d.give name argument
      | ['-'], none => d.word argument
      | '-' :: _, some _ => .error .misuse
      | _, some name => d.give name argument
      | ['-', '-'], none => .ok { d with literal := true }
      | '-' :: '-' :: name, none => d.long name
      | '-' :: letter :: rest, none => d.short letter rest
      | _, none => d.word argument

/-- Whether there is help on a topic: on everything, on a task, or on help itself. -/
def isTopic : List String → Bool
  | [] => true
  | [word] => word == "help" || (Task.ofName? word).isSome
  | _ => false

def finish (d : Draft) : Except Stop Invocation :=
  match d.topic? with
  | some words => .error (if isTopic words then .help else .misuse)
  | none =>
    if d.pending?.isSome then .error .misuse
    else match d.task?, d.source? with
      | some task, some source =>
        if task = .render ∧ d.after.output?.isNone then .error .misuse
        else .ok ⟨task, source, merge d.before d.after⟩
      | _, _ => .error .misuse

def read (arguments : List String) : Except Stop Invocation := do
  finish (← arguments.foldlM step {})

end Arguments

end MusicMacro
