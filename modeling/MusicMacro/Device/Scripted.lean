import MusicMacro.Device.Basic
import MusicMacro.Sound.Roster

/-!
# A device that refuses by rule

This device makes no sound. Its clock is set by hand, its tones end when they are told to, and it refuses calls by
rules: it stands for every device whose refusals follow some pattern.

* `CallKind` : the kinds of calls; `RefusalRule` : which calls to refuse, after how many and how often;
* `RefusalRule.verdict` : the first rule that refuses a call, and the rules after it;
* `ScriptedDevice` : the device, with a log of accepted and refused calls;
* `ScriptedDevice.finish` : the end of a tone.
-/

namespace MusicMacro

/-- The kinds of calls to a device. -/
inductive CallKind where
  | create | gain | start | stop | onEnded | release
  deriving DecidableEq, Repr

def Request.kind {R H : Type} : Request R H → CallKind
  | .gain .. => .gain
  | .start .. => .start
  | .stop .. => .stop
  | .onEnded .. => .onEnded
  | .release .. => .release

/-- A pattern of refusals. -/
structure RefusalRule where
  kind : CallKind
  /-- The tone it is about; all tones, if none is named. -/
  tone? : Option ToneId
  skip : Nat
  /-- How many it refuses after those that it skips; all, if no number is given. -/
  count? : Option Nat
  failure : Failure
  deriving DecidableEq, Repr

namespace RefusalRule

def appliesTo (r : RefusalRule) (kind : CallKind) (tone : ToneId) : Bool :=
  r.kind == kind && r.tone?.all (· == tone)

/-- Asks the rules in their order whether to refuse a call: the reason of the first that does, and the rules for the
next call. -/
def verdict (kind : CallKind) (tone : ToneId) : List RefusalRule → Option Failure × List RefusalRule
  | [] => (none, [])
  | r :: rest =>
    let pass (r : RefusalRule) : Option Failure × List RefusalRule :=
      let (answer, rest) := verdict kind tone rest
      (answer, r :: rest)
    if r.appliesTo kind tone then
      if 0 < r.skip then pass { r with skip := r.skip - 1 }
      else match r.count? with
        | none => (some r.failure, r :: rest)
        | some 0 => pass r
        | some (n + 1) => (some r.failure, { r with count? := some n } :: rest)
    else pass r

end RefusalRule

/-- A call in the log, and whether it was refused. -/
structure LoggedCall (R : Type) where
  call : Call R ToneId
  refused : Bool
  deriving Repr

/-- A silent device that refuses by rule. -/
structure ScriptedDevice (R : Type) where
  time : R
  rules : List RefusalRule
  nextHandle : ToneId := 1
  lastCalls : List (LoggedCall R) := []
  reports : Roster ToneId := .empty

namespace ScriptedDevice
variable {R : Type}

/-- Makes a tone; a refused call uses up no handle. -/
def create (d : ScriptedDevice R) (frequency : R) : Except Failure ToneId × ScriptedDevice R :=
  let (answer, rules) := RefusalRule.verdict .create d.nextHandle d.rules
  let call : Call R ToneId := .create d.nextHandle frequency
  match answer with
  | some failure => (.error failure, { d with rules, lastCalls := ⟨call, true⟩ :: d.lastCalls })
  | none =>
    (.ok d.nextHandle, { d with rules, nextHandle := d.nextHandle + 1, lastCalls := ⟨call, false⟩ :: d.lastCalls })

/-- Does what is asked for a tone, as far as a silent device can: it remembers what to report. -/
def submit (d : ScriptedDevice R) (request : Request R ToneId) : Except Failure Unit × ScriptedDevice R :=
  let (answer, rules) := RefusalRule.verdict request.kind request.tone d.rules
  match answer with
  | some failure => (.error failure, { d with rules, lastCalls := ⟨.request request, true⟩ :: d.lastCalls })
  | none =>
    let reports := match request with
      | .onEnded tone report => d.reports.insert tone report
      | .release tone => d.reports.erase tone
      | _ => d.reports
    (.ok (), { d with rules, reports, lastCalls := ⟨.request request, false⟩ :: d.lastCalls })

instance : ToneDevice (ScriptedDevice R) R ToneId where
  create := create
  submit := submit
  now := time
  label _ tone := toString tone

/-- Ends a tone: what it reports, if anything, and the device that has forgotten it. -/
def finish (d : ScriptedDevice R) (tone : ToneId) : Option ToneId × ScriptedDevice R :=
  (d.reports.get? tone, { d with reports := d.reports.erase tone })

end ScriptedDevice

end MusicMacro
