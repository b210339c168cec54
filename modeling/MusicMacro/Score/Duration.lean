import MusicMacro.Scalar
import MusicMacro.Score.Fault
import MusicMacro.Text.Digits

/-!
# Written durations

A duration such as `4`, `8.` or `4&8` is written as pieces tied by `&`. A piece is the denominator of a note value, or
nothing where the default length is meant, and a dot makes it half as long again.

* `Duration` : the text as it stands in the score; `Duration.components` cuts it at the ties;
* `Component.denominator?` : the denominator that a piece writes, if it writes one;
* `Duration.wholeNotes` : the length of the whole, as the sum of its pieces;
* `Duration.faults` : the pieces that fall back to the default length because they cannot be read.
-/

namespace MusicMacro

/-! ## Pieces -/

/-- One tied piece of a duration. -/
structure Component where
  /-- The text before the first dot. -/
  denominator : List Char
  dotted : Bool
  deriving DecidableEq, Repr

namespace Component

/-- Cuts a piece at its first dot. -/
def ofChars (text : List Char) : Component := ⟨text.takeWhile (· != '.'), text.elem '.'⟩

/-- A number as it may stand in a duration: digits, with at most one plus before them, that fit into 32 bits. -/
def number? (text : List Char) : Option UInt32 :=
  let digits := match text with
    | '+' :: rest => rest
    | _ => text
  if digits.isEmpty || !digits.all Char.isDigit then none else Digits.word? digits

/-- The denominator that a piece writes: none for an empty one, and a fault for anything but a positive number. -/
def denominator? (c : Component) : Except Fault (Option UInt32) :=
  if c.denominator.isEmpty then .ok none
  else match number? c.denominator with
    | some n => if n = 0 then .error (.malformedDuration c.denominator) else .ok (some n)
    | none => .error (.malformedDuration c.denominator)

/-- The denominator that is played: the written one, or the default where none is written or can be read. -/
def effective (c : Component) (default : UInt32) : UInt32 :=
  match c.denominator? with
  | .ok d => d.getD default
  | .error _ => default

/-- The length of a piece in whole notes; a default of zero counts as one. -/
def wholeNotes {R : Type} [Scalar R] (c : Component) (default : UInt32) : R :=
  let base := ((1 : Nat) : R) / (((max (c.effective default) 1).toNat : Nat) : R)
  if c.dotted then base * (((3 : Nat) : R) / ((2 : Nat) : R)) else base

/-- What is wrong with a piece, if anything. -/
def fault? (c : Component) : Option Fault :=
  match c.denominator? with
  | .ok _ => none
  | .error fault => some fault

end Component

/-! ## Durations -/

/-- The text of a duration as it stands in the score. -/
structure Duration where
  text : List Char
  deriving DecidableEq, Repr

namespace Duration

/-- The text of a note that takes the default length. -/
def empty : Duration := ⟨[]⟩

def ofString (text : String) : Duration := ⟨text.toList⟩

/-- The pieces between the ties; an empty text is one empty piece. -/
def components (d : Duration) : List Component := (d.text.splitOn '&').map Component.ofChars

def wholeNotes {R : Type} [Scalar R] (d : Duration) (default : UInt32) : R :=
  (d.components.map fun c => c.wholeNotes default).foldl (· + ·) ((0 : Nat) : R)

def faults (d : Duration) : List Fault := d.components.filterMap Component.fault?

end Duration

end MusicMacro
