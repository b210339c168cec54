/-!
# Pitches as written

A pitch is written as a letter from `a` to `g` and any number of sharps and flats.

* `Letter` : the seven natural notes, with their height above C in half-steps;
* `Accidental` : a count of half-steps that fits in 32 bits and stops at the ends of that range;
* `Pitch` : a letter with its accidental; `Pitch.parse?` reads one, `Pitch.spelling` writes it;
* `PitchClass` : a pitch up to whole octaves, one of the twelve steps of the scale.
-/

namespace MusicMacro

/-! ## Letters -/

/-- The natural notes. -/
inductive Letter where
  | c | d | e | f | g | a | b
  deriving DecidableEq, Repr

namespace Letter

def ofChar? : Char → Option Letter
  | 'c' => some c
  | 'd' => some d
  | 'e' => some e
  | 'f' => some f
  | 'g' => some g
  | 'a' => some a
  | 'b' => some b
  | _ => none

def toChar : Letter → Char
  | c => 'c'
  | d => 'd'
  | e => 'e'
  | f => 'f'
  | g => 'g'
  | a => 'a'
  | b => 'b'

/-- Half-steps above C. -/
def semitone : Letter → Int
  | c => 0
  | d => 2
  | e => 4
  | f => 5
  | g => 7
  | a => 9
  | b => 11

theorem ofChar?_toChar (l : Letter) : ofChar? l.toChar = some l := by cases l <;> rfl

theorem toChar_of_ofChar? {ch : Char} {l : Letter} (h : ofChar? ch = some l) : l.toChar = ch := by
  unfold ofChar? at h
  split at h <;> simp_all <;> subst h <;> rfl

theorem semitone_nonneg (l : Letter) : 0 ≤ l.semitone := by cases l <;> decide

theorem semitone_lt (l : Letter) : l.semitone < 12 := by cases l <;> decide

end Letter

/-! ## Accidentals -/

/-- A count of half-steps up (positive) or down (negative) that fits in 32 bits. -/
structure Accidental where
  steps : Int
  lower : -2147483648 ≤ steps := by omega
  upper : steps ≤ 2147483647 := by omega
  deriving DecidableEq, Repr

namespace Accidental

/-- The nearest accidental to any number of half-steps. -/
def saturate (n : Int) : Accidental :=
  ⟨max (-2147483648) (min 2147483647 n), by omega, by omega⟩

def natural : Accidental := ⟨0, by omega, by omega⟩

/-- Moves an accidental by some half-steps and stops at the end of the range. -/
def move (a : Accidental) (n : Int) : Accidental := saturate (a.steps + n)

/-- The half-steps of a sign: one up for a sharp, one down for a flat. -/
def stepOf? : Char → Option Int
  | '+' => some 1
  | '-' => some (-1)
  | _ => none

def signs (a : Accidental) : List Char :=
  List.replicate a.steps.natAbs (if 0 ≤ a.steps then '+' else '-')

theorem saturate_steps (a : Accidental) : saturate a.steps = a := by
  cases a with
  | mk n lo hi => simp only [saturate, mk.injEq]; omega

theorem steps_saturate_of_mem {n : Int} (lo : -2147483648 ≤ n) (hi : n ≤ 2147483647) :
    (saturate n).steps = n := by
  simp only [saturate]; omega

end Accidental

/-! ## Pitch classes -/

/-- The twelve steps of the chromatic scale; the black keys are named as sharps. -/
inductive PitchClass where
  | c | cSharp | d | dSharp | e | f | fSharp | g | gSharp | a | aSharp | b
  deriving DecidableEq, Repr

namespace PitchClass

/-- The twelve classes from C upwards. -/
def all : List PitchClass := [c, cSharp, d, dSharp, e, f, fSharp, g, gSharp, a, aSharp, b]

def semitone : PitchClass → Int
  | c => 0
  | cSharp => 1
  | d => 2
  | dSharp => 3
  | e => 4
  | f => 5
  | fSharp => 6
  | g => 7
  | gSharp => 8
  | a => 9
  | aSharp => 10
  | b => 11

/-- The class that lies a number of half-steps above C, whole octaves aside. -/
def ofSemitone (n : Int) : PitchClass := all.getD (n % 12).toNat c

def name : PitchClass → String
  | c => "C"
  | cSharp => "CSharp"
  | d => "D"
  | dSharp => "DSharp"
  | e => "E"
  | f => "F"
  | fSharp => "FSharp"
  | g => "G"
  | gSharp => "GSharp"
  | a => "A"
  | aSharp => "ASharp"
  | b => "B"

end PitchClass

/-! ## Pitches -/

/-- A note as written: a letter and its accidental. -/
structure Pitch where
  letter : Letter
  accidental : Accidental
  deriving DecidableEq, Repr

namespace Pitch

/-- Adds up the signs of a spelling, left to right; nothing but signs may occur. -/
def readSigns : Accidental → List Char → Option Accidental
  | a, [] => some a
  | a, ch :: rest => (Accidental.stepOf? ch).bind fun n => readSigns (a.move n) rest

/-- Reads a letter followed by signs only. -/
def parse? : List Char → Option Pitch
  | [] => none
  | ch :: signs => do
    let letter ← Letter.ofChar? ch
    let accidental ← readSigns .natural signs
    return ⟨letter, accidental⟩

/-- The letter, then as many sharps or flats as the accidental has half-steps. -/
def spelling (p : Pitch) : List Char := p.letter.toChar :: p.accidental.signs

/-- Half-steps above the A of the same octave, stopped at the ends of the 32-bit range. -/
def halfStepsFromA (p : Pitch) : Int :=
  (Accidental.saturate (p.letter.semitone - Letter.a.semitone + p.accidental.steps)).steps

def pitchClass (p : Pitch) : PitchClass :=
  PitchClass.ofSemitone (p.accidental.steps % 12 + p.letter.semitone)

end Pitch

end MusicMacro
