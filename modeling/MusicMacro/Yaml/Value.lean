import MusicMacro.Text.Digits
import MusicMacro.Yaml.Character

/-!
# Values of texts

* `isNull` : whether a text stands for nothing;
* `readNat?`, `readInt?` : the integers that texts stand for, in one of four bases;
* `readFloat?` : the numbers that texts stand for.
-/

namespace MusicMacro.Yaml

/-- Whether a plain text stands for nothing. -/
def isNull (text : String) : Bool := text == "null" || text == "Null" || text == "NULL" || text == "~"

/-- Whether digits begin with a zero that no number begins with. -/
def zeroPadded (digits : List Char) : Bool :=
  digits.length > 1 && digits.head? == some '0' && digits.all Char.isDigit

/-- The number of a text with a base mark before its digits, if there is one. -/
def readBased? : List Char → Option Nat
  | '0' :: 'x' :: digits => readDigits? 16 digits
  | '0' :: 'o' :: digits => readDigits? 8 digits
  | '0' :: 'b' :: digits => readDigits? 2 digits
  | _ => none

/-- The natural number that digits write, in whatever base they say. -/
def readMagnitude? (digits : List Char) : Option Nat :=
  (readBased? digits).or (if zeroPadded digits then none else readDigits? 10 digits)

def readInt? (text : String) : Option Int :=
  match text.toList with
  | '+' :: digits => (readMagnitude? digits).map Int.ofNat
  | '-' :: digits => (readMagnitude? digits).map fun n => -(n : Int)
  | digits => (readMagnitude? digits).map Int.ofNat

/-- The natural number that a plain text stands for; it may have a plus. -/
def readNat? (text : String) : Option Nat :=
  match text.toList with
  | '+' :: digits => readMagnitude? digits
  | digits => readMagnitude? digits

/-- The number `digits * 10 ^ exponent`; far too large or small ones are not worked out. -/
def scaleByTen (digits : Nat) (exponent : Int) : Float :=
  let power := exponent + Digits.count digits
  if digits = 0 ∨ power < -400 then 0.0
  else if 400 < power then 1.0 / 0.0
  else Float.ofScientific digits (exponent < 0) exponent.natAbs

/-- The number that decimal digits with a point and a power of ten write. -/
def readDecimal? (text : List Char) : Option Float := do
  let whole := text.takeWhile Char.isDigit
  let rest := text.drop whole.length
  let (fraction, rest) := match rest with
    | '.' :: r => (r.takeWhile Char.isDigit, r.dropWhile Char.isDigit)
    | _ => ([], rest)
  if whole.isEmpty && fraction.isEmpty then none
  let exponent : Int ← match rest with
    | [] => some 0
    | e :: r =>
      if e == 'e' || e == 'E' then
        match r with
        | '-' :: digits => (readDigits? 10 digits).map fun n => -(n : Int)
        | '+' :: digits => (readDigits? 10 digits).map Int.ofNat
        | digits => (readDigits? 10 digits).map Int.ofNat
      else none
  return scaleByTen (Digits.value (whole ++ fraction)) (exponent - fraction.length)

def readFloat? (text : String) : Option Float :=
  let finite (x? : Option Float) : Option Float := x?.filter Float.isFinite
  if [".inf", ".Inf", ".INF", "+.inf", "+.Inf", "+.INF"].elem text then some (1.0 / 0.0)
  else if ["-.inf", "-.Inf", "-.INF"].elem text then some (-1.0 / 0.0)
  else if [".nan", ".NaN", ".NAN"].elem text then some (0.0 / 0.0)
  else match text.toList with
    | '+' :: digits => finite (readDecimal? digits)
    | '-' :: digits => (finite (readDecimal? digits)).map fun x => -x
    | digits => finite (readDecimal? digits)

end MusicMacro.Yaml
