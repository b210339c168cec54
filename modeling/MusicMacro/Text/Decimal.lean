import MusicMacro.Text.Digits

/-!
# Decimal text of binary numbers

A binary floating-point number is an exact fraction, and its decimal text is that fraction rounded once.

* `Decimal.roundDiv` : a quotient rounded to the nearest natural number, with the tie rule `Tie`;
* `Decimal.Reading` : a floating-point number as an exact signed fraction, or what it is instead;
* `Decimal.fixed` : text with a fixed number of places after the point;
* `Decimal.scientific` : text with one digit before the point and a power of ten;
* `Decimal.padLeft` : text moved to the right end of a column.
-/

namespace MusicMacro.Decimal

/-- Where a value goes that lies exactly between two neighbours. -/
inductive Tie where
  | toEven
  | away
  deriving DecidableEq, Repr

def roundDiv (num den : Nat) (tie : Tie) : Nat :=
  let q := num / den
  let r := num % den
  if den < 2 * r then q + 1
  else if 2 * r = den then
    match tie with
    | .toEven => q + q % 2
    | .away => q + 1
  else q

/-- What a floating-point number is. -/
inductive Reading where
  | undefined
  | infinite (negative : Bool)
  /-- The fraction `num / den` with a sign; the denominator is a power of two. -/
  | finite (negative : Bool) (num den : Nat)
  deriving DecidableEq, Repr

def Reading.ofFloat (x : Float) : Reading :=
  let bits := x.toBits.toNat
  let negative := decide (bits / Nat.pow 2 63 = 1)
  let exponent := bits / Nat.pow 2 52 % Nat.pow 2 11
  let fraction := bits % Nat.pow 2 52
  if exponent = 2047 then
    if fraction = 0 then .infinite negative else .undefined
  else if exponent = 0 then .finite negative fraction (Nat.pow 2 1074)
  else if exponent < 1075 then .finite negative (Nat.pow 2 52 + fraction) (Nat.pow 2 (1075 - exponent))
  else .finite negative ((Nat.pow 2 52 + fraction) * Nat.pow 2 (exponent - 1075)) 1

def sign (negative : Bool) : String := if negative then "-" else ""

def special (negative : Bool) : String := sign negative ++ "inf"

/-- The digits of `n` with a point before the last `places` of them and at least one digit before the point. -/
def withPoint (n places : Nat) : String :=
  let digits := Digits.ofNat n
  let digits := List.replicate (places + 1 - digits.length) '0' ++ digits
  let whole := digits.take (digits.length - places)
  let rest := digits.drop (digits.length - places)
  String.ofList (if places = 0 then whole else whole ++ '.' :: rest)

/-- A value with `places` digits after the point; a tie goes to the even digit, and a negative value keeps its sign
even if it rounds to zero. -/
def fixed (places : Nat) (x : Float) : String :=
  match Reading.ofFloat x with
  | .undefined => "NaN"
  | .infinite negative => special negative
  | .finite negative num den => sign negative ++ withPoint (roundDiv (num * Nat.pow 10 places) den .toEven) places

/-- The power of ten of the first digit of a positive fraction: the greatest `e` with `10 ^ e ≤ num / den`. -/
def leadingPower (num den : Nat) : Int :=
  if den ≤ num then (Digits.count (num / den) : Int) - 1
  else - (Digits.count ((den + num - 1) / num - 1) : Int)

/-- A positive fraction cut to `places + 1` digits: the digits as one number, and the power of ten of the first. -/
def significant (places num den : Nat) : Nat × Int :=
  let e := leadingPower num den
  let shift := (places : Int) - e
  let digits := roundDiv (num * Nat.pow 10 shift.toNat) (den * Nat.pow 10 (-shift).toNat) .toEven
  if digits = Nat.pow 10 (places + 1) then (Nat.pow 10 places, e + 1) else (digits, e)

/-- A value as one digit, a point, `places` more digits and a power of ten; a tie goes to the even digit. -/
def scientific (places : Nat) (x : Float) : String :=
  match Reading.ofFloat x with
  | .undefined => "NaN"
  | .infinite negative => special negative
  | .finite _ 0 _ => withPoint 0 places ++ "e0"
  | .finite negative num den =>
    let (digits, e) := significant places num den
    sign negative ++ withPoint digits places ++ "e" ++ toString e

/-- A text moved to the right end of a column. -/
def padLeft (width : Nat) (text : String) : String :=
  String.ofList (List.replicate (width - text.length) ' ') ++ text

end MusicMacro.Decimal
