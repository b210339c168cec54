/-!
# Decimal digits

* `Digits.value` : the number that a run of decimal digits writes;
* `Digits.word?` : that number as a 32-bit word, if it fits;
* `Digits.ofNat` : the digits of a number, the first one never a zero unless it is the only one.
-/

namespace MusicMacro.Digits

def value (digits : List Char) : Nat := Nat.ofDigitChars 10 digits 0

/-- The number that a run of decimal digits writes, if it fits into a 32-bit word. -/
def word? (digits : List Char) : Option UInt32 :=
  let n := value digits
  if n < UInt32.size then some (UInt32.ofNat n) else none

def ofNat (n : Nat) : List Char := Nat.toDigits 10 n

/-- The number of decimal digits of a number; zero has one. -/
def count (n : Nat) : Nat := (ofNat n).length

theorem value_ofNat (n : Nat) : value (ofNat n) = n := Nat.ofDigitChars_toDigits (by decide) (by decide)

theorem isDigit_of_mem_ofNat {n : Nat} {c : Char} (h : c ∈ ofNat n) : c.isDigit :=
  Nat.isDigit_of_mem_toDigits (by decide) (by decide) h

/-- A word is read back from its digits. -/
theorem word?_ofNat (w : UInt32) : word? (ofNat w.toNat) = some w := by
  simp only [word?, value_ofNat, w.toNat_lt, if_true, UInt32.ofNat_toNat]

end MusicMacro.Digits
