import Mathlib.Data.List.TakeWhile
import MusicMacro.Proofs.Score.Lasting
import MusicMacro.Proofs.Score.Pieces

/-!
# The grammar of a duration

What a duration means is said here by a grammar: which pieces the ties leave, where a piece is cut, and which texts are
denominators. A denominator is a run of decimal digits that writes a number from 1 up to the greatest 32-bit word; it is
also taken with one plus before it.

* `Component.Cut` : a piece between two ties, cut at its first dot (`cut_iff`);
* `Component.Numeral`, `Component.Denotes` : digits with their number, and what the text of a denominator stands for
  (`denominator?_eq_iff`);
* `Component.Lasts` : the length of a piece by the grammar (`lasts_iff`);
* `duration_grammar` : pieces, denominators and lengths all follow the grammar, whatever the text is.
-/

namespace MusicMacro

/-! ## Pieces -/

namespace Component

/-- `Cut text c` : the piece `c` is written as `text`; what follows the first dot is dropped. -/
inductive Cut : List Char → Component → Prop where
  | plain {text : List Char} (h : '.' ∉ text) : Cut text ⟨text, false⟩
  | dotted {text : List Char} (h : '.' ∉ text) (rest : List Char) : Cut (text ++ '.' :: rest) ⟨text, true⟩

theorem Cut.ofChars_eq {text : List Char} {c : Component} (h : Cut text c) : ofChars text = c := by
  have hkept : ∀ before : List Char, '.' ∉ before → ∀ ch ∈ before, (ch != '.') = true := by
    intro before hdot ch hch
    rw [bne_iff_ne]
    rintro rfl
    exact hdot hch
  cases h with
  | plain h => simp [ofChars, List.takeWhile_eq_self_iff.2 (hkept text h), h]
  | @dotted before h rest => simp [ofChars, List.takeWhile_append_of_pos (hkept before h)]

theorem cut_iff {text : List Char} {c : Component} : Cut text c ↔ ofChars text = c := by
  constructor
  · exact Cut.ofChars_eq
  · rintro rfl
    by_cases hdot : '.' ∈ text
    · obtain ⟨before, rest, rfl, hbefore⟩ := List.eq_append_cons_of_mem hdot
      have hcut := Cut.dotted hbefore rest
      rwa [hcut.ofChars_eq]
    · have hcut := Cut.plain hdot
      rwa [hcut.ofChars_eq]

/-! ## Denominators -/

/-- A run of decimal digits that writes a number. -/
def Numeral (digits : List Char) (n : Nat) : Prop :=
  digits ≠ [] ∧ (∀ ch ∈ digits, ch.isDigit = true) ∧ Digits.value digits = n

/-- What the text of a denominator stands for. -/
inductive Denotes : List Char → Except Fault (Option UInt32) → Prop where
  | unwritten : Denotes [] (.ok none)
  | written {digits : List Char} {n : UInt32} (h : Numeral digits n.toNat) (hn : n ≠ 0) : Denotes digits (.ok (some n))
  -- a number may also be written with a plus, but no other sign and no second one
  | signed {digits : List Char} {n : UInt32} (h : Numeral digits n.toNat) (hn : n ≠ 0) :
      Denotes ('+' :: digits) (.ok (some n))
  | malformed {text : List Char} (htext : text ≠ [])
      (h : ∀ (digits : List Char) (n : UInt32), Numeral digits n.toNat → n ≠ 0 → text ≠ digits ∧ text ≠ '+' :: digits) :
      Denotes text (.error (.malformedDuration text))

theorem word?_eq_some_iff {digits : List Char} {n : UInt32} :
    Digits.word? digits = some n ↔ Digits.value digits = n.toNat := by
  unfold Digits.word?
  by_cases hfits : Digits.value digits < UInt32.size
  · rw [if_pos hfits, Option.some.injEq]
    constructor
    · rintro rfl
      exact (UInt32.toNat_ofNat_of_lt' hfits).symm
    · intro hvalue
      rw [hvalue, UInt32.ofNat_toNat]
  · rw [if_neg hfits]
    constructor
    · intro h
      cases h
    · intro hvalue
      exact absurd (hvalue ▸ n.toNat_lt) hfits

theorem Numeral.notMem_plus {digits : List Char} {n : Nat} (h : Numeral digits n) : '+' ∉ digits := by
  intro hplus
  exact absurd (h.2.1 _ hplus) (by decide)

theorem word?_of_digits {digits : List Char} {n : UInt32} :
    (if digits.isEmpty || !digits.all Char.isDigit then none else Digits.word? digits) = some n ↔
      Numeral digits n.toNat := by
  rw [Option.ite_none_left_eq_some, word?_eq_some_iff]
  simp [Numeral, and_assoc]

theorem number?_eq_some_iff {text : List Char} {n : UInt32} :
    number? text = some n ↔ ∃ digits, Numeral digits n.toNat ∧ (text = digits ∨ text = '+' :: digits) := by
  unfold number?
  dsimp only
  split
  · rename_i rest
    rw [word?_of_digits]
    constructor
    · intro h
      exact ⟨rest, h, .inr rfl⟩
    · rintro ⟨digits, h, rfl | heq⟩
      · exact absurd List.mem_cons_self h.notMem_plus
      · cases heq
        exact h
  · rename_i hplus
    rw [word?_of_digits]
    constructor
    · intro h
      exact ⟨text, h, .inl rfl⟩
    · rintro ⟨digits, h, rfl | rfl⟩
      · exact h
      · exact absurd rfl (hplus digits)

theorem Denotes.ne_zero {text : List Char} {n : UInt32} (h : Denotes text (.ok (some n))) : n ≠ 0 := by
  cases h with
  | written _ hn => exact hn
  | signed _ hn => exact hn

theorem exists_denotes (text : List Char) : ∃ r, Denotes text r := by
  by_cases hempty : text = []
  · subst hempty
    exact ⟨_, .unwritten⟩
  · by_cases hnumeral : ∃ digits, ∃ n : UInt32, Numeral digits n.toNat ∧ n ≠ 0 ∧ (text = digits ∨ text = '+' :: digits)
    · obtain ⟨digits, n, h, hn, rfl | rfl⟩ := hnumeral
      · exact ⟨_, .written h hn⟩
      · exact ⟨_, .signed h hn⟩
    · refine ⟨_, .malformed hempty fun digits n h hn => ⟨?_, ?_⟩⟩
      · exact fun htext => hnumeral ⟨digits, n, h, hn, .inl htext⟩
      · exact fun htext => hnumeral ⟨digits, n, h, hn, .inr htext⟩

theorem denominator?_of_number? {c : Component} {n : UInt32} (hne : c.denominator ≠ [])
    (h : number? c.denominator = some n) (hn : n ≠ 0) : c.denominator? = .ok (some n) := by
  unfold denominator?
  rw [if_neg (by simpa using hne), h]
  exact if_neg hn

theorem Denotes.denominator?_eq {c : Component} {r : Except Fault (Option UInt32)} (h : Denotes c.denominator r) :
    c.denominator? = r := by
  obtain ⟨text, dotted⟩ := c
  cases h with
  | unwritten => rfl
  | written h hn => exact denominator?_of_number? h.1 (number?_eq_some_iff.2 ⟨_, h, .inl rfl⟩) hn
  | signed h hn => exact denominator?_of_number? (by simp) (number?_eq_some_iff.2 ⟨_, h, .inr rfl⟩) hn
  | malformed hne h =>
    unfold denominator?
    rw [if_neg (by simpa using hne)]
    cases hnumber : number? text with
    | none => rfl
    | some n =>
      obtain ⟨digits, hdigits, htext⟩ := number?_eq_some_iff.1 hnumber
      have hzero : n = 0 := by
        by_contra hn
        obtain ⟨hplain, hsigned⟩ := h digits n hdigits hn
        exact htext.elim hplain hsigned
      rw [hzero]
      rfl

theorem denominator?_eq_iff {c : Component} {r : Except Fault (Option UInt32)} :
    c.denominator? = r ↔ Denotes c.denominator r := by
  constructor
  · rintro rfl
    obtain ⟨r, h⟩ := exists_denotes c.denominator
    rwa [h.denominator?_eq]
  · exact Denotes.denominator?_eq

/-! ## Lengths -/

section Lengths
variable {R : Type} [Scalar R]

/-- The denominator that is played: what is written, or the default, in which a zero counts as one. -/
def played (default : UInt32) : Except Fault (Option UInt32) → UInt32
  | .ok (some n) => n
  | _ => max default 1

/-- The part of a whole note that a denominator stands for, and with a dot half as much again. -/
def part (n : UInt32) (dotted : Bool) : R :=
  let plain := ((1 : Nat) : R) / ((n.toNat : Nat) : R)
  if dotted then plain * (((3 : Nat) : R) / ((2 : Nat) : R)) else plain

/-- `Lasts default c x` : by the grammar, the piece `c` takes `x` whole notes. -/
def Lasts (default : UInt32) (c : Component) (x : R) : Prop :=
  ∃ r, Denotes c.denominator r ∧ x = part (played default r) c.dotted

theorem max_one_of_ne_zero {n : UInt32} (hn : n ≠ 0) : max n 1 = n := by
  have hpos : n.toNat ≠ 0 := fun h => hn (UInt32.toNat_inj.1 h)
  show (if n ≤ 1 then 1 else n) = n
  split
  · rename_i hle
    rw [UInt32.le_iff_toNat_le, UInt32.toNat_one] at hle
    rw [← UInt32.toNat_inj, UInt32.toNat_one]
    omega
  · rfl

theorem max_effective (c : Component) (default : UInt32) :
    max (c.effective default) 1 = played default c.denominator? := by
  unfold effective
  cases h : c.denominator? with
  | error fault => rfl
  | ok d =>
    cases d with
    | none => rfl
    | some n => exact max_one_of_ne_zero (denominator?_eq_iff.1 h).ne_zero

theorem lasts_iff {default : UInt32} {c : Component} {x : R} : Lasts default c x ↔ c.wholeNotes default = x := by
  have hlength : c.wholeNotes default = (part (played default c.denominator?) c.dotted : R) := by
    unfold wholeNotes
    rw [max_effective]
    rfl
  rw [hlength]
  constructor
  · rintro ⟨r, h, rfl⟩
    rw [h.denominator?_eq]
  · rintro rfl
    exact ⟨_, denominator?_eq_iff.1 rfl, rfl⟩

end Lengths

end Component

/-- **The grammar of a duration.** Its pieces stand between its ties and are cut at their first dots; a denominator is
what the grammar says of its text, digits with at most one plus before them; and the length is the sum of what the
pieces take, in which every piece that writes no denominator takes the default. -/
theorem duration_grammar (d : Duration) :
    (∃ pieces, Separated '&' d.text pieces ∧ List.Forall₂ Component.Cut pieces d.components) ∧
      (∀ (c : Component) (r : Except Fault (Option UInt32)), c.denominator? = r ↔ Component.Denotes c.denominator r) ∧
      ∀ {R : Type} [Scalar R] (default : UInt32), ∃ lengths : List R,
        List.Forall₂ (Component.Lasts default) d.components lengths ∧
          d.wholeNotes default = lengths.foldl (· + ·) ((0 : Nat) : R) := by
  refine ⟨⟨d.text.splitOn '&', separated_iff.2 rfl, ?_⟩, fun c r => Component.denominator?_eq_iff,
    fun default => ⟨_, ?_, rfl⟩⟩
  · rw [Duration.components, List.forall₂_map_right_iff, List.forall₂_same]
    exact fun piece _ => Component.cut_iff.2 rfl
  · rw [List.forall₂_map_right_iff, List.forall₂_same]
    exact fun c _ => Component.lasts_iff.2 rfl

/-- Digits alone are not the whole grammar: `+8` is taken for 8. -/
theorem denominator_plus_eight :
    ¬ ∀ (text : List Char) (n : UInt32), (Component.ofChars text).denominator? = .ok (some n) ↔
      Component.Numeral (Component.ofChars text).denominator n.toNat ∧ n ≠ 0 := by
  intro h
  have height := (h ['+', '8'] 8).1 rfl
  exact height.1.notMem_plus List.mem_cons_self

end MusicMacro
