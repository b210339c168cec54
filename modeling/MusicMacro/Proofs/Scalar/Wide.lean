import MusicMacro.Proofs.Scalar.Exact

/-!
# Exact numbers with infinities

A sound card takes binary numbers, and a calculation with those can also end in an infinity or in something undefined.
Here the numbers are exact and the rest is as it is there: what is undefined stays so, it compares with nothing, and it
passes a clamp.

* `Wide` : a real number, an infinity, or nothing defined, as scalars and as samples; sums do not depend on an order;
* `Wide.IsNumber` : the real numbers among them, which sums, products and proper quotients do not leave;
* `Wide.clamp_number`, `Wide.clamp_undefined` : what becomes of a value that is cut to a range.
-/

namespace MusicMacro

/-- The result of a calculation. -/
inductive Wide where
  | finite (x : ℝ)
  | infinite (negative : Bool)
  | undefined

namespace Wide

/-! ## Arithmetic -/

noncomputable def add : Wide → Wide → Wide
  | finite x, finite y => finite (x + y)
  | finite _, infinite n | infinite n, finite _ => infinite n
  | infinite m, infinite n => if m = n then infinite m else undefined
  | undefined, _ | _, undefined => undefined

noncomputable def neg : Wide → Wide
  | finite x => finite (-x)
  | infinite n => infinite !n
  | undefined => undefined

noncomputable def mul : Wide → Wide → Wide
  | finite x, finite y => finite (x * y)
  | finite x, infinite n | infinite n, finite x => if x = 0 then undefined else infinite (n ^^ decide (x < 0))
  | infinite m, infinite n => infinite (m ^^ n)
  | undefined, _ | _, undefined => undefined

/-- Zero is the limit from above where something is divided by it. -/
noncomputable def div : Wide → Wide → Wide
  | finite x, finite y => if y ≠ 0 then finite (x / y) else if x = 0 then undefined else infinite (decide (x < 0))
  | finite _, infinite _ => finite 0
  | infinite n, finite y => infinite (n ^^ decide (y < 0))
  | infinite _, infinite _ => undefined
  | undefined, _ | _, undefined => undefined

/-- An infinity lies outside of all numbers; what is undefined lies nowhere. -/
def lt : Wide → Wide → Prop
  | finite x, finite y => x < y
  | finite _, infinite n => n = false
  | infinite n, finite _ => n = true
  | infinite m, infinite n => m = true ∧ n = false
  | undefined, _ | _, undefined => False

def le : Wide → Wide → Prop
  | finite x, finite y => x ≤ y
  | finite _, infinite n => n = false
  | infinite n, finite _ => n = true
  | infinite m, infinite n => m = true ∨ n = false
  | undefined, _ | _, undefined => False

/-- A function of numbers; of anything else it is undefined. -/
noncomputable def ofReal (f : ℝ → ℝ) : Wide → Wide
  | finite x => finite (f x)
  | infinite _ | undefined => undefined

noncomputable instance : Add Wide := ⟨add⟩
noncomputable instance : Sub Wide := ⟨fun a b => add a (neg b)⟩
noncomputable instance : Mul Wide := ⟨mul⟩
noncomputable instance : Div Wide := ⟨div⟩
noncomputable instance : Neg Wide := ⟨neg⟩
noncomputable instance : NatCast Wide := ⟨fun n => finite n⟩
instance : LT Wide := ⟨lt⟩
instance : LE Wide := ⟨le⟩

noncomputable instance : Scalar Wide where
  decLT _ _ := Classical.propDecidable _
  decLE _ _ := Classical.propDecidable _
  isFinite
    | finite _ => true
    | infinite _ | undefined => false
  halfSteps n := finite (Scalar.halfSteps n)
  octaves n := finite (Scalar.octaves n)
  sineOfTurns := ofReal Scalar.sineOfTurns
  fract := ofReal Scalar.fract
  ceilNat
    | finite x => Scalar.ceilNat x
    -- a count of 64 bits does not go further
    | infinite false => 2 ^ 64 - 1
    | infinite true | undefined => 0

noncomputable instance : Amplitude Wide where
  decLT _ _ := Classical.propDecidable _

instance : Sampling Wide Wide where
  store s := s

noncomputable instance : Zero Wide := ⟨finite 0⟩

/-- A sum has no order: infinities of both signs, or anything undefined, leave it undefined. -/
noncomputable instance : AddCommMonoid Wide where
  add_assoc a b c := by
    show add (add a b) c = add a (add b c)
    rcases a with x | m | _ <;> rcases b with y | n | _ <;> rcases c with z | k | _ <;> simp only [add]
    · rw [add_assoc]
    all_goals grind [add]
  zero_add a := by
    show add (finite 0) a = a
    cases a <;> simp [add]
  add_zero a := by
    show add a (finite 0) = a
    cases a <;> simp [add]
  add_comm a b := by
    show add a b = add b a
    rcases a with x | m | _ <;> rcases b with y | n | _ <;> simp only [add]
    · rw [add_comm]
    · grind
  nsmul := nsmulRec

theorem natCast_zero : ((0 : Nat) : Wide) = 0 := congrArg finite Nat.cast_zero

theorem finite_le {x y : ℝ} : finite x ≤ finite y ↔ x ≤ y := Iff.rfl

theorem finite_lt_of_le {x y : ℝ} {a : Wide} (hle : x ≤ y) (h : finite y < a) : finite x < a := by
  change lt (finite y) a at h
  show lt (finite x) a
  cases a with
  | finite z => exact hle.trans_lt h
  | infinite n => exact h
  | undefined => exact h

theorem frameTime_eq {rate : Nat} (hrate : 0 < rate) (n : Nat) :
    (Scalar.frameTime rate n : Wide) = finite ((n : ℝ) / rate) :=
  if_pos (Nat.cast_ne_zero.2 (Nat.pos_iff_ne_zero.1 hrate))

/-- Only a positive number sounds, and a share of it sounds as well. -/
theorem isPositive_div_iff {rate : Nat} (hrate : 0 < rate) (a : Wide) :
    Scalar.isPositive (a / ((rate : Nat) : Wide)) = true ↔ ∃ f, a = finite f ∧ 0 < f := by
  have hpos : (0 : ℝ) < rate := Nat.cast_pos.2 hrate
  rcases a with f | n | _
  · have hquotient : finite f / ((rate : Nat) : Wide) = finite (f / rate) := if_pos hpos.ne'
    have hshare : Scalar.isPositive (finite (f / rate)) = true ↔ ((0 : Nat) : ℝ) < f / rate := by
      simp only [Scalar.isPositive, Scalar.isFinite, Bool.true_and, decide_eq_true_eq]
      rfl
    rw [hquotient, hshare, Nat.cast_zero, div_pos_iff_of_pos_right hpos]
    simp
  · exact iff_of_false Bool.false_ne_true (by simp)
  · exact iff_of_false Bool.false_ne_true (by simp)

theorem not_lt_undefined (a : Wide) : ¬ a < undefined := by
  cases a <;> exact id

theorem not_undefined_lt (a : Wide) : ¬ undefined < a := by
  cases a <;> exact id

instance : SteadyClock Wide where
  le_trans {a b c} hab hbc := by
    change le a b at hab
    change le b c at hbc
    show le a c
    rcases a with x | m | _ <;> rcases b with y | n | _ <;> rcases c with z | k | _ <;> simp only [le] at *
    · exact hab.trans hbc
    all_goals grind
  not_lt_of_le {a b} hab hba := by
    change le a b at hab
    change lt b a at hba
    rcases a with x | m | _ <;> rcases b with y | n | _ <;> simp only [le, lt] at *
    · exact absurd hab (not_le.2 hba)
    all_goals grind
  frameTime_mono {rate m n} hrate hmn := by
    rw [frameTime_eq hrate, frameTime_eq hrate]
    exact finite_le.2 (SteadyClock.frameTime_mono (R := ℝ) hrate hmn)

/-! ## Numbers -/

def IsNumber (a : Wide) : Prop := ∃ x, a = finite x

theorem isNumber_iff {a : Wide} : Scalar.isFinite a = true ↔ IsNumber a := by
  constructor
  · intro h
    cases a with
    | finite x => exact ⟨x, rfl⟩
    | infinite n => cases h
    | undefined => cases h
  · rintro ⟨x, rfl⟩
    rfl

theorem isNumber_natCast (n : Nat) : IsNumber ((n : Nat) : Wide) := ⟨n, rfl⟩

namespace IsNumber
variable {a b : Wide}

theorem add (ha : IsNumber a) (hb : IsNumber b) : IsNumber (a + b) := by
  obtain ⟨x, rfl⟩ := ha
  obtain ⟨y, rfl⟩ := hb
  exact ⟨x + y, rfl⟩

theorem neg (ha : IsNumber a) : IsNumber (-a) := by
  obtain ⟨x, rfl⟩ := ha
  exact ⟨-x, rfl⟩

theorem sub (ha : IsNumber a) (hb : IsNumber b) : IsNumber (a - b) := ha.add hb.neg

theorem mul (ha : IsNumber a) (hb : IsNumber b) : IsNumber (a * b) := by
  obtain ⟨x, rfl⟩ := ha
  obtain ⟨y, rfl⟩ := hb
  exact ⟨x * y, rfl⟩

theorem ofReal (ha : IsNumber a) (f : ℝ → ℝ) : IsNumber (Wide.ofReal f a) := by
  obtain ⟨x, rfl⟩ := ha
  exact ⟨f x, rfl⟩

theorem le_of_not_le (ha : IsNumber a) (hb : IsNumber b) (h : ¬ a ≤ b) : b ≤ a := by
  obtain ⟨x, rfl⟩ := ha
  obtain ⟨y, rfl⟩ := hb
  exact finite_le.2 (not_le.1 fun hle => h (finite_le.2 hle)).le

theorem div {y : ℝ} (ha : IsNumber a) (hy : y ≠ 0) : IsNumber (a / finite y) := by
  obtain ⟨x, rfl⟩ := ha
  exact ⟨x / y, if_pos hy⟩

end IsNumber

theorem not_isNumber_div_zero (a : Wide) : ¬ IsNumber (a / finite 0) := by
  rintro ⟨x, hx⟩
  change Wide.div a (finite 0) = finite x at hx
  rcases a with y | n | _
  · rw [Wide.div, if_neg (not_not.2 rfl)] at hx
    split at hx <;> cases hx
  · cases hx
  · cases hx

/-! ## Cutting -/

def Within (bound : ℝ) (s : Wide) : Prop := ∃ x, s = finite x ∧ -bound ≤ x ∧ x ≤ bound

/-- A number that is cut to a range is a number in that range. -/
theorem clamp_number {low high : ℝ} (hle : low ≤ high) {s : Wide} (hs : s ≠ undefined) :
    ∃ x, Amplitude.clamp (finite low) (finite high) s = finite x ∧ low ≤ x ∧ x ≤ high := by
  unfold Amplitude.clamp
  by_cases hlow : s < finite low
  · exact ⟨low, if_pos hlow, le_rfl, hle⟩
  · rw [if_neg hlow]
    by_cases hhigh : finite high < s
    · exact ⟨high, if_pos hhigh, hle, le_rfl⟩
    · rw [if_neg hhigh]
      rcases s with x | n | _
      · exact ⟨x, rfl, not_lt.1 hlow, not_lt.1 hhigh⟩
      · cases n with
        | true => exact absurd rfl hlow
        | false => exact absurd rfl hhigh
      · exact absurd rfl hs

/-- What is undefined passes. -/
theorem clamp_undefined (low high : Wide) : Amplitude.clamp low high undefined = undefined := by
  unfold Amplitude.clamp
  rw [if_neg (not_undefined_lt low), if_neg (not_lt_undefined high)]

end Wide

end MusicMacro
