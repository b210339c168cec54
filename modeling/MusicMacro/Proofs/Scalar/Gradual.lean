import Mathlib
import MusicMacro.Scalar.Binary

/-!
# Numbers that can be told apart

Binary numbers are rounded, but not so far that two different ones have no difference: the smallest of them lose their
digits one by one. So what has passed a comparison can be divided by.

* `Scalar.IsZero` : a divisor that there is no quotient by;
* `GradualScalar R` : scalars whose finite values can be compared, and whose different finite values have a difference;
* `Binary.key` : what a comparison of binary numbers looks at; `Binary.le_iff` : it is the order of the keys;
* `Binary.Canonical` : the digits of a binary number, which determine it; `canonical_of_unpack`;
* `Binary.round_eq_finite` : what is not zero is not rounded to zero; `Binary.sub_eq_finite` : so different numbers
  have a difference;
* `Binary.unpack_pack_ne_notANumber`, `Binary.unpack_pack_finite_ne_zero` : a number that is stored stays one;
* `GradualScalar Float` : the binary numbers are such scalars.
-/

namespace MusicMacro

/-- Zero, of any sign. -/
def Scalar.IsZero {R : Type} [Scalar R] (x : R) : Prop := x ≤ ((0 : Nat) : R) ∧ ((0 : Nat) : R) ≤ x

instance Scalar.decidableIsZero {R : Type} [Scalar R] (x : R) : Decidable (Scalar.IsZero x) :=
  inferInstanceAs (Decidable (_ ∧ _))

/-- Scalars that can be told apart. What cannot be compared with itself is not defined. -/
class GradualScalar (R : Type) [Scalar R] : Prop where
  le_trans : ∀ {a b c : R}, a ≤ b → b ≤ c → a ≤ c
  le_total : ∀ {a b : R}, a ≤ a → b ≤ b → a ≤ b ∨ b ≤ a
  le_self : ∀ {a : R}, Scalar.isFinite a = true → a ≤ a
  sub_ne_zero : ∀ {a b : R}, Scalar.isFinite a = true → Scalar.isFinite b = true → ¬ b ≤ a → ¬ Scalar.IsZero (b - a)
  frameTime_le : ∀ {frequency : R} {rate : Nat}, Scalar.isPositive (frequency / ((rate : Nat) : R)) = true →
    ∀ n, (Scalar.frameTime rate n : R) ≤ Scalar.frameTime rate n

instance GradualScalar.isTrans {R : Type} [Scalar R] [GradualScalar R] : IsTrans R (· ≤ ·) := ⟨fun _ _ _ => le_trans⟩

namespace Binary
open Float.Model (Format UnpackedFloat pack totalExponent)
open Float.Model.UnpackedFloat hiding normalize round sub div

/-! ## Order -/

/-- What a comparison looks at: the sign and the size, the exponent, the digits. -/
def key : UnpackedFloat → Int ×ₗ Int ×ₗ Int
  | .infinity .positive => toLex (2, toLex (0, 0))
  | .finite .positive m e _ => toLex (1, toLex (e, m))
  | .zero _ | .notANumber => toLex (0, toLex (0, 0))
  | .finite .negative m e _ => toLex (-1, toLex (-e, -m))
  | .infinity .negative => toLex (-2, toLex (0, 0))

theorem isLE_then_iff (e f : Int) (m n : Nat) :
    ((compare e f).then (compare m n)).isLE = true ↔ e < f ∨ e = f ∧ m ≤ n := by
  rcases lt_trichotomy e f with h | rfl | h
  · simp [compare_lt_iff_lt.2 h, h]
  · simp [Nat.isLE_compare]
  · simp [compare_gt_iff_gt.2 h, h.not_gt, h.ne']

theorem isGE_then_iff (e f : Int) (m n : Nat) :
    ((compare e f).then (compare m n)).isGE = true ↔ f < e ∨ e = f ∧ n ≤ m := by
  rw [@eq_comm Int e f, ← isLE_then_iff, ← Ordering.isLE_swap, Ordering.swap_then, Int.compare_swap, Nat.compare_swap]

/-- Numbers are compared by their keys, unless one of them is undefined. -/
theorem unpacked_le_iff (u v : UnpackedFloat) :
    u.le v = true ↔ u ≠ .notANumber ∧ v ≠ .notANumber ∧ key u ≤ key v := by
  unfold UnpackedFloat.le
  rcases u with (_ | _) | _ | _ | ⟨_ | _, m, e, hm⟩ <;> rcases v with (_ | _) | _ | _ | ⟨_ | _, n, f, hn⟩ <;>
    simp [UnpackedFloat.compare, key, Prod.Lex.le_iff, isLE_then_iff, isGE_then_iff] <;> rfl

/-! ## Digits -/

/-- The digits of a binary number fill its width, but for the smallest numbers. -/
structure Canonical (m : Nat) (e : Int) : Prop where
  digits_lt : m < 2 ^ 53
  /-- The smallest numbers have this exponent. -/
  le_exponent : -1074 ≤ e
  /-- Only they begin with a zero. -/
  full : e = -1074 ∨ 2 ^ 52 ≤ m

theorem canonical_of_unpack {b : BitVec Format.binary64.numBits} {s : Sign} {m : Nat} {e : Int} {hm : 0 < m}
    (h : unpack .binary64 b = .finite s m e hm) : Canonical m e := by
  have hdigits : (unpackMantissa b).toNat < 2 ^ 52 := (unpackMantissa b).isLt
  unfold unpack at h
  simp only at h
  split_ifs at h with hlast hnone hfirst
  · cases h
    refine ⟨hdigits.trans (by decide), ?_, .inl ?_⟩ <;> rw [hfirst] <;> decide
  · cases h
    have hexponent : 0 < (unpackExponent b).toNat := by
      refine Nat.pos_of_ne_zero fun hzero => hfirst (BitVec.eq_of_toNat_eq ?_)
      rw [hzero]
      rfl
    have htwo : (1#1 ++ unpackMantissa b).toNat = 2 ^ 52 + (unpackMantissa b).toNat := by
      rw [BitVec.toNat_append, ← Nat.shiftLeft_add_eq_or_of_lt hdigits]
      rfl
    rw [htwo]
    refine ⟨by omega, ?_, .inr (Nat.le_add_right _ _)⟩
    simp only [Format.exponentBias]
    omega

/-- A number has its digits at one exponent only. -/
theorem Canonical.eq_of_shift {m n : Nat} {e f : Int} (hm : Canonical m e) (hn : Canonical n f) (hle : e ≤ f)
    (h : m = n <<< (f - e).toNat) : m = n ∧ e = f := by
  rcases hle.eq_or_lt with rfl | hlt
  · rw [Int.sub_self] at h
    exact ⟨h, rfl⟩
  · -- more than 53 digits would be needed at the smaller exponent
    have hfull : 2 ^ 52 ≤ n := hn.full.resolve_left fun hlast => absurd hm.le_exponent (not_le.2 (hlast ▸ hlt))
    have hshift : 2 ^ 1 ≤ 2 ^ (f - e).toNat := Nat.pow_le_pow_right (by decide) (by omega)
    have hlarge : 2 ^ 52 * 2 ^ 1 ≤ n * 2 ^ (f - e).toNat := Nat.mul_le_mul hfull hshift
    rw [← Nat.shiftLeft_eq n, ← h] at hlarge
    exact absurd hm.digits_lt (not_lt.2 hlarge)

theorem Canonical.eq_of_aligned {m n : Nat} {e f : Int} (hm : Canonical m e) (hn : Canonical n f)
    (h : m <<< (e - min e f).toNat = n <<< (f - min e f).toNat) : m = n ∧ e = f := by
  rcases le_total e f with hle | hle
  · rw [min_eq_left hle, Int.sub_self] at h
    exact hm.eq_of_shift hn hle h
  · rw [min_eq_right hle, Int.sub_self] at h
    obtain ⟨hdigits, hexponent⟩ := hn.eq_of_shift hm hle h.symm
    exact ⟨hdigits.symm, hexponent.symm⟩

/-! ## Rounding -/

theorem mantissa_shiftRight (em : ExtendedMantissa) (k : Nat) : (em >>> k).mantissa = em.mantissa / 2 ^ k := by
  change (Nat.repeat ExtendedMantissa.shiftRightOne k em).mantissa = _
  induction k with
  | zero => exact (Nat.div_one _).symm
  | succ k ih =>
    show (Nat.repeat ExtendedMantissa.shiftRightOne k em).mantissa / 2 = _
    rw [ih, Nat.div_div_eq_div_mul, Nat.pow_succ]

theorem mantissa_ofMantissaAndAccuracy (m : Nat) (acc : Accuracy) :
    (ExtendedMantissa.ofMantissaAndAccuracy m acc).mantissa = m := by
  rcases acc with _ | _ | _ | _ <;> rfl

theorem le_roundedMantissa (em : ExtendedMantissa) : em.mantissa ≤ em.roundedMantissa := by
  unfold ExtendedMantissa.roundedMantissa
  rcases em.accuracy with _ | _ | _ | _
  · exact le_rfl
  · exact le_rfl
  · exact Nat.le_add_right _ _
  · exact Nat.le_succ _

theorem targetExponent_eq (m : Nat) (e : Int) :
    Format.targetExponent .binary64 (totalExponent m e) = max (m.log2 + 1 + e - 53) (-1074) := rfl

/-- At its exponent a number has at most 53 digits, and it does not lose all of them. -/
theorem shiftToTargetExponent_spec {m : Nat} {e : Int} (hm : 0 < m) (he : -1074 ≤ e) (acc : Accuracy) :
    let out := shiftToTargetExponent .binary64 m e acc
    0 < out.1.mantissa ∧ out.1.mantissa < 2 ^ 53 ∧ -1074 ≤ out.2 := by
  unfold shiftToTargetExponent shiftToExponent
  simp only [targetExponent_eq, mantissa_shiftRight, mantissa_ofMantissaAndAccuracy]
  generalize hk : (max ((m.log2 : Int) + 1 + e - 53) (-1074) - e).toNat = k
  have hsome : k ≤ m.log2 := by omega
  have hfew : m.log2 + 1 ≤ 53 + k := by omega
  refine ⟨Nat.div_pos ?_ (Nat.two_pow_pos k), ?_, by omega⟩
  · exact (Nat.pow_le_pow_right (by decide) hsome).trans (Nat.log2_self_le hm.ne')
  · rw [Nat.div_lt_iff_lt_mul (Nat.two_pow_pos k), ← Nat.pow_add]
    exact Nat.lt_log2_self.trans_le (Nat.pow_le_pow_right (by decide) hfew)

theorem roundWithAccuracy_eq_finite (s : Sign) {m : Nat} {e : Int} (hm : 0 < m) (he : -1074 ≤ e) (acc : Accuracy) :
    ∃ m' e' hm', roundWithAccuracy .binary64 s m e acc = .finite s m' e' hm' ∧ m' < 2 ^ 53 ∧ -1074 ≤ e' := by
  obtain ⟨hpos, -, hexponent⟩ := shiftToTargetExponent_spec hm he acc
  have hrounded := hpos.trans_le (le_roundedMantissa _)
  obtain ⟨hpos', hdigits, hexponent'⟩ := shiftToTargetExponent_spec hrounded hexponent .exact
  exact ⟨_, _, hpos', dif_neg hpos'.ne', hdigits, hexponent'⟩

/-- What is not zero is not rounded to zero. -/
theorem round_eq_finite (s : Sign) {m : Nat} {e : Int} (hm : 0 < m) (he : -1074 ≤ e) :
    ∃ m' e' hm', UnpackedFloat.round .binary64 s m e = .finite s m' e' hm' ∧ m' < 2 ^ 53 ∧ -1074 ≤ e' := by
  refine roundWithAccuracy_eq_finite s ?_ ?_ .exact
  · exact Nat.shiftLeft_pos_iff.2 hm
  · rw [targetExponent_eq]
    omega

/-! ## Packing -/

theorem packComponents_inj {s t : Sign} {e f : BitVec 11} {m n : BitVec 52}
    (h : packComponents .binary64 s e m = packComponents .binary64 t f n) : e = f ∧ m = n := by
  have hexponent := congrArg unpackExponent h
  have hmantissa := congrArg unpackMantissa h
  rw [unpackExponent_packComponents, unpackExponent_packComponents] at hexponent
  rw [unpackMantissa_packComponents, unpackMantissa_packComponents] at hmantissa
  exact ⟨hexponent, hmantissa⟩

theorem packComponents_ne_packedNaN (s : Sign) {e : BitVec 11} {m : BitVec 52} (h : e ≠ -1#11 ∨ m = 0#52) :
    packComponents .binary64 s e m ≠ packedNaN .binary64 := by
  intro hsame
  obtain ⟨hexponent, hmantissa⟩ := packComponents_inj hsame
  rcases h with h | rfl
  · exact h hexponent
  · exact absurd hmantissa (by decide)

theorem packComponents_ne_packedZero (s t : Sign) {e : BitVec 11} {m : BitVec 52} (h : e ≠ 0#11 ∨ m ≠ 0#52) :
    packComponents .binary64 s e m ≠ packedZero .binary64 t := by
  intro hsame
  obtain ⟨hexponent, hmantissa⟩ := packComponents_inj hsame
  exact h.elim (fun h => h hexponent) fun h => h hmantissa

theorem unpack_pack_ne_notANumber {u : UnpackedFloat} (h : u ≠ .notANumber) : (pack u).unpack ≠ .notANumber := by
  refine (unpack_eq_notANumber_iff_of_valid valid_pack).not.2 ?_
  unfold UnpackedFloat.pack
  split
  · exact absurd rfl h
  · exact packComponents_ne_packedNaN _ (.inr rfl)
  · exact packComponents_ne_packedNaN _ (.inr rfl)
  · rename_i s m e hm
    dsimp only
    split_ifs with hlarge hfull
    · exact packComponents_ne_packedNaN _ (.inr rfl)
    · refine packComponents_ne_packedNaN _ (.inl fun hlast => ?_)
      have hexponent := congrArg BitVec.toNat hlast
      rw [BitVec.toNat_ofNat, Nat.mod_eq_of_lt (by omega)] at hexponent
      exact hlarge (hexponent ▸ le_rfl)
    · exact packComponents_ne_packedNaN _ (.inl (by decide))

/-- A number that fits is not packed to zero. -/
theorem unpack_pack_finite_ne_zero (s t : Sign) {m : Nat} {e : Int} {hm : 0 < m} (hdigits : m < 2 ^ 53)
    (he : -1074 ≤ e) : (pack (.finite s m e hm)).unpack ≠ .zero t := by
  refine (unpack_eq_zero_iff_of_valid valid_pack).not.2 ?_
  have hbias : (e + Format.exponentBias .binary64 + (52 : Nat)).toNat = (e + 1075).toNat := by
    simp only [Format.exponentBias]
    omega
  unfold UnpackedFloat.pack
  dsimp only
  rw [hbias]
  split_ifs with hlarge hfull
  · exact packComponents_ne_packedZero _ _ (.inl (by decide))
  · refine packComponents_ne_packedZero _ _ (.inl fun hfirst => ?_)
    have hexponent := congrArg BitVec.toNat hfirst
    rw [BitVec.toNat_ofNat, Nat.mod_eq_of_lt (by omega)] at hexponent
    simp at hexponent
    omega
  · refine packComponents_ne_packedZero _ _ (.inr fun hnone => ?_)
    have hlog : m.log2 < 52 := by
      have := (Nat.log2_lt hm.ne').2 hdigits
      have hne : m.log2 + 1 ≠ 53 := hfull
      omega
    have hmantissa := congrArg BitVec.toNat hnone
    rw [BitVec.toNat_ofNat, Nat.mod_eq_of_lt ((Nat.log2_lt hm.ne').1 hlog)] at hmantissa
    exact hm.ne' hmantissa

/-! ## Operations -/

theorem le_iff (a b : Float) :
    a ≤ b ↔ a.toModel.unpack ≠ .notANumber ∧ b.toModel.unpack ≠ .notANumber ∧
      key a.toModel.unpack ≤ key b.toModel.unpack := by
  rw [← unpacked_le_iff]
  show decide (a.toModel ≤ b.toModel) = true ↔ _
  rw [decide_eq_true_iff]
  exact Iff.rfl

theorem unpack_eq_zero_of_isZero {x : Float} (h : Scalar.IsZero x) : ∃ s, x.toModel.unpack = .zero s := by
  have hzero : key ((0 : Nat) : Float).toModel.unpack = toLex (0, toLex (0, 0)) := rfl
  obtain ⟨hdefined, -, hle⟩ := (le_iff _ _).1 h.1
  obtain ⟨-, -, hge⟩ := (le_iff _ _).1 h.2
  have hkey := le_antisymm hle hge
  rw [hzero] at hkey
  generalize x.toModel.unpack = u at hdefined hkey
  rcases u with (_ | _) | _ | s | ⟨_ | _, m, e, hm⟩
  · cases hkey
  · cases hkey
  · exact absurd rfl hdefined
  · exact ⟨s, rfl⟩
  · cases hkey
  · cases hkey

/-- A finite number with its digits in order. -/
def Fits : UnpackedFloat → Prop
  | .zero _ => True
  | .finite _ m e _ => Canonical m e
  | _ => False

theorem fits_of_isFinite {a : Float} (h : Scalar.isFinite a = true) : Fits a.toModel.unpack := by
  have hfinite : a.toModel.unpack.isFinite = true := h
  cases hu : a.toModel.unpack with
  | infinity s => rw [hu] at hfinite; cases hfinite
  | notANumber => rw [hu] at hfinite; cases hfinite
  | zero s => exact trivial
  | finite s m e hm => exact canonical_of_unpack hu

theorem Fits.ne_notANumber {u : UnpackedFloat} (h : Fits u) : u ≠ .notANumber := by
  rintro rfl
  exact h

theorem normalize_eq_finite {m e : Int} (hm : m ≠ 0) (he : -1074 ≤ e) (t : Sign) :
    ∃ s m' e' hm', UnpackedFloat.normalize .binary64 m e t = .finite s m' e' hm' ∧ m' < 2 ^ 53 ∧ -1074 ≤ e' := by
  unfold UnpackedFloat.normalize
  rcases lt_trichotomy m 0 with h | h | h
  · rw [compare_lt_iff_lt.2 h]
    exact ⟨_, round_eq_finite .negative (by omega) he⟩
  · exact absurd h hm
  · rw [compare_gt_iff_gt.2 h]
    exact ⟨_, round_eq_finite .positive (by omega) he⟩

/-- Finite numbers that compare as different have a difference. -/
theorem sub_eq_finite {u v : UnpackedFloat} (hu : Fits u) (hv : Fits v) (h : key u ≠ key v) :
    ∃ s m e hm, UnpackedFloat.sub .binary64 u v = .finite s m e hm ∧ m < 2 ^ 53 ∧ -1074 ≤ e := by
  rcases u with _ | _ | s | ⟨s, m, e, hm⟩ <;> rcases v with _ | _ | t | ⟨t, n, f, hn⟩ <;>
    first | exact absurd hu id | exact absurd hv id | skip
  case zero.zero => exact absurd rfl h
  case zero.finite => exact ⟨_, _, _, _, rfl, hv.digits_lt, hv.le_exponent⟩
  case finite.zero => exact ⟨_, _, _, _, rfl, hu.digits_lt, hu.le_exponent⟩
  case finite.finite =>
    refine normalize_eq_finite (fun hsame => h ?_) (le_min hu.le_exponent hv.le_exponent) .positive
    have hpos : 0 < m <<< (e - min e f).toNat := Nat.shiftLeft_pos_iff.2 hm
    have hpos' : 0 < n <<< (f - min e f).toNat := Nat.shiftLeft_pos_iff.2 hn
    cases s <;> cases t <;> simp only [Sign.apply] at hsame
    · obtain ⟨rfl, rfl⟩ := Canonical.eq_of_aligned hu hv (by omega)
      rfl
    · omega
    · omega
    · obtain ⟨rfl, rfl⟩ := Canonical.eq_of_aligned hu hv (by omega)
      rfl

theorem unpack_ofCount_ne_notANumber (n : Nat) : (ofCount n).toModel.unpack ≠ .notANumber := by
  refine unpack_pack_ne_notANumber ?_
  change UnpackedFloat.normalize .binary64 (n.toUInt64.toNat : Int) 0 .positive ≠ .notANumber
  by_cases hzero : (n.toUInt64.toNat : Int) = 0
  · rw [hzero]
    exact UnpackedFloat.noConfusion
  · obtain ⟨s, m, e, hm, heq, -, -⟩ := normalize_eq_finite hzero (e := 0) (by decide) .positive
    rw [heq]
    exact UnpackedFloat.noConfusion

theorem unpack_ne_zero_of_isPositive {x : Float} (h : Scalar.isPositive x = true) (s : Sign) :
    x.toModel.unpack ≠ .zero s := by
  have hlt : decide (((0 : Nat) : Float).toModel < x.toModel) = true := of_decide_eq_true (Bool.and_eq_true_iff.1 h).2
  intro hzero
  have hlt' : (UnpackedFloat.zero .positive).lt x.toModel.unpack = true := of_decide_eq_true hlt
  rw [hzero] at hlt'
  cases hlt'

/-- What is divided by something else than a number of digits has no digits itself. -/
theorem div_cases (u v : UnpackedFloat) :
    (∃ s m e hm, v = .finite s m e hm) ∨ UnpackedFloat.div .binary64 u v = .notANumber ∨
      ∃ s, UnpackedFloat.div .binary64 u v = .infinity s ∨ UnpackedFloat.div .binary64 u v = .zero s := by
  cases v with
  | finite s m e hm => exact .inl ⟨s, m, e, hm, rfl⟩
  | notANumber => cases u <;> exact .inr (.inl rfl)
  | infinity s =>
    cases u with
    | infinity | notANumber => exact .inr (.inl rfl)
    | zero | finite => exact .inr (.inr ⟨_, .inr rfl⟩)
  | zero s =>
    cases u with
    | infinity | finite => exact .inr (.inr ⟨_, .inl rfl⟩)
    | notANumber | zero => exact .inr (.inl rfl)

/-- Only a number that is neither zero nor infinite divides another into positive shares. -/
theorem unpack_eq_finite_of_isPositive {x r : Float} (h : Scalar.isPositive (x / r) = true) :
    ∃ s m e hm, r.toModel.unpack = .finite s m e hm := by
  have hunpack : (x / r).toModel.unpack =
      (pack (UnpackedFloat.div .binary64 x.toModel.unpack r.toModel.unpack)).unpack := rfl
  have hfinite := fits_of_isFinite (Bool.and_eq_true_iff.1 h).1
  have hsome := unpack_ne_zero_of_isPositive h
  rw [hunpack] at hfinite hsome
  refine (div_cases x.toModel.unpack r.toModel.unpack).resolve_right ?_
  rintro (hdiv | ⟨s, hdiv | hdiv⟩) <;> rw [hdiv] at hfinite hsome
  · exact hfinite
  · cases s <;> exact hfinite
  · cases s <;> exact absurd rfl (hsome _)

theorem roundWithAccuracy_ne_notANumber (s : Sign) (m : Nat) (e : Int) (acc : Accuracy) :
    roundWithAccuracy .binary64 s m e acc ≠ .notANumber := by
  unfold roundWithAccuracy
  dsimp only
  split_ifs
  · exact UnpackedFloat.noConfusion
  · exact UnpackedFloat.noConfusion

theorem div_ne_notANumber {u v : UnpackedFloat} (hu : u ≠ .notANumber) (hv : ∃ s m e hm, v = .finite s m e hm) :
    UnpackedFloat.div .binary64 u v ≠ .notANumber := by
  obtain ⟨s, m, e, hm, rfl⟩ := hv
  rcases u with t | _ | t | ⟨t, n, f, hn⟩
  · exact UnpackedFloat.noConfusion
  · exact absurd rfl hu
  · exact UnpackedFloat.noConfusion
  · exact roundWithAccuracy_ne_notANumber _ _ _ _

end Binary

instance : GradualScalar Float where
  le_trans hab hbc := by
    obtain ⟨ha, -, hab⟩ := (Binary.le_iff _ _).1 hab
    obtain ⟨-, hc, hbc⟩ := (Binary.le_iff _ _).1 hbc
    exact (Binary.le_iff _ _).2 ⟨ha, hc, hab.trans hbc⟩
  le_total ha hb := by
    obtain ⟨ha, -, -⟩ := (Binary.le_iff _ _).1 ha
    obtain ⟨hb, -, -⟩ := (Binary.le_iff _ _).1 hb
    exact (le_total _ _).imp (fun h => (Binary.le_iff _ _).2 ⟨ha, hb, h⟩) fun h => (Binary.le_iff _ _).2 ⟨hb, ha, h⟩
  le_self {a} ha := by
    have hdefined := (Binary.fits_of_isFinite ha).ne_notANumber
    exact (Binary.le_iff _ _).2 ⟨hdefined, hdefined, le_rfl⟩
  sub_ne_zero {a b} ha hb hlt hzero := by
    have hfits := Binary.fits_of_isFinite ha
    have hfits' := Binary.fits_of_isFinite hb
    have hkey : Binary.key b.toModel.unpack ≠ Binary.key a.toModel.unpack := fun hsame =>
      hlt ((Binary.le_iff _ _).2 ⟨hfits'.ne_notANumber, hfits.ne_notANumber, hsame.le⟩)
    obtain ⟨s, hnone⟩ := Binary.unpack_eq_zero_of_isZero hzero
    obtain ⟨t, m, e, hm, hsub, hdigits, hexponent⟩ := Binary.sub_eq_finite hfits' hfits hkey
    have hunpack : (b - a).toModel.unpack = (Float.Model.pack (.finite t m e hm)).unpack :=
      congrArg (fun u => (Float.Model.pack u).unpack) hsub
    exact Binary.unpack_pack_finite_ne_zero t s hdigits hexponent (hunpack.symm.trans hnone)
  frameTime_le h n := by
    have hdefined := Binary.unpack_pack_ne_notANumber
      (Binary.div_ne_notANumber (Binary.unpack_ofCount_ne_notANumber n) (Binary.unpack_eq_finite_of_isPositive h))
    exact (Binary.le_iff _ _).2 ⟨hdefined, hdefined, le_rfl⟩

end MusicMacro
