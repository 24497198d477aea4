import Statevector.Decimal.Binary64
import Statevector.Proofs.Decimal.Negation

/-!
# Exact values

A finite binary64 number stands for a rational number, and comparing two finite numbers compares
the rational numbers that they stand for.

* `Binary64.toRat`: the exact value of a number;
* `Binary64.ofFloat_eq`: the parts of a word, read by shifts and remainders, are those of the
  library's model of binary64 numbers, on which comparisons are defined;
* `Binary64.IsReduced`: the mantissas and exponents of finite numbers; of two such numbers the one
  with the greater exponent is the greater one (`Binary64.mul_two_zpow_lt_of_lt`), so that the
  model can compare exponents before mantissas (`Binary64.compare_eq`);
* **`Binary64.lt_iff`**, **`Binary64.le_iff`**, `Binary64.toRat_abs`: order and absolute values.
-/

namespace Statevector

open Float.Model Float.Model.UnpackedFloat

namespace Binary64

/-- The exact value of a number. What is not finite has none, and counts as zero. -/
def toRat : Binary64 → ℚ
  | nan | infinite _ => 0
  | finite negative m e => (if negative then -1 else 1) * (m * 2 ^ e)

/-- The exact value of a number that is not zero has its sign. -/
theorem toRat_nonneg_iff {negative : Bool} {m : Nat} {e : Int}
    (h : (finite negative m e).toRat ≠ 0) : 0 ≤ (finite negative m e).toRat ↔ negative = false := by
  have hpos : (0 : ℚ) ≤ m * 2 ^ e := by positivity
  cases negative with
  | false => simpa [toRat] using hpos
  | true =>
    have hlt : (finite true m e).toRat < 0 := lt_of_le_of_ne (by simpa [toRat] using hpos) h
    simp [hlt]

/-- The value that has the parts of an unpacked number. -/
def ofUnpacked : UnpackedFloat → Binary64
  | .notANumber => nan
  | .infinity s => infinite (s == .negative)
  | .zero s => finite (s == .negative) 0 (-1074)
  | .finite s m e _ => finite (s == .negative) m e

/-! ## Words and their parts -/

section

variable (b : BitVec 64)

theorem toNat_unpackMantissa :
    (@unpackMantissa Format.binary64 b).toNat = b.toNat % leadingBit := by
  rw [unpackMantissa_def, BitVec.extractLsb'_toNat, Nat.shiftRight_zero]
  rfl

theorem toNat_unpackExponent :
    (@unpackExponent Format.binary64 b).toNat = (b.toNat >>> 52) % 2048 := by
  rw [unpackExponent_def, BitVec.extractLsb'_toNat]
  rfl

theorem isNegative_unpackSign :
    (Sign.ofBitVec (@unpackSign Format.binary64 b) == .negative) =
      ((b.toNat >>> 63) % 2 == 1) := by
  have hbit : (@unpackSign Format.binary64 b).toNat = (b.toNat >>> 63) % 2 := by
    rw [unpackSign_def, BitVec.extractLsb'_toNat]
    rfl
  rw [← hbit]
  generalize @unpackSign Format.binary64 b = s
  revert s
  decide

/-- A mantissa with its leading bit, which is not stored. -/
theorem toNat_leading_append :
    (1#1 ++ @unpackMantissa Format.binary64 b).toNat =
      leadingBit + (@unpackMantissa Format.binary64 b).toNat := by
  rw [BitVec.toNat_append, ← Nat.shiftLeft_add_eq_or_of_lt (BitVec.isLt _)]
  rfl

/-- The value of a word has the parts that the model takes the word apart into. -/
theorem ofBits_toNat : ofBits b.toNat = ofUnpacked (unpack Format.binary64 b) := by
  have hmantissa : @unpackMantissa Format.binary64 b = 0#52 ↔ b.toNat % leadingBit = 0 := by
    rw [← toNat_unpackMantissa, ← BitVec.toNat_inj]
    rfl
  have hexponent (e : BitVec 11) : @unpackExponent Format.binary64 b = e ↔
      (b.toNat >>> 52) % 2048 = e.toNat := by
    rw [← toNat_unpackExponent, ← BitVec.toNat_inj]
  have hleading : (1#1 ++ @unpackMantissa Format.binary64 b).toNat =
      leadingBit + b.toNat % leadingBit := by
    rw [toNat_leading_append, toNat_unpackMantissa]
  have hbias : (Format.binary64.exponentBias : Int) +
      Format.binary64.mantissaBitsWithoutImplicit = 1075 := rfl
  have hlargest : (-1#11).toNat = 2047 := rfl
  have hleast : (0#11).toNat = 0 := rfl
  unfold ofBits UnpackedFloat.unpack
  simp only [hexponent, hmantissa, hbias, toNat_unpackExponent, hlargest, hleast]
  split
  · split <;> simp only [ofUnpacked, isNegative_unpackSign]
  · split
    · split
      · simp only [ofUnpacked, isNegative_unpackSign, *]
      · simp only [ofUnpacked, isNegative_unpackSign, toNat_unpackMantissa, *]
        rfl
    · simp only [ofUnpacked, isNegative_unpackSign, hleading]

end

theorem ofFloat_eq (x : Float) : ofFloat x = ofUnpacked x.toModel.unpack :=
  ofBits_toNat x.toModel.toBits.toBitVec

theorem exists_of_isFinite {x : Float} (hx : x.isFinite = true) :
    ∃ negative m e, ofFloat x = finite negative m e := by
  change x.toModel.unpack.isFinite = true at hx
  rw [ofFloat_eq]
  cases h : x.toModel.unpack with
  | notANumber => rw [h] at hx; cases hx
  | infinity s => rw [h] at hx; cases hx
  | zero s => exact ⟨_, _, _, rfl⟩
  | finite s m e hm => exact ⟨_, _, _, rfl⟩

/-! ## Order -/

/-- A mantissa has its leading bit unless it goes with the least exponent. -/
structure IsReduced (m : Nat) (e : Int) : Prop where
  lt : m < 2 ^ 53
  le_exponent : -1074 ≤ e
  leading : e = -1074 ∨ 2 ^ 52 ≤ m

/-- The parts of an unpacked number, if it has any, are reduced. -/
def HasReduced : UnpackedFloat → Prop
  | .finite _ m e _ => IsReduced m e
  | _ => True

theorem hasReduced_unpack (b : BitVec 64) : HasReduced (unpack Format.binary64 b) := by
  have hmantissa : (@unpackMantissa Format.binary64 b).toNat < 2 ^ 52 := BitVec.isLt _
  have hleading : (1#1 ++ @unpackMantissa Format.binary64 b).toNat =
      2 ^ 52 + (@unpackMantissa Format.binary64 b).toNat := toNat_leading_append b
  have hbias : (Format.binary64.exponentBias : Int) +
      Format.binary64.mantissaBitsWithoutImplicit = 1075 := rfl
  fun_cases UnpackedFloat.unpack with
  | case1 => trivial
  | case2 => trivial
  | case3 => trivial
  | case4 mantissa exponent e signVec sign hinfinite hleast =>
    have he : e = -1075 := by
      simp only [e, hleast, hbias]
      rfl
    have hlt : mantissa.toNat < 2 ^ 52 := hmantissa
    exact ⟨by omega, by omega, .inl (by omega)⟩
  | case5 mantissa exponent e signVec sign hinfinite hleast =>
    have hpos : 1 ≤ exponent.toNat := by
      have hne : exponent.toNat ≠ 0 := fun h => hleast (BitVec.eq_of_toNat_eq h)
      omega
    have he : e = exponent.toNat - 1075 := by simp only [e, hbias]
    refine ⟨?_, by omega, .inr ?_⟩ <;> rw [hleading] <;> omega

/-- The greater exponent makes the greater number. -/
theorem mul_two_zpow_lt_of_lt {m m' : Nat} {e e' : Int} (h : IsReduced m e) (h' : IsReduced m' e')
    (he : e < e') : (m * 2 ^ e : ℚ) < m' * 2 ^ e' := by
  have hle := h.le_exponent
  have hm : m < 2 ^ 53 := h.lt
  have hm' : 2 ^ 52 ≤ m' := h'.leading.resolve_left (by omega)
  calc (m * 2 ^ e : ℚ) < 2 ^ 53 * 2 ^ e := by
        gcongr
        exact_mod_cast hm
    _ = 2 ^ 52 * 2 ^ (e + 1) := by
        rw [zpow_add_one₀ (by norm_num)]
        ring
    _ ≤ m' * 2 ^ e' := by
        gcongr
        · exact_mod_cast hm'
        · norm_num
        · omega

theorem compare_magnitude {m m' : Nat} {e e' : Int} (h : IsReduced m e) (h' : IsReduced m' e') :
    (compare e e').then (compare m m') = compare (m * 2 ^ e : ℚ) (m' * 2 ^ e') := by
  rcases lt_trichotomy e e' with he | rfl | he
  · rw [compare_lt_iff_lt.mpr he, Ordering.lt_then, eq_comm, compare_lt_iff_lt]
    exact mul_two_zpow_lt_of_lt h h' he
  · have hpos : (0 : ℚ) < 2 ^ e := by positivity
    rw [compare_eq_iff_eq.mpr rfl, Ordering.eq_then]
    rcases lt_trichotomy m m' with hm | rfl | hm
    · rw [compare_lt_iff_lt.mpr hm, eq_comm, compare_lt_iff_lt]
      gcongr
    · rw [compare_eq_iff_eq.mpr rfl, compare_eq_iff_eq.mpr rfl]
    · rw [compare_gt_iff_gt.mpr hm, eq_comm, compare_gt_iff_gt]
      gcongr
  · rw [compare_gt_iff_gt.mpr he, Ordering.gt_then, eq_comm, compare_gt_iff_gt]
    exact mul_two_zpow_lt_of_lt h' h he

theorem swap_compare (a b : ℚ) : (compare a b).swap = compare (-a) (-b) := by
  rcases lt_trichotomy a b with h | rfl | h
  · rw [compare_lt_iff_lt.mpr h, compare_gt_iff_gt.mpr (neg_lt_neg h)]
    rfl
  · rw [compare_eq_iff_eq.mpr rfl, compare_eq_iff_eq.mpr rfl]
    rfl
  · rw [compare_gt_iff_gt.mpr h, compare_lt_iff_lt.mpr (neg_lt_neg h)]
    rfl

/-- Finite numbers are compared by what they stand for. -/
theorem compare_eq {u w : UnpackedFloat} (hu : u.isFinite = true) (hw : w.isFinite = true)
    (hru : HasReduced u) (hrw : HasReduced w) :
    u.compare w = some (compare (ofUnpacked u).toRat (ofUnpacked w).toRat) := by
  have hpos {m : Nat} (e : Int) (hm : 0 < m) : (0 : ℚ) < m * 2 ^ e := by positivity
  have hzero (s : Sign) : (ofUnpacked (.zero s)).toRat = 0 := by simp [ofUnpacked, toRat]
  have hplus {m : Nat} (e : Int) (hm : 0 < m) :
      (ofUnpacked (.finite .positive m e hm)).toRat = m * 2 ^ e := one_mul _
  have hminus {m : Nat} (e : Int) (hm : 0 < m) :
      (ofUnpacked (.finite .negative m e hm)).toRat = -(m * 2 ^ e) := neg_one_mul _
  cases u with
  | notANumber => cases hu
  | infinity => cases hu
  | zero s =>
    cases w with
    | notANumber => cases hw
    | infinity => cases hw
    | zero s' =>
      rw [hzero, hzero, compare_eq_iff_eq.mpr rfl]
      rfl
    | finite s' m' e' hm' =>
      rw [hzero]
      cases s' with
      | positive => rw [hplus, compare_lt_iff_lt.mpr (hpos e' hm')]; rfl
      | negative => rw [hminus, compare_gt_iff_gt.mpr (neg_neg_of_pos (hpos e' hm'))]; rfl
  | finite s m e hm =>
    cases w with
    | notANumber => cases hw
    | infinity => cases hw
    | zero s' =>
      rw [hzero]
      cases s with
      | positive => rw [hplus, compare_gt_iff_gt.mpr (hpos e hm)]; rfl
      | negative => rw [hminus, compare_lt_iff_lt.mpr (neg_neg_of_pos (hpos e hm))]; rfl
    | finite s' m' e' hm' =>
      have hmagnitude := compare_magnitude hru hrw
      have hlt : -(m * 2 ^ e : ℚ) < m' * 2 ^ e' :=
        (neg_neg_of_pos (hpos e hm)).trans (hpos e' hm')
      have hgt : -(m' * 2 ^ e' : ℚ) < m * 2 ^ e :=
        (neg_neg_of_pos (hpos e' hm')).trans (hpos e hm)
      cases s <;> cases s'
      · rw [hminus, hminus, UnpackedFloat.compare, hmagnitude, swap_compare]
      · rw [hminus, hplus, compare_lt_iff_lt.mpr hlt]; rfl
      · rw [hplus, hminus, compare_gt_iff_gt.mpr hgt]; rfl
      · rw [hplus, hplus, UnpackedFloat.compare, hmagnitude]

section

variable {x y : Float}

/-- **Finite numbers are in the order of what they stand for.** -/
theorem lt_iff (hx : x.isFinite = true) (hy : y.isFinite = true) :
    x < y ↔ (ofFloat x).toRat < (ofFloat y).toRat := by
  have hcompare := compare_eq hx hy (hasReduced_unpack _) (hasReduced_unpack _)
  change decide (x.toModel.unpack.lt y.toModel.unpack = true) = true ↔ _
  rw [decide_eq_true_iff, UnpackedFloat.lt, hcompare, ofFloat_eq, ofFloat_eq, beq_iff_eq,
    Option.some.injEq, compare_lt_iff_lt]

theorem le_iff (hx : x.isFinite = true) (hy : y.isFinite = true) :
    x ≤ y ↔ (ofFloat x).toRat ≤ (ofFloat y).toRat := by
  have hcompare := compare_eq hx hy (hasReduced_unpack _) (hasReduced_unpack _)
  change decide (x.toModel.unpack.le y.toModel.unpack = true) = true ↔ _
  rw [decide_eq_true_iff, UnpackedFloat.le, hcompare, ofFloat_eq, ofFloat_eq, Option.any_some,
    ← compare_le_iff_le, Ordering.isLE_iff_ne_gt]

end

/-! ## Absolute values -/

theorem unpack_abs (x : Float) : x.abs.toModel.unpack = x.toModel.unpack.abs := by
  have hparts := @packComponents_unpackSign_unpackExponent_unpackMantissa Format.binary64
    x.toModel.toBits.toBitVec
  change unpack Format.binary64 ((unpack Format.binary64 x.toModel.toBits.toBitVec).abs.pack
    Format.binary64) = (unpack Format.binary64 x.toModel.toBits.toBitVec).abs
  rw [← hparts, Unpacked.abs_unpack, Unpacked.unpack_pack_unpack _ (by decide)]

theorem isFinite_abs (x : Float) : x.abs.isFinite = x.isFinite := by
  change x.abs.toModel.unpack.isFinite = x.toModel.unpack.isFinite
  rw [unpack_abs]
  cases x.toModel.unpack <;> rfl

theorem toRat_abs (x : Float) : (ofFloat x.abs).toRat = |(ofFloat x).toRat| := by
  rw [ofFloat_eq, ofFloat_eq, unpack_abs]
  cases x.toModel.unpack with
  | notANumber => exact abs_zero.symm
  | infinity s => exact abs_zero.symm
  | zero s => simp [ofUnpacked, toRat, UnpackedFloat.abs]
  | finite s m e hm =>
    have hpos : (0 : ℚ) ≤ m * 2 ^ e := by positivity
    cases s <;> simp [ofUnpacked, toRat, UnpackedFloat.abs, abs_of_nonneg]

end Binary64

end Statevector
