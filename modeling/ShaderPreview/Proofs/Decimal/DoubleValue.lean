import Mathlib.Algebra.Order.Field.Power
import Mathlib.Tactic.Linarith
import Mathlib.Tactic.NormNum
import ShaderPreview.Decimal.Double
import ShaderPreview.Dialect.Basic

/-!
# The numbers that doubles stand for

Comparing doubles is not comparing numbers: infinities are no numbers, and what is not a number is
neither below nor above anything.  This module reads the number off the bits of a double, with the same
fields from which it is written in decimal, and shows that a double is between zero and one for the
comparison of doubles if and only if it stands for such a number.

* `Double.value?`: the number that a double stands for, if any;
* `Double.unpack_of_special`, `Double.unpack_of_zero`, `Double.unpack_of_pos`: what the fields of a
  double say about how it is compared;
* `Double.inUnit_iff`: the doubles between zero and one.
-/

namespace ShaderPreview

open Float.Model (UnpackedFloat)
open Float.Model.UnpackedFloat (Sign)

/-- The number that is given in binary. -/
def Binary.value (b : Binary) : Rat :=
  b.significand * 2 ^ b.exponent

namespace Double

/-! ## The fields of a double -/

/-- The fraction field of a double. -/
def fraction (x : Float) : Nat :=
  x.toBits.toNat % 0x10000000000000

/-- The exponent field of a double. -/
def field (x : Float) : Nat :=
  x.toBits.toNat / 0x10000000000000 % 0x800

/-- The sign of a double. -/
def sign (x : Float) : Sign :=
  if x.toBits.toNat < 0x8000000000000000 then .positive else .negative

/-- A double without its sign. -/
def magnitude (x : Float) : Binary :=
  Binary.ofBits (fraction x) (field x)

/-- The number that a double stands for.  Infinities stand for none, and neither does what is not a
number. -/
def value? (x : Float) : Option Rat :=
  if field x = specialField then none
  else some (match sign x with
    | .positive => (magnitude x).value
    | .negative => -(magnitude x).value)

theorem toNat_unpackMantissa (x : Float) :
    (@UnpackedFloat.unpackMantissa .binary64 x.toBits.toBitVec).toNat = fraction x := by
  simp [UnpackedFloat.unpackMantissa, fraction]

theorem toNat_unpackExponent (x : Float) :
    (@UnpackedFloat.unpackExponent .binary64 x.toBits.toBitVec).toNat = field x := by
  simp [UnpackedFloat.unpackExponent, field, Nat.shiftRight_eq_div_pow]

theorem ofBitVec_unpackSign (x : Float) :
    Sign.ofBitVec (@UnpackedFloat.unpackSign .binary64 x.toBits.toBitVec) = sign x := by
  have hlt : x.toBits.toNat < 2 ^ 64 := x.toBits.toNat_lt
  have hbit : (@UnpackedFloat.unpackSign .binary64 x.toBits.toBitVec).toNat =
      x.toBits.toNat / 2 ^ 63 % 2 := by
    rw [← Nat.shiftRight_eq_div_pow]
    rfl
  refine if_congr ?_ rfl rfl
  rw [← BitVec.toNat_inj, hbit, BitVec.toNat_ofNat]
  omega

/-! ## How a double is compared -/

variable {x : Float}

theorem unpack_eq (x : Float) :
    x.toModel.unpack = UnpackedFloat.unpack .binary64 x.toBits.toBitVec := rfl

theorem unpackExponent_eq_iff {n : Nat} (hn : n < 2 ^ 11) :
    @UnpackedFloat.unpackExponent .binary64 x.toBits.toBitVec = BitVec.ofNat 11 n ↔ field x = n := by
  rw [← BitVec.toNat_inj, toNat_unpackExponent, BitVec.toNat_ofNat, Nat.mod_eq_of_lt hn]

theorem unpackMantissa_eq_zero_iff :
    @UnpackedFloat.unpackMantissa .binary64 x.toBits.toBitVec = 0#52 ↔ fraction x = 0 := by
  rw [← BitVec.toNat_inj, toNat_unpackMantissa, BitVec.toNat_ofNat, Nat.zero_mod]

theorem toNat_one_append {n : Nat} (m : BitVec n) : (1#1 ++ m).toNat = m.toNat + 2 ^ n := by
  rw [BitVec.toNat_append, ← Nat.shiftLeft_add_eq_or_of_lt m.isLt]
  simp [Nat.shiftLeft_eq, Nat.add_comm]

theorem unpack_of_special (h : field x = specialField) :
    x.toModel.unpack = .infinity (sign x) ∨ x.toModel.unpack = .notANumber := by
  have hexponent : @UnpackedFloat.unpackExponent .binary64 x.toBits.toBitVec = -1#11 :=
    (unpackExponent_eq_iff (by decide)).2 h
  have hunpack : UnpackedFloat.unpack .binary64 x.toBits.toBitVec = ite _ (.infinity _) .notANumber :=
    if_pos hexponent
  rw [unpack_eq, hunpack, ofBitVec_unpackSign]
  split
  · exact Or.inl rfl
  · exact Or.inr rfl

theorem unpack_of_zero (h : (magnitude x).significand = 0) : x.toModel.unpack = .zero (sign x) := by
  obtain ⟨hfield, hfraction⟩ : field x = 0 ∧ fraction x = 0 := by
    rw [magnitude, Binary.ofBits] at h
    split at h
    · next hfield => exact ⟨hfield, h⟩
    · exact absurd h (by simp)
  have hexponent : @UnpackedFloat.unpackExponent .binary64 x.toBits.toBitVec = 0#11 :=
    (unpackExponent_eq_iff (by decide)).2 hfield
  have hspecial : ¬ @UnpackedFloat.unpackExponent .binary64 x.toBits.toBitVec = -1#11 := by
    rw [hexponent]
    decide
  have hunpack : UnpackedFloat.unpack .binary64 x.toBits.toBitVec = .zero _ :=
    (if_neg hspecial).trans <| (if_pos hexponent).trans <|
      dif_pos (unpackMantissa_eq_zero_iff.2 hfraction)
  rw [unpack_eq, hunpack, ofBitVec_unpackSign]

theorem unpack_of_pos (h : field x ≠ specialField) (hpos : 0 < (magnitude x).significand) :
    x.toModel.unpack =
      .finite (sign x) (magnitude x).significand (magnitude x).exponent hpos := by
  have hspecial : ¬ @UnpackedFloat.unpackExponent .binary64 x.toBits.toBitVec = -1#11 :=
    fun heq => h ((unpackExponent_eq_iff (by decide)).1 heq)
  by_cases hfield : field x = 0
  · -- a double without an implicit bit
    have hmagnitude : magnitude x = ⟨fraction x, -1074, false⟩ := if_pos hfield
    have hfraction : fraction x ≠ 0 := by
      rw [hmagnitude] at hpos
      exact Nat.ne_of_gt hpos
    have hunpack : UnpackedFloat.unpack .binary64 x.toBits.toBitVec = .finite _ _ _ _ :=
      (if_neg hspecial).trans <| (if_pos ((unpackExponent_eq_iff (by decide)).2 hfield)).trans <|
        dif_neg (mt unpackMantissa_eq_zero_iff.1 hfraction)
    rw [unpack_eq, hunpack, UnpackedFloat.finite.injEq, toNat_unpackMantissa, toNat_unpackExponent,
      hfield, hmagnitude]
    exact ⟨ofBitVec_unpackSign x, rfl, rfl⟩
  · have hmagnitude : magnitude x = ⟨fraction x + 0x10000000000000, (field x : Int) - 1075, _⟩ :=
      if_neg hfield
    have hunpack : UnpackedFloat.unpack .binary64 x.toBits.toBitVec = .finite _ _ _ _ :=
      (if_neg hspecial).trans <| if_neg (mt (unpackExponent_eq_iff (by decide)).1 hfield)
    rw [unpack_eq, hunpack, UnpackedFloat.finite.injEq, toNat_one_append, toNat_unpackMantissa,
      toNat_unpackExponent, hmagnitude]
    exact ⟨ofBitVec_unpackSign x, rfl, congrArg ((field x : Int) - ·) (by decide)⟩

theorem le_iff_unpack {a b : Float} : a ≤ b ↔ a.toModel.unpack.le b.toModel.unpack = true :=
  decide_eq_true_iff

/-! ## Doubles between zero and one -/

theorem significand_magnitude_lt (x : Float) : (magnitude x).significand < 2 ^ 53 := by
  have hlt : fraction x < 0x10000000000000 := Nat.mod_lt _ (by decide)
  rw [magnitude, Binary.ofBits]
  split
  · show fraction x < 2 ^ 53
    omega
  · show fraction x + 0x10000000000000 < 2 ^ 53
    omega

/-- Above the least exponent the significand has its implicit bit. -/
theorem le_significand_magnitude (h : -1074 < (magnitude x).exponent) :
    2 ^ 52 ≤ (magnitude x).significand := by
  rw [magnitude, Binary.ofBits] at h ⊢
  split at h
  · exact absurd h (lt_irrefl _)
  · next hfield =>
    rw [if_neg hfield]
    exact Nat.le_add_left _ _

/-- A number whose significand has its leading bit at a fixed place is compared with one by its
exponent first. -/
theorem mul_zpow_le_one_iff {m : Nat} {e : Int} (hlt : m < 2 ^ 53) (hle : -52 < e → 2 ^ 52 ≤ m) :
    (m : Rat) * 2 ^ e ≤ 1 ↔ e < -52 ∨ e = -52 ∧ m ≤ 2 ^ 52 := by
  rcases lt_trichotomy e (-52) with he | rfl | he
  · have hm : (m : Rat) ≤ 2 ^ 53 := by exact_mod_cast hlt.le
    have hpow : (2 : Rat) ^ e ≤ 2 ^ (-53 : Int) := zpow_le_zpow_right₀ (by norm_num) (by omega)
    have hone : (2 : Rat) ^ 53 * 2 ^ (-53 : Int) = 1 := by norm_num
    refine iff_of_true ?_ (Or.inl he)
    calc (m : Rat) * 2 ^ e ≤ 2 ^ 53 * 2 ^ (-53 : Int) := by gcongr
      _ = 1 := hone
  · have hpow : (2 : Rat) ^ (-52 : Int) = (2 ^ 52)⁻¹ := by norm_num
    have hm : (m : Rat) ≤ 2 ^ 52 ↔ m ≤ 2 ^ 52 := by exact_mod_cast Iff.rfl
    rw [hpow, ← div_eq_mul_inv, div_le_one₀ (by norm_num), hm]
    omega
  · have hm : (2 : Rat) ^ 52 ≤ m := by exact_mod_cast hle he
    have hpow : (2 : Rat) ^ (-51 : Int) ≤ 2 ^ e := zpow_le_zpow_right₀ (by norm_num) (by omega)
    have htwo : (2 : Rat) ^ 52 * 2 ^ (-51 : Int) = 2 := by norm_num
    refine iff_of_false (not_le.2 ?_) (by omega)
    calc (1 : Rat) < 2 ^ 52 * 2 ^ (-51 : Int) := by rw [htwo]; norm_num
      _ ≤ m * 2 ^ e := by gcongr

theorem value_magnitude_le_one_iff (x : Float) :
    (magnitude x).value ≤ 1 ↔ (magnitude x).exponent < -52 ∨
      (magnitude x).exponent = -52 ∧ (magnitude x).significand ≤ 2 ^ 52 :=
  mul_zpow_le_one_iff (significand_magnitude_lt x) fun h =>
    le_significand_magnitude (lt_trans (by decide) h)

/-- Without a sign, a double is at most one if and only if its number is. -/
theorem finite_le_one_iff (hpos : 0 < (magnitude x).significand) :
    UnpackedFloat.le
        (.finite .positive (magnitude x).significand (magnitude x).exponent hpos)
        (.finite .positive (2 ^ 52) (-52) (by decide)) = true ↔ (magnitude x).value ≤ 1 := by
  have hcompare : UnpackedFloat.le
      (.finite .positive (magnitude x).significand (magnitude x).exponent hpos)
      (.finite .positive (2 ^ 52) (-52) (by decide)) =
        ((compare (magnitude x).exponent (-52)).then
          (compare (magnitude x).significand (2 ^ 52))).isLE := rfl
  rw [value_magnitude_le_one_iff, hcompare, Ordering.isLE_then_iff_or, Int.compare_eq_lt,
    Int.compare_eq_eq, Nat.isLE_compare]

theorem value_eq_zero {b : Binary} (h : b.significand = 0) : b.value = 0 := by
  rw [Binary.value, h, Nat.cast_zero, zero_mul]

theorem value_pos {b : Binary} (h : 0 < b.significand) : 0 < b.value :=
  mul_pos (Nat.cast_pos.2 h) (zpow_pos (by norm_num) _)

theorem exists_value?_iff {P : Rat → Prop} (h : field x ≠ specialField) :
    (∃ q, value? x = some q ∧ P q) ↔
      match sign x with
      | .positive => P (magnitude x).value
      | .negative => P (-(magnitude x).value) := by
  rw [value?, if_neg h]
  cases sign x <;> simp

/-- A double is between zero and one if and only if it stands for a number between zero and one. -/
theorem inUnit_iff (x : Float) :
    (Number.double x).InUnit ↔ ∃ q : Rat, value? x = some q ∧ 0 ≤ q ∧ q ≤ 1 := by
  -- the doubles zero and one, unpacked
  have hinUnit : (Number.double x).InUnit ↔
      UnpackedFloat.le (.zero .positive) x.toModel.unpack = true ∧
        UnpackedFloat.le x.toModel.unpack (.finite .positive (2 ^ 52) (-52) (by decide)) = true :=
    and_congr le_iff_unpack le_iff_unpack
  rw [hinUnit]
  by_cases hspecial : field x = specialField
  · have hnone : value? x = none := if_pos hspecial
    refine iff_of_false ?_ fun ⟨q, hq, _⟩ => Option.some_ne_none q (hq.symm.trans hnone)
    rcases unpack_of_special hspecial with hunpack | hunpack <;> rw [hunpack]
    · cases sign x <;> decide
    · decide
  rw [exists_value?_iff hspecial]
  rcases Nat.eq_zero_or_pos (magnitude x).significand with hzero | hpos
  · rw [unpack_of_zero hzero, value_eq_zero hzero]
    cases sign x <;> decide
  · rw [unpack_of_pos hspecial hpos]
    cases sign x with
    | positive =>
      rw [finite_le_one_iff]
      exact and_congr_left' (iff_of_true rfl (value_pos hpos).le)
    | negative =>
      refine iff_of_false (fun h => absurd h.1 Bool.false_ne_true) fun h => ?_
      have := value_pos hpos
      linarith [h.1]

end Double
end ShaderPreview
