import Mathlib.Algebra.Order.Floor.Semiring
import Mathlib.Data.Rat.Floor
import RarmDb.Record.Compatible

/-!
# Decimal columns

The type check counts the digits of the integer part of a decimal.

* `DecimalParts.value`: the number that a decimal stands for;
* `DecimalPartsLaws`: what the type check relies on, which `Decimal96` satisfies;
* `mantissa_abs_trunc`: the integer part that the check looks at is `⌊|v|⌋`;
* **`isCompatible_decimal_iff`**: a decimal passes the check of `DECIMAL(p, s)` exactly when its scale
  is at most `s` and it is below `10 ^ (p - s)`.
-/

namespace RarmDb

/-- The integer part: rounded towards zero. -/
def truncate (q : ℚ) : ℤ := if 0 ≤ q then ⌊q⌋ else ⌈q⌉

theorem abs_truncate (q : ℚ) : |truncate q| = ⌊|q|⌋ := by
  rw [truncate]
  split_ifs with h
  · rw [abs_of_nonneg h, abs_of_nonneg (Int.floor_nonneg.mpr h)]
  · have hq : q ≤ 0 := (not_le.mp h).le
    rw [abs_of_nonpos hq, Int.floor_neg, abs_of_nonpos (Int.ceil_le.mpr (by exact_mod_cast hq))]

theorem truncate_neg {q : ℚ} (h : 0 ≤ q) : truncate (-q) = -⌊q⌋ := by
  rw [truncate]
  split_ifs with hneg
  · rw [le_antisymm (neg_nonneg.mp hneg) h]
    rfl
  · exact Int.ceil_neg

/-! ## The value of a decimal -/

namespace DecimalParts

variable {D : Type} [DecimalParts D]

/-- The mantissa times `10 ^ -scale`. -/
def value (d : D) : ℚ := mantissa d / 10 ^ (scale d).toNat

theorem value_of_scale_eq_zero {d : D} (h : scale d = 0) : value d = mantissa d := by
  rw [value, h]
  exact div_one _

theorem exists_multiple {d : D} {s : ℕ} (h : (scale d).toNat ≤ s) :
    ∃ n : ℤ, value d = n / 10 ^ s := by
  refine ⟨mantissa d * 10 ^ (s - (scale d).toNat), ?_⟩
  rw [value, div_eq_div_iff (by positivity) (by positivity)]
  push_cast
  rw [mul_assoc, ← pow_add, Nat.sub_add_cancel h]

end DecimalParts

open DecimalParts

/-- `trunc` is the integer part, at scale 0, and `abs` drops the sign. -/
class DecimalPartsLaws (D : Type) [DecimalParts D] : Prop where
  scale_trunc : ∀ d : D, scale (trunc d) = 0
  value_trunc : ∀ d : D, value (trunc d) = truncate (value d)
  scale_abs : ∀ d : D, scale (DecimalParts.abs d) = scale d
  value_abs : ∀ d : D, value (DecimalParts.abs d) = |value d|

section Laws

variable {D : Type} [DecimalParts D] [DecimalPartsLaws D]

theorem scale_abs_trunc (d : D) : scale (DecimalParts.abs (trunc d)) = 0 := by
  rw [DecimalPartsLaws.scale_abs, DecimalPartsLaws.scale_trunc]

theorem mantissa_abs_trunc (d : D) : mantissa (DecimalParts.abs (trunc d)) = ⌊|value d|⌋ := by
  have h : (mantissa (DecimalParts.abs (trunc d)) : ℚ) = (⌊|value d|⌋ : ℤ) := by
    rw [← value_of_scale_eq_zero (scale_abs_trunc d), DecimalPartsLaws.value_abs,
      DecimalPartsLaws.value_trunc, ← abs_truncate, Int.cast_abs]
  exact_mod_cast h

/-! ## Counting digits -/

theorem checkedIlog10_lt_iff {n : ℤ} (hn : 0 < n) (k : ℕ) : checkedIlog10 n + 1 ≤ k ↔ n < 10 ^ k := by
  rw [checkedIlog10, if_neg (not_le.mpr hn), Nat.succ_le_iff,
    Nat.log_lt_iff_lt_pow (by decide) (by omega)]
  zify
  rw [Int.toNat_of_nonneg hn.le]

theorem floor_abs_lt_iff (q : ℚ) (k : ℕ) : ⌊|q|⌋ < (10 : ℤ) ^ k ↔ |q| < 10 ^ k := by
  rw [Int.floor_lt]
  push_cast
  rfl

/-- **The check of decimals is exact.** -/
theorem isCompatible_decimal_iff (v : D) {p s : UInt8} (h : s ≤ p) :
    ∃ accepted, (DataValue.decimal v).isCompatible (.decimal p s) = .ret accepted ∧
      (accepted = true ↔ scale v ≤ s.toUInt32 ∧ |value v| < 10 ^ (p.toNat - s.toNat)) ∧
      (accepted = true →
        (∃ n : ℤ, value v = n / 10 ^ s.toNat) ∧ |value v| < 10 ^ (p.toNat - s.toNat)) := by
  suffices hiff : ∃ accepted, (DataValue.decimal v).isCompatible (.decimal p s) = .ret accepted ∧
      (accepted = true ↔ scale v ≤ s.toUInt32 ∧ |value v| < 10 ^ (p.toNat - s.toNat)) by
    obtain ⟨accepted, hcheck, hiff⟩ := hiff
    refine ⟨accepted, hcheck, hiff, fun ha => ⟨exists_multiple ?_, (hiff.mp ha).2⟩⟩
    exact UInt32.le_iff_toNat_le.mp (hiff.mp ha).1
  rw [DataValue.isCompatible, mantissa_abs_trunc]
  by_cases hscale : scale v ≤ s.toUInt32
  · have hnonneg : 0 ≤ ⌊|value v|⌋ := Int.floor_nonneg.mpr (abs_nonneg _)
    rw [if_neg (UInt32.not_lt.mpr hscale), ← floor_abs_lt_iff]
    by_cases hzero : ⌊|value v|⌋ = 0
    · refine ⟨true, if_pos hzero, ?_⟩
      rw [hzero]
      exact iff_of_true rfl ⟨hscale, by positivity⟩
    · rw [if_neg hzero, Exec.sub_of_le (UInt8.le_iff_toNat_le.mp h), Exec.ret_bind]
      refine ⟨_, rfl, ?_⟩
      rw [Bool.and_eq_true, decide_eq_true_eq, decide_eq_true_eq,
        checkedIlog10_lt_iff (lt_of_le_of_ne hnonneg (Ne.symm hzero))]
  · refine ⟨false, if_pos (UInt32.not_le.mp hscale), ?_⟩
    exact iff_of_false Bool.false_ne_true fun hv => hscale hv.1

end Laws

/-! ## The decimals of the crate -/

namespace Decimal96

/-- The value without the sign. -/
def magnitude (d : Decimal96) : ℚ := (d.mantissa.val : ℚ) / 10 ^ d.scale.val

theorem magnitude_nonneg (d : Decimal96) : 0 ≤ d.magnitude := by
  rw [magnitude]
  positivity

theorem value_eq (d : Decimal96) : value d = if d.negative then -d.magnitude else d.magnitude := by
  have hscale : (UInt32.ofNat d.scale.val).toNat = d.scale.val :=
    UInt32.toNat_ofNat_of_lt' (d.scale.2.trans (by decide))
  change ((if d.negative then -d.mantissa.val else d.mantissa.val : ℤ) : ℚ) /
    10 ^ (UInt32.ofNat d.scale.val).toNat = _
  rw [hscale, magnitude]
  split_ifs <;> push_cast <;> ring

theorem abs_value (d : Decimal96) : |value d| = d.magnitude := by
  rw [value_eq]
  split_ifs
  · rw [abs_neg, abs_of_nonneg d.magnitude_nonneg]
  · exact abs_of_nonneg d.magnitude_nonneg

theorem magnitude_trunc (d : Decimal96) : (trunc d).magnitude = (⌊d.magnitude⌋ : ℤ) := by
  have hman : (trunc d).mantissa.val = d.mantissa / 10 ^ d.scale.val :=
    Nat.mod_eq_of_lt ((Nat.div_le_self _ _).trans_lt d.mantissa.2)
  have hfloor := Rat.floor_natCast_div_natCast d.mantissa (10 ^ d.scale.val)
  push_cast at hfloor
  rw [magnitude, magnitude, hfloor, hman]
  exact div_one _

instance : DecimalPartsLaws Decimal96 where
  scale_trunc _ := rfl
  value_trunc d := by
    rw [value_eq, value_eq, magnitude_trunc]
    change (if d.negative then _ else _) = _
    split_ifs
    · rw [truncate_neg d.magnitude_nonneg, Int.cast_neg]
    · rw [truncate, if_pos d.magnitude_nonneg]
  scale_abs _ := rfl
  value_abs d := by
    rw [abs_value, value_eq]
    rfl

end Decimal96

/-- `-99.99` is a `DECIMAL(4, 2)`, and `100.00` is not. -/
theorem isCompatible_decimal_bounds :
    (DataValue.decimal (⟨true, 2, 9999⟩ : Decimal96)).isCompatible (.decimal 4 2) = .ret true ∧
      (DataValue.decimal (⟨false, 2, 10000⟩ : Decimal96)).isCompatible (.decimal 4 2) = .ret false := by
  obtain ⟨a, ha, hiff, -⟩ :=
    isCompatible_decimal_iff (⟨true, 2, 9999⟩ : Decimal96) (p := 4) (s := 2) (by decide)
  obtain ⟨b, hb, hiff', -⟩ :=
    isCompatible_decimal_iff (⟨false, 2, 10000⟩ : Decimal96) (p := 4) (s := 2) (by decide)
  rw [Decimal96.abs_value] at hiff hiff'
  have hbelow : Decimal96.magnitude ⟨true, 2, 9999⟩ < 10 ^ 2 := by
    change ((9999 : ℕ) : ℚ) / 10 ^ 2 < 10 ^ 2
    norm_num
  have habove : ¬ Decimal96.magnitude ⟨false, 2, 10000⟩ < 10 ^ 2 := by
    change ¬ ((10000 : ℕ) : ℚ) / 10 ^ 2 < 10 ^ 2
    norm_num
  rw [ha, hb, hiff.mpr ⟨by decide, hbelow⟩]
  refine ⟨rfl, congrArg Exec.ret ?_⟩
  rw [← Bool.not_eq_true]
  exact fun h => habove (hiff'.mp h).2

end RarmDb
