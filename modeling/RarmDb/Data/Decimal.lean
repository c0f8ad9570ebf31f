import Mathlib.Order.Defs.LinearOrder
import RarmDb.Lib.Bytes

/-!
# Decimals

`rust_decimal::Decimal` is not part of the repository. It enters as a type `D` with the operations
the code calls.

* `RustDecimal`: these operations;
* `DecimalCodec`, `DecimalOrder`: what the code relies on;
* `DecimalParts`: the operations of the type check;
* `Decimal96`: a sign, a scale and a 96-bit mantissa, laid out and compared as that crate does it,
  which satisfies both.
-/

namespace RarmDb

open Std (TransCmp)

/-- What the code uses of `rust_decimal::Decimal`. -/
class RustDecimal (D : Type) where
  beq : D → D → Bool
  cmp : D → D → Ordering
  serialize : D → Vector UInt8 16
  deserialize : Vector UInt8 16 → D

/-- `Decimal::deserialize` inverts `Decimal::serialize`. -/
class DecimalCodec (D : Type) [RustDecimal D] : Prop where
  deserialize_serialize : ∀ d : D, RustDecimal.deserialize (RustDecimal.serialize d) = d

/-- `Decimal` is totally ordered, and its order agrees with its equality. -/
class DecimalOrder (D : Type) [RustDecimal D] : Prop where
  transCmp : TransCmp (RustDecimal.cmp (D := D))
  cmp_eq_iff : ∀ a b : D, RustDecimal.cmp a b = .eq ↔ RustDecimal.beq a b = true

attribute [instance] DecimalOrder.transCmp

/-- What the type check uses of `rust_decimal::Decimal`. -/
class DecimalParts (D : Type) where
  scale : D → UInt32
  trunc : D → D
  abs : D → D
  mantissa : D → ℤ

/-! ## The decimals of the crate -/

/-- A sign, a scale up to 28 and a 96-bit mantissa. -/
structure Decimal96 where
  negative : Bool
  scale : Fin 29
  mantissa : Fin (2 ^ 96)
  deriving DecidableEq

instance neZeroScales : NeZero 29 := ⟨by decide⟩

instance neZeroMantissas : NeZero (2 ^ 96) := ⟨by decide⟩

namespace Decimal96

/-- The value, in units of `10 ^ -28`. -/
def units (d : Decimal96) : ℤ :=
  (if d.negative then -1 else 1) * (d.mantissa * 10 ^ (28 - d.scale.val) : ℕ)

/-- The flags word: the scale in bits 16 to 23, the sign in bit 31. -/
def flags (d : Decimal96) : ℕ := d.scale * 2 ^ 16 + if d.negative then 2 ^ 31 else 0

/-- The flags and the mantissa, as four little-endian words. -/
def bytes (d : Decimal96) : Bytes := leBytes 4 d.flags ++ leBytes 12 d.mantissa

/-- Read the two parts back. Scales above 28 are never written. -/
def ofBytes (bs : Bytes) : Decimal96 where
  negative := decide (2 ^ 31 ≤ ofLeBytes (bs.take 4))
  scale := Fin.ofNat 29 (min 28 (ofLeBytes (bs.take 4) / 2 ^ 16 % 256))
  mantissa := Fin.ofNat (2 ^ 96) (ofLeBytes (bs.drop 4))

instance : RustDecimal Decimal96 where
  beq a b := a.units == b.units
  cmp a b := compare a.units b.units
  serialize d := ⟨d.bytes.toArray, by simp [bytes]⟩
  deserialize bs := ofBytes bs.toList

theorem ofBytes_bytes (d : Decimal96) : ofBytes d.bytes = d := by
  obtain ⟨neg, scale, mantissa⟩ := d
  have hs := scale.2
  have hm := mantissa.2
  have hflags : ∀ f, f < 256 ^ 4 → ofLeBytes (leBytes 4 f) = f := fun f hf =>
    ofLeBytes_leBytes_of_lt hf
  have htake : ∀ f : ℕ, (leBytes 4 f ++ leBytes 12 mantissa).take 4 = leBytes 4 f := fun f =>
    List.take_left' (length_leBytes 4 f)
  have hdrop : ∀ f : ℕ, (leBytes 4 f ++ leBytes 12 mantissa).drop 4 = leBytes 12 mantissa :=
    fun f => List.drop_left' (length_leBytes 4 f)
  have hman : ofLeBytes (leBytes 12 mantissa) = mantissa :=
    ofLeBytes_leBytes_of_lt (by omega)
  rw [ofBytes, bytes, htake, hdrop, hman, flags, hflags _ (by dsimp only; split <;> omega)]
  dsimp only
  rw [mk.injEq]
  refine ⟨?_, Fin.ext ?_, Fin.ext ?_⟩
  · cases neg
    · simp
      omega
    · simp
  · rw [Fin.val_ofNat]
    split <;> omega
  · rw [Fin.val_ofNat]
    omega

instance : DecimalCodec Decimal96 where
  deserialize_serialize := ofBytes_bytes

instance : DecimalOrder Decimal96 where
  transCmp := inferInstanceAs (TransCmp (compareOn units))
  cmp_eq_iff _ _ := compare_eq_iff_eq.trans beq_iff_eq.symm

instance : DecimalParts Decimal96 where
  scale d := UInt32.ofNat d.scale
  trunc d := ⟨d.negative, 0, Fin.ofNat _ (d.mantissa / 10 ^ d.scale.val)⟩
  abs d := { d with negative := false }
  mantissa d := if d.negative then -d.mantissa else d.mantissa

end Decimal96

end RarmDb
