import Mathlib.Order.Defs.LinearOrder
import RarmDb.Data.Decimal

/-!
# Data values

The values of `rarmdb_data_model` with their equality and their order.

* `OrderedFloat`: a double by its 64 bits, with the comparison of the source; `transCmp`;
* `DataValue`, `DataValue.beq`, `DataValue.cmp`: **`DataValue.cmp` is transitive** and agrees with
  equality.
-/

namespace RarmDb

open Std (TransCmp TransOrd OrientedOrd LawfulBEqCmp LawfulEqOrd)

/-! ## Floats -/

/-- `OrderedFloat`, by the bits of its double. -/
structure OrderedFloat where
  bits : UInt64
  deriving DecidableEq

namespace OrderedFloat

/-- The bits without the sign. -/
def magnitude (f : OrderedFloat) : ℕ := f.bits.toNat % 2 ^ 63

/-- `is_nan`: the exponent is all ones and the fraction is not zero. -/
def isNan (f : OrderedFloat) : Bool := 0x7FF0000000000000 < f.magnitude

/-- The order of doubles that are not NaN is the order of the bits as a sign and a magnitude. -/
def rank (f : OrderedFloat) : ℤ := if f.bits.toNat < 2 ^ 63 then f.magnitude else -f.magnitude

/-- `f64::partial_cmp`. -/
def partialCmp (a b : OrderedFloat) : Option Ordering :=
  if a.isNan || b.isNan then none else some (compare a.rank b.rank)

/-- `==` of `f64`. -/
def ieeeEq (a b : OrderedFloat) : Bool := !a.isNan && !b.isNan && a.rank == b.rank

/-- `OrderedFloat::eq`. -/
def beq (a b : OrderedFloat) : Bool := if a.isNan && b.isNan then true else ieeeEq a b

/-- `OrderedFloat::cmp`. -/
def cmp (a b : OrderedFloat) : Ordering :=
  match partialCmp a b with
  | some ordering => ordering
  | none => if a.isNan then if b.isNan then .eq else .gt else .lt

/-- Every NaN above every number. -/
def key (f : OrderedFloat) : ℤ := if f.isNan then 2 ^ 63 else f.rank

theorem rank_lt (f : OrderedFloat) : f.rank < 2 ^ 63 := by
  have : f.magnitude < 2 ^ 63 := Nat.mod_lt _ (by decide)
  rw [rank]
  split_ifs <;> omega

theorem cmp_eq_compare_key (a b : OrderedFloat) : cmp a b = compare a.key b.key := by
  have ha := a.rank_lt
  have hb := b.rank_lt
  unfold cmp partialCmp key
  cases a.isNan <;> cases b.isNan
  · rfl
  · exact (compare_lt_iff_lt.mpr ha).symm
  · exact (compare_gt_iff_gt.mpr hb).symm
  · exact (compare_eq_iff_eq.mpr rfl).symm

theorem beq_iff_key (a b : OrderedFloat) : beq a b = true ↔ a.key = b.key := by
  have ha := a.rank_lt
  have hb := b.rank_lt
  unfold beq ieeeEq key
  cases a.isNan <;> cases b.isNan <;> simp <;> omega

theorem cmp_eq_iff (a b : OrderedFloat) : cmp a b = .eq ↔ beq a b = true := by
  rw [cmp_eq_compare_key, beq_iff_key, compare_eq_iff_eq]

instance transCmp : TransCmp cmp := by
  have h : cmp = fun a b => compare a.key b.key := by
    funext a b
    exact cmp_eq_compare_key a b
  rw [h]
  exact inferInstanceAs (TransCmp (compareOn key))

end OrderedFloat

/-! ## Texts -/

/-- `as_bytes`. -/
def asBytes (s : String) : Bytes := s.toByteArray.data.toList

/-- `String::from_utf8`. -/
def fromUtf8 (bytes : Bytes) : Option String := String.fromUTF8? ⟨bytes.toArray⟩

theorem fromUtf8_asBytes (s : String) : fromUtf8 (asBytes s) = some s := by
  have h : (⟨(asBytes s).toArray⟩ : ByteArray) = s.toByteArray := by
    rw [asBytes, Array.toArray_toList]
  rw [fromUtf8, h, String.fromUTF8?, dif_pos s.isValidUTF8]
  rfl

theorem asBytes_inj {s t : String} (h : asBytes s = asBytes t) : s = t :=
  Option.some.inj (by rw [← fromUtf8_asBytes s, h, fromUtf8_asBytes])

theorem asBytes_inj_iff {s t : String} : asBytes s = asBytes t ↔ s = t :=
  ⟨asBytes_inj, congrArg asBytes⟩

/-! ## Values -/

/-- `DataValue`, over the type of decimals. -/
inductive DataValue (D : Type)
  | null
  | int (val : Int32)
  | bigInt (val : Int64)
  | boolean (val : Bool)
  | float (val : OrderedFloat)
  | text (val : String)
  | blob (val : Bytes)
  | dateTime (val : Int64)
  | decimal (val : D)
  deriving DecidableEq

namespace DataValue

variable {D : Type}

/-- The position of the variant in the declaration, which the derived order compares first. -/
def discriminant : DataValue D → ℕ
  | null => 0
  | int _ => 1
  | bigInt _ => 2
  | boolean _ => 3
  | float _ => 4
  | text _ => 5
  | blob _ => 6
  | dateTime _ => 7
  | decimal _ => 8

/-- `*value == DataValue::Null`. -/
def isNull : DataValue D → Bool
  | null => true
  | _ => false

theorem isNull_iff {v : DataValue D} : v.isNull = true ↔ v = null := by
  cases v <;> simp [isNull]

variable [RustDecimal D]

/-- The derived `PartialEq`. -/
def beq : DataValue D → DataValue D → Bool
  | null, null => true
  | int a, int b => a == b
  | bigInt a, bigInt b => a == b
  | boolean a, boolean b => a == b
  | float a, float b => a.beq b
  | text a, text b => a == b
  | blob a, blob b => a == b
  | dateTime a, dateTime b => a == b
  | decimal a, decimal b => RustDecimal.beq a b
  | _, _ => false

/-- The derived `Ord`. Texts and blobs compare byte by byte. -/
def cmp : DataValue D → DataValue D → Ordering
  | int a, int b => compare a b
  | bigInt a, bigInt b => compare a b
  | boolean a, boolean b => compare a b
  | float a, float b => a.cmp b
  | text a, text b => compare (asBytes a) (asBytes b)
  | blob a, blob b => compare a b
  | dateTime a, dateTime b => compare a b
  | decimal a, decimal b => RustDecimal.cmp a b
  | a, b => compare a.discriminant b.discriminant

instance : BEq (DataValue D) := ⟨beq⟩

theorem cmp_of_discriminant_lt {a b : DataValue D} (h : a.discriminant < b.discriminant) :
    cmp a b = .lt := by
  have hc := compare_lt_iff_lt.mpr h
  cases a <;> cases b <;> first | exact hc | exact absurd h (Nat.lt_irrefl _)

theorem cmp_of_discriminant_gt {a b : DataValue D} (h : b.discriminant < a.discriminant) :
    cmp a b = .gt := by
  have hc := compare_gt_iff_gt.mpr h
  cases a <;> cases b <;> first | exact hc | exact absurd h (Nat.lt_irrefl _)

theorem discriminant_le_of_isLE {a b : DataValue D} (h : (cmp a b).isLE) :
    a.discriminant ≤ b.discriminant := by
  by_contra hlt
  rw [cmp_of_discriminant_gt (not_le.mp hlt)] at h
  cases h

theorem beq_of_discriminant_ne {a b : DataValue D} (h : a.discriminant ≠ b.discriminant) :
    beq a b = false := by
  cases a <;> cases b <;> first | rfl | exact absurd rfl h

variable [DecimalOrder D]

theorem cmp_swap (a b : DataValue D) : cmp a b = (cmp b a).swap := by
  rcases lt_trichotomy a.discriminant b.discriminant with h | h | h
  · rw [cmp_of_discriminant_lt h, cmp_of_discriminant_gt h]
    rfl
  · cases a <;> cases b <;> first
      | (simp [discriminant] at h; done)
      | exact OrientedOrd.eq_swap
      | exact OrderedFloat.transCmp.eq_swap
      | exact (DecimalOrder.transCmp (D := D)).eq_swap
  · rw [cmp_of_discriminant_gt h, cmp_of_discriminant_lt h]
    rfl

theorem cmp_isLE_trans {a b c : DataValue D} (hab : (cmp a b).isLE) (hbc : (cmp b c).isLE) :
    (cmp a c).isLE := by
  have h₁ := discriminant_le_of_isLE hab
  have h₂ := discriminant_le_of_isLE hbc
  rcases (h₁.trans h₂).lt_or_eq with h | h
  · rw [cmp_of_discriminant_lt h]
    rfl
  · have hb : a.discriminant = b.discriminant := h₁.antisymm (h ▸ h₂)
    -- All three values have the same variant, and its payload has a transitive order.
    cases a <;> cases b <;> first
      | (simp [discriminant] at hb; done)
      | (cases c <;> first
          | (simp [discriminant] at h; done)
          | exact TransOrd.isLE_trans hab hbc
          | exact OrderedFloat.transCmp.isLE_trans hab hbc
          | exact (DecimalOrder.transCmp (D := D)).isLE_trans hab hbc)

/-- **The derived order is total and transitive.** -/
instance : TransCmp (cmp (D := D)) where
  eq_swap := cmp_swap _ _
  isLE_trans := cmp_isLE_trans

/-- **The derived order agrees with the derived equality.** -/
instance : LawfulBEqCmp (cmp (D := D)) where
  compare_eq_iff_beq {a b} := by
    change cmp a b = .eq ↔ beq a b = true
    rcases lt_trichotomy a.discriminant b.discriminant with h | h | h
    · rw [cmp_of_discriminant_lt h, beq_of_discriminant_ne h.ne]
      simp
    · cases a <;> cases b <;> first
        | (simp [discriminant] at h; done)
        | exact OrderedFloat.cmp_eq_iff _ _
        | exact DecimalOrder.cmp_eq_iff _ _
        | exact LawfulEqOrd.compare_eq_iff_eq.trans beq_iff_eq.symm
        | exact LawfulEqOrd.compare_eq_iff_eq.trans (asBytes_inj_iff.trans beq_iff_eq.symm)
    · rw [cmp_of_discriminant_gt h, beq_of_discriminant_ne h.ne']
      simp

end DataValue

end RarmDb
