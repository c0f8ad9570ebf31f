import RarmDb.Data.Record

/-!
# The order and the hash of keys

The derived `PartialOrd` and `Hash` of `rarmdb_data_model`, beside the order and the equality of
values.

* `HasherCall`: what a hasher is fed; `OrderedFloat.hash`, `DataValue.hash`, `Key.hash`;
* `DecimalHash`, `DecimalHashAgrees`: the hash of decimals, and what the code relies on;
* `DataValue.partialCmp`, `Key.partialCmp`; **`Key.partialCmp_eq`**: these are the total orders;
* **`Key.hash_eq_of_beq`**: equal keys feed the same data to the hasher;
* **`keys_totally_ordered`**: keys are totally ordered, in agreement with equality and hashing.
-/

namespace RarmDb

open Std (TransCmp LawfulBEqCmp)

/-! ## Hashers -/

/-- A call of a method of `Hasher`, with its data. -/
inductive HasherCall
  | write (bytes : Bytes)
  | writeU8 (n : UInt8)
  | writeU32 (n : UInt32)
  | writeU64 (n : UInt64)
  | writeI32 (n : Int32)
  | writeI64 (n : Int64)
  | writeUsize (n : ℕ)
  | writeIsize (n : ℤ)
  deriving DecidableEq

/-- The `Hash` of `rust_decimal::Decimal`. -/
class DecimalHash (D : Type) where
  hash : D → List HasherCall

/-- Equal decimals have the same hash. -/
class DecimalHashAgrees (D : Type) [RustDecimal D] [DecimalHash D] : Prop where
  hash_eq_of_beq : ∀ a b : D, RustDecimal.beq a b = true → DecimalHash.hash a = DecimalHash.hash b

namespace Decimal96

/-- Drop trailing zeros of the mantissa as long as the scale allows it. -/
def normalize : ℕ → ℕ → ℕ × ℕ
  | 0, mantissa => (0, mantissa)
  | scale + 1, mantissa =>
    if mantissa % 10 = 0 then normalize scale (mantissa / 10) else (scale + 1, mantissa)

/-- The scale and the mantissa of the normal form. -/
def normalized (d : Decimal96) : ℕ × ℕ := normalize d.scale d.mantissa

/-- The three words of the mantissa and the flags. -/
def hashWords (p : ℕ × ℕ) (negative : Bool) : List HasherCall :=
  [.writeU32 (UInt32.ofNat p.2), .writeU32 (UInt32.ofNat (p.2 / 2 ^ 32)),
    .writeU32 (UInt32.ofNat (p.2 / 2 ^ 64)),
    .writeU32 (UInt32.ofNat (p.1 * 2 ^ 16 + if negative then 2 ^ 31 else 0))]

/-- The words of the normal form. A zero has no sign. -/
instance : DecimalHash Decimal96 where
  hash d := hashWords d.normalized (d.negative && d.normalized.2 != 0)

/-- No trailing zero can be dropped. -/
def Normal (p : ℕ × ℕ) : Prop := p.1 = 0 ∨ p.2 % 10 ≠ 0

theorem normalize_spec (scale mantissa : ℕ) :
    (normalize scale mantissa).1 ≤ scale ∧ Normal (normalize scale mantissa) ∧
      mantissa = (normalize scale mantissa).2 * 10 ^ (scale - (normalize scale mantissa).1) := by
  induction scale generalizing mantissa with
  | zero => exact ⟨le_rfl, .inl rfl, (Nat.mul_one _).symm⟩
  | succ scale ih =>
    rw [normalize]
    split_ifs with h
    · obtain ⟨hle, hnormal, heq⟩ := ih (mantissa / 10)
      refine ⟨hle.trans scale.le_succ, hnormal, ?_⟩
      rw [Nat.succ_sub hle, pow_succ, ← mul_assoc, ← heq]
      omega
    · exact ⟨le_rfl, .inr h, by simp⟩

/-- In units of `10 ^ -28`, a decimal has one normal form. -/
theorem normal_unique {p q : ℕ × ℕ} (hp : Normal p) (hq : Normal q) (hps : p.1 ≤ 28) (hqs : q.1 ≤ 28)
    (h : p.2 * 10 ^ (28 - p.1) = q.2 * 10 ^ (28 - q.1)) : p = q := by
  wlog hle : p.1 ≤ q.1 generalizing p q
  · exact (this hq hp hqs hps h.symm (by omega)).symm
  have hmul : p.2 * 10 ^ (q.1 - p.1) = q.2 := by
    apply Nat.eq_of_mul_eq_mul_right (Nat.pow_pos (n := 28 - q.1) (by decide : 0 < 10))
    rw [mul_assoc, ← pow_add, ← h]
    congr 2
    omega
  rcases hle.lt_or_eq with hlt | heq
  · -- A larger scale would leave a trailing zero.
    exfalso
    rcases hq with hq | hq
    · omega
    · apply hq
      rw [← hmul, ← Nat.succ_pred_eq_of_pos (Nat.sub_pos_of_lt hlt), pow_succ, ← mul_assoc,
        Nat.mul_mod_left]
  · rw [heq, Nat.sub_self, pow_zero, mul_one] at hmul
    exact Prod.ext heq hmul

theorem normalized_spec (d : Decimal96) : d.normalized.1 ≤ 28 ∧ Normal d.normalized ∧
    d.normalized.2 * 10 ^ (28 - d.normalized.1) = d.mantissa * 10 ^ (28 - d.scale.val) := by
  obtain ⟨hle, hnormal, heq⟩ := normalize_spec d.scale d.mantissa
  have hs := d.scale.2
  refine ⟨hle.trans (by omega), hnormal, ?_⟩
  conv_rhs => rw [heq]
  rw [mul_assoc, ← pow_add, normalized]
  congr 2
  omega

theorem units_eq (d : Decimal96) : d.units =
    (if d.negative then -1 else 1) * (d.normalized.2 * 10 ^ (28 - d.normalized.1) : ℕ) := by
  rw [units, d.normalized_spec.2.2]

theorem normalized_eq {a b : Decimal96} (h : a.units = b.units) : a.normalized = b.normalized := by
  have habs : ∀ d : Decimal96, d.units.natAbs = d.normalized.2 * 10 ^ (28 - d.normalized.1) := by
    intro d
    rw [units_eq, Int.natAbs_mul, Int.natAbs_natCast]
    split_ifs <;> exact Nat.one_mul _
  obtain ⟨has, hanormal, -⟩ := a.normalized_spec
  obtain ⟨hbs, hbnormal, -⟩ := b.normalized_spec
  refine normal_unique hanormal hbnormal has hbs ?_
  rw [← habs, ← habs, h]

theorem sign_eq {a b : Decimal96} (h : a.units = b.units) :
    (a.negative && a.normalized.2 != 0) = (b.negative && b.normalized.2 != 0) := by
  have hunits := h
  rw [units_eq, units_eq, normalized_eq h] at hunits
  rw [normalized_eq h]
  by_cases hzero : b.normalized.2 = 0
  · simp [hzero]
  · have hpos : 0 < b.normalized.2 * 10 ^ (28 - b.normalized.1) :=
      Nat.mul_pos (Nat.pos_of_ne_zero hzero) (Nat.pow_pos (by decide))
    have hsign := Int.eq_of_mul_eq_mul_right (by omega) hunits
    cases ha : a.negative <;> cases hb : b.negative <;> simp [ha, hb] at hsign ⊢

instance : DecimalHashAgrees Decimal96 where
  hash_eq_of_beq a b h := by
    have hunits : a.units = b.units := beq_iff_eq.mp h
    change hashWords a.normalized (a.negative && a.normalized.2 != 0) =
      hashWords b.normalized (b.negative && b.normalized.2 != 0)
    rw [sign_eq hunits, normalized_eq hunits]

end Decimal96

/-! ## Hashing values -/

namespace OrderedFloat

/-- `OrderedFloat::hash`: both zeros as `0.0`, every NaN as `f64::NAN`. -/
def hash (f : OrderedFloat) : List HasherCall :=
  let coercedValue : OrderedFloat :=
    if ieeeEq f ⟨0x8000000000000000⟩ then ⟨0⟩
    else if f.isNan then ⟨0x7FF8000000000000⟩
    else f
  [.writeU64 coercedValue.bits]

theorem eq_of_rank {a b : OrderedFloat} (h : a.rank = b.rank) (h0 : a.rank ≠ 0) : a = b := by
  have ha := a.bits.toNat_lt
  have hb := b.bits.toNat_lt
  have hbits : a.bits.toNat = b.bits.toNat := by
    unfold rank magnitude at h h0
    split_ifs at h h0 <;> omega
  cases a
  cases b
  exact congrArg mk (UInt64.toNat_inj.mp hbits)

theorem hash_eq_of_beq {a b : OrderedFloat} (h : beq a b = true) : hash a = hash b := by
  unfold beq at h
  split_ifs at h with hnan
  · obtain ⟨ha, hb⟩ := Bool.and_eq_true_iff.mp hnan
    simp [hash, ieeeEq, ha, hb]
  · simp only [ieeeEq, Bool.and_eq_true, Bool.not_eq_true', beq_iff_eq] at h
    obtain ⟨⟨ha, hb⟩, hrank⟩ := h
    have hzero : rank ⟨0x8000000000000000⟩ = 0 := by decide
    have hnum : isNan ⟨0x8000000000000000⟩ = false := by decide
    by_cases h0 : a.rank = 0
    · simp [hash, ieeeEq, ha, hb, hzero, hnum, h0, ← hrank]
    · rw [eq_of_rank hrank h0]

end OrderedFloat

variable {D : Type}

namespace DataValue

/-- The derived `Hash`: the discriminant, then what the payload feeds. -/
def hash [DecimalHash D] (v : DataValue D) : List HasherCall :=
  .writeIsize v.discriminant ::
    match v with
    | null => []
    | int val => [.writeI32 val]
    | bigInt val => [.writeI64 val]
    | boolean val => [.writeU8 (if val then 1 else 0)]
    | float val => val.hash
    | text val => [.write (asBytes val), .writeU8 0xFF]
    | blob val => [.writeUsize val.length, .write val]
    | dateTime val => [.writeI64 val]
    | decimal val => DecimalHash.hash val

theorem discriminant_eq_of_beq [RustDecimal D] {a b : DataValue D} (h : beq a b = true) :
    a.discriminant = b.discriminant := by
  by_contra hne
  rw [beq_of_discriminant_ne hne] at h
  cases h

theorem hash_eq_of_beq [RustDecimal D] [DecimalHash D] [DecimalHashAgrees D] {a b : DataValue D}
    (h : beq a b = true) : a.hash = b.hash := by
  have hd := discriminant_eq_of_beq h
  cases a <;> cases b <;> first
    | (simp [discriminant] at hd; done)
    | rfl
    | rw [beq_iff_eq.mp h]
    | exact congrArg (HasherCall.writeIsize _ :: ·) (OrderedFloat.hash_eq_of_beq h)
    | exact congrArg (HasherCall.writeIsize _ :: ·) (DecimalHashAgrees.hash_eq_of_beq _ _ h)

/-- The derived `PartialOrd`. The `partial_cmp` of every payload is its `cmp`. -/
def partialCmp [RustDecimal D] : DataValue D → DataValue D → Option Ordering
  | int a, int b => some (compare a b)
  | bigInt a, bigInt b => some (compare a b)
  | boolean a, boolean b => some (compare a b)
  | float a, float b => some (a.cmp b)
  | text a, text b => some (compare (asBytes a) (asBytes b))
  | blob a, blob b => some (compare a b)
  | dateTime a, dateTime b => some (compare a b)
  | decimal a, decimal b => some (RustDecimal.cmp a b)
  | a, b => some (compare a.discriminant b.discriminant)

theorem partialCmp_eq [RustDecimal D] (a b : DataValue D) : partialCmp a b = some (cmp a b) := by
  cases a <;> cases b <;> rfl

end DataValue

/-! ## Keys -/

/-- `partial_cmp` of slices: the first elements that differ decide, then the lengths. -/
def slicePartialCmp {α : Type} (partialCmp : α → α → Option Ordering) :
    List α → List α → Option Ordering
  | [], [] => some .eq
  | [], _ :: _ => some .lt
  | _ :: _, [] => some .gt
  | a :: as, b :: bs =>
    match partialCmp a b with
    | some .eq => slicePartialCmp partialCmp as bs
    | nonEq => nonEq

theorem slicePartialCmp_eq {α : Type} {partialCmp : α → α → Option Ordering}
    {cmp : α → α → Ordering} (h : ∀ a b, partialCmp a b = some (cmp a b)) (as bs : List α) :
    slicePartialCmp partialCmp as bs = some (List.compareLex cmp as bs) := by
  induction as generalizing bs with
  | nil => cases bs <;> rfl
  | cons a as ih =>
    cases bs with
    | nil => rfl
    | cons b bs =>
      rw [slicePartialCmp, h, List.compareLex_cons_cons]
      cases cmp a b with
      | eq => exact ih bs
      | lt | gt => rfl

namespace Key

/-- The derived `Hash` of `Key`: the length, then every value. -/
def hash [DecimalHash D] (k : Key D) : List HasherCall :=
  .writeUsize k.length :: k.flatMap DataValue.hash

variable [RustDecimal D]

/-- The derived `PartialOrd` of `Key`. -/
def partialCmp (a b : Key D) : Option Ordering := slicePartialCmp DataValue.partialCmp a b

/-- `a < b`. -/
def lt (a b : Key D) : Bool := partialCmp a b == some .lt

/-- `a > b`. -/
def gt (a b : Key D) : Bool := partialCmp a b == some .gt

theorem partialCmp_eq (a b : Key D) : partialCmp a b = some (Key.cmp a b) :=
  slicePartialCmp_eq DataValue.partialCmp_eq a b

theorem lt_iff {a b : Key D} : lt a b = true ↔ Key.cmp a b = .lt := by
  rw [lt, partialCmp_eq, beq_iff_eq, Option.some_inj]

theorem gt_iff {a b : Key D} : gt a b = true ↔ Key.cmp a b = .gt := by
  rw [gt, partialCmp_eq, beq_iff_eq, Option.some_inj]

/-- **Equal keys feed the same data to the hasher.** -/
theorem hash_eq_of_beq [DecimalHash D] [DecimalHashAgrees D] {a b : Key D} (h : (a == b) = true) :
    hash a = hash b := by
  have hcalls : ∀ as bs : Key D, (as == bs) = true →
      as.length = bs.length ∧ as.flatMap DataValue.hash = bs.flatMap DataValue.hash := by
    intro as
    induction as with
    | nil =>
      intro bs h
      cases bs with
      | nil => exact ⟨rfl, rfl⟩
      | cons b bs => cases h
    | cons a as ih =>
      intro bs h
      cases bs with
      | nil => cases h
      | cons b bs =>
        obtain ⟨hhead, htail⟩ := Bool.and_eq_true_iff.mp h
        obtain ⟨hlength, hflat⟩ := ih bs htail
        rw [List.flatMap_cons, List.flatMap_cons, DataValue.hash_eq_of_beq hhead, hflat,
          List.length_cons, List.length_cons, hlength]
        exact ⟨rfl, rfl⟩
  obtain ⟨hlength, hflat⟩ := hcalls a b h
  rw [hash, hash, hlength, hflat]

end Key

/-- **Keys are totally ordered**, and the order agrees with equality and with hashing. -/
theorem keys_totally_ordered [RustDecimal D] [DecimalOrder D] [DecimalHash D] [DecimalHashAgrees D]
    (a b c : Key D) :
    ((a.lt b = true ∧ (a == b) = false ∧ a.gt b = false) ∨
      (a.lt b = false ∧ (a == b) = true ∧ a.gt b = false) ∨
      (a.lt b = false ∧ (a == b) = false ∧ a.gt b = true)) ∧
    (a.lt b = true → b.lt c = true → a.lt c = true) ∧
    (Key.cmp a b = .eq ↔ (a == b) = true) ∧
    ((a == b) = true → a.hash = b.hash) := by
  refine ⟨?_, ?_, Key.beq_iff_cmp.symm, Key.hash_eq_of_beq⟩
  · simp only [← Bool.not_eq_true, Key.lt_iff, Key.gt_iff, Key.beq_iff_cmp]
    cases Key.cmp a b <;> simp
  · rw [Key.lt_iff, Key.lt_iff, Key.lt_iff]
    exact TransCmp.lt_trans

/-- Both zeros and two scales of one decimal: equal keys with one hash, below a NaN. -/
theorem keys_totally_ordered_zeros :
    let a : Key Decimal96 := [.float ⟨0x8000000000000000⟩, .decimal ⟨false, 1, 10⟩]
    let b : Key Decimal96 := [.float ⟨0⟩, .decimal ⟨false, 2, 100⟩]
    let c : Key Decimal96 := [.float ⟨0xFFF0000000000001⟩]
    let d : Key Decimal96 := [.text "a"]
    (a == b) = true ∧ a.hash = b.hash ∧ b.lt c = true ∧ b.lt d = true := by
  intro a b c d
  have hab : (a == b) = true := by decide
  have hbc : b.lt c = true := by decide
  have hcd : c.lt d = true := by decide
  exact ⟨hab, (keys_totally_ordered a b c).2.2.2 hab, hbc, (keys_totally_ordered b c d).2.1 hbc hcd⟩

end RarmDb
