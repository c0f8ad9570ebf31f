import Mathlib.Data.Nat.Log
import RarmDb.Record.Accept

/-!
# The type check and the encoder

* `DataValue.isCompatible`: the type check of `data_value.rs`;
* `hasVariant_of_isCompatible`: it admits the variants of the columns, and an `Int` in a `BigInt` column;
* `Compatible`, `Converts`: checked records, and what is expected of the encoder for them;
* **`converts_iff`**: `serialize` panics on an `Int` in a `BigInt` column, and is right otherwise.
-/

namespace RarmDb

variable {D : Type}

/-! ## The type check -/

/-- `checked_ilog10().unwrap_or(0)`. -/
def checkedIlog10 (n : ℤ) : ℕ := if n ≤ 0 then 0 else Nat.log 10 n.toNat

/-- `is_compatible`. The subtraction of the scale from the precision is checked. -/
def DataValue.isCompatible [DecimalParts D] : DataValue D → PrimitiveDataType → Exec Bool
  | null, _ => .ret true
  | int _, .int => .ret true
  | int _, .bigInt => .ret true
  | bigInt _, .bigInt => .ret true
  | boolean _, .boolean => .ret true
  | float _, .float => .ret true
  | text val, .varchar maxLen => .ret ((asBytes val).length ≤ maxLen.toNat)
  | blob val, .blob maxLen => .ret (val.length ≤ maxLen.toNat)
  | dateTime _, .dateTime => .ret true
  | decimal val, .decimal p s =>
    let scale := DecimalParts.scale val
    if scale > s.toUInt32 then .ret false
    else
      let integerPart := DecimalParts.mantissa (DecimalParts.abs (DecimalParts.trunc val))
      if integerPart = 0 then .ret true
      else do
        let integerDigitCount := checkedIlog10 integerPart + 1
        let room ← Exec.sub p.toNat s.toNat
        return scale ≤ s.toUInt32 && integerDigitCount ≤ room
  | _, _ => .ret false

theorem hasVariant_of_isCompatible [DecimalParts D] {v : DataValue D} {t : PrimitiveDataType}
    (h : v.isCompatible t = .ret true) :
    v = .null ∨ v.HasVariant t ∨ t = .bigInt ∧ ∃ i, v = .int i := by
  cases v with
  | null => exact .inl rfl
  | int i =>
    cases t <;> first | (cases h; done) | exact .inr (.inl trivial) | exact .inr (.inr ⟨rfl, i, rfl⟩)
  | _ => cases t <;> first | exact .inr (.inl trivial) | cases h

/-! ## Checked records -/

/-- Every value passes the type check of its column, and null is in nullable columns only. -/
def Compatible [DecimalParts D] (columns : List ColumnDefinition) (record : Record D) : Prop :=
  List.Forall₂ (fun col v => v.isCompatible col.dataType = .ret true ∧
    (v = .null → col.isNullable = true)) columns record

/-- The value as its column stores it: an `Int` in a `BigInt` column becomes a `BigInt`. -/
def DataValue.convert (col : ColumnDefinition) : DataValue D → DataValue D
  | int val => if col.dataType = .bigInt then bigInt val.toInt64 else int val
  | v => v

/-- The record as its columns store it. -/
def converted (columns : List ColumnDefinition) (record : Record D) : Record D :=
  List.zipWith DataValue.convert columns record

/-- The record is written, and read back as its columns store it. -/
def Converts [RustDecimal D] (columns : List ColumnDefinition) (record : Record D) : Prop :=
  ∃ bytes, RecordSerializer.serialize columns record = .ret (.ok bytes) ∧
    RecordSerializer.deserialize columns bytes = .ret (.ok (converted columns record))

/-- A column of type `BigInt` has an `Int`. -/
def HasIntInBigInt (columns : List ColumnDefinition) (record : Record D) : Prop :=
  ∃ c ∈ columns.zip record, c.1.dataType = .bigInt ∧ ∃ i, c.2 = .int i

variable {columns : List ColumnDefinition} {record : Record D}

theorem Compatible.wellTyped [DecimalParts D] (h : Compatible columns record)
    (hint : ¬ HasIntInBigInt columns record) :
    WellTyped columns record ∧ converted columns record = record := by
  induction h with
  | nil => exact ⟨.nil, rfl⟩
  | @cons col v columns record hv _ ih =>
    obtain ⟨hcheck, hnull⟩ := hv
    have hv : ¬ (col.dataType = .bigInt ∧ ∃ i, v = .int i) := fun hv =>
      hint ⟨(col, v), List.mem_cons_self, hv⟩
    obtain ⟨htyped, hrest⟩ := ih fun ⟨c, hc, hbad⟩ => hint ⟨c, List.mem_cons_of_mem _ hc, hbad⟩
    have hadmits : col.Admits v := by
      rcases hasVariant_of_isCompatible hcheck with rfl | hvariant | hbad
      · exact .inl ⟨rfl, hnull rfl⟩
      · exact .inr hvariant
      · exact absurd hbad hv
    refine ⟨.cons hadmits htyped, ?_⟩
    rw [converted, List.zipWith_cons_cons, ← converted, hrest]
    congr 1
    cases v with
    | int i => exact if_neg fun ht => hv ⟨ht, i, rfl⟩
    | _ => rfl

variable [RustDecimal D]

theorem not_stores_int_in_bigInt {col : ColumnDefinition} (ht : col.dataType = .bigInt) (i : Int32) :
    ¬ RecordSerializer.Stores col (.int i : DataValue D) := by
  rintro (h | h)
  · cases h
  · rw [RecordSerializer.Fits, ht] at h
    rcases h with h | ⟨b, h⟩
    · rw [RecordSerializer.fixedBytes, length_leBytes] at h
      cases h
    · cases h

/-- **The encoder does what the type check promises**, unless an `Int` is in a `BigInt` column. -/
theorem converts_iff [DecimalParts D] [DecimalCodec D] (h : Compatible columns record)
    (hshort : ShortData record) :
    Converts columns record ↔ ¬ HasIntInBigInt columns record := by
  constructor
  · rintro ⟨bytes, hwrite, -⟩ ⟨⟨col, v⟩, hc, ht, i, rfl⟩
    exact not_stores_int_in_bigInt ht i
      ((RecordSerializer.stores_of_serialize (List.Forall₂.length_eq h).symm hwrite).1 _ hc)
  · intro hint
    obtain ⟨htyped, hconverted⟩ := h.wellTyped hint
    refine ⟨_, RecordSerializer.serialize_eq htyped, ?_⟩
    rw [hconverted]
    exact RecordSerializer.deserialize_encode htyped hshort

theorem product_compatible (id : Int32) (notes : Bytes) (h : notes.length ≤ 10000) :
    Compatible productTable.columns (product id notes) := by
  have hprice : (DataValue.decimal (⟨false, 2, 4950⟩ : Decimal96)).isCompatible (.decimal 10 2) =
      .ret true := by
    have hlog : Nat.log 10 49 = 1 := (Nat.log_eq_iff (by decide)).mpr (by decide)
    change (do
      let room ← Exec.sub 10 2
      return decide ((2 : UInt32) ≤ 2) && decide (Nat.log 10 49 + 1 ≤ room) : Exec Bool) = _
    rw [hlog]
    rfl
  refine .cons ⟨by decide, ?_⟩ (.cons ⟨rfl, ?_⟩ (.cons ⟨congrArg Exec.ret (decide_eq_true h), ?_⟩
    (.cons ⟨hprice, ?_⟩ .nil)))
  all_goals
    intro hnull
    cases hnull

theorem converts_iff_product : Converts productTable.columns (product 7 [1, 2]) := by
  refine (converts_iff (product_compatible 7 [1, 2] (by decide)) ?_).mpr ?_
  · simp [ShortData, product, DataValue.dataLength]
    decide
  · simp [HasIntInBigInt, productTable, product]

/-- The type check admits an `Int` in a `BigInt` column, and `serialize` panics on it. -/
theorem serialize_panics_on_int_in_bigInt :
    Compatible [⟨"id", .bigInt, false⟩] ([.int 7] : Record Decimal96) ∧
      ShortData ([.int 7] : Record Decimal96) ∧
      RecordSerializer.serialize [⟨"id", .bigInt, false⟩] ([.int 7] : Record Decimal96) = .panic := by
  refine ⟨.cons ⟨rfl, ?_⟩ .nil, ?_, by decide⟩
  · intro hnull
    cases hnull
  · simp [ShortData, DataValue.dataLength]

end RarmDb
