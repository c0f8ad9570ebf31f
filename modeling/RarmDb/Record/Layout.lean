import Mathlib.Data.List.GetD
import Mathlib.Data.Nat.Bitwise
import Mathlib.Tactic.IntervalCases
import RarmDb.Record.Codec

/-!
# What `serialize` writes

* `HasVariant`, `WellTyped`: the values that belong to a column;
* `nullBitmap`, `fixedPart`, `variablePart`: the three parts of a record;
* **`serialize_eq`**: `serialize` writes the three parts, one after the other.
-/

namespace RarmDb

variable {D : Type}

/-! ## Typed values -/

/-- The value has exactly the variant of the type. -/
def DataValue.HasVariant : DataValue D → PrimitiveDataType → Prop
  | .int _, .int => True
  | .bigInt _, .bigInt => True
  | .boolean _, .boolean => True
  | .float _, .float => True
  | .text _, .varchar _ => True
  | .blob _, .blob _ => True
  | .dateTime _, .dateTime => True
  | .decimal _, .decimal _ _ => True
  | _, _ => False

/-- The length of a text or a blob. -/
def DataValue.dataLength : DataValue D → ℕ
  | .text val => (asBytes val).length
  | .blob val => val.length
  | _ => 0

/-- The value is a text or a blob. -/
def DataValue.isSized : DataValue D → Bool
  | .text _ | .blob _ => true
  | _ => false

/-- Null in a nullable column, or a value of the column's variant. -/
def ColumnDefinition.Admits (col : ColumnDefinition) (v : DataValue D) : Prop :=
  v = .null ∧ col.isNullable = true ∨ v.HasVariant col.dataType

/-- One value per column, each admitted by its column. -/
def WellTyped (columns : List ColumnDefinition) (record : Record D) : Prop :=
  List.Forall₂ ColumnDefinition.Admits columns record

theorem WellTyped.length_eq {columns : List ColumnDefinition} {record : Record D}
    (h : WellTyped columns record) : record.length = columns.length :=
  (List.Forall₂.length_eq h).symm

theorem DataValue.HasVariant.isNull {v : DataValue D} {t : PrimitiveDataType}
    (h : v.HasVariant t) : v.isNull = false := by
  cases v <;> first | rfl | exact False.elim h

theorem ColumnDefinition.Admits.variant {col : ColumnDefinition} {v : DataValue D}
    (h : col.Admits v) (hv : v.isNull = false) : v.HasVariant col.dataType := by
  rcases h with ⟨rfl, -⟩ | h
  · cases hv
  · exact h

theorem ColumnDefinition.Admits.nullable {col : ColumnDefinition} {v : DataValue D}
    (h : col.Admits v) (hv : v.isNull = true) : col.isNullable = true := by
  rcases h with ⟨-, h⟩ | h
  · exact h
  · rw [h.isNull] at hv
    cases hv

namespace RecordSerializer

/-! ## The null bitmap -/

/-- The bit of column `i`. -/
def nullBit (bitmap : Bytes) (i : ℕ) : Bool := (bitmap.getD (i / 8) 0).toNat.testBit (i % 8)

/-- The bitmap with the bit of column `i` set. -/
def withNullBit (bitmap : Bytes) (i : ℕ) : Bytes :=
  bitmap.set (i / 8) (bitmap.getD (i / 8) 0 ||| (1 <<< UInt8.ofNat (i % 8)))

/-- Set the bits of the null values, the first of which belongs to column `i`. -/
def markNulls (bitmap : Bytes) (i : ℕ) : List (DataValue D) → Bytes
  | [] => bitmap
  | v :: values => markNulls (if v.isNull then withNullBit bitmap i else bitmap) (i + 1) values

/-- The null bitmap of a record. -/
def nullBitmap (record : Record D) : Bytes :=
  markNulls (List.replicate ((record.length + 7) / 8) 0) 0 record

/-- The bitmap has the null bits of `values`, the first of which belongs to column `i`. -/
def Marks (bitmap : Bytes) (i : ℕ) (values : List (DataValue D)) : Prop :=
  ∀ k v, values[k]? = some v → nullBit bitmap (i + k) = v.isNull

theorem toNat_one_shiftLeft {k : ℕ} (h : k < 8) : (1 <<< UInt8.ofNat k : UInt8).toNat = 2 ^ k := by
  interval_cases k <;> rfl

@[simp] theorem length_withNullBit (bitmap : Bytes) (i : ℕ) :
    (withNullBit bitmap i).length = bitmap.length := List.length_set

@[simp] theorem length_markNulls (bitmap : Bytes) (i : ℕ) (values : List (DataValue D)) :
    (markNulls bitmap i values).length = bitmap.length := by
  induction values generalizing bitmap i with
  | nil => rfl
  | cons v values ih =>
    rw [markNulls, ih]
    split
    · exact length_withNullBit ..
    · rfl

@[simp] theorem length_nullBitmap (record : Record D) :
    (nullBitmap record).length = (record.length + 7) / 8 := by
  rw [nullBitmap, length_markNulls, List.length_replicate]

theorem nullBit_withNullBit {bitmap : Bytes} {i : ℕ} (hi : i / 8 < bitmap.length) (j : ℕ) :
    nullBit (withNullBit bitmap i) j = (nullBit bitmap j || decide (j = i)) := by
  unfold nullBit withNullBit
  by_cases hq : j / 8 = i / 8
  · rw [hq, List.getD_eq_getElem?_getD, List.getElem?_set_self hi, Option.getD_some,
      UInt8.toNat_or, toNat_one_shiftLeft (Nat.mod_lt _ (by decide)), Nat.testBit_or,
      Nat.testBit_two_pow]
    congr 1
    rw [decide_eq_decide]
    omega
  · rw [List.getD_eq_getElem?_getD, List.getElem?_set_ne (by omega), ← List.getD_eq_getElem?_getD]
    have hne : j ≠ i := by
      rintro rfl
      exact hq rfl
    rw [decide_eq_false hne, Bool.or_false]

theorem isColValueNull_eq {bitmap : Bytes} {i : ℕ} (hi : i / 8 < bitmap.length) :
    isColValueNull bitmap i = .ret (nullBit bitmap i) := by
  have hk : i % 8 < 8 := Nat.mod_lt _ (by decide)
  rw [isColValueNull, byteAt, List.getElem?_eq_getElem hi, Exec.unwrap_some, Exec.ret_bind, nullBit,
    List.getD_eq_getElem _ _ hi, Exec.pure_eq]
  congr 1
  rw [Bool.eq_iff_iff, bne_iff_ne, ne_eq, ← UInt8.toNat_inj, UInt8.toNat_and,
    toNat_one_shiftLeft hk, Nat.and_two_pow]
  cases (bitmap[i / 8]).toNat.testBit (i % 8) <;> simp

theorem setNullBit_append {bitmap rest : Bytes} {i : ℕ} (hi : i / 8 < bitmap.length) :
    setNullBit (bitmap ++ rest) i = .ret (withNullBit bitmap i ++ rest) := by
  rw [setNullBit, byteAt, List.getElem?_append_left hi, List.getElem?_eq_getElem hi,
    Exec.unwrap_some, Exec.ret_bind, setByte,
    if_pos (by rw [List.length_append]; omega), List.set_append_left _ _ hi, withNullBit,
    List.getD_eq_getElem _ _ hi]

theorem nullBit_markNulls {bitmap : Bytes} {i : ℕ} {values : List (DataValue D)}
    (h : i + values.length ≤ 8 * bitmap.length) (j : ℕ) (hj : j < i) :
    nullBit (markNulls bitmap i values) j = nullBit bitmap j := by
  induction values generalizing bitmap i with
  | nil => rfl
  | cons v values ih =>
    rw [List.length_cons] at h
    rw [markNulls]
    split
    · rw [ih (by rw [length_withNullBit]; omega) (by omega), nullBit_withNullBit (by omega),
        decide_eq_false (by omega), Bool.or_false]
    · exact ih (by omega) (by omega)

theorem marks_markNulls {bitmap : Bytes} {i : ℕ} {values : List (DataValue D)}
    (h : i + values.length ≤ 8 * bitmap.length) (hzero : ∀ j, i ≤ j → nullBit bitmap j = false) :
    Marks (markNulls bitmap i values) i values := by
  induction values generalizing bitmap i with
  | nil => exact fun k v hv => by cases hv
  | cons v values ih =>
    rw [List.length_cons] at h
    rintro (_ | k) w hw
    · obtain rfl : v = w := Option.some.inj hw
      rw [Nat.add_zero, markNulls]
      split
      · next hv =>
        rw [nullBit_markNulls (by rw [length_withNullBit]; omega) _ (by omega),
          nullBit_withNullBit (by omega), hv, decide_eq_true rfl, Bool.or_true]
      · next hv =>
        rw [nullBit_markNulls (by omega) _ (by omega), hzero i le_rfl]
        exact (Bool.eq_false_iff.mpr hv).symm
    · rw [markNulls, show i + (k + 1) = i + 1 + k by omega]
      refine ih ?_ ?_ k w hw
      · split
        · rw [length_withNullBit]
          omega
        · omega
      · intro j hj
        split
        · rw [nullBit_withNullBit (by omega), hzero j (by omega), decide_eq_false (by omega)]
          rfl
        · exact hzero j (by omega)

theorem marks_nullBitmap (record : Record D) : Marks (nullBitmap record) 0 record := by
  refine marks_markNulls ?_ fun j _ => ?_
  · rw [List.length_replicate]
    omega
  · rw [nullBit, List.getD_eq_getElem?_getD, List.getElem?_replicate]
    split <;> simp

theorem Marks.tail {bitmap : Bytes} {i : ℕ} {v : DataValue D} {values : List (DataValue D)}
    (h : Marks bitmap i (v :: values)) : Marks bitmap (i + 1) values := by
  intro k w hw
  have := h (k + 1) w hw
  rwa [show i + (k + 1) = i + 1 + k by omega] at this

theorem Marks.isColValueNull {bitmap : Bytes} {i : ℕ} {v : DataValue D}
    {values : List (DataValue D)} (h : Marks bitmap i (v :: values))
    (hi : i + (v :: values).length ≤ 8 * bitmap.length) :
    isColValueNull bitmap i = .ret v.isNull := by
  rw [List.length_cons] at hi
  rw [isColValueNull_eq (by omega), ← h 0 v rfl, Nat.add_zero]

/-! ## Fixed and variable parts -/

/-- The length prefix and the bytes of a value of variable size. -/
def variableBytes : DataValue D → Bytes
  | .text val => leBytes 4 (asBytes val).length ++ asBytes val
  | .blob val => leBytes 4 val.length ++ val
  | _ => []

/-- The lengths of a value of variable size, as the first pass collects them. -/
def variableSizes : DataValue D → List ℕ
  | .text val => [(asBytes val).length]
  | .blob val => [val.length]
  | _ => []

/-- The values of variable size. -/
def variablePart (values : List (DataValue D)) : Bytes := values.flatMap variableBytes

theorem variablePart_cons (v : DataValue D) (values : List (DataValue D)) :
    variablePart (v :: values) = variableBytes v ++ variablePart values := List.flatMap_cons

theorem parts_of_not_sized {v : DataValue D} (h : v.isSized = false) :
    variableBytes v = [] ∧ variableSizes v = [] := by
  cases v <;> first | exact ⟨rfl, rfl⟩ | cases h

theorem parts_of_fixed {v : DataValue D} {t : PrimitiveDataType} {n : ℕ} (h : v.HasVariant t)
    (hn : t.getFixedSize = some n) : variableBytes v = [] ∧ variableSizes v = [] := by
  cases v <;> cases t <;> first | exact False.elim h | (cases hn; done) | exact ⟨rfl, rfl⟩

theorem sized_eq {v : DataValue D} (h : v.isSized = true) :
    ∃ data, variableBytes v = leBytes 4 data.length ++ data ∧ variableSizes v = [data.length] ∧
      v.dataLength = data.length ∧ v.isNull = false ∧ ∀ (bytes : Bytes) (offset k : ℕ),
        writeVariable bytes offset k v = writeLengthAndData bytes offset k data := by
  cases v <;> first | exact ⟨_, rfl, rfl, rfl, rfl, fun _ _ _ => rfl⟩ | cases h

variable [RustDecimal D]

/-- The bytes of a value of fixed size. -/
def fixedBytes : DataValue D → Bytes
  | .int val => leBytes 4 val.toUInt32.toNat
  | .bigInt val => leBytes 8 val.toUInt64.toNat
  | .boolean val => [if val then 1 else 0]
  | .float val => leBytes 8 val.bits.toNat
  | .dateTime val => leBytes 8 val.toUInt64.toNat
  | .decimal val => (RustDecimal.serialize val).toList
  | _ => []

/-- The values of fixed size. -/
def fixedPart (values : List (DataValue D)) : Bytes := values.flatMap fixedBytes

/-- The bytes of a record. -/
def encode (record : Record D) : Bytes :=
  nullBitmap record ++ fixedPart record ++ variablePart record

theorem fixedPart_cons (v : DataValue D) (values : List (DataValue D)) :
    fixedPart (v :: values) = fixedBytes v ++ fixedPart values := List.flatMap_cons

theorem length_fixedBytes {v : DataValue D} {t : PrimitiveDataType} {n : ℕ} (h : v.HasVariant t)
    (hn : t.getFixedSize = some n) : (fixedBytes v).length = n := by
  cases v <;> cases t <;> first
    | exact False.elim h
    | (cases hn; done)
    | (obtain rfl := Option.some.inj hn; simp [fixedBytes])

theorem parts_of_variable {v : DataValue D} {t : PrimitiveDataType} (h : v.HasVariant t)
    (hn : t.getFixedSize = none) :
    ∃ data, fixedBytes v = [] ∧ variableBytes v = leBytes 4 data.length ++ data ∧
      v.dataLength = data.length := by
  cases v <;> cases t <;> first | exact False.elim h | (cases hn; done) | exact ⟨_, rfl, rfl, rfl⟩

theorem parts_of_null {v : DataValue D} (h : v.isNull = true) :
    fixedBytes v = [] ∧ variableBytes v = [] ∧ variableSizes v = [] := by
  rw [DataValue.isNull_iff.mp h]
  exact ⟨rfl, rfl, rfl⟩

/-! ## The values that the encoder stores -/

/-- The encoder writes the value into a column of this type: a value with as many bytes as the column
has, a boolean into any column of fixed size, a text or a blob into any other column. -/
def Fits (t : PrimitiveDataType) (v : DataValue D) : Prop :=
  match t.getFixedSize with
  | some n => (fixedBytes v).length = n ∨ ∃ b, v = .boolean b
  | none => v.isSized = true

/-- The encoder has room for the value in the column. -/
def Stores (col : ColumnDefinition) (v : DataValue D) : Prop := v.isNull = true ∨ Fits col.dataType v

/-- The bytes of the column in the part of fixed size. -/
def storedFixed (col : ColumnDefinition) (v : DataValue D) : Bytes :=
  if v.isNull then []
  else
    match col.dataType.getFixedSize with
    | some n => fixedBytes v ++ List.replicate (n - (fixedBytes v).length) 0
    | none => []

/-- The part of fixed size, of columns with their values. -/
def storedPart (cells : List (ColumnDefinition × DataValue D)) : Bytes :=
  cells.flatMap fun c => storedFixed c.1 c.2

/-- The bytes of a record whose values the encoder stores. -/
def encodeAs (columns : List ColumnDefinition) (record : Record D) : Bytes :=
  nullBitmap record ++ storedPart (columns.zip record) ++ variablePart record

theorem storedPart_cons (col : ColumnDefinition) (v : DataValue D)
    (cells : List (ColumnDefinition × DataValue D)) :
    storedPart ((col, v) :: cells) = storedFixed col v ++ storedPart cells := List.flatMap_cons

theorem fits_of_hasVariant {v : DataValue D} {t : PrimitiveDataType} (h : v.HasVariant t) :
    Fits t v := by
  unfold Fits
  cases hn : t.getFixedSize with
  | some n => exact .inl (length_fixedBytes h hn)
  | none => cases v <;> cases t <;> first | rfl | exact False.elim h | cases hn

theorem stores_of_admits {col : ColumnDefinition} {v : DataValue D} (h : col.Admits v) :
    Stores col v := by
  rcases h with ⟨rfl, -⟩ | h
  · exact .inl rfl
  · exact .inr (fits_of_hasVariant h)

theorem stores_of_wellTyped {columns : List ColumnDefinition} {record : Record D}
    (h : WellTyped columns record) : ∀ c ∈ columns.zip record, Stores c.1 c.2 := by
  rintro ⟨col, v⟩ hc
  exact stores_of_admits (List.forall₂_iff_zip.mp h |>.2 hc)

theorem storedFixed_of_null {col : ColumnDefinition} {v : DataValue D} (h : v.isNull = true) :
    storedFixed col v = [] := if_pos h

theorem storedFixed_of_fixed {col : ColumnDefinition} {v : DataValue D} {n : ℕ}
    (h : v.isNull = false) (hn : col.dataType.getFixedSize = some n) :
    storedFixed col v = fixedBytes v ++ List.replicate (n - (fixedBytes v).length) 0 := by
  rw [storedFixed, if_neg (Bool.eq_false_iff.mp h), hn]

theorem storedFixed_of_variable {col : ColumnDefinition} (v : DataValue D)
    (hn : col.dataType.getFixedSize = none) : storedFixed col v = [] := by
  rw [storedFixed, hn, ite_self]

theorem storedFixed_of_admits {col : ColumnDefinition} {v : DataValue D} (h : col.Admits v) :
    storedFixed col v = fixedBytes v := by
  by_cases hv : v.isNull = true
  · rw [storedFixed_of_null hv, (parts_of_null hv).1]
  · replace hv := Bool.eq_false_iff.mpr hv
    cases hn : col.dataType.getFixedSize with
    | some n =>
      rw [storedFixed_of_fixed hv hn, length_fixedBytes (h.variant hv) hn, Nat.sub_self]
      exact List.append_nil _
    | none =>
      obtain ⟨data, hfixed, -⟩ := parts_of_variable (h.variant hv) hn
      rw [storedFixed_of_variable v hn, hfixed]

theorem storedPart_of_wellTyped {columns : List ColumnDefinition} {record : Record D}
    (h : WellTyped columns record) : storedPart (columns.zip record) = fixedPart record := by
  induction h with
  | nil => rfl
  | cons hv _ ih => rw [List.zip_cons_cons, storedPart_cons, ih, storedFixed_of_admits hv, fixedPart_cons]

theorem encodeAs_eq {columns : List ColumnDefinition} {record : Record D}
    (h : WellTyped columns record) : encodeAs columns record = encode record := by
  rw [encodeAs, storedPart_of_wellTyped h, encode]

theorem fits_fixed {t : PrimitiveDataType} {v : DataValue D} {n : ℕ} (h : Fits t v)
    (hn : t.getFixedSize = some n) :
    (fixedBytes v).length ≤ n ∧ v.isSized = false ∧ v.isNull = false := by
  have hpos : 0 < n := by
    cases t <;> cases hn <;> decide
  rw [Fits, hn] at h
  rcases h with h | ⟨b, rfl⟩
  · refine ⟨h.le, ?_⟩
    cases v <;> first | exact ⟨rfl, rfl⟩ | exact absurd (h.symm.trans List.length_nil) hpos.ne'
  · exact ⟨hpos, rfl, rfl⟩

theorem fits_variable {t : PrimitiveDataType} {v : DataValue D} (h : Fits t v)
    (hn : t.getFixedSize = none) : v.isSized = true := by
  rwa [Fits, hn] at h

theorem length_storedFixed {col : ColumnDefinition} {v : DataValue D} {n : ℕ}
    (h : Fits col.dataType v) (hn : col.dataType.getFixedSize = some n) :
    (storedFixed col v).length = n := by
  obtain ⟨hle, -, hnull⟩ := fits_fixed h hn
  rw [storedFixed_of_fixed hnull hn, List.length_append, List.length_replicate,
    Nat.add_sub_cancel' hle]

/-- The reader can skip the value: the encoder stored it, and the type of the column is known. -/
def Skips (col : ColumnDefinition) (v : DataValue D) : Prop :=
  v.isNull = true ∨ Fits col.dataType v ∧ col.dataType ≠ .unknown

theorem Skips.stores {col : ColumnDefinition} {v : DataValue D} (h : Skips col v) : Stores col v :=
  h.imp_right And.left

theorem skips_of_admits {col : ColumnDefinition} {v : DataValue D} (h : col.Admits v) :
    Skips col v := by
  rcases h with ⟨rfl, -⟩ | h
  · exact .inl rfl
  · refine .inr ⟨fits_of_hasVariant h, fun hunknown => ?_⟩
    rw [hunknown] at h
    cases v <;> exact h

theorem skips_of_wellTyped {columns : List ColumnDefinition} {record : Record D}
    (h : WellTyped columns record) : List.Forall₂ Skips columns record :=
  h.imp fun _ _ => skips_of_admits

/-! ## The first pass -/

/-- The lengths that the first pass collects for a column. -/
def pushedSizes (c : ColumnDefinition × DataValue D) : List ℕ :=
  if c.1.dataType.getFixedSize.isSome then [] else variableSizes c.2

theorem addColumn_space (col : ColumnDefinition) (v : DataValue D) :
    ∃ fixed variable', ∀ s : RecordSize, s.addColumn col v =
      ⟨s.totalRecordSize + fixed + variable', s.fixedLengthSize + fixed,
        s.variableLengthSizes ++ pushedSizes (col, v)⟩ := by
  unfold RecordSize.addColumn pushedSizes
  by_cases hv : v.isNull = true
  · refine ⟨0, 0, fun s => ?_⟩
    rw [if_pos hv, (parts_of_null hv).2.2, ite_self, List.append_nil]
    rfl
  · cases hn : col.dataType.getFixedSize with
    | some n =>
      refine ⟨n, 0, fun s => ?_⟩
      rw [if_neg hv, if_pos (Option.isSome_some (a := n)), List.append_nil]
      rfl
    | none =>
      refine ⟨0, (4 + v.dataLength), fun s => ?_⟩
      rw [if_neg hv]
      cases v <;> simp [DataValue.dataLength, variableSizes, Nat.add_assoc]

theorem addColumn_eq {col : ColumnDefinition} {v : DataValue D} (h : Stores col v) (s : RecordSize) :
    s.addColumn col v =
      ⟨s.totalRecordSize + (storedFixed col v).length + (variableBytes v).length,
        s.fixedLengthSize + (storedFixed col v).length, s.variableLengthSizes ++ variableSizes v⟩ := by
  unfold RecordSize.addColumn
  by_cases hv : v.isNull = true
  · obtain ⟨-, h₂, h₃⟩ := parts_of_null hv
    rw [if_pos hv, storedFixed_of_null hv, h₂, h₃, List.append_nil]
    rfl
  · rw [if_neg hv]
    have hfit := h.resolve_left hv
    replace hv := Bool.eq_false_iff.mpr hv
    cases hn : col.dataType.getFixedSize with
    | some n =>
      obtain ⟨h₁, h₂⟩ := parts_of_not_sized (fits_fixed hfit hn).2.1
      rw [length_storedFixed hfit hn, h₁, h₂, List.append_nil]
      rfl
    | none =>
      have hs := fits_variable hfit hn
      rw [storedFixed_of_variable v hn]
      cases v <;> first | (cases hs; done) | simp [variableBytes, variableSizes, Nat.add_assoc]

omit [RustDecimal D] in
theorem sizeLoop_eq_foldl {cols : List ColumnDefinition} {values : List (DataValue D)}
    (h : values.length = cols.length) (s : RecordSize) :
    sizeLoop cols values s = .ret ((cols.zip values).foldl (fun s c => s.addColumn c.1 c.2) s) := by
  induction cols generalizing values s with
  | nil => rfl
  | cons col cols ih =>
    cases values with
    | nil => cases h
    | cons v values => exact ih (Nat.succ_injective h) _

theorem foldl_addColumn_space (cells : List (ColumnDefinition × DataValue D)) :
    ∃ fixed variable', ∀ s : RecordSize, cells.foldl (fun s c => s.addColumn c.1 c.2) s =
      ⟨s.totalRecordSize + fixed + variable', s.fixedLengthSize + fixed,
        s.variableLengthSizes ++ cells.flatMap pushedSizes⟩ := by
  induction cells with
  | nil => exact ⟨0, 0, fun s => by rw [List.flatMap_nil, List.append_nil]; rfl⟩
  | cons c cells ih =>
    obtain ⟨f, v, hc⟩ := addColumn_space c.1 c.2
    obtain ⟨f', v', hrest⟩ := ih
    refine ⟨f + f', v + v', fun s => ?_⟩
    rw [List.foldl_cons, hc, hrest, List.flatMap_cons, List.append_assoc, Nat.add_assoc _ f f']
    dsimp only
    congr 1
    omega

theorem foldl_addColumn_eq {cells : List (ColumnDefinition × DataValue D)}
    (h : ∀ c ∈ cells, Stores c.1 c.2) (s : RecordSize) :
    cells.foldl (fun s c => s.addColumn c.1 c.2) s =
      ⟨s.totalRecordSize + (storedPart cells).length + (variablePart (cells.map Prod.snd)).length,
        s.fixedLengthSize + (storedPart cells).length,
        s.variableLengthSizes ++ (cells.map Prod.snd).flatMap variableSizes⟩ := by
  induction cells generalizing s with
  | nil => rw [List.map_nil, List.flatMap_nil, List.append_nil]; rfl
  | cons c cells ih =>
    obtain ⟨col, v⟩ := c
    rw [List.foldl_cons, addColumn_eq (h _ List.mem_cons_self),
      ih fun c hc => h c (List.mem_cons_of_mem _ hc), storedPart_cons, List.map_cons,
      variablePart_cons, List.flatMap_cons, List.length_append, List.length_append,
      List.append_assoc, Nat.add_assoc s.fixedLengthSize]
    dsimp only
    congr 1
    omega

/-! ## The second pass -/

theorem writeFixed_eq {t : PrimitiveDataType} {v : DataValue D} {n k : ℕ} (h : Fits t v)
    (hn : t.getFixedSize = some n) (hk : n ≤ k) (a c : Bytes) :
    writeFixed (a ++ List.replicate k 0 ++ c) a.length n v =
      .ret (.ok (a ++ (fixedBytes v ++ List.replicate (n - (fixedBytes v).length) 0) ++
        (List.replicate (k - n) 0 ++ c))) := by
  obtain ⟨hle, hsized, hnull⟩ := fits_fixed h hn
  have hzero : ∀ m, m ≤ n → List.replicate (n - m) (0 : UInt8) ++ (List.replicate (k - n) 0 ++ c) =
      List.replicate (k - m) 0 ++ c := by
    intro m hm
    rw [← List.append_assoc, ← List.replicate_add]
    congr 2
    omega
  have hset : ∀ b : UInt8, 1 ≤ n → setByte (a ++ List.replicate k 0 ++ c) a.length b =
      .ret (a ++ ([b] ++ List.replicate (n - 1) 0) ++ (List.replicate (k - n) 0 ++ c)) := by
    intro b hpos
    rw [setByte_append a c b (hpos.trans hk), ← List.append_assoc a, List.append_assoc (a ++ [b]),
      hzero 1 hpos]
  have hcopy : (fixedBytes v).length = n →
      copyInto (a ++ List.replicate k 0 ++ c) a.length (a.length + n) (fixedBytes v) =
        .ret (a ++ (fixedBytes v ++ List.replicate (n - (fixedBytes v).length) 0) ++
          (List.replicate (k - n) 0 ++ c)) := by
    intro hlen
    rw [copyInto_append a (fixedBytes v) c rfl (by rw [hlen]) (by rw [hlen]; exact hk),
      ← List.append_assoc a, List.append_assoc (a ++ fixedBytes v), hzero _ hle]
  rw [Fits, hn] at h
  rcases h with hlen | ⟨b, rfl⟩
  · cases v <;> first
      | (cases hsized; done)
      | (cases hnull; done)
      | exact congrArg (Except.ok <$> ·) (hcopy hlen)
      | exact congrArg (Except.ok <$> ·) (hset _ hle)
  · exact congrArg (Except.ok <$> ·) (hset _ hle)

theorem writeLengthAndData_eq {k : ℕ} (a data c : Bytes) (hk : 4 + data.length ≤ k) :
    writeLengthAndData (a ++ List.replicate k 0 ++ c) a.length data.length data =
      .ret (.ok (a ++ (leBytes 4 data.length ++ data) ++
        (List.replicate (k - (4 + data.length)) 0 ++ c))) := by
  have hl := length_leBytes 4 data.length
  have h₁ : copyInto (a ++ List.replicate k 0 ++ c) a.length (a.length + 4) (leBytes 4 data.length) =
      .ret (a ++ leBytes 4 data.length ++ List.replicate (k - 4) 0 ++ c) := by
    rw [copyInto_append a (leBytes 4 data.length) c rfl (by rw [hl]) (by rw [hl]; omega), hl,
      List.append_assoc _ (List.replicate (k - 4) 0) c]
  have h₂ : copyInto (a ++ leBytes 4 data.length ++ List.replicate (k - 4) 0 ++ c) (a.length + 4)
      (a.length + 4 + data.length) data =
        .ret (a ++ (leBytes 4 data.length ++ data) ++
          (List.replicate (k - (4 + data.length)) 0 ++ c)) := by
    rw [copyInto_append _ data c (by rw [List.length_append, hl]) rfl (by omega), Nat.sub_sub,
      List.append_assoc a (leBytes 4 data.length) data]
  rw [writeLengthAndData, h₁, Exec.ret_bind, h₂]
  rfl

/-- The second pass with `bitmap`, the fixed part up to `a` and the variable part up to `b` written,
and `f` and `v` zeroes left in the two parts. -/
def stage (bitmap a b : Bytes) (f v k : ℕ) : WriteState where
  bytes := bitmap ++ a ++ List.replicate f 0 ++ (b ++ List.replicate v 0)
  currentFixedOffset := bitmap.length + a.length
  currentVariableOffset := bitmap.length + a.length + f + b.length
  variableLengthColIndex := k

/-- **One turn of the second pass.** -/
theorem writeColumn_eq {col : ColumnDefinition} {value : DataValue D} (h : Stores col value)
    {bitmap a b : Bytes} {i f v : ℕ} (hi : i / 8 < bitmap.length)
    (hf : (storedFixed col value).length ≤ f) (hv : (variableBytes value).length ≤ v)
    (done todo : List ℕ) :
    writeColumn (done ++ (variableSizes value ++ todo)) (stage bitmap a b f v done.length) i col
        value =
      .ret (.ok (stage (if value.isNull then withNullBit bitmap i else bitmap)
        (a ++ storedFixed col value) (b ++ variableBytes value) (f - (storedFixed col value).length)
        (v - (variableBytes value).length) (done ++ variableSizes value).length)) := by
  rw [writeColumn]
  by_cases hnull : value.isNull = true
  · obtain ⟨-, h₂, h₃⟩ := parts_of_null hnull
    simp only [hnull, if_true, stage, storedFixed_of_null hnull, h₂, h₃, List.append_nil,
      List.length_nil, Nat.sub_zero, length_withNullBit]
    rw [List.append_assoc bitmap, List.append_assoc bitmap, setNullBit_append hi, Exec.ret_bind]
    simp only [Exec.pure_eq, List.append_assoc]
  · rw [if_neg hnull, if_neg hnull]
    have hfit := h.resolve_left hnull
    replace hnull := Bool.eq_false_iff.mpr hnull
    cases hn : col.dataType.getFixedSize with
    | some n =>
      obtain ⟨hle, hs, -⟩ := fits_fixed hfit hn
      obtain ⟨h₁, h₂⟩ := parts_of_not_sized hs
      have hstored := storedFixed_of_fixed hnull hn
      have hlen := length_storedFixed hfit hn
      have hw := writeFixed_eq hfit hn (hlen ▸ hf) (bitmap ++ a) (b ++ List.replicate v 0)
      rw [List.length_append, ← hstored] at hw
      simp only [stage, hw, Exec.ret_bind, Except.map, Exec.pure_eq, h₁, h₂, hlen, List.append_nil,
        List.length_nil, Nat.sub_zero, List.length_append]
      rw [hlen] at hf
      congr 3
      · simp only [List.append_assoc]
      · omega
      · omega
    | none =>
      obtain ⟨data, h₂, h₃, -, -, h₄⟩ := sized_eq (fits_variable hfit hn)
      have hlen : (variableBytes value).length = 4 + data.length := by
        rw [h₂, List.length_append, length_leBytes]
      have hw := writeLengthAndData_eq (bitmap ++ a ++ List.replicate f 0 ++ b) data []
        (hlen ▸ hv)
      rw [List.append_nil, List.append_nil] at hw
      have hoff : (bitmap ++ a ++ List.replicate f 0 ++ b).length =
          bitmap.length + a.length + f + b.length := by simp only [List.length_append,
            List.length_replicate]
      rw [hoff] at hw
      simp only [stage, h₃, List.getElem?_append_right le_rfl, Nat.sub_self, List.cons_append,
        List.getElem?_cons_zero, Exec.unwrap_some, Exec.ret_bind, h₄, ← List.append_assoc, hw,
        Except.map, Exec.pure_eq, hlen, storedFixed_of_variable value hn, List.length_nil,
        Nat.sub_zero, List.append_nil]
      rw [h₂]
      congr 3
      · simp only [List.append_assoc]
      · simp only [List.length_append, length_leBytes]
        omega
      · simp

/-- **The second pass** over columns that the encoder stores, with more columns to come. -/
theorem serializeLoop_append {cells : List (ColumnDefinition × DataValue D)}
    (h : ∀ c ∈ cells, Stores c.1 c.2) {bitmap : Bytes} {i : ℕ}
    (hi : i + cells.length ≤ 8 * bitmap.length) (a b : Bytes) (f v : ℕ) (done todo : List ℕ)
    (rest : List (ColumnDefinition × DataValue D)) :
    serializeLoop (done ++ ((cells.map Prod.snd).flatMap variableSizes ++ todo)) (cells ++ rest) i
        (stage bitmap a b ((storedPart cells).length + f)
          ((variablePart (cells.map Prod.snd)).length + v) done.length) =
      serializeLoop (done ++ ((cells.map Prod.snd).flatMap variableSizes ++ todo)) rest
        (i + cells.length)
        (stage (markNulls bitmap i (cells.map Prod.snd)) (a ++ storedPart cells)
          (b ++ variablePart (cells.map Prod.snd)) f v
          (done ++ (cells.map Prod.snd).flatMap variableSizes).length) := by
  induction cells generalizing bitmap i a b done with
  | nil =>
    simp only [storedPart, variablePart, List.flatMap_nil, List.map_nil, List.nil_append,
      List.append_nil, List.length_nil, Nat.zero_add, Nat.add_zero, markNulls]
  | cons c cells ih =>
    obtain ⟨col, w⟩ := c
    rw [List.length_cons] at hi
    have hi' : i + 1 + cells.length ≤
        8 * (if w.isNull then withNullBit bitmap i else bitmap).length := by
      split
      · rw [length_withNullBit]
        omega
      · omega
    have hcol : Stores col w := h _ List.mem_cons_self
    have hloop := ih (fun c hc => h c (List.mem_cons_of_mem _ hc)) hi' (a ++ storedFixed col w)
      (b ++ variableBytes w) (done ++ variableSizes w)
    rw [List.cons_append, serializeLoop, List.map_cons, List.flatMap_cons, storedPart_cons,
      variablePart_cons, List.length_append, List.length_append, List.append_assoc]
    dsimp only
    rw [writeColumn_eq hcol (by omega) (by omega) (by omega), Exec.ret_bind,
      Nat.add_assoc (storedFixed col w).length, Nat.add_sub_cancel_left,
      Nat.add_assoc (variableBytes w).length, Nat.add_sub_cancel_left, ← List.append_assoc done]
    dsimp only
    rw [hloop, markNulls, List.length_cons, Nat.add_assoc i, Nat.add_comm 1]
    simp only [List.append_assoc]

theorem serialize_append {columns : List ColumnDefinition} {record : Record D}
    (hlen : record.length = columns.length) {cells rest : List (ColumnDefinition × DataValue D)}
    (hzip : columns.zip record = cells ++ rest) (h : ∀ c ∈ cells, Stores c.1 c.2) {f v : ℕ}
    (hspace : ∀ s : RecordSize, rest.foldl (fun s c => s.addColumn c.1 c.2) s =
      ⟨s.totalRecordSize + f + v, s.fixedLengthSize + f,
        s.variableLengthSizes ++ rest.flatMap pushedSizes⟩) :
    serialize columns record =
      serializeLoop ((cells.map Prod.snd).flatMap variableSizes ++ rest.flatMap pushedSizes) rest
        cells.length
        (stage (markNulls (List.replicate (getNullBitmapSize columns) 0) 0 (cells.map Prod.snd))
          (storedPart cells) (variablePart (cells.map Prod.snd)) f v
          ((cells.map Prod.snd).flatMap variableSizes).length) >>=
        fun result => pure (result.map WriteState.bytes) := by
  have hcount : cells.length ≤ columns.length := by
    have hle := congrArg List.length hzip
    rw [List.length_zip, List.length_append] at hle
    omega
  have hroom : 0 + cells.length ≤
      8 * (List.replicate (getNullBitmapSize columns) (0 : UInt8)).length := by
    rw [List.length_replicate, getNullBitmapSize]
    omega
  have hloop := serializeLoop_append h hroom [] [] f v [] (rest.flatMap pushedSizes) rest
  have htotal : getNullBitmapSize columns + (storedPart cells).length +
      (variablePart (cells.map Prod.snd)).length + f + v =
        getNullBitmapSize columns + ((storedPart cells).length + f) +
          ((variablePart (cells.map Prod.snd)).length + v) := by
    omega
  rw [serialize, calculateSerializedRecordSize, sizeLoop_eq_foldl hlen, hzip, List.foldl_append,
    foldl_addColumn_eq h, hspace, Exec.ret_bind]
  dsimp only
  rw [htotal, List.replicate_add, List.replicate_add]
  simp only [stage, List.length_replicate, List.append_nil, List.nil_append, List.length_nil,
    Nat.add_zero, Nat.zero_add] at hloop ⊢
  rw [hloop]

/-- **`serialize` writes the null bitmap, the values of fixed size and the values of variable
size**, whenever the columns store the values. -/
theorem serialize_of_stores {columns : List ColumnDefinition} {record : Record D}
    (hlen : record.length = columns.length) (h : ∀ c ∈ columns.zip record, Stores c.1 c.2) :
    serialize columns record = .ret (.ok (encodeAs columns record)) := by
  have hsnd : (columns.zip record).map Prod.snd = record := List.map_snd_zip hlen.le
  have hrun := serialize_append hlen (List.append_nil _).symm h (f := 0) (v := 0) fun s => by
    rw [List.flatMap_nil, List.append_nil]
    rfl
  rw [hrun, hsnd, serializeLoop, Exec.ret_bind, getNullBitmapSize, ← hlen]
  simp only [stage, List.replicate_zero, List.append_nil, Except.map, Exec.pure_eq]
  rfl

/-- The bytes of a well-typed record. -/
theorem serialize_eq {columns : List ColumnDefinition} {record : Record D}
    (h : WellTyped columns record) : serialize columns record = .ret (.ok (encode record)) := by
  rw [serialize_of_stores h.length_eq (stores_of_wellTyped h), encodeAs_eq h]

end RecordSerializer

end RarmDb
