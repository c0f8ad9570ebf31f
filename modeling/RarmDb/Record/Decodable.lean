import RarmDb.Record.RoundTrip

/-!
# Decodable bytes

`deserialize` and `deserialize_primary_key` on bytes that need not come from `serialize`: when they
return, and when they panic.

* `fixedOffset`, `variableOffset`, `storedLength`: where the values lie;
* `CellFits`: what reading or passing over a value needs; `HeaderReads`, `Decodable`, `KeyDecodable`;
* **`deserialize_returns_iff`**, **`deserializePrimaryKey_returns_iff`**: the decoders return on these
  bytes and on no others.
-/

namespace RarmDb

namespace RecordSerializer

/-! ## Where the values lie -/

section Layout

variable (columns : List ColumnDefinition) (bytes : Bytes)

/-- The length prefix at `offset`. -/
def storedLength (offset : ℕ) : Int32 := i32FromLeBytes ((bytes.drop offset).take 4)

/-- The bytes of fixed size that column `i` takes. -/
def fixedSizeAt (i : ℕ) : ℕ :=
  if nullBit bytes i then 0
  else (columns[i]?.bind fun col => col.dataType.getFixedSize).getD 0

/-- Where the value of column `i` lies, if it has a fixed size. -/
def fixedOffset : ℕ → ℕ
  | 0 => getNullBitmapSize columns
  | i + 1 => fixedOffset i + fixedSizeAt columns bytes i

/-- The bytes of variable size that column `i` takes at `offset`, with its length prefix. -/
def variableSizeAt (i offset : ℕ) : ℕ :=
  if nullBit bytes i || (columns[i]?.bind fun col => col.dataType.getFixedSize).isSome then 0
  else 4 + asUsize (storedLength bytes offset)

/-- Where the length prefix of column `i` lies, if its value has a variable size. -/
def variableOffset : ℕ → ℕ
  | 0 => fixedOffset columns bytes columns.length
  | i + 1 => variableOffset i + variableSizeAt columns bytes i (variableOffset i)

end Layout

/-- The column is a `VARCHAR`. -/
def isText (col : ColumnDefinition) : Bool :=
  match col.dataType with
  | .varchar _ => true
  | _ => false

/-- What it takes to pass over a stored value, and to read it if it is wanted. A negative length is a
huge number as a `usize`. -/
def CellFits (bytes : Bytes) (wanted : Prop) (col : ColumnDefinition)
    (fixedPos variablePos : ℕ) : Prop :=
  match col.dataType.getFixedSize with
  | some size => wanted → fixedPos + size ≤ bytes.length
  | none =>
    let length := asUsize (storedLength bytes variablePos)
    variablePos + 4 ≤ bytes.length ∧
      (storedLength bytes variablePos < 0 → variablePos + 4 + length < 2 ^ 64) ∧
      (wanted → variablePos + 4 + length ≤ bytes.length ∧
        (isText col = true → (fromUtf8 ((bytes.drop (variablePos + 4)).take length)).isSome = true))

/-- The null bitmap is there, and every stored column has a known type. -/
structure HeaderReads (columns : List ColumnDefinition) (bytes : Bytes) : Prop where
  bitmap : getNullBitmapSize columns ≤ bytes.length
  known : ∀ (i : ℕ) col, columns[i]? = some col → nullBit bytes i = false → col.dataType ≠ .unknown

/-- Every stored value up to the first null in a column that is not nullable can be read. -/
structure Decodable (columns : List ColumnDefinition) (bytes : Bytes) : Prop extends
    HeaderReads columns bytes where
  cells : ∀ (i : ℕ) col, columns[i]? = some col →
    (∀ (j : ℕ) c, j < i → columns[j]? = some c → nullBit bytes j = true → c.isNullable = true) →
    nullBit bytes i = false →
      CellFits bytes True col (fixedOffset columns bytes i) (variableOffset columns bytes i)

/-- The number of key columns among the first `i` columns. -/
def keyColsBefore (columns : List ColumnDefinition) (pk : List String) (i : ℕ) : ℕ :=
  (columns.take i).countP fun c => c.name ∈ pk

/-- Up to the last key column, or the first that is null, every stored key value can be read and the
other stored values can be passed over. -/
structure KeyDecodable (columns : List ColumnDefinition) (pk : List String) (bytes : Bytes) : Prop
    extends HeaderReads columns bytes where
  cells : ∀ (i : ℕ) col, columns[i]? = some col → keyColsBefore columns pk i < pk.length →
    (∀ (j : ℕ) c, j < i → columns[j]? = some c → nullBit bytes j = true → c.name ∉ pk) →
    nullBit bytes i = false →
      CellFits bytes (col.name ∈ pk) col (fixedOffset columns bytes i)
        (variableOffset columns bytes i)

/-! ## The null bitmap and the boundary -/

section Header

variable {columns : List ColumnDefinition} {bytes : Bytes}

theorem isColValueNull_take (hb : getNullBitmapSize columns ≤ bytes.length) {k : ℕ}
    (hk : k < columns.length) :
    isColValueNull (bytes.take (getNullBitmapSize columns)) k = .ret (nullBit bytes k) := by
  have hlt : k / 8 < getNullBitmapSize columns := by
    rw [getNullBitmapSize]
    omega
  have hbyte : (bytes.take (getNullBitmapSize columns)).getD (k / 8) 0 = bytes.getD (k / 8) 0 := by
    rw [List.getD_eq_getElem?_getD, List.getElem?_take_of_lt hlt, ← List.getD_eq_getElem?_getD]
  rw [isColValueNull_eq (by rw [List.length_take]; omega), nullBit, hbyte, ← nullBit]

theorem exists_drop_cons {k : ℕ} (hk : k < columns.length) :
    ∃ col, columns[k]? = some col ∧ columns.drop k = col :: columns.drop (k + 1) :=
  ⟨columns[k], List.getElem?_eq_getElem hk, List.drop_eq_getElem_cons hk⟩

theorem fixedOffset_succ_null {k : ℕ} (hnull : nullBit bytes k = true) :
    fixedOffset columns bytes (k + 1) = fixedOffset columns bytes k := by
  rw [fixedOffset, fixedSizeAt, if_pos hnull, Nat.add_zero]

theorem fixedOffset_succ {k : ℕ} {col : ColumnDefinition} (hcol : columns[k]? = some col)
    (hnull : nullBit bytes k = false) : fixedOffset columns bytes (k + 1) =
      fixedOffset columns bytes k + col.dataType.getFixedSize.getD 0 := by
  rw [fixedOffset, fixedSizeAt, if_neg (by rw [hnull]; exact Bool.false_ne_true), hcol]
  rfl

theorem variableOffset_succ_null {k : ℕ} (hnull : nullBit bytes k = true) :
    variableOffset columns bytes (k + 1) = variableOffset columns bytes k := by
  rw [variableOffset, variableSizeAt, hnull, Bool.true_or, if_pos rfl, Nat.add_zero]

theorem boundaryLoop_step (hb : getNullBitmapSize columns ≤ bytes.length) {k : ℕ}
    {col : ColumnDefinition} (hcol : columns[k]? = some col)
    (hdrop : columns.drop k = col :: columns.drop (k + 1)) :
    variableLengthDataOffsetLoop (bytes.take (getNullBitmapSize columns)) (columns.drop k) k
        (fixedOffset columns bytes k) =
      if nullBit bytes k = false ∧ col.dataType = .unknown then .panic
      else variableLengthDataOffsetLoop (bytes.take (getNullBitmapSize columns))
        (columns.drop (k + 1)) (k + 1) (fixedOffset columns bytes (k + 1)) := by
  have hk := (List.getElem?_eq_some_iff.mp hcol).1
  rw [hdrop, variableLengthDataOffsetLoop, isColValueNull_take hb hk, Exec.ret_bind]
  cases hnull : nullBit bytes k with
  | true => rw [if_pos rfl, if_neg (by simp), fixedOffset_succ_null hnull]
  | false =>
    rw [if_neg Bool.false_ne_true, fixedOffset_succ hcol hnull]
    obtain ⟨name, t, nullable⟩ := col
    cases t <;> rfl

/-- **The boundary is found** when every stored column has a known type. -/
theorem getVariableLengthDataOffset_eq_iff (hb : getNullBitmapSize columns ≤ bytes.length) {v : ℕ} :
    getVariableLengthDataOffset columns (bytes.take (getNullBitmapSize columns))
        (getNullBitmapSize columns) = .ret v ↔
      v = variableOffset columns bytes 0 ∧ ∀ (i : ℕ) col, columns[i]? = some col →
        nullBit bytes i = false → col.dataType ≠ .unknown := by
  have hloop : ∀ d k, k + d = columns.length →
      (variableLengthDataOffsetLoop (bytes.take (getNullBitmapSize columns)) (columns.drop k) k
        (fixedOffset columns bytes k) = .ret v ↔
      v = fixedOffset columns bytes columns.length ∧ ∀ i col, k ≤ i → columns[i]? = some col →
        nullBit bytes i = false → col.dataType ≠ .unknown) := by
    intro d
    induction d with
    | zero =>
      rintro k rfl
      rw [List.drop_length, variableLengthDataOffsetLoop, Exec.ret.injEq]
      refine ⟨fun h => ⟨h.symm, fun i col hi hcol => ?_⟩, fun h => h.1.symm⟩
      have hlt := (List.getElem?_eq_some_iff.mp hcol).1
      omega
    | succ d ih =>
      intro k hk
      have hlt : k < columns.length := by omega
      obtain ⟨col, hcol, hdrop⟩ := exists_drop_cons hlt
      rw [boundaryLoop_step hb hcol hdrop]
      split_ifs with hbad
      · refine iff_of_false (by simp) fun h => h.2 k col le_rfl hcol hbad.1 hbad.2
      · rw [ih (k + 1) (by omega)]
        refine and_congr_right fun _ => ⟨fun h i c hi hc hnull => ?_, fun h i c hi => h i c (by omega)⟩
        rcases hi.lt_or_eq with hi | rfl
        · exact h i c hi hc hnull
        · obtain rfl := Option.some.inj (hcol.symm.trans hc)
          exact fun hunknown => hbad ⟨hnull, hunknown⟩
  have h := hloop columns.length 0 (Nat.zero_add _)
  simp only [Nat.zero_le, true_implies] at h
  exact h

end Header

/-! ## One value -/

section Value

variable {D : Type} {col : ColumnDefinition} {bytes : Bytes}

theorem length_slice {lo n : ℕ} (h : lo + n ≤ bytes.length) :
    ((bytes.drop lo).take (lo + n - lo)).length = n := by
  rw [List.length_take, List.length_drop]
  omega

theorem readFixed_ok [RustDecimal D] {size pos : ℕ} (hsize : col.dataType.getFixedSize = some size)
    (h : pos + size ≤ bytes.length) :
    ∃ v : DataValue D, deserializeFixedSizedColValue col bytes pos size = .ret (.ok v) := by
  have hlen := length_slice h
  rw [deserializeFixedSizedColValue, sliceOf, if_pos ⟨Nat.le_add_right pos size, h⟩, Exec.ret_bind]
  generalize (bytes.drop pos).take (pos + size - pos) = data at hlen ⊢
  obtain ⟨name, t, nullable⟩ := col
  cases t <;> cases hsize
  case boolean =>
    obtain ⟨b, rfl⟩ := List.length_eq_one_iff.mp hlen
    exact ⟨_, rfl⟩
  case decimal => exact ⟨_, dif_pos hlen⟩
  all_goals
    dsimp only
    rw [tryInto, if_pos hlen]
    exact ⟨_, rfl⟩

theorem readFixed_panic [RustDecimal D] {size pos : ℕ} (h : ¬ pos + size ≤ bytes.length) :
    deserializeFixedSizedColValue (D := D) col bytes pos size = .panic := by
  rw [deserializeFixedSizedColValue, sliceOf, if_neg fun hs => h hs.2]
  rfl

theorem readLength {β : Type} (pos : ℕ) (k : Bytes × Bytes → Exec β) :
    (sliceOf bytes pos bytes.length >>= fun data => splitAt data 4 >>= k) =
      if pos + 4 ≤ bytes.length then k ((bytes.drop pos).take 4, bytes.drop (pos + 4)) else .panic := by
  by_cases hpos : pos ≤ bytes.length
  · rw [sliceOf, if_pos ⟨hpos, le_rfl⟩, Exec.ret_bind, List.take_of_length_le (by simp), splitAt,
      List.length_drop, List.drop_drop]
    split_ifs with h₁ h₂ h₂
    · rfl
    · omega
    · omega
    · rfl
  · rw [sliceOf, if_neg fun h => hpos h.1, if_neg (by omega)]
    rfl

theorem readVariable_ok (rest : Bytes) {n : Int32} (hknown : col.dataType ≠ .unknown)
    (hsize : col.dataType.getFixedSize = none) (h : asUsize n ≤ rest.length)
    (htext : isText col = true → (fromUtf8 (rest.take (asUsize n))).isSome = true) :
    ∃ v : DataValue D, deserializeVariableSizedColValue col rest n = .ret (.ok v) := by
  rw [deserializeVariableSizedColValue, sliceOf, if_pos ⟨Nat.zero_le _, h⟩, Exec.ret_bind,
    List.drop_zero, Nat.sub_zero]
  obtain ⟨name, t, nullable⟩ := col
  cases t <;> first | exact absurd rfl hknown | cases hsize
  case varchar =>
    obtain ⟨text, ht⟩ := Option.isSome_iff_exists.mp (htext rfl)
    dsimp only
    rw [ht]
    exact ⟨_, rfl⟩
  case blob => exact ⟨_, rfl⟩

theorem readVariable_panic {rest : Bytes} {n : Int32}
    (h : ¬ (asUsize n ≤ rest.length ∧
      (isText col = true → (fromUtf8 (rest.take (asUsize n))).isSome = true))) :
    deserializeVariableSizedColValue (D := D) col rest n = .panic := by
  rw [deserializeVariableSizedColValue, sliceOf]
  by_cases hfit : asUsize n ≤ rest.length
  · have htext : ¬ (isText col = true → (fromUtf8 (rest.take (asUsize n))).isSome = true) :=
      fun ht => h ⟨hfit, ht⟩
    obtain ⟨hcol, hnone⟩ := Classical.not_imp.mp htext
    rw [if_pos ⟨Nat.zero_le _, hfit⟩, Exec.ret_bind, List.drop_zero, Nat.sub_zero]
    obtain ⟨name, t, nullable⟩ := col
    cases t <;> cases hcol
    dsimp only
    rw [Option.not_isSome_iff_eq_none.mp hnone]
    rfl
  · rw [if_neg fun hs => hfit hs.2]
    rfl

/-- The cursor of the variable part after a stored value. -/
def variableAfter (col : ColumnDefinition) (bytes : Bytes) (pos : ℕ) : ℕ :=
  if col.dataType.getFixedSize.isSome then pos else pos + 4 + asUsize (storedLength bytes pos)

theorem advance_eq {pos : ℕ}
    (h : storedLength bytes pos < 0 → pos + 4 + asUsize (storedLength bytes pos) < 2 ^ 64) :
    advance (pos + 4) (storedLength bytes pos) =
      .ret (pos + 4 + asUsize (storedLength bytes pos)) := by
  rw [advance, if_neg]
  rintro ⟨hneg, hle⟩
  have := h hneg
  omega

theorem advance_panic {pos : ℕ}
    (h : ¬ (storedLength bytes pos < 0 → pos + 4 + asUsize (storedLength bytes pos) < 2 ^ 64)) :
    advance (pos + 4) (storedLength bytes pos) = .panic := by
  obtain ⟨hneg, hle⟩ := Classical.not_imp.mp h
  rw [advance, if_pos ⟨hneg, not_lt.mp hle⟩]

theorem length_rest_iff {pos n : ℕ} (h : pos + 4 ≤ bytes.length) :
    n ≤ (bytes.drop (pos + 4)).length ↔ pos + 4 + n ≤ bytes.length := by
  rw [List.length_drop]
  omega

theorem deserializeColValue_ok [RustDecimal D] (hknown : col.dataType ≠ .unknown) {f v : ℕ}
    (h : CellFits bytes True col f v) : ∃ value : DataValue D, deserializeColValue col bytes f v =
      .ret (value, f + col.dataType.getFixedSize.getD 0, variableAfter col bytes v) := by
  rw [deserializeColValue, PrimitiveDataType.isFixedSize_eq, variableAfter]
  rw [CellFits] at h
  cases hsize : col.dataType.getFixedSize with
  | some size =>
    rw [hsize] at h
    obtain ⟨value, hvalue⟩ := readFixed_ok (D := D) hsize (h trivial)
    refine ⟨value, ?_⟩
    rw [Option.isSome_some, if_pos rfl, Exec.unwrap_some, Exec.ret_bind, hvalue]
    rfl
  | none =>
    rw [hsize] at h
    obtain ⟨hsized, hover, hread⟩ := h
    obtain ⟨hfit, htext⟩ := hread trivial
    obtain ⟨value, hvalue⟩ := readVariable_ok (D := D) (bytes.drop (v + 4)) hknown hsize
      ((length_rest_iff hsized).mpr hfit) htext
    refine ⟨value, ?_⟩
    rw [Option.isSome_none, if_neg Bool.false_ne_true, readLength, if_pos hsized]
    dsimp only
    rw [← storedLength, hvalue, Exec.ret_bind, advance_eq hover]
    rfl

theorem deserializeColValue_panic [RustDecimal D] (hknown : col.dataType ≠ .unknown) {f v : ℕ}
    (h : ¬ CellFits bytes True col f v) :
    deserializeColValue (D := D) col bytes f v = .panic := by
  rw [deserializeColValue, PrimitiveDataType.isFixedSize_eq]
  rw [CellFits] at h
  cases hsize : col.dataType.getFixedSize with
  | some size =>
    rw [hsize] at h
    rw [Option.isSome_some, if_pos rfl, Exec.unwrap_some, Exec.ret_bind,
      readFixed_panic fun hfit => h fun _ => hfit]
    rfl
  | none =>
    rw [hsize] at h
    rw [Option.isSome_none, if_neg Bool.false_ne_true, readLength]
    split_ifs with hsized
    · dsimp only
      rw [← storedLength]
      by_cases hread : asUsize (storedLength bytes v) ≤ (bytes.drop (v + 4)).length ∧ (isText col = true →
          (fromUtf8 ((bytes.drop (v + 4)).take (asUsize (storedLength bytes v)))).isSome = true)
      · have hover : ¬ (storedLength bytes v < 0 →
            v + 4 + asUsize (storedLength bytes v) < 2 ^ 64) := fun hover =>
          h ⟨hsized, hover, fun _ => ⟨(length_rest_iff hsized).mp hread.1, hread.2⟩⟩
        obtain ⟨value, hvalue⟩ := readVariable_ok (D := D) _ hknown hsize hread.1 hread.2
        rw [hvalue, Exec.ret_bind, advance_panic hover]
        rfl
      · rw [readVariable_panic hread]
        rfl
    · rfl

end Value

/-! ## All values -/

section Record

variable {D : Type} [RustDecimal D] {columns : List ColumnDefinition} {bytes : Bytes}

theorem variableOffset_succ {k : ℕ} {col : ColumnDefinition} (hcol : columns[k]? = some col)
    (hnull : nullBit bytes k = false) : variableOffset columns bytes (k + 1) =
      variableAfter col bytes (variableOffset columns bytes k) := by
  rw [variableOffset, variableSizeAt, variableAfter, hcol, hnull, Option.bind_some, Bool.false_or]
  split_ifs
  · rfl
  · rw [Nat.add_assoc]

theorem deserializeLoop_step (hr : HeaderReads columns bytes) {k : ℕ} {col : ColumnDefinition}
    (hcol : columns[k]? = some col) (hdrop : columns.drop k = col :: columns.drop (k + 1)) :
    (deserializeLoop (D := D) (bytes.take (getNullBitmapSize columns)) bytes (columns.drop k) k
        (fixedOffset columns bytes k) (variableOffset columns bytes k)).Returns ↔
      (nullBit bytes k = false →
        CellFits bytes True col (fixedOffset columns bytes k) (variableOffset columns bytes k)) ∧
      ((nullBit bytes k = true → col.isNullable = true) →
        (deserializeLoop (D := D) (bytes.take (getNullBitmapSize columns)) bytes
          (columns.drop (k + 1)) (k + 1) (fixedOffset columns bytes (k + 1))
          (variableOffset columns bytes (k + 1))).Returns) := by
  have hk := (List.getElem?_eq_some_iff.mp hcol).1
  rw [hdrop, deserializeLoop, isColValueNull_take hr.bitmap hk, Exec.ret_bind]
  cases hnull : nullBit bytes k with
  | true =>
    rw [if_pos rfl, fixedOffset_succ_null hnull, variableOffset_succ_null hnull]
    split_ifs with hnullable
    · simp [Exec.returns_bind_ret, hnullable]
    · simp [hnullable, Exec.returns_ret]
  | false =>
    have hknown := hr.known k col hcol hnull
    rw [if_neg Bool.false_ne_true, fixedOffset_succ hcol hnull, variableOffset_succ hcol hnull]
    by_cases hfits : CellFits bytes True col (fixedOffset columns bytes k)
        (variableOffset columns bytes k)
    · obtain ⟨value, hvalue⟩ := deserializeColValue_ok (D := D) hknown hfits
      rw [hvalue, Exec.ret_bind]
      simp [Exec.returns_bind_ret, hfits]
    · rw [deserializeColValue_panic hknown hfits]
      simp [hfits, Exec.not_returns_panic]

theorem header_returns_iff {β : Type} {g : Bytes → ℕ → Exec β} :
    (do
      let nullBitmap ← sliceOf bytes 0 (getNullBitmapSize columns)
      let variableOffset ← getVariableLengthDataOffset columns nullBitmap (getNullBitmapSize columns)
      g nullBitmap variableOffset : Exec β).Returns ↔
    HeaderReads columns bytes ∧
      (g (bytes.take (getNullBitmapSize columns)) (variableOffset columns bytes 0)).Returns := by
  by_cases hb : getNullBitmapSize columns ≤ bytes.length
  · rw [sliceOf, if_pos ⟨Nat.zero_le _, hb⟩, Exec.ret_bind, List.drop_zero, Nat.sub_zero,
      Exec.returns_bind]
    constructor
    · rintro ⟨v, hv, hg⟩
      obtain ⟨rfl, hknown⟩ := (getVariableLengthDataOffset_eq_iff hb).mp hv
      exact ⟨⟨hb, hknown⟩, hg⟩
    · rintro ⟨hr, hg⟩
      exact ⟨_, (getVariableLengthDataOffset_eq_iff hb).mpr ⟨rfl, hr.known⟩, hg⟩
  · rw [sliceOf, if_neg fun h => hb h.2]
    exact iff_of_false Exec.not_returns_panic fun h => hb h.1.bitmap

/-- **`deserialize` returns on decodable bytes**, and on no others. -/
theorem deserialize_returns_iff :
    (deserialize (D := D) columns bytes).Returns ↔ Decodable columns bytes := by
  rw [deserialize, header_returns_iff]
  have hloop : HeaderReads columns bytes →
      ((deserializeLoop (D := D) (bytes.take (getNullBitmapSize columns)) bytes (columns.drop 0) 0
        (fixedOffset columns bytes 0) (variableOffset columns bytes 0)).Returns ↔ _) := fun hr =>
    forall_reached (n := columns.length)
      (P := fun k => (deserializeLoop (D := D) (bytes.take (getNullBitmapSize columns)) bytes
        (columns.drop k) k (fixedOffset columns bytes k) (variableOffset columns bytes k)).Returns)
      (C := fun k => ∀ col, columns[k]? = some col → nullBit bytes k = false →
        CellFits bytes True col (fixedOffset columns bytes k) (variableOffset columns bytes k))
      (G := fun k => ∀ col, columns[k]? = some col → nullBit bytes k = true → col.isNullable = true)
      (by rw [List.drop_length]; exact Exec.returns_ret _)
      (fun k hk => by
        obtain ⟨col, hcol, hdrop⟩ := exists_drop_cons hk
        rw [deserializeLoop_step hr hcol hdrop]
        simp [hcol])
  constructor
  · rintro ⟨hr, h⟩
    exact ⟨hr, fun i col hcol hreach hnull => (hloop hr).mp h i (List.getElem?_eq_some_iff.mp hcol).1
      (fun j hj c hc => hreach j c hj hc) col hcol hnull⟩
  · rintro ⟨hr, hcells⟩
    exact ⟨hr, (hloop hr).mpr fun i _ hreach col hcol hnull =>
      hcells i col hcol (fun j c hj hc => hreach j hj c hc) hnull⟩

end Record

/-! ## The values of the key -/

section Key

variable {D : Type} [RustDecimal D] {columns keyCols : List ColumnDefinition} {pk : List String}
  {bytes : Bytes}

theorem keyColsBefore_succ {k : ℕ} {col : ColumnDefinition} (hcol : columns[k]? = some col) :
    keyColsBefore columns pk (k + 1) = keyColsBefore columns pk k + if col.name ∈ pk then 1 else 0 := by
  rw [keyColsBefore, List.take_add_one, hcol, List.countP_append, keyColsBefore]
  by_cases h : col.name ∈ pk <;> simp [h]

theorem keyColsBefore_mono {j k : ℕ} (h : j ≤ k) :
    keyColsBefore columns pk j ≤ keyColsBefore columns pk k :=
  (List.take_sublist_take_left h).countP_le

/-- Reading a key value and going on, when what follows does not depend on the key values. -/
theorem readKeyValue_returns_iff {α β : Type} {value : Exec (Except SerializationError α)}
    {isKeyCol : Bool} {index : ℕ} {key : List α} {next : List α → Exec β} (key' : List α)
    (hnext : ∀ k k', (next k).Returns ↔ (next k').Returns) :
    ((if isKeyCol then do
        let value ← value
        let value ← Exec.unwrapResult value
        return key.set index value
      else pure key : Exec (List α)) >>= next).Returns ↔
      (isKeyCol = true → (value >>= Exec.unwrapResult).Returns) ∧ (next key').Returns := by
  cases isKeyCol with
  | false =>
    simp only [Bool.false_eq_true, if_false, false_implies, true_and]
    exact hnext _ _
  | true =>
    simp only [if_true, true_implies]
    cases value with
    | ret result =>
      cases result with
      | ok a => exact (hnext _ _).trans (and_iff_right (Exec.returns_ret a)).symm
      | error e => exact iff_of_false Exec.not_returns_panic fun h => Exec.not_returns_panic h.1
    | panic => exact iff_of_false Exec.not_returns_panic fun h => Exec.not_returns_panic h.1
    | diverge => exact iff_of_false Exec.not_returns_diverge fun h => Exec.not_returns_diverge h.1

theorem readKeyValue_returns_congr {α β : Type} {value : Exec (Except SerializationError α)}
    {isKeyCol : Bool} {index : ℕ} {key key' : List α} {next : List α → Exec β}
    (hnext : ∀ k k', (next k).Returns ↔ (next k').Returns) :
    ((if isKeyCol then do
        let value ← value
        let value ← Exec.unwrapResult value
        return key.set index value
      else pure key : Exec (List α)) >>= next).Returns ↔
    ((if isKeyCol then do
        let value ← value
        let value ← Exec.unwrapResult value
        return key'.set index value
      else pure key' : Exec (List α)) >>= next).Returns :=
  (readKeyValue_returns_iff key hnext).trans (readKeyValue_returns_iff key hnext).symm

/-- The key values found so far do not decide whether the loop returns. -/
theorem deserializeKeyLoop_returns_congr {bitmap : Bytes} {cols : List ColumnDefinition} {i f v n : ℕ}
    {key key' : Key D} :
    (deserializeKeyLoop keyCols bitmap bytes cols i ⟨key, f, v, n⟩).Returns ↔
      (deserializeKeyLoop keyCols bitmap bytes cols i ⟨key', f, v, n⟩).Returns := by
  induction cols generalizing i f v n key key' with
  | nil => exact iff_of_true (Exec.returns_ret _) (Exec.returns_ret _)
  | cons col cols ih =>
    rw [deserializeKeyLoop, deserializeKeyLoop]
    dsimp only
    by_cases hfound : n ≥ keyCols.length
    · rw [if_pos hfound, if_pos hfound]
      exact iff_of_true (Exec.returns_ret _) (Exec.returns_ret _)
    · rw [if_neg hfound, if_neg hfound]
      refine Exec.returns_bind_congr fun index => Exec.returns_bind_congr fun isNull => ?_
      by_cases hnull : isNull = true
      · rw [if_pos hnull, if_pos hnull]
        split_ifs
        · exact Iff.rfl
        · exact ih
      · rw [if_neg hnull, if_neg hnull]
        by_cases hfixed : col.isFixedType = true
        · rw [if_pos hfixed, if_pos hfixed]
          refine Exec.returns_bind_congr fun size => ?_
          exact readKeyValue_returns_congr fun _ _ => ih
        · rw [if_neg hfixed, if_neg hfixed]
          refine Exec.returns_bind_congr fun data => Exec.returns_bind_congr fun parts => ?_
          refine readKeyValue_returns_congr ?_
          exact fun _ _ => Exec.returns_bind_congr fun _ => ih

theorem readFixed_returns_iff {col : ColumnDefinition} {size pos : ℕ}
    (hsize : col.dataType.getFixedSize = some size) :
    (deserializeFixedSizedColValue (D := D) col bytes pos size >>= Exec.unwrapResult).Returns ↔
      pos + size ≤ bytes.length := by
  by_cases h : pos + size ≤ bytes.length
  · obtain ⟨value, hvalue⟩ := readFixed_ok (D := D) hsize h
    rw [hvalue]
    exact iff_of_true (Exec.returns_ret value) h
  · rw [readFixed_panic h]
    exact iff_of_false Exec.not_returns_panic h

omit [RustDecimal D] in
theorem readVariable_returns_iff {col : ColumnDefinition} {pos : ℕ} (hknown : col.dataType ≠ .unknown)
    (hsize : col.dataType.getFixedSize = none) (hsized : pos + 4 ≤ bytes.length) :
    (deserializeVariableSizedColValue (D := D) col (bytes.drop (pos + 4)) (storedLength bytes pos) >>=
        Exec.unwrapResult).Returns ↔
      pos + 4 + asUsize (storedLength bytes pos) ≤ bytes.length ∧ (isText col = true →
        (fromUtf8 ((bytes.drop (pos + 4)).take (asUsize (storedLength bytes pos)))).isSome = true) := by
  rw [← length_rest_iff hsized]
  by_cases h : asUsize (storedLength bytes pos) ≤ (bytes.drop (pos + 4)).length ∧ (isText col = true →
      (fromUtf8 ((bytes.drop (pos + 4)).take (asUsize (storedLength bytes pos)))).isSome = true)
  · obtain ⟨value, hvalue⟩ := readVariable_ok (D := D) _ hknown hsize h.1 h.2
    rw [hvalue]
    exact iff_of_true (Exec.returns_ret value) h
  · rw [readVariable_panic h]
    exact iff_of_false Exec.not_returns_panic h

omit [RustDecimal D] in
/-- A stored value of variable size is passed over, and read if it belongs to the key. -/
theorem variableCell_returns_iff {β : Type} {col : ColumnDefinition} {pos index : ℕ} {isKeyCol : Bool}
    (key : Key D) {next : Key D → ℕ → Exec β} (hknown : col.dataType ≠ .unknown)
    (hsize : col.dataType.getFixedSize = none)
    (hnext : ∀ k k' v, (next k v).Returns ↔ (next k' v).Returns) :
    (sliceOf bytes pos bytes.length >>= fun data => splitAt data 4 >>= fun parts => (if isKeyCol then do
        let value ← deserializeVariableSizedColValue col parts.2 (i32FromLeBytes parts.1)
        let value ← Exec.unwrapResult value
        return key.set index value
      else pure key : Exec (Key D)) >>= fun rowValues =>
        advance (pos + 4) (i32FromLeBytes parts.1) >>= next rowValues).Returns ↔
      (pos + 4 ≤ bytes.length ∧
        (storedLength bytes pos < 0 → pos + 4 + asUsize (storedLength bytes pos) < 2 ^ 64) ∧
        (isKeyCol = true → pos + 4 + asUsize (storedLength bytes pos) ≤ bytes.length ∧
          (isText col = true → (fromUtf8 ((bytes.drop (pos + 4)).take
            (asUsize (storedLength bytes pos)))).isSome = true))) ∧
        (next key (pos + 4 + asUsize (storedLength bytes pos))).Returns := by
  rw [readLength]
  by_cases hsized : pos + 4 ≤ bytes.length
  · rw [if_pos hsized]
    dsimp only
    rw [← storedLength, readKeyValue_returns_iff key
      (fun _ _ => Exec.returns_bind_congr fun v => hnext _ _ v),
      readVariable_returns_iff hknown hsize hsized]
    by_cases hover : storedLength bytes pos < 0 → pos + 4 + asUsize (storedLength bytes pos) < 2 ^ 64
    · rw [advance_eq hover, Exec.ret_bind, and_iff_right hsized, and_iff_right hover]
    · rw [advance_panic hover]
      exact iff_of_false (fun h => Exec.not_returns_panic h.2) fun h => hover h.1.2.1
  · rw [if_neg hsized]
    exact iff_of_false Exec.not_returns_panic fun h => hsized h.1.1

theorem deserializeKeyLoop_step (hr : HeaderReads columns bytes)
    (hpk : keyCols.map ColumnDefinition.name = pk) {k : ℕ} {col : ColumnDefinition}
    (hcol : columns[k]? = some col) (hdrop : columns.drop k = col :: columns.drop (k + 1))
    (key : Key D) :
    (deserializeKeyLoop keyCols (bytes.take (getNullBitmapSize columns)) bytes (columns.drop k) k
        ⟨key, fixedOffset columns bytes k, variableOffset columns bytes k,
          keyColsBefore columns pk k⟩).Returns ↔
      (keyColsBefore columns pk k < pk.length → nullBit bytes k = false →
        CellFits bytes (col.name ∈ pk) col (fixedOffset columns bytes k)
          (variableOffset columns bytes k)) ∧
      (keyColsBefore columns pk k < pk.length ∧ (nullBit bytes k = true → col.name ∉ pk) →
        (deserializeKeyLoop keyCols (bytes.take (getNullBitmapSize columns)) bytes
          (columns.drop (k + 1)) (k + 1) ⟨key, fixedOffset columns bytes (k + 1),
            variableOffset columns bytes (k + 1), keyColsBefore columns pk (k + 1)⟩).Returns) := by
  have hk := (List.getElem?_eq_some_iff.mp hcol).1
  have hlength : keyCols.length = pk.length := by rw [← hpk, List.length_map]
  have hcount : (if decide (col.name ∈ pk) = true then keyColsBefore columns pk k + 1
      else keyColsBefore columns pk k) = keyColsBefore columns pk (k + 1) := by
    rw [keyColsBefore_succ hcol]
    by_cases h : col.name ∈ pk <;> simp [h]
  obtain ⟨index, hindex, -⟩ := keyIndex_ret hpk col.name
  rw [hdrop, deserializeKeyLoop]
  dsimp only
  by_cases hfound : keyColsBefore columns pk k < pk.length
  · rw [if_neg (by omega), any_name hpk, hindex, Exec.ret_bind, hcount,
      isColValueNull_take hr.bitmap hk, Exec.ret_bind]
    cases hnull : nullBit bytes k with
    | true =>
      rw [if_pos rfl, fixedOffset_succ_null hnull, variableOffset_succ_null hnull]
      by_cases hkey : col.name ∈ pk
      · simp [hkey, Exec.returns_ret]
      · simp [hkey, hfound]
    | false =>
      have hknown := hr.known k col hcol hnull
      rw [if_neg Bool.false_ne_true, fixedOffset_succ hcol hnull, variableOffset_succ hcol hnull,
        variableAfter, CellFits]
      cases hsize : col.dataType.getFixedSize with
      | some size =>
        rw [if_pos (isFixedType_of_fixed hsize), Exec.unwrap_some, Exec.ret_bind,
          readKeyValue_returns_iff key fun _ _ => deserializeKeyLoop_returns_congr,
          readFixed_returns_iff hsize]
        simp [hfound]
      | none =>
        rw [isFixedType_of_variable hknown hsize, if_neg Bool.false_ne_true]
        refine (variableCell_returns_iff key hknown hsize ?_).trans ?_
        · exact fun k k' v => deserializeKeyLoop_returns_congr
        simp only [hfound, decide_eq_true_eq, Option.getD_none, Nat.add_zero, true_implies,
          Option.isSome_none, Bool.false_eq_true, if_false, false_implies, and_true]
  · rw [if_pos (by omega)]
    exact iff_of_true (Exec.returns_ret _)
      ⟨fun h => absurd h hfound, fun h => absurd h.1 hfound⟩

/-- **`deserialize_key` returns on these bytes**, and on no others. -/
theorem deserializeKey_returns_iff (hpk : keyCols.map ColumnDefinition.name = pk) :
    (deserializeKey (D := D) columns keyCols bytes).Returns ↔ KeyDecodable columns pk bytes := by
  rw [deserializeKey, ← getNullBitmapSize, header_returns_iff]
  have hloop : HeaderReads columns bytes →
      ((deserializeKeyLoop keyCols (bytes.take (getNullBitmapSize columns)) bytes (columns.drop 0) 0
        ⟨List.replicate keyCols.length (.null : DataValue D), fixedOffset columns bytes 0,
          variableOffset columns bytes 0, keyColsBefore columns pk 0⟩).Returns ↔ _) := fun hr =>
    forall_reached (n := columns.length)
      (P := fun k => (deserializeKeyLoop keyCols (bytes.take (getNullBitmapSize columns)) bytes
        (columns.drop k) k ⟨List.replicate keyCols.length (.null : DataValue D),
          fixedOffset columns bytes k, variableOffset columns bytes k,
          keyColsBefore columns pk k⟩).Returns)
      (C := fun k => ∀ col, columns[k]? = some col → keyColsBefore columns pk k < pk.length →
        nullBit bytes k = false → CellFits bytes (col.name ∈ pk) col (fixedOffset columns bytes k)
          (variableOffset columns bytes k))
      (G := fun k => keyColsBefore columns pk k < pk.length ∧
        ∀ col, columns[k]? = some col → nullBit bytes k = true → col.name ∉ pk)
      (by rw [List.drop_length]; exact Exec.returns_ret _)
      (fun k hk => by
        obtain ⟨col, hcol, hdrop⟩ := exists_drop_cons hk
        rw [deserializeKeyLoop_step hr hpk hcol hdrop]
        simp [hcol])
  constructor
  · rintro ⟨hr, h⟩
    refine ⟨hr, fun i col hcol hbefore hreach hnull => (hloop hr).mp h i
      (List.getElem?_eq_some_iff.mp hcol).1 (fun j hj => ⟨?_, fun c hc => hreach j c hj hc⟩) col hcol
      hbefore hnull⟩
    exact (keyColsBefore_mono hj.le).trans_lt hbefore
  · rintro ⟨hr, hcells⟩
    exact ⟨hr, (hloop hr).mpr fun i _ hreach col hcol hbefore hnull =>
      hcells i col hcol hbefore (fun j c hj hc => (hreach j hj).2 c hc) hnull⟩

/-- **`deserialize_primary_key` returns on these bytes**, and on no others. -/
theorem deserializePrimaryKey_returns_iff {td : TableDefinition}
    (hexist : ∀ pk, td.getPrimaryKey = some (.primaryKey pk) → ∀ n ∈ pk, n ∈ td.colNames) :
    (deserializePrimaryKey (D := D) td bytes).Returns ↔
      ∀ pk, td.getPrimaryKey = some (.primaryKey pk) → KeyDecodable td.columns pk bytes := by
  rw [deserializePrimaryKey]
  by_cases hpk : ∃ pk, td.getPrimaryKey = some (.primaryKey pk)
  · obtain ⟨pk, hpk⟩ := hpk
    obtain ⟨keyCols, hcols, hnames⟩ := TableDefinition.getPrimaryKeyColumns_of_exist hpk (hexist pk hpk)
    rw [hcols, Exec.ret_bind]
    dsimp only
    rw [deserializeKey_returns_iff hnames]
    refine ⟨fun h pk' hpk' => ?_, fun h => h pk hpk⟩
    cases Option.some.inj (hpk.symm.trans hpk')
    exact h
  · have hnone : td.getPrimaryKeyColumns = .ret none := by
      rw [TableDefinition.getPrimaryKeyColumns]
      split
      · exact absurd ⟨_, by assumption⟩ hpk
      · rfl
    rw [hnone]
    exact iff_of_true (Exec.returns_ret _) fun pk h => absurd ⟨pk, h⟩ hpk

end Key

/-- **The decoders return exactly on bytes that can be decoded**, and panic on all others. -/
theorem decoders_return_iff {D : Type} [RustDecimal D] (columns : List ColumnDefinition)
    (td : TableDefinition) (bytes : Bytes)
    (hexist : ∀ pk, td.getPrimaryKey = some (.primaryKey pk) → ∀ n ∈ pk, n ∈ td.colNames) :
    ((∃ result, deserialize (D := D) columns bytes = .ret result) ↔ Decodable columns bytes) ∧
      ((∃ result, deserializePrimaryKey (D := D) td bytes = .ret result) ↔
        ∀ pk, td.getPrimaryKey = some (.primaryKey pk) → KeyDecodable td.columns pk bytes) :=
  ⟨deserialize_returns_iff, deserializePrimaryKey_returns_iff hexist⟩

/-- A table with one column, which is its key. -/
def keyTable (type : PrimitiveDataType) : TableDefinition where
  columns := [⟨"id", type, false⟩]
  constraints := [.primaryKey ["id"]]

theorem keyTable_exist (type : PrimitiveDataType) (pk : List String)
    (h : (keyTable type).getPrimaryKey = some (.primaryKey pk)) :
    ∀ n ∈ pk, n ∈ (keyTable type).colNames := by
  have hpk : (keyTable type).getPrimaryKey = some (.primaryKey ["id"]) := rfl
  cases Option.some.inj (hpk.symm.trans h)
  exact fun n hn => hn

/-- Four bytes of an `Int` can be decoded, three cannot. -/
theorem decoders_return_iff_int : Decodable (keyTable .int).columns [0, 7, 0, 0, 0] ∧
    ¬ Decodable (keyTable .int).columns [0, 7, 0, 0] ∧
      KeyDecodable (keyTable .int).columns ["id"] [0, 7, 0, 0, 0] := by
  have hfull := decoders_return_iff (D := Decimal96) (keyTable .int).columns (keyTable .int)
    [0, 7, 0, 0, 0] (keyTable_exist .int)
  have hshort := decoders_return_iff (D := Decimal96) (keyTable .int).columns (keyTable .int)
    [0, 7, 0, 0] (keyTable_exist .int)
  have hpanic : deserialize (D := Decimal96) (keyTable .int).columns [0, 7, 0, 0] = .panic := by decide
  refine ⟨hfull.1.mp ⟨.ok [.int 7], by decide⟩, fun h => ?_,
    hfull.2.mp ⟨.ok [.int 7], by decide⟩ _ rfl⟩
  obtain ⟨result, hresult⟩ := hshort.1.mpr h
  rw [hpanic] at hresult
  cases hresult

/-- A truncated record, a negative length, a text that is no UTF-8 and a column of unknown type. -/
theorem decoders_panic_on_corrupted_bytes :
    deserialize (D := Decimal96) (keyTable .int).columns [0, 7, 0, 0] = .panic ∧
      deserialize (D := Decimal96) (keyTable (.varchar 20)).columns [0, 255, 255, 255, 255] = .panic ∧
      deserialize (D := Decimal96) (keyTable (.varchar 20)).columns [0, 1, 0, 0, 0, 255] = .panic ∧
      deserialize (D := Decimal96) (keyTable .unknown).columns [0] = .panic ∧
      deserializePrimaryKey (D := Decimal96) (keyTable .int) [0, 7, 0, 0] = .panic := by
  decide +kernel

end RecordSerializer

end RarmDb
