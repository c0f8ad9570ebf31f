import RarmDb.Record.RoundTrip

/-!
# The two ways to a key

`get_primary_key` takes the key from a record in memory, `deserialize_primary_key` from its bytes.

* `KeysAgree`: both give the values of the key columns, in the order of the key;
* **`keysAgree_iff`**: the first panics unless the key lists its columns in column order; then both
  agree, up to the length of texts and blobs;
* `VariantOrNull`; **`deserializePrimaryKey_serialize`**: the key of every record that can be written;
* `longBlob_unreadable`: the length of a text or a blob is stored as an `i32`.
-/

namespace RarmDb

open RecordSerializer

variable {D : Type} [RustDecimal D]

/-- Both functions give the values of the key columns, in the order of the key. -/
def KeysAgree (td : TableDefinition) (pk : List String) (record : Record D) : Prop :=
  record.getPrimaryKey td = .ret (keyOf td pk record) ∧
    ∃ bytes, serialize td.columns record = .ret (.ok bytes) ∧
      deserializePrimaryKey td bytes = .ret (.ok (keyOf td pk record))

/-- **The two ways to a key agree only for keys in column order.** They do then, when the texts and
blobs up to the last key column have lengths that are `i32`. -/
theorem keysAgree_iff [DecimalCodec D] {td : TableDefinition} {pk : List String} (hk : td.Keyed pk)
    {record : Record D} (h : WellTyped td.columns record)
    (hkey : ∀ v ∈ keyOf td pk record, v ≠ .null) :
    (KeysAgree td pk record → pk.Sublist td.colNames) ∧
      (ShortUpToKey pk td.columns record →
        (KeysAgree td pk record ↔ pk.Sublist td.colNames)) := by
  have horder : KeysAgree td pk record → pk.Sublist td.colNames := fun hagree =>
    (Record.keyInOrder_of_getPrimaryKey hk hagree.1).inOrder
  refine ⟨horder, fun hshort => ⟨horder, fun hsub => ⟨?_, _, serialize_eq h, ?_⟩⟩⟩
  · exact Record.getPrimaryKey_eq ⟨hk.getPrimaryKey_eq, hk.names, hsub⟩ h.length_eq
  · rw [deserializePrimaryKey_encode hk h hshort, if_neg]
    rw [List.any_eq_true]
    rintro ⟨v, hv, hnull⟩
    exact hkey v hv (DataValue.isNull_iff.mp hnull)

/-- The lines of an order, keyed by both columns. -/
def lineTable (pk : List String) : TableDefinition where
  columns := [⟨"order_id", .int, false⟩, ⟨"line", .int, false⟩]
  constraints := [.primaryKey pk]

/-- A line. -/
def line (orderId line : Int32) : Record Decimal96 := [.int orderId, .int line]

theorem line_wellTyped (pk : List String) (orderId i : Int32) :
    WellTyped (lineTable pk).columns (line orderId i) := by
  repeat' first | exact .inr trivial | constructor

theorem keysAgree_iff_lines :
    KeysAgree (lineTable ["order_id", "line"]) ["order_id", "line"] (line 7 1) :=
  ((keysAgree_iff ⟨rfl, by decide, by decide, by decide⟩ (line_wellTyped _ 7 1)
    (by simp [keyOf, valueOf, lineTable, line])).2
      ⟨fun _ => by decide, fun _ => by decide, trivial⟩).mpr (by decide)

/-- Listing the second column first makes `get_primary_key` panic. -/
theorem getPrimaryKey_panics_on_lines :
    (lineTable ["line", "order_id"]).Keyed ["line", "order_id"] ∧
      WellTyped (lineTable ["line", "order_id"]).columns (line 7 1) ∧
        keyOf (lineTable ["line", "order_id"]) ["line", "order_id"] (line 7 1) = [.int 1, .int 7] ∧
          (line 7 1).getPrimaryKey (lineTable ["line", "order_id"]) = .panic :=
  ⟨⟨rfl, by decide, by decide, by decide⟩, line_wellTyped _ 7 1, by decide, by decide⟩

/-! ## Partial decoding -/

/-- One value per column: null, or a value of the column's variant. -/
def VariantOrNull (columns : List ColumnDefinition) (record : Record D) : Prop :=
  List.Forall₂ (fun col v => v = .null ∨ v.HasVariant col.dataType) columns record

theorem VariantOrNull.keyReadable {columns : List ColumnDefinition} {record : Record D}
    (h : VariantOrNull columns record) (pk : List String) :
    List.Forall₂ (KeyReadable pk) columns record := by
  refine h.imp fun col v hv => ?_
  rcases hv with rfl | hv
  · exact ⟨.inl rfl, fun _ hnull => (by cases hnull)⟩
  · refine ⟨.inr ⟨fits_of_hasVariant hv, fun hunknown => ?_⟩, fun _ _ => hv⟩
    rw [hunknown] at hv
    cases v <;> exact hv

/-- **The key is decoded from the written record**: null in a key column is an error, and otherwise the
`j`-th value is the one in the `j`-th key column. Texts and blobs up to the last key column have
lengths that are `i32`. -/
theorem deserializePrimaryKey_serialize [DecimalCodec D] {td : TableDefinition} {pk : List String}
    (hk : td.Keyed pk) {record : Record D} (h : VariantOrNull td.columns record)
    (hshort : ShortUpToKey pk td.columns record) :
    ∃ bytes, serialize td.columns record = .ret (.ok bytes) ∧
      (deserializePrimaryKey (D := D) td bytes = .ret (.error .nullPrimaryKeyColumnValue) ↔
        ∃ n ∈ pk, valueOf td.columns record n = .null) ∧
      ((∀ n ∈ pk, valueOf td.columns record n ≠ .null) →
        deserializePrimaryKey td bytes = .ret (.ok (pk.map (valueOf td.columns record)))) := by
  have hstores : ∀ c ∈ td.columns.zip record, Stores c.1 c.2 := fun c hc =>
    ((List.forall₂_iff_zip.mp (h.keyReadable pk)).2 hc).1.stores
  have hkey := deserializePrimaryKey_encodeAs hk (h.keyReadable pk) hshort
  have hnull : (keyOf td pk record).any DataValue.isNull = true ↔
      ∃ n ∈ pk, valueOf td.columns record n = .null := by
    rw [keyOf, List.any_map, List.any_eq_true]
    simp only [Function.comp_apply, DataValue.isNull_iff]
  refine ⟨_, serialize_of_stores h.length_eq.symm hstores, ?_, fun hall => ?_⟩
  · rw [hkey, ← hnull]
    split_ifs with hany
    · simp [hany]
    · simp [hany]
  · rw [hkey, if_neg]
    · rfl
    · rw [hnull]
      rintro ⟨n, hn, hnull⟩
      exact hall n hn hnull

/-- The key lists the second column first. -/
theorem deserializePrimaryKey_serialize_lines :
    ∃ bytes, serialize (lineTable ["line", "order_id"]).columns (line 7 1) = .ret (.ok bytes) ∧
      deserializePrimaryKey (lineTable ["line", "order_id"]) bytes =
        .ret (.ok ([.int 1, .int 7] : Key Decimal96)) := by
  have hrecord : VariantOrNull (lineTable ["line", "order_id"]).columns (line 7 1) := by
    repeat' first | exact .inr trivial | constructor
  have hkeyed : (lineTable ["line", "order_id"]).Keyed ["line", "order_id"] :=
    ⟨rfl, by decide, by decide, by decide⟩
  obtain ⟨bytes, hbytes, -, hkey⟩ := deserializePrimaryKey_serialize hkeyed hrecord
    ⟨fun _ => by decide, fun _ => by decide, trivial⟩
  exact ⟨bytes, hbytes, hkey (by decide)⟩

/-- A table of blobs that are their own keys. -/
def blobTable : TableDefinition where
  columns := [⟨"data", .blob 4294967295, false⟩]
  constraints := [.primaryKey ["data"]]

omit [RustDecimal D] in
/-- A length of `2 ^ 31` reads as a negative number, and the range of the data as out of bounds. -/
theorem deserializeVariableSizedColValue_long {col : ColumnDefinition} {data : Bytes}
    (hlen : data.length = 2 ^ 31) :
    deserializeVariableSizedColValue (D := D) col data (i32FromLeBytes (leBytes 4 (2 ^ 31))) = .panic := by
  have hsize : asUsize (i32FromLeBytes (leBytes 4 (2 ^ 31))) = 2 ^ 64 - 2 ^ 31 := by decide
  rw [deserializeVariableSizedColValue, hsize, sliceOf, if_neg (by rw [hlen]; decide), Exec.panic_bind]

theorem deserializePrimaryKey_of_panic {size data : Bytes} (hsize : size.length = 4)
    (hread : ∀ col, deserializeVariableSizedColValue (D := Decimal96) col data (i32FromLeBytes size) =
      .panic) : deserializePrimaryKey (D := Decimal96) blobTable (0 :: (size ++ data)) = .panic := by
  have hbitmap : sliceOf (0 :: (size ++ data)) 0 1 = .ret [0] := sliceOf_zero (a := [0]) rfl
  have hslice : sliceOf (0 :: (size ++ data)) 1 (0 :: (size ++ data)).length = .ret (size ++ data) := by
    rw [sliceOf, if_pos ⟨by simp, le_rfl⟩, List.drop_one, List.tail_cons, List.length_cons,
      Nat.add_sub_cancel, List.take_length]
  have hsplit : splitAt (size ++ data) 4 = .ret (size, data) := by
    rw [splitAt, if_pos (by rw [List.length_append]; omega), List.take_left' hsize,
      List.drop_left' hsize]
  rw [deserializePrimaryKey, show blobTable.getPrimaryKeyColumns = .ret (some blobTable.columns) from rfl,
    Exec.ret_bind]
  dsimp only
  rw [deserializeKey, show (blobTable.columns.length + 7) / 8 = 1 from rfl, hbitmap, Exec.ret_bind,
    show getVariableLengthDataOffset blobTable.columns [0] 1 = .ret 1 from rfl, Exec.ret_bind,
    blobTable, deserializeKeyLoop, if_neg (by decide),
    show isColValueNull [0] 0 = .ret false from rfl]
  simp only [List.any_cons, decide_true, Bool.true_or, if_true, ColumnDefinition.isFixedType, hslice,
    hsplit, hread, Exec.ret_bind, Exec.panic_bind, Bool.false_eq_true, if_false]
  rfl

/-- A blob of `2 ^ 31` bytes is written, and its key cannot be read. -/
theorem longBlob_unreadable :
    blobTable.Keyed ["data"] ∧
      VariantOrNull blobTable.columns ([.blob (List.replicate (2 ^ 31) 0)] : Record Decimal96) ∧
      ∃ bytes, serialize blobTable.columns ([.blob (List.replicate (2 ^ 31) 0)] : Record Decimal96) =
          .ret (.ok bytes) ∧
        deserializePrimaryKey (D := Decimal96) blobTable bytes = .panic := by
  have hlen : (List.replicate (2 ^ 31) (0 : UInt8)).length = 2 ^ 31 := List.length_replicate
  generalize List.replicate (2 ^ 31) (0 : UInt8) = data at hlen ⊢
  have hrecord : WellTyped blobTable.columns ([.blob data] : Record Decimal96) :=
    .cons (.inr trivial) .nil
  have hbitmap : nullBitmap ([.blob data] : Record Decimal96) = [0] := by
    simp [nullBitmap, markNulls, DataValue.isNull]
  have hfixed : fixedPart ([.blob data] : Record Decimal96) = [] := rfl
  have hbytes : encode ([.blob data] : Record Decimal96) = 0 :: (leBytes 4 (2 ^ 31) ++ data) := by
    rw [encode, hbitmap, hfixed, variablePart_cons, variableBytes, hlen, variablePart, List.flatMap_nil,
      List.append_nil, List.append_nil, List.singleton_append]
  refine ⟨⟨rfl, by decide, by decide, by decide⟩, .cons (.inr trivial) .nil, _, serialize_eq hrecord, ?_⟩
  rw [hbytes]
  exact deserializePrimaryKey_of_panic (length_leBytes ..) fun _ =>
    deserializeVariableSizedColValue_long hlen

end RarmDb
