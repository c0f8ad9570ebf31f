import RarmDb.Data.Record

/-!
# The record serializer

`record_serializer.rs`, as functions on byte strings. A record is a null bitmap, the values of fixed
size, and the values of variable size with their lengths.

* `calculateSerializedRecordSize`, `serialize`: two passes over the columns;
* `getVariableLengthDataOffset`, `deserialize`: the boundary from the null bitmap, then one pass;
* `deserializeKey`, `deserializePrimaryKey`: only the values of the key columns.
-/

namespace RarmDb

/-- `SerializationError`. -/
inductive SerializationError
  | dataTypeMismatch
  | primaryKeyNotFound
  | nullPrimaryKeyColumnValue
  | nullValueForNonNullColumnFound
  deriving DecidableEq

namespace RecordSerializer

variable {D : Type} [RustDecimal D]

/-- `get_null_bitmap_size`. -/
def getNullBitmapSize (columns : List ColumnDefinition) : ℕ := (columns.length + 7) / 8

/-- `is_col_value_null`. -/
def isColValueNull (nullBitmap : Bytes) (index : ℕ) : Exec Bool := do
  let nullBitmapByte ← byteAt nullBitmap (index / 8)
  return nullBitmapByte &&& (1 <<< UInt8.ofNat (index % 8)) != 0

/-! ## Serializing -/

/-- The sizes that the first pass collects. -/
structure RecordSize where
  totalRecordSize : ℕ
  fixedLengthSize : ℕ
  variableLengthSizes : List ℕ

/-- What one column adds. A value that does not fit a column of variable size adds its length
prefix only. -/
def RecordSize.addColumn (s : RecordSize) (col : ColumnDefinition) (value : DataValue D) :
    RecordSize :=
  if value.isNull then s
  else
    match col.dataType.getFixedSize with
    | some fixedSize =>
      { s with
        totalRecordSize := s.totalRecordSize + fixedSize
        fixedLengthSize := s.fixedLengthSize + fixedSize }
    | none =>
      match value with
      | .blob val =>
        { s with
          totalRecordSize := s.totalRecordSize + 4 + val.length
          variableLengthSizes := s.variableLengthSizes ++ [val.length] }
      | .text val =>
        { s with
          totalRecordSize := s.totalRecordSize + 4 + (asBytes val).length
          variableLengthSizes := s.variableLengthSizes ++ [(asBytes val).length] }
      | _ => { s with totalRecordSize := s.totalRecordSize + 4 }

/-- The first pass, over the columns still to come. -/
def sizeLoop : List ColumnDefinition → List (DataValue D) → RecordSize → Exec RecordSize
  | [], _, s => .ret s
  | _ :: _, [], _ => .panic
  | col :: cols, v :: values, s => sizeLoop cols values (s.addColumn col v)

/-- `calculate_serialized_record_size`. -/
def calculateSerializedRecordSize (columns : List ColumnDefinition) (record : Record D) :
    Exec RecordSize :=
  sizeLoop columns record ⟨getNullBitmapSize columns, 0, []⟩

/-- The bytes of the record and the cursors of the second pass. -/
structure WriteState where
  bytes : Bytes
  currentFixedOffset : ℕ
  currentVariableOffset : ℕ
  variableLengthColIndex : ℕ

/-- Set the bit of column `i` in the null bitmap. -/
def setNullBit (bytes : Bytes) (i : ℕ) : Exec Bytes := do
  let byte ← byteAt bytes (i / 8)
  setByte bytes (i / 8) (byte ||| (1 <<< UInt8.ofNat (i % 8)))

/-- Write a value of fixed size at `offset`. -/
def writeFixed (bytes : Bytes) (offset fixedSize : ℕ) :
    DataValue D → Exec (Except SerializationError Bytes)
  | .bigInt val => .ok <$> copyInto bytes offset (offset + fixedSize) (leBytes 8 val.toUInt64.toNat)
  | .boolean val => .ok <$> setByte bytes offset (if val then 1 else 0)
  | .dateTime val =>
    .ok <$> copyInto bytes offset (offset + fixedSize) (leBytes 8 val.toUInt64.toNat)
  | .decimal val =>
    .ok <$> copyInto bytes offset (offset + fixedSize) (RustDecimal.serialize val).toList
  | .float val => .ok <$> copyInto bytes offset (offset + fixedSize) (leBytes 8 val.bits.toNat)
  | .int val => .ok <$> copyInto bytes offset (offset + fixedSize) (leBytes 4 val.toUInt32.toNat)
  | _ => .ret (.error .dataTypeMismatch)

/-- Write the length, as an `i32`, and the bytes of a value of variable size. -/
def writeLengthAndData (bytes : Bytes) (lengthOffset variableLength : ℕ) (data : Bytes) :
    Exec (Except SerializationError Bytes) := do
  let dataOffset := lengthOffset + 4
  let bytes ← copyInto bytes lengthOffset (lengthOffset + 4) (leBytes 4 variableLength)
  let bytes ← copyInto bytes dataOffset (dataOffset + variableLength) data
  return .ok bytes

/-- Write a value of variable size at `offset`. -/
def writeVariable (bytes : Bytes) (offset variableLength : ℕ) :
    DataValue D → Exec (Except SerializationError Bytes)
  | .blob val => writeLengthAndData bytes offset variableLength val
  | .text val => writeLengthAndData bytes offset variableLength (asBytes val)
  | _ => .ret (.error .dataTypeMismatch)

/-- One turn of the second pass. -/
def writeColumn (variableLengthSizes : List ℕ) (s : WriteState) (i : ℕ) (col : ColumnDefinition)
    (value : DataValue D) : Exec (Except SerializationError WriteState) :=
  if value.isNull then do
    let bytes ← setNullBit s.bytes i
    return .ok { s with bytes }
  else
    match col.dataType.getFixedSize with
    | some fixedSize => do
      let result ← writeFixed s.bytes s.currentFixedOffset fixedSize value
      return result.map fun bytes =>
        { s with bytes, currentFixedOffset := s.currentFixedOffset + fixedSize }
    | none => do
      let variableLength ← Exec.unwrap variableLengthSizes[s.variableLengthColIndex]?
      let result ← writeVariable s.bytes s.currentVariableOffset variableLength value
      return result.map fun bytes =>
        { s with
          bytes
          variableLengthColIndex := s.variableLengthColIndex + 1
          currentVariableOffset := s.currentVariableOffset + (4 + variableLength) }

/-- The second pass, over the columns and values still to come. -/
def serializeLoop (variableLengthSizes : List ℕ) :
    List (ColumnDefinition × DataValue D) → ℕ → WriteState →
      Exec (Except SerializationError WriteState)
  | [], _, s => .ret (.ok s)
  | (col, value) :: rest, i, s => do
    let result ← writeColumn variableLengthSizes s i col value
    match result with
    | .error e => return .error e
    | .ok s => serializeLoop variableLengthSizes rest (i + 1) s

/-- `serialize`. -/
def serialize (columns : List ColumnDefinition) (record : Record D) :
    Exec (Except SerializationError Bytes) := do
  let nullBitmapSize := getNullBitmapSize columns
  let size ← calculateSerializedRecordSize columns record
  let bytes := List.replicate size.totalRecordSize 0
  let result ← serializeLoop size.variableLengthSizes (columns.zip record) 0
    ⟨bytes, nullBitmapSize, nullBitmapSize + size.fixedLengthSize, 0⟩
  return result.map WriteState.bytes

/-! ## Deserializing -/

/-- `bytes.try_into().unwrap()` for an array of `w` bytes. -/
def tryInto (w : ℕ) (bytes : Bytes) : Exec Bytes := if bytes.length = w then .ret bytes else .panic

/-- `bytes.split_at(mid)`. -/
def splitAt (bytes : Bytes) (mid : ℕ) : Exec (Bytes × Bytes) :=
  if mid ≤ bytes.length then .ret (bytes.take mid, bytes.drop mid) else .panic

/-- `i32::from_le_bytes`. -/
def i32FromLeBytes (bytes : Bytes) : Int32 := (UInt32.ofNat (ofLeBytes bytes)).toInt32

/-- `i64::from_le_bytes`. -/
def i64FromLeBytes (bytes : Bytes) : Int64 := (UInt64.ofNat (ofLeBytes bytes)).toInt64

/-- `n as usize`, which extends the sign. -/
def asUsize (n : Int32) : ℕ := (n.toInt % 2 ^ 64).toNat

/-- `offset += n as usize`. A negative `n` reads as a huge number, and the addition may overflow. -/
def advance (offset : ℕ) (n : Int32) : Exec ℕ :=
  if n < 0 ∧ 2 ^ 64 ≤ offset + asUsize n then .panic else .ret (offset + asUsize n)

/-- `deserialize_fixed_sized_col_value`. -/
def deserializeFixedSizedColValue (col : ColumnDefinition) (bytes : Bytes)
    (currentFixedSizedDataOffset dataSize : ℕ) :
    Exec (Except SerializationError (DataValue D)) := do
  let dataValue ← sliceOf bytes currentFixedSizedDataOffset (currentFixedSizedDataOffset + dataSize)
  match col.dataType with
  | .bigInt => do
    let arr ← tryInto 8 dataValue
    return .ok (.bigInt (i64FromLeBytes arr))
  | .boolean => do
    let val ← byteAt dataValue 0
    return .ok (.boolean (val != 0))
  | .dateTime => do
    let arr ← tryInto 8 dataValue
    return .ok (.dateTime (i64FromLeBytes arr))
  | .decimal _ _ =>
    if h : dataValue.length = 16 then
      return .ok (.decimal (RustDecimal.deserialize ⟨dataValue.toArray, h⟩))
    else return .error .dataTypeMismatch
  | .float => do
    let arr ← tryInto 8 dataValue
    return .ok (.float ⟨UInt64.ofNat (ofLeBytes arr)⟩)
  | .int => do
    let arr ← tryInto 4 dataValue
    return .ok (.int (i32FromLeBytes arr))
  | _ => return .error .dataTypeMismatch

/-- `deserialize_variable_sized_col_value`. -/
def deserializeVariableSizedColValue (col : ColumnDefinition) (bytes : Bytes) (dataSize : Int32) :
    Exec (Except SerializationError (DataValue D)) := do
  let dataBytes ← sliceOf bytes 0 (asUsize dataSize)
  match col.dataType with
  | .blob _ => return .ok (.blob dataBytes)
  | .varchar _ => do
    let text ← Exec.unwrap (fromUtf8 dataBytes)
    return .ok (.text text)
  | _ => return .error .dataTypeMismatch

/-- `deserialize_col_value`: the value and the two cursors after it. -/
def deserializeColValue (col : ColumnDefinition) (bytes : Bytes)
    (currentFixedSizedDataOffset currentVariableSizedDataOffset : ℕ) :
    Exec (DataValue D × ℕ × ℕ) :=
  if col.dataType.isFixedSize then do
    let dataSize ← Exec.unwrap col.dataType.getFixedSize
    let rowValue ← deserializeFixedSizedColValue col bytes currentFixedSizedDataOffset dataSize
    let value ← Exec.unwrapResult rowValue
    return (value, currentFixedSizedDataOffset + dataSize, currentVariableSizedDataOffset)
  else do
    let variableDataBytes ← sliceOf bytes currentVariableSizedDataOffset bytes.length
    let (dataSizeBytes, rest) ← splitAt variableDataBytes 4
    let dataSize := i32FromLeBytes dataSizeBytes
    let rowValue ← deserializeVariableSizedColValue col rest dataSize
    let currentVariableSizedDataOffset ← advance (currentVariableSizedDataOffset + 4) dataSize
    let value ← Exec.unwrapResult rowValue
    return (value, currentFixedSizedDataOffset, currentVariableSizedDataOffset)

/-- The loop of `get_variable_length_data_offset`, over the columns still to come. -/
def variableLengthDataOffsetLoop (nullBitmap : Bytes) : List ColumnDefinition → ℕ → ℕ → Exec ℕ
  | [], _, offset => .ret offset
  | col :: cols, i, offset => do
    let isNull ← isColValueNull nullBitmap i
    if isNull then variableLengthDataOffsetLoop nullBitmap cols (i + 1) offset
    else if col.isFixedType then do
      let dataSize ← Exec.unwrap col.dataType.getFixedSize
      variableLengthDataOffsetLoop nullBitmap cols (i + 1) (offset + dataSize)
    else variableLengthDataOffsetLoop nullBitmap cols (i + 1) offset

/-- `get_variable_length_data_offset`. -/
def getVariableLengthDataOffset (columns : List ColumnDefinition) (nullBitmap : Bytes)
    (nullBitmapSize : ℕ) : Exec ℕ :=
  variableLengthDataOffsetLoop nullBitmap columns 0 nullBitmapSize

/-- The loop of `deserialize`: the values of the columns still to come. -/
def deserializeLoop (nullBitmap bytes : Bytes) : List ColumnDefinition → ℕ → ℕ → ℕ →
    Exec (Except SerializationError (List (DataValue D)))
  | [], _, _, _ => .ret (.ok [])
  | col :: cols, i, fixedOffset, variableOffset => do
    let isNull ← isColValueNull nullBitmap i
    if isNull then
      if col.isNullable then do
        let rest ← deserializeLoop nullBitmap bytes cols (i + 1) fixedOffset variableOffset
        return rest.map fun values => .null :: values
      else return .error .nullValueForNonNullColumnFound
    else do
      let (value, fixedOffset, variableOffset) ←
        deserializeColValue col bytes fixedOffset variableOffset
      let rest ← deserializeLoop nullBitmap bytes cols (i + 1) fixedOffset variableOffset
      return rest.map fun values => value :: values

/-- `deserialize`. -/
def deserialize (columns : List ColumnDefinition) (bytes : Bytes) :
    Exec (Except SerializationError (Record D)) := do
  let nullBitmapSize := getNullBitmapSize columns
  let nullBitmap ← sliceOf bytes 0 nullBitmapSize
  let variableOffset ← getVariableLengthDataOffset columns nullBitmap nullBitmapSize
  deserializeLoop nullBitmap bytes columns 0 nullBitmapSize variableOffset

/-! ## Deserializing a key -/

/-- The key values found so far, the two cursors, and the number of key columns found. -/
structure KeyState (D : Type) where
  rowValues : Key D
  currentFixedOffset : ℕ
  currentVariableOffset : ℕ
  keyColsFound : ℕ

/-- The loop of `deserialize_key`, over the columns still to come. -/
def deserializeKeyLoop (keyCols : List ColumnDefinition) (nullBitmap recordBytes : Bytes) :
    List ColumnDefinition → ℕ → KeyState D → Exec (Except SerializationError (Key D))
  | [], _, s => .ret (.ok s.rowValues)
  | col :: cols, i, s =>
    if s.keyColsFound ≥ keyCols.length then .ret (.ok s.rowValues)
    else do
      let isKeyCol := keyCols.any fun c => c.name = col.name
      let keyColIndex ← (if isKeyCol then
          Exec.unwrap (keyCols.findIdx? fun c => c.name = col.name)
        else pure 0 : Exec ℕ)
      let keyColsFound := if isKeyCol then s.keyColsFound + 1 else s.keyColsFound
      let isNull ← isColValueNull nullBitmap i
      if isNull then
        if isKeyCol then return .error .nullPrimaryKeyColumnValue
        else deserializeKeyLoop keyCols nullBitmap recordBytes cols (i + 1) { s with keyColsFound }
      else if col.isFixedType then do
        let dataSize ← Exec.unwrap col.dataType.getFixedSize
        let rowValues ← (if isKeyCol then do
            let value ← deserializeFixedSizedColValue col recordBytes s.currentFixedOffset dataSize
            let value ← Exec.unwrapResult value
            return s.rowValues.set keyColIndex value
          else pure s.rowValues : Exec (Key D))
        deserializeKeyLoop keyCols nullBitmap recordBytes cols (i + 1)
          ⟨rowValues, s.currentFixedOffset + dataSize, s.currentVariableOffset, keyColsFound⟩
      else do
        let variableDataBytes ← sliceOf recordBytes s.currentVariableOffset recordBytes.length
        let (dataSizeBytes, rest) ← splitAt variableDataBytes 4
        let dataSize := i32FromLeBytes dataSizeBytes
        let rowValues ← (if isKeyCol then do
            let value ← deserializeVariableSizedColValue col rest dataSize
            let value ← Exec.unwrapResult value
            return s.rowValues.set keyColIndex value
          else pure s.rowValues : Exec (Key D))
        let currentVariableOffset ← advance (s.currentVariableOffset + 4) dataSize
        deserializeKeyLoop keyCols nullBitmap recordBytes cols (i + 1)
          ⟨rowValues, s.currentFixedOffset, currentVariableOffset, keyColsFound⟩

/-- `deserialize_key`. -/
def deserializeKey (recordCols keyCols : List ColumnDefinition) (recordBytes : Bytes) :
    Exec (Except SerializationError (Key D)) := do
  let nullBitmapSize := (recordCols.length + 7) / 8
  let nullBitmap ← sliceOf recordBytes 0 nullBitmapSize
  let currentVariableOffset ← getVariableLengthDataOffset recordCols nullBitmap nullBitmapSize
  deserializeKeyLoop keyCols nullBitmap recordBytes recordCols 0
    ⟨List.replicate keyCols.length .null, nullBitmapSize, currentVariableOffset, 0⟩

/-- `deserialize_primary_key`. -/
def deserializePrimaryKey (td : TableDefinition) (recordBytes : Bytes) :
    Exec (Except SerializationError (Key D)) := do
  let result ← td.getPrimaryKeyColumns
  match result with
  | some keyCols => deserializeKey td.columns keyCols recordBytes
  | none => return .error .primaryKeyNotFound

end RecordSerializer

end RarmDb
