import RarmDb.Record.Layout

/-!
# The round trip of the record codec

* `deserializeColValue_eq`: reading one value back, from the two parts of a record;
* **`deserialize_encode`**, **`record_codec_round_trip`**: `deserialize` inverts `serialize`;
* **`deserializePrimaryKey_encode`**: the key columns are read from a record without the rest.
-/

namespace RarmDb

variable {D : Type}

/-- Texts and blobs whose length is an `i32`. -/
def ShortData (record : Record D) : Prop := ∀ v ∈ record, v.dataLength < 2 ^ 31

/-- The same for the columns up to the last key column. -/
def ShortUpToKey (pk : List String) : List ColumnDefinition → List (DataValue D) → Prop
  | col :: cols, v :: values =>
    ((∃ c ∈ col :: cols, c.name ∈ pk) → v.dataLength < 2 ^ 31) ∧ ShortUpToKey pk cols values
  | _, _ => True

theorem ShortData.upToKey {values : List (DataValue D)} (h : ShortData values) (pk : List String)
    (cols : List ColumnDefinition) : ShortUpToKey pk cols values := by
  induction cols generalizing values with
  | nil => trivial
  | cons col cols ih =>
    cases values with
    | nil => trivial
    | cons v values =>
      exact ⟨fun _ => h v List.mem_cons_self, ih fun w hw => h w (List.mem_cons_of_mem v hw)⟩

theorem ShortUpToKey.head_lt {pk : List String} {col : ColumnDefinition} {v : DataValue D}
    {cols : List ColumnDefinition} {values : List (DataValue D)} {found : ℕ}
    (h : ShortUpToKey pk (col :: cols) (v :: values))
    (hfound : (pk.filter fun n => n ∈ (col :: cols).map ColumnDefinition.name).length + found =
      pk.length) (hlt : found < pk.length) : v.dataLength < 2 ^ 31 := by
  refine h.1 ?_
  obtain ⟨n, hn⟩ : ∃ n, n ∈ pk.filter fun n => n ∈ (col :: cols).map ColumnDefinition.name :=
    List.exists_mem_of_length_pos (by omega)
  obtain ⟨hn, hmem⟩ := List.mem_filter.mp hn
  obtain ⟨c, hc, hcn⟩ := List.mem_map.mp (of_decide_eq_true hmem)
  exact ⟨c, hc, hcn ▸ hn⟩

namespace RecordSerializer

/-! ## Numbers -/

theorem i32FromLeBytes_leBytes (val : Int32) : i32FromLeBytes (leBytes 4 val.toUInt32.toNat) = val := by
  have h : val.toUInt32.toNat < 256 ^ 4 := val.toUInt32.toNat_lt
  rw [i32FromLeBytes, ofLeBytes_leBytes_of_lt h, UInt32.ofNat_toNat, Int32.toInt32_toUInt32]

theorem i64FromLeBytes_leBytes (val : Int64) : i64FromLeBytes (leBytes 8 val.toUInt64.toNat) = val := by
  have h : val.toUInt64.toNat < 256 ^ 8 := val.toUInt64.toNat_lt
  rw [i64FromLeBytes, ofLeBytes_leBytes_of_lt h, UInt64.ofNat_toNat, Int64.toInt64_toUInt64]

theorem toInt_i32FromLeBytes {n : ℕ} (h : n < 2 ^ 31) : (i32FromLeBytes (leBytes 4 n)).toInt = n := by
  rw [i32FromLeBytes, ofLeBytes_leBytes_of_lt (by omega), UInt32.toInt32_ofNat', Int32.toInt_ofNat_of_lt h]

theorem asUsize_i32FromLeBytes {n : ℕ} (h : n < 2 ^ 31) : asUsize (i32FromLeBytes (leBytes 4 n)) = n := by
  rw [asUsize, toInt_i32FromLeBytes h]
  omega

theorem advance_i32FromLeBytes {n : ℕ} (h : n < 2 ^ 31) (offset : ℕ) :
    advance offset (i32FromLeBytes (leBytes 4 n)) = .ret (offset + n) := by
  have hneg : ¬ i32FromLeBytes (leBytes 4 n) < 0 := by
    rw [Int32.lt_iff_toInt_lt, toInt_i32FromLeBytes h, Int32.toInt_zero]
    omega
  rw [advance, if_neg fun h => hneg h.1, asUsize_i32FromLeBytes h]

/-! ## The names of the key columns -/

section Key

variable {keyCols : List ColumnDefinition} {pk names : List String} {n : String}

theorem filter_mem_cons (hnd : pk.Nodup) (hn : n ∉ names) :
    (pk.filter fun m => m ∈ n :: names).length =
      (pk.filter fun m => m ∈ names).length + if n ∈ pk then 1 else 0 := by
  have hsplit : (pk.filter fun m => m ∈ names) = (pk.filter fun m => m ∈ n :: names).erase n := by
    rw [(hnd.filter _).erase_eq_filter, List.filter_filter]
    refine List.filter_congr fun m _ => ?_
    by_cases hm : m = n
    · subst hm
      simp [hn]
    · simp [hm]
  rw [hsplit, List.length_erase]
  by_cases hmem : n ∈ pk
  · have hpos : n ∈ pk.filter fun m => m ∈ n :: names := by simp [hmem]
    have := List.length_pos_of_mem hpos
    rw [if_pos hpos, if_pos hmem]
    omega
  · rw [if_neg (by simp [hmem]), if_neg hmem, Nat.add_zero]

theorem map_set_of_nodup {α : Type} (hnd : pk.Nodup) {k : ℕ} (hk : pk[k]? = some n) (f : String → α)
    (a : α) : (pk.map f).set k a = pk.map fun m => if m = n then a else f m := by
  obtain ⟨hlt, hget⟩ := List.getElem?_eq_some_iff.mp hk
  refine List.ext_getElem (by simp) fun j h₁ h₂ => ?_
  rw [List.getElem_set, List.getElem_map]
  have hj : j < pk.length := by simpa using h₂
  by_cases hkj : k = j
  · subst hkj
    rw [if_pos rfl, List.getElem_map, if_pos hget]
  · rw [if_neg hkj, List.getElem_map, if_neg]
    intro heq
    exact hkj ((hnd.getElem_inj_iff).mp (hget.trans heq.symm))

theorem any_isNull_cons {val : String → DataValue D} (h : n ∈ pk → (val n).isNull = false) :
    (pk.any fun m => decide (m ∈ n :: names) && (val m).isNull) =
      pk.any fun m => decide (m ∈ names) && (val m).isNull := by
  rw [Bool.eq_iff_iff, List.any_eq_true, List.any_eq_true]
  refine exists_congr fun m => and_congr_right fun hm => ?_
  by_cases hmn : m = n
  · subst hmn
    rw [h hm, Bool.and_false, Bool.and_false]
  · simp [hmn]

theorem any_name (hpk : keyCols.map ColumnDefinition.name = pk) (n : String) :
    (keyCols.any fun c => c.name = n) = decide (n ∈ pk) := by
  rw [← hpk, Bool.eq_iff_iff, List.any_eq_true, decide_eq_true_eq, List.mem_map]
  simp

theorem findIdx_name (hpk : keyCols.map ColumnDefinition.name = pk) (hn : n ∈ pk) :
    ∃ k, (keyCols.findIdx? fun c => c.name = n) = some k ∧ pk[k]? = some n := by
  rw [← hpk, List.mem_map] at hn
  obtain ⟨c, hc, hcn⟩ := hn
  obtain ⟨k, hk⟩ := Option.isSome_iff_exists.mp
    ((List.findIdx?_isSome (p := fun c => decide (c.name = n))).trans
      (List.any_eq_true.mpr ⟨c, hc, decide_eq_true hcn⟩))
  obtain ⟨hlt, heq, -⟩ := List.findIdx?_eq_some_iff_getElem.mp hk
  refine ⟨k, hk, ?_⟩
  rw [← hpk, List.getElem?_map, List.getElem?_eq_getElem hlt]
  simpa using heq

/-- The key values found when the columns named in `names` are still to come. -/
def foundValues (pk names : List String) (val : String → DataValue D) : Key D :=
  pk.map fun n => if n ∈ names then .null else val n

theorem foundValues_set (hnd : pk.Nodup) (hn : n ∉ names) {k : ℕ}
    (hk : pk[k]? = some n) (val : String → DataValue D) :
    (foundValues pk (n :: names) val).set k (val n) = foundValues pk names val := by
  rw [foundValues, map_set_of_nodup hnd hk]
  refine List.map_congr_left fun m _ => ?_
  by_cases hm : m = n
  · rw [if_pos hm, hm, if_neg hn]
  · rw [if_neg hm]
    simp [hm]

theorem foundValues_skip (hn : n ∉ pk)
    (val : String → DataValue D) : foundValues pk (n :: names) val = foundValues pk names val := by
  refine List.map_congr_left fun m hm => ?_
  have : m ≠ n := by
    rintro rfl
    exact hn hm
  simp [this]

theorem found_cons (hnd : pk.Nodup) (hn : n ∉ names) {found : ℕ}
    (h : (pk.filter fun m => m ∈ n :: names).length + found = pk.length) :
    (pk.filter fun m => m ∈ names).length +
      (if decide (n ∈ pk) = true then found + 1 else found) = pk.length := by
  rw [filter_mem_cons hnd hn] at h
  by_cases hkey : n ∈ pk
  · simp only [hkey, decide_true, if_true] at h ⊢
    omega
  · simp only [hkey, decide_false, if_false, Bool.false_eq_true] at h ⊢
    omega

/-- When as many key columns were found as there are, none of the names still to come is one. -/
theorem not_mem_of_found {found : ℕ} (h : (pk.filter fun n => n ∈ names).length + found = pk.length)
    (hexit : pk.length ≤ found) : ∀ n ∈ pk, n ∉ names := by
  have hnil : (pk.filter fun n => n ∈ names) = [] := List.length_eq_zero_iff.mp (by omega)
  intro n hn hmem
  exact List.filter_eq_nil_iff.mp hnil n hn (decide_eq_true hmem)

theorem foundValues_of_not_mem (h : ∀ n ∈ pk, n ∉ names) (val : String → DataValue D) :
    foundValues pk names val = pk.map val :=
  List.map_congr_left fun n hn => if_neg (h n hn)

theorem any_isNull_of_not_mem (h : ∀ n ∈ pk, n ∉ names) (val : String → DataValue D) :
    (pk.any fun n => decide (n ∈ names) && (val n).isNull) = false := by
  rw [List.any_eq_false]
  intro n hn
  rw [decide_eq_false (h n hn)]
  exact Bool.false_ne_true

theorem keyIndex_ret (hpk : keyCols.map ColumnDefinition.name = pk) (n : String) :
    ∃ k, (if decide (n ∈ pk) = true then Exec.unwrap (keyCols.findIdx? fun c => c.name = n)
        else pure 0 : Exec ℕ) = .ret k ∧ (n ∈ pk → pk[k]? = some n) := by
  by_cases hkey : n ∈ pk
  · obtain ⟨k, hk, hget⟩ := findIdx_name hpk hkey
    exact ⟨k, by rw [if_pos (decide_eq_true hkey), hk, Exec.unwrap_some], fun _ => hget⟩
  · exact ⟨0, if_neg (by simpa using hkey), fun h => absurd h hkey⟩

/-- Where the value of the next column goes, and what the key values are then. -/
theorem keyIndex_eq (hpk : keyCols.map ColumnDefinition.name = pk) (hnd : pk.Nodup)
    (hn : n ∉ names) (val : String → DataValue D) :
    ∃ k, (if decide (n ∈ pk) = true then Exec.unwrap (keyCols.findIdx? fun c => c.name = n)
        else pure 0) = .ret k ∧
      (if decide (n ∈ pk) = true then (foundValues pk (n :: names) val).set k (val n)
        else foundValues pk (n :: names) val) = foundValues pk names val := by
  obtain ⟨k, hk, hget⟩ := keyIndex_ret hpk n
  refine ⟨k, hk, ?_⟩
  by_cases hkey : n ∈ pk
  · rw [if_pos (decide_eq_true hkey), foundValues_set hnd hn (hget hkey)]
  · rw [if_neg (by simpa using hkey), foundValues_skip hkey]

end Key

/-! ## One value -/

theorem isFixedType_of_fixed {col : ColumnDefinition} {n : ℕ}
    (hn : col.dataType.getFixedSize = some n) : col.isFixedType = true := by
  obtain ⟨name, t, nullable⟩ := col
  cases t <;> first | rfl | cases hn

theorem isFixedType_of_variable {col : ColumnDefinition} (h : col.dataType ≠ .unknown)
    (hn : col.dataType.getFixedSize = none) : col.isFixedType = false := by
  obtain ⟨name, t, nullable⟩ := col
  cases t with
  | varchar _ | blob _ => rfl
  | unknown => exact absurd rfl h
  | _ => cases hn

variable [RustDecimal D]

theorem deserializeFixedSizedColValue_eq [DecimalCodec D] {col : ColumnDefinition} {v : DataValue D}
    {n : ℕ} (h : v.HasVariant col.dataType) (hn : col.dataType.getFixedSize = some n)
    {bytes x z : Bytes} (hb : bytes = x ++ fixedBytes v ++ z) :
    deserializeFixedSizedColValue col bytes x.length n = .ret (.ok v) := by
  have hs : sliceOf bytes x.length (x.length + n) = .ret (fixedBytes v) :=
    sliceOf_eq hb rfl (by rw [length_fixedBytes h hn])
  have hint : ∀ (w : ℕ) (val : ℕ), tryInto w (leBytes w val) = .ret (leBytes w val) :=
    fun w val => if_pos (length_leBytes w val)
  rw [deserializeFixedSizedColValue, hs, Exec.ret_bind]
  obtain ⟨name, t, nullable⟩ := col
  dsimp only at h hn
  cases v <;> cases t <;> first | exact False.elim h | (cases hn; done) | skip
  case int.int val =>
    dsimp only [fixedBytes]
    rw [hint, Exec.ret_bind, i32FromLeBytes_leBytes]
    rfl
  case bigInt.bigInt val =>
    dsimp only [fixedBytes]
    rw [hint, Exec.ret_bind, i64FromLeBytes_leBytes]
    rfl
  case boolean.boolean val => cases val <;> rfl
  case float.float val =>
    have hlt : val.bits.toNat < 256 ^ 8 := val.bits.toNat_lt
    dsimp only [fixedBytes]
    rw [hint, Exec.ret_bind, ofLeBytes_leBytes_of_lt hlt, UInt64.ofNat_toNat]
    rfl
  case dateTime.dateTime val =>
    dsimp only [fixedBytes]
    rw [hint, Exec.ret_bind, i64FromLeBytes_leBytes]
    rfl
  case decimal.decimal val precision scale =>
    have hlen : (fixedBytes (.decimal val)).length = 16 := Vector.length_toList
    have harr : (⟨(fixedBytes (.decimal val)).toArray, hlen⟩ : Vector UInt8 16) =
        RustDecimal.serialize val := Vector.toArray_inj.mp Array.toArray_toList
    dsimp only
    rw [dif_pos hlen, harr, DecimalCodec.deserialize_serialize]
    rfl

theorem deserializeVariableSizedColValue_eq {col : ColumnDefinition} {v : DataValue D}
    (h : v.HasVariant col.dataType) (hn : col.dataType.getFixedSize = none)
    (hshort : v.dataLength < 2 ^ 31) :
    ∃ data : Bytes, fixedBytes v = [] ∧ variableBytes v = leBytes 4 data.length ++ data ∧
      data.length < 2 ^ 31 ∧ ∀ z, deserializeVariableSizedColValue col (data ++ z)
        (i32FromLeBytes (leBytes 4 data.length)) = .ret (.ok v) := by
  have hslice : ∀ data z : Bytes, data.length < 2 ^ 31 →
      sliceOf (data ++ z) 0 (asUsize (i32FromLeBytes (leBytes 4 data.length))) = .ret data := by
    intro data z hlt
    rw [asUsize_i32FromLeBytes hlt]
    exact sliceOf_zero rfl
  obtain ⟨name, t, nullable⟩ := col
  dsimp only at h hn
  cases v <;> cases t <;> first | exact False.elim h | (cases hn; done) | skip
  case text.varchar val maxLen =>
    refine ⟨asBytes val, rfl, rfl, hshort, fun z => ?_⟩
    rw [deserializeVariableSizedColValue, hslice _ z hshort, Exec.ret_bind]
    dsimp only
    rw [fromUtf8_asBytes]
    rfl
  case blob.blob val maxLen =>
    refine ⟨val, rfl, rfl, hshort, fun z => ?_⟩
    rw [deserializeVariableSizedColValue, hslice _ z hshort, Exec.ret_bind]
    rfl

theorem splitLength_eq {bytes x data z : Bytes} (hb : bytes = x ++ (leBytes 4 data.length ++ data) ++ z) :
    sliceOf bytes x.length bytes.length = .ret (leBytes 4 data.length ++ (data ++ z)) ∧
      splitAt (leBytes 4 data.length ++ (data ++ z)) 4 = .ret (leBytes 4 data.length, data ++ z) := by
  have hl := length_leBytes 4 data.length
  constructor
  · have hb' : bytes = x ++ (leBytes 4 data.length ++ (data ++ z)) ++ [] := by
      rw [hb, List.append_nil, List.append_assoc, List.append_assoc]
    refine sliceOf_eq hb' rfl ?_
    rw [hb', List.append_nil, List.length_append]
  · rw [splitAt, if_pos (by rw [List.length_append, hl]; omega), List.take_left' hl,
      List.drop_left' hl]

/-- **Reading one value back.** `x` is what precedes it in the fixed part, `y` is what lies between
the fixed bytes and the variable bytes. -/
theorem deserializeColValue_eq [DecimalCodec D] {col : ColumnDefinition} {v : DataValue D}
    (h : v.HasVariant col.dataType) (hshort : v.dataLength < 2 ^ 31) {bytes x y z : Bytes}
    (hb : bytes = x ++ fixedBytes v ++ y ++ variableBytes v ++ z) :
    deserializeColValue col bytes x.length (x ++ fixedBytes v ++ y).length =
      .ret (v, x.length + (fixedBytes v).length,
        (x ++ fixedBytes v ++ y).length + (variableBytes v).length) := by
  rw [deserializeColValue, PrimitiveDataType.isFixedSize_eq]
  cases hn : col.dataType.getFixedSize with
  | some n =>
    have hb' : bytes = x ++ fixedBytes v ++ (y ++ variableBytes v ++ z) := by
      rw [hb]
      simp only [List.append_assoc]
    have hread := deserializeFixedSizedColValue_eq h hn hb'
    rw [Option.isSome_some, if_pos rfl, Exec.unwrap_some, Exec.ret_bind, hread, Exec.ret_bind,
      Exec.unwrapResult_ok, Exec.ret_bind, length_fixedBytes h hn, (parts_of_fixed h hn).1]
    rfl
  | none =>
    obtain ⟨data, h₁, h₂, hlt, hread⟩ := deserializeVariableSizedColValue_eq h hn hshort
    obtain ⟨hslice, hsplit⟩ := splitLength_eq (h₂ ▸ hb)
    have hlen : (leBytes 4 data.length ++ data).length = 4 + data.length := by
      rw [List.length_append, length_leBytes]
    rw [Option.isSome_none, if_neg Bool.false_ne_true, hslice, Exec.ret_bind, hsplit, Exec.ret_bind]
    dsimp only
    rw [hread, Exec.ret_bind, advance_i32FromLeBytes hlt, Exec.ret_bind, Exec.unwrapResult_ok,
      Exec.ret_bind, h₁, h₂, hlen, List.length_nil, Nat.add_zero, Nat.add_assoc]
    rfl

/-! ## All values -/

theorem variableLengthDataOffsetLoop_eq {cols : List ColumnDefinition}
    {values : List (DataValue D)} (h : List.Forall₂ Skips cols values) {bitmap : Bytes} {i : ℕ}
    (hm : Marks bitmap i values) (hi : i + values.length ≤ 8 * bitmap.length) (offset : ℕ) :
    variableLengthDataOffsetLoop bitmap cols i offset =
      .ret (offset + (storedPart (cols.zip values)).length) := by
  induction h generalizing i offset with
  | nil => rfl
  | @cons col v cols values hv _ ih =>
    have hrest : i + 1 + values.length ≤ 8 * bitmap.length := by
      rw [List.length_cons] at hi
      omega
    rw [variableLengthDataOffsetLoop, hm.isColValueNull hi, Exec.ret_bind, List.zip_cons_cons,
      storedPart_cons, List.length_append]
    by_cases hnull : v.isNull = true
    · rw [if_pos hnull, ih hm.tail hrest, storedFixed_of_null hnull, List.length_nil, Nat.zero_add]
    · obtain ⟨hfit, hknown⟩ := hv.resolve_left hnull
      rw [if_neg hnull]
      cases hn : col.dataType.getFixedSize with
      | some n =>
        rw [if_pos (isFixedType_of_fixed hn), Exec.unwrap_some, Exec.ret_bind, ih hm.tail hrest,
          length_storedFixed hfit hn, Nat.add_assoc]
      | none =>
        rw [isFixedType_of_variable hknown hn, if_neg Bool.false_ne_true, ih hm.tail hrest,
          storedFixed_of_variable v hn, List.length_nil, Nat.zero_add]

/-- The values still to come are read from the ends of the two parts. -/
theorem deserializeLoop_eq [DecimalCodec D] {cols : List ColumnDefinition}
    {values : List (DataValue D)} (h : WellTyped cols values) (hshort : ShortData values)
    {bitmap : Bytes} {i : ℕ} (hm : Marks bitmap i values)
    (hi : i + values.length ≤ 8 * bitmap.length) {bytes x y : Bytes}
    (hb : bytes = x ++ fixedPart values ++ y ++ variablePart values) :
    deserializeLoop bitmap bytes cols i x.length (x ++ fixedPart values ++ y).length =
      .ret (.ok values) := by
  induction h generalizing i x y with
  | nil => rfl
  | @cons col v cols values hv _ ih =>
    have hrest : i + 1 + values.length ≤ 8 * bitmap.length := by
      rw [List.length_cons] at hi
      omega
    have hshort' : ShortData values := fun w hw => hshort w (List.mem_cons_of_mem v hw)
    rw [deserializeLoop, hm.isColValueNull hi, Exec.ret_bind]
    by_cases hnull : v.isNull = true
    · obtain ⟨h₁, h₂, -⟩ := parts_of_null hnull
      rw [fixedPart_cons, variablePart_cons, h₁, h₂, List.nil_append, List.nil_append] at hb
      rw [if_pos hnull, if_pos (hv.nullable hnull), fixedPart_cons, h₁, List.nil_append,
        ih hshort' hm.tail hrest hb, DataValue.isNull_iff.mp hnull]
      rfl
    · have hvar := hv.variant (Bool.eq_false_iff.mpr hnull)
      have hread := deserializeColValue_eq (y := fixedPart values ++ y) (z := variablePart values)
        hvar (hshort v List.mem_cons_self) (x := x) (show bytes = _ by
          rw [hb, fixedPart_cons, variablePart_cons]
          simp only [List.append_assoc])
      have hnext : bytes = x ++ fixedBytes v ++ fixedPart values ++ (y ++ variableBytes v) ++
          variablePart values := by
        rw [hb, fixedPart_cons, variablePart_cons]
        simp only [List.append_assoc]
      have hloop := ih hshort' hm.tail hrest hnext
      rw [if_neg hnull, fixedPart_cons, ← List.append_assoc x, List.append_assoc (x ++ fixedBytes v),
        hread, Exec.ret_bind]
      simp only [List.length_append, Nat.add_assoc] at hloop ⊢
      rw [hloop]
      rfl

/-- **`deserialize` reads back what `serialize` writes.** -/
theorem deserialize_encode [DecimalCodec D] {columns : List ColumnDefinition} {record : Record D}
    (h : WellTyped columns record) (hshort : ShortData record) :
    deserialize columns (encode record) = .ret (.ok record) := by
  have hnb : getNullBitmapSize columns = (nullBitmap record).length := by
    rw [getNullBitmapSize, length_nullBitmap, h.length_eq]
  have hm := marks_nullBitmap record
  have hi : 0 + record.length ≤ 8 * (nullBitmap record).length := by
    rw [length_nullBitmap]
    omega
  have hslice : sliceOf (encode record) 0 (nullBitmap record).length = .ret (nullBitmap record) :=
    sliceOf_zero (List.append_assoc ..)
  have hb : encode record = nullBitmap record ++ fixedPart record ++ [] ++ variablePart record := by
    rw [List.append_nil, encode]
  have hloop := deserializeLoop_eq h hshort hm hi hb
  rw [deserialize, hnb, hslice, Exec.ret_bind, getVariableLengthDataOffset,
    variableLengthDataOffsetLoop_eq (skips_of_wellTyped h) hm hi, Exec.ret_bind,
    storedPart_of_wellTyped h]
  rwa [List.append_nil, List.length_append] at hloop

/-! ## The key columns -/

variable {keyCols : List ColumnDefinition} {pk : List String}

/-- The reader of a key gets past the column: it can skip the value, and the value of a key column is
null or has the column's variant. -/
def KeyReadable (pk : List String) (col : ColumnDefinition) (v : DataValue D) : Prop :=
  Skips col v ∧ (col.name ∈ pk → v.isNull = false → v.HasVariant col.dataType)

omit [RustDecimal D] in
theorem readKeyValue_eq {isKeyCol : Bool} {index : ℕ} {v : DataValue D}
    {read : Exec (Except SerializationError (DataValue D))}
    (hread : isKeyCol = true → read = .ret (.ok v)) (rowValues : Key D) :
    (if isKeyCol then do
        let value ← read
        let value ← Exec.unwrapResult value
        return rowValues.set index value
      else pure rowValues : Exec (Key D)) =
      .ret (if isKeyCol then rowValues.set index v else rowValues) := by
  cases isKeyCol with
  | false => rfl
  | true => rw [if_pos rfl, if_pos rfl, hread rfl, Exec.ret_bind, Exec.unwrapResult_ok, Exec.ret_bind,
      Exec.pure_eq]

/-- **Looking for key columns among the columns still to come.** -/
theorem deserializeKeyLoop_eq [DecimalCodec D] (hpk : keyCols.map ColumnDefinition.name = pk)
    (hnd : pk.Nodup) {cols : List ColumnDefinition} {values : List (DataValue D)}
    (h : List.Forall₂ (KeyReadable pk) cols values)
    (hnames : (cols.map ColumnDefinition.name).Nodup) (hshort : ShortUpToKey pk cols values)
    {bitmap : Bytes} {i : ℕ} (hm : Marks bitmap i values)
    (hi : i + values.length ≤ 8 * bitmap.length) {bytes x y : Bytes}
    (hb : bytes = x ++ storedPart (cols.zip values) ++ y ++ variablePart values)
    {val : String → DataValue D}
    (hval : ∀ n ∈ cols.map ColumnDefinition.name, val n = valueOf cols values n) {found : ℕ}
    (hfound : (pk.filter fun n => n ∈ cols.map ColumnDefinition.name).length + found = pk.length) :
    deserializeKeyLoop keyCols bitmap bytes cols i
        ⟨foundValues pk (cols.map ColumnDefinition.name) val, x.length,
          (x ++ storedPart (cols.zip values) ++ y).length, found⟩ =
      .ret (if pk.any fun n => decide (n ∈ cols.map ColumnDefinition.name) && (val n).isNull then
        .error .nullPrimaryKeyColumnValue else .ok (pk.map val)) := by
  have hlen : keyCols.length = pk.length := by rw [← hpk, List.length_map]
  induction h generalizing i x y found with
  | nil => simp [deserializeKeyLoop, foundValues]
  | @cons col v cols values hv _ ih =>
    rw [List.map_cons] at hnames hval hfound ⊢
    obtain ⟨hfresh, hnames⟩ := List.nodup_cons.mp hnames
    obtain ⟨hv, hvariant⟩ := hv
    have hv₀ : val col.name = v := by
      rw [hval _ List.mem_cons_self, valueOf, if_pos rfl]
    have hval' : ∀ n ∈ cols.map ColumnDefinition.name, val n = valueOf cols values n := by
      intro n hn
      rw [hval n (List.mem_cons_of_mem _ hn), valueOf, if_neg]
      rintro rfl
      exact hfresh hn
    have hrest : i + 1 + values.length ≤ 8 * bitmap.length := by
      rw [List.length_cons] at hi
      omega
    rw [deserializeKeyLoop]
    dsimp only
    by_cases hexit : found ≥ keyCols.length
    · -- All key columns have been found, so none of the names is still to come.
      have hnone := not_mem_of_found hfound (hlen ▸ hexit)
      rw [if_pos hexit, foundValues_of_not_mem hnone, any_isNull_of_not_mem hnone]
      rfl
    · -- A key column is still to come, so the length of this value is an `i32`.
      have hdata : v.dataLength < 2 ^ 31 := hshort.head_lt hfound (by omega)
      have hnext : bytes = x ++ storedFixed col v ++ storedPart (cols.zip values) ++
          (y ++ variableBytes v) ++ variablePart values := by
        rw [hb, List.zip_cons_cons, storedPart_cons, variablePart_cons]
        simp only [List.append_assoc]
      have hx : (x ++ storedFixed col v).length = x.length + (storedFixed col v).length :=
        List.length_append
      have hy : (x ++ storedFixed col v ++ storedPart (cols.zip values) ++
          (y ++ variableBytes v)).length =
          (x ++ storedPart ((col :: cols).zip (v :: values)) ++ y).length +
            (variableBytes v).length := by
        rw [List.zip_cons_cons, storedPart_cons]
        simp only [List.length_append, Nat.add_assoc]
      obtain ⟨k, hk, hset⟩ := keyIndex_eq hpk hnd hfresh val
      have hloop := ih hnames hshort.2 hm.tail hrest hnext hval' (found_cons hnd hfresh hfound)
      rw [hx, hy] at hloop
      rw [if_neg hexit, any_name hpk, hm.isColValueNull hi, hk]
      simp only [Exec.ret_bind]
      by_cases hnull : v.isNull = true
      · rw [if_pos hnull]
        by_cases hkey : col.name ∈ pk
        · have hany : (pk.any fun n => decide (n ∈ col.name :: cols.map ColumnDefinition.name) &&
              (val n).isNull) = true :=
            List.any_eq_true.mpr ⟨col.name, hkey, by simp [hv₀, hnull]⟩
          rw [if_pos (decide_eq_true hkey), hany]
          rfl
        · rw [storedFixed_of_null hnull, (parts_of_null hnull).2.1] at hloop
          rw [if_neg (by simpa using hkey), any_isNull_cons fun h => absurd h hkey, ← hloop,
            foundValues_skip hkey]
          rfl
      · obtain ⟨hfit, hknown⟩ := hv.resolve_left hnull
        replace hnull := Bool.eq_false_iff.mpr hnull
        rw [hv₀] at hset
        rw [if_neg (Bool.eq_false_iff.mp hnull), any_isNull_cons fun _ => by rw [hv₀, hnull], ← hloop]
        cases hn : col.dataType.getFixedSize with
        | some n =>
          have hread : decide (col.name ∈ pk) = true →
              deserializeFixedSizedColValue col bytes x.length n = .ret (.ok v) := by
            intro hkey
            have hvar := hvariant (of_decide_eq_true hkey) hnull
            refine deserializeFixedSizedColValue_eq hvar hn (z := storedPart (cols.zip values) ++ y ++
              variableBytes v ++ variablePart values) ?_
            rw [hnext, storedFixed_of_admits (.inr hvar)]
            simp only [List.append_assoc]
          rw [if_pos (isFixedType_of_fixed hn), Exec.unwrap_some, Exec.ret_bind, readKeyValue_eq hread,
            Exec.ret_bind, hset, length_storedFixed hfit hn, (parts_of_not_sized (fits_fixed hfit hn).2.1).1]
          rfl
        | none =>
          obtain ⟨data, h₂, -, hlen₁, -⟩ := sized_eq (fits_variable hfit hn)
          have hb' : bytes = x ++ storedPart ((col :: cols).zip (v :: values)) ++ y ++
              (leBytes 4 data.length ++ data) ++ variablePart values := by
            rw [hb, variablePart_cons, h₂]
            simp only [List.append_assoc]
          have hlen₂ : (leBytes 4 data.length ++ data).length = 4 + data.length := by
            rw [List.length_append, length_leBytes]
          obtain ⟨hslice, hsplit⟩ := splitLength_eq hb'
          rw [hlen₁] at hdata
          have hread : decide (col.name ∈ pk) = true →
              deserializeVariableSizedColValue col (data ++ variablePart values)
                (i32FromLeBytes (leBytes 4 data.length)) = .ret (.ok v) := by
            intro hkey
            obtain ⟨data', -, h', -, hread⟩ := deserializeVariableSizedColValue_eq
              (hvariant (of_decide_eq_true hkey) hnull) hn (hlen₁ ▸ hdata)
            obtain rfl : data' = data := by
              have heq := congrArg (List.drop 4) (h'.symm.trans h₂)
              rwa [List.drop_left' (length_leBytes ..), List.drop_left' (length_leBytes ..)] at heq
            exact hread _
          rw [isFixedType_of_variable hknown hn, if_neg Bool.false_ne_true, hslice, Exec.ret_bind,
            hsplit, Exec.ret_bind]
          dsimp only
          rw [readKeyValue_eq hread, Exec.ret_bind, hset, advance_i32FromLeBytes hdata, Exec.ret_bind,
            h₂, hlen₂, Nat.add_assoc, storedFixed_of_variable v hn]
          rfl

/-- **The key columns are read from a record without the rest.** -/
theorem deserializePrimaryKey_encodeAs [DecimalCodec D] {td : TableDefinition} {pk : List String}
    (hk : td.Keyed pk) {record : Record D} (h : List.Forall₂ (KeyReadable pk) td.columns record)
    (hshort : ShortUpToKey pk td.columns record) :
    deserializePrimaryKey td (encodeAs td.columns record) =
      .ret (if (keyOf td pk record).any DataValue.isNull then .error .nullPrimaryKeyColumnValue
        else .ok (keyOf td pk record)) := by
  obtain ⟨keyCols, hcols, hpk⟩ := TableDefinition.getPrimaryKeyColumns_eq hk
  have hnb : (td.columns.length + 7) / 8 = (nullBitmap record).length := by
    rw [length_nullBitmap, h.length_eq]
  have hm := marks_nullBitmap record
  have hi : 0 + record.length ≤ 8 * (nullBitmap record).length := by
    rw [length_nullBitmap]
    omega
  have hslice : sliceOf (encodeAs td.columns record) 0 (nullBitmap record).length =
      .ret (nullBitmap record) := sliceOf_zero (List.append_assoc ..)
  have hb : encodeAs td.columns record =
      nullBitmap record ++ storedPart (td.columns.zip record) ++ [] ++ variablePart record := by
    rw [List.append_nil, encodeAs]
  have hall : (pk.filter fun n => n ∈ td.columns.map ColumnDefinition.name) = pk :=
    List.filter_eq_self.mpr fun n hn => decide_eq_true (hk.exist n hn)
  have hloop := deserializeKeyLoop_eq hpk hk.nodup h hk.names hshort hm hi hb (fun _ _ => rfl)
    (show _ + 0 = pk.length by rw [hall, Nat.add_zero])
  have hstart : foundValues pk (td.columns.map ColumnDefinition.name) (valueOf td.columns record) =
      List.replicate keyCols.length .null := by
    rw [← List.length_map (f := ColumnDefinition.name), hpk, ← List.map_const']
    exact List.map_congr_left fun n hn => if_pos (hk.exist n hn)
  have hany : (pk.any fun n => decide (n ∈ td.columns.map ColumnDefinition.name) &&
      (valueOf td.columns record n).isNull) = (keyOf td pk record).any DataValue.isNull := by
    rw [keyOf, List.any_map, Bool.eq_iff_iff, List.any_eq_true, List.any_eq_true]
    refine exists_congr fun n => and_congr_right fun hn => ?_
    rw [decide_eq_true (show n ∈ td.columns.map ColumnDefinition.name from hk.exist n hn),
      Bool.true_and, Function.comp_apply]
  rw [deserializePrimaryKey, hcols, Exec.ret_bind]
  dsimp only
  rw [deserializeKey, hnb, hslice, Exec.ret_bind, getVariableLengthDataOffset,
    variableLengthDataOffsetLoop_eq (h.imp fun _ _ hv => hv.1) hm hi, Exec.ret_bind, ← hstart]
  rw [hany, List.append_nil, List.length_append] at hloop
  exact hloop

/-- **The key of a well-typed record.** -/
theorem deserializePrimaryKey_encode [DecimalCodec D] {td : TableDefinition} {pk : List String}
    (hk : td.Keyed pk) {record : Record D} (h : WellTyped td.columns record)
    (hshort : ShortUpToKey pk td.columns record) :
    deserializePrimaryKey td (encode record) =
      .ret (if (keyOf td pk record).any DataValue.isNull then .error .nullPrimaryKeyColumnValue
        else .ok (keyOf td pk record)) := by
  rw [← encodeAs_eq h]
  exact deserializePrimaryKey_encodeAs hk (h.imp fun _ _ hv =>
    ⟨skips_of_admits hv, fun _ hnull => hv.variant hnull⟩) hshort

end RecordSerializer

/-- **The record codec round trip.** -/
theorem record_codec_round_trip [RustDecimal D] [DecimalCodec D] (columns : List ColumnDefinition)
    (record : Record D) (h : WellTyped columns record) (hshort : ShortData record) :
    ∃ bytes, RecordSerializer.serialize columns record = .ret (.ok bytes) ∧
      RecordSerializer.deserialize columns bytes = .ret (.ok record) :=
  ⟨_, RecordSerializer.serialize_eq h, RecordSerializer.deserialize_encode h hshort⟩

/-- A table with columns of fixed and of variable size, keyed by its second column. -/
def productTable : TableDefinition where
  columns := [⟨"name", .varchar 20, false⟩, ⟨"id", .int, false⟩, ⟨"notes", .blob 10000, true⟩,
    ⟨"price", .decimal 10 2, true⟩]
  constraints := [.uniqueKey ["name"], .primaryKey ["id"]]

/-- A row of that table. -/
def product (id : Int32) (notes : Bytes) : Record Decimal96 :=
  [.text "chair", .int id, .blob notes, .decimal ⟨false, 2, 4950⟩]

theorem product_wellTyped (id : Int32) (notes : Bytes) :
    WellTyped productTable.columns (product id notes) := by
  repeat' first | exact .inr trivial | constructor

theorem record_codec_round_trip_product :
    ∃ bytes, RecordSerializer.serialize productTable.columns (product 7 [1, 2]) = .ret (.ok bytes) ∧
      RecordSerializer.deserialize productTable.columns bytes = .ret (.ok (product 7 [1, 2])) :=
  record_codec_round_trip productTable.columns (product 7 [1, 2]) (product_wellTyped 7 [1, 2])
    (by simp [ShortData, product, DataValue.dataLength]; decide)

end RarmDb
