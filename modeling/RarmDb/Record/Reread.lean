import RarmDb.Record.Decodable
import RarmDb.Record.Key
import RarmDb.Record.Typed

/-!
# Bytes that were decoded

What else follows when `deserialize` returns a record from bytes that need not come from `serialize`.

* `ReadsCell`: the two ways to read a value, from the fixed or from the variable part;
* **`deserializePrimaryKey_of_deserialize`**: `deserialize_primary_key` finds the key of that record;
* **`deserialize_more`**: the bytes behind the record do not matter;
* **`reserialized`**: the record can be written again, in no more bytes, and is read back from them.
-/

namespace RarmDb

variable {D : Type} [RustDecimal D]

namespace RecordSerializer

/-! ## One value -/

/-- A value that was read, and where the cursors are then. -/
inductive ReadsCell (col : ColumnDefinition) (bytes : Bytes) (f w : ℕ) (v : DataValue D) : ℕ → ℕ → Prop
  | fixedSized {n : ℕ} (hsize : col.dataType.getFixedSize = some n) (htype : col.isFixedType = true)
      (hread : deserializeFixedSizedColValue col bytes f n = .ret (.ok v)) : ReadsCell col bytes f w v (f + n) w
  | variableSized {data size rest : Bytes} {w' : ℕ} (hsize : col.dataType.getFixedSize = none)
      (htype : col.isFixedType = false) (hslice : sliceOf bytes w bytes.length = .ret data)
      (hsplit : splitAt data 4 = .ret (size, rest))
      (hread : deserializeVariableSizedColValue col rest (i32FromLeBytes size) = .ret (.ok v))
      (hadvance : advance (w + 4) (i32FromLeBytes size) = .ret w') : ReadsCell col bytes f w v f w'

variable {col : ColumnDefinition} {bytes : Bytes} {f w f' w' : ℕ} {v : DataValue D}

theorem readsCell_of_deserializeColValue (h : deserializeColValue col bytes f w = .ret (v, f', w')) :
    ReadsCell col bytes f w v f' w' := by
  have hvariant := hasVariant_of_deserializeColValue h
  rw [deserializeColValue, PrimitiveDataType.isFixedSize_eq] at h
  cases hsize : col.dataType.getFixedSize with
  | some n =>
    rw [hsize, Option.isSome_some, if_pos rfl, Exec.unwrap_some, Exec.ret_bind] at h
    obtain ⟨result, hread, h⟩ := Exec.bind_eq_ret.mp h
    obtain ⟨value, hvalue, h⟩ := Exec.bind_eq_ret.mp h
    rw [eq_ok_of_unwrapResult hvalue] at hread
    cases h
    exact .fixedSized hsize (isFixedType_of_fixed hsize) hread
  | none =>
    rw [hsize, Option.isSome_none, if_neg Bool.false_ne_true] at h
    obtain ⟨data, hslice, h⟩ := Exec.bind_eq_ret.mp h
    obtain ⟨⟨size, rest⟩, hsplit, h⟩ := Exec.bind_eq_ret.mp h
    obtain ⟨result, hread, h⟩ := Exec.bind_eq_ret.mp h
    obtain ⟨offset, hadvance, h⟩ := Exec.bind_eq_ret.mp h
    obtain ⟨value, hvalue, h⟩ := Exec.bind_eq_ret.mp h
    rw [eq_ok_of_unwrapResult hvalue] at hread
    cases h
    have hknown : col.dataType ≠ .unknown := by
      intro hunknown
      rw [hunknown] at hvariant
      cases v <;> exact hvariant
    exact .variableSized hsize (isFixedType_of_variable hknown hsize) hslice hsplit hread hadvance

theorem deserializeLoop_cons {bitmap : Bytes} {cols : List ColumnDefinition} {i : ℕ} {values : List (DataValue D)}
    (h : deserializeLoop bitmap bytes (col :: cols) i f w = .ret (.ok values)) :
    (∃ rest, isColValueNull bitmap i = .ret true ∧ col.isNullable = true ∧ values = .null :: rest ∧
      deserializeLoop bitmap bytes cols (i + 1) f w = .ret (.ok rest)) ∨
    ∃ v rest f' w', isColValueNull bitmap i = .ret false ∧ ReadsCell col bytes f w v f' w' ∧ values = v :: rest ∧
      v.HasVariant col.dataType ∧ deserializeLoop bitmap bytes cols (i + 1) f' w' = .ret (.ok rest) := by
  rw [deserializeLoop] at h
  obtain ⟨isNull, hnull, h⟩ := Exec.bind_eq_ret.mp h
  cases isNull with
  | true =>
    rw [if_pos rfl] at h
    split_ifs at h with hnullable
    · obtain ⟨rest, hrest, h⟩ := Exec.bind_eq_ret.mp h
      cases rest with
      | error e => cases h
      | ok rest =>
        cases h
        exact .inl ⟨rest, hnull, hnullable, rfl, hrest⟩
    · cases h
  | false =>
    rw [if_neg Bool.false_ne_true] at h
    obtain ⟨⟨v, f', w'⟩, hv, h⟩ := Exec.bind_eq_ret.mp h
    obtain ⟨rest, hrest, h⟩ := Exec.bind_eq_ret.mp h
    cases rest with
    | error e => cases h
    | ok rest =>
      cases h
      exact .inr ⟨v, rest, f', w', hnull, readsCell_of_deserializeColValue hv, rfl,
        hasVariant_of_deserializeColValue hv, hrest⟩

/-! ## The key -/

section Key

variable {keyCols : List ColumnDefinition} {pk : List String}

/-- **Looking for key columns** where `deserialize` reads all the columns still to come. -/
theorem deserializeKeyLoop_of_deserializeLoop (hpk : keyCols.map ColumnDefinition.name = pk) (hnd : pk.Nodup)
    {bitmap : Bytes} {cols : List ColumnDefinition} {i : ℕ} {values : List (DataValue D)}
    (h : deserializeLoop bitmap bytes cols i f w = .ret (.ok values)) (hnames : (cols.map ColumnDefinition.name).Nodup)
    {val : String → DataValue D} (hval : ∀ n ∈ cols.map ColumnDefinition.name, val n = valueOf cols values n) {found : ℕ}
    (hfound : (pk.filter fun n => n ∈ cols.map ColumnDefinition.name).length + found = pk.length) :
    deserializeKeyLoop keyCols bitmap bytes cols i
        ⟨foundValues pk (cols.map ColumnDefinition.name) val, f, w, found⟩ =
      .ret (if pk.any fun n => decide (n ∈ cols.map ColumnDefinition.name) && (val n).isNull then
        .error .nullPrimaryKeyColumnValue else .ok (pk.map val)) := by
  have hlen : keyCols.length = pk.length := by rw [← hpk, List.length_map]
  induction cols generalizing i f w values found with
  | nil => simp [deserializeKeyLoop, foundValues]
  | cons col cols ih =>
    rw [List.map_cons] at hnames hval hfound ⊢
    obtain ⟨hfresh, hnames⟩ := List.nodup_cons.mp hnames
    -- The values of the columns still to come are those of the rest of the record.
    have hrest : ∀ {v rest}, values = v :: rest → val col.name = v ∧
        ∀ n ∈ cols.map ColumnDefinition.name, val n = valueOf cols rest n := by
      rintro v rest rfl
      refine ⟨by rw [hval _ List.mem_cons_self, valueOf, if_pos rfl], fun n hn => ?_⟩
      rw [hval n (List.mem_cons_of_mem _ hn), valueOf, if_neg]
      rintro rfl
      exact hfresh hn
    rw [deserializeKeyLoop]
    dsimp only
    by_cases hexit : found ≥ keyCols.length
    · have hnone := not_mem_of_found hfound (hlen ▸ hexit)
      rw [if_pos hexit, foundValues_of_not_mem hnone, any_isNull_of_not_mem hnone]
      rfl
    obtain ⟨k, hk, hset⟩ := keyIndex_eq hpk hnd hfresh val
    have hfound' := found_cons hnd hfresh hfound
    rw [if_neg hexit, any_name hpk, hk]
    simp only [Exec.ret_bind]
    obtain ⟨rest, hnull, -, hvalues, hloop⟩ | ⟨v, rest, f', w', hnull, hcell, hvalues, hvariant, hloop⟩ :=
      deserializeLoop_cons h
    · obtain ⟨hv, hval'⟩ := hrest hvalues
      have hkeys := ih hloop hnames hval' hfound'
      rw [hnull, Exec.ret_bind, if_pos rfl]
      by_cases hkey : col.name ∈ pk
      · have hany : (pk.any fun n => decide (n ∈ col.name :: cols.map ColumnDefinition.name) &&
            (val n).isNull) = true :=
          List.any_eq_true.mpr ⟨col.name, hkey, by simp [hv, DataValue.isNull]⟩
        rw [if_pos (decide_eq_true hkey), hany]
        rfl
      · rw [if_neg (by simpa using hkey), any_isNull_cons fun h => absurd h hkey, ← hkeys, foundValues_skip hkey]
    · obtain ⟨hv, hval'⟩ := hrest hvalues
      have hkeys := ih hloop hnames hval' hfound'
      rw [hv] at hset
      rw [hnull, Exec.ret_bind, if_neg Bool.false_ne_true, any_isNull_cons fun _ => by rw [hv, hvariant.isNull], ← hkeys]
      cases hcell with
      | fixedSized hsize htype hread =>
        rw [if_pos htype, hsize, Exec.unwrap_some, Exec.ret_bind, readKeyValue_eq fun _ => hread, Exec.ret_bind, hset]
      | variableSized hsize htype hslice hsplit hread hadvance =>
        rw [if_neg (Bool.eq_false_iff.mp htype), hslice, Exec.ret_bind, hsplit, Exec.ret_bind]
        dsimp only
        rw [readKeyValue_eq fun _ => hread, Exec.ret_bind, hset, hadvance, Exec.ret_bind]

omit [RustDecimal D] in
theorem foundValues_start {td : TableDefinition} (hk : td.Keyed pk) (hpk : keyCols.map ColumnDefinition.name = pk)
    (val : String → DataValue D) : List.replicate keyCols.length .null = foundValues pk td.colNames val := by
  rw [← List.length_map (f := ColumnDefinition.name), hpk, ← List.map_const']
  exact List.map_congr_left fun n hn => (if_pos (hk.exist n hn)).symm

omit [RustDecimal D] in
theorem any_isNull_start {td : TableDefinition} (hk : td.Keyed pk) (record : Record D) :
    (pk.any fun n => decide (n ∈ td.colNames) && (valueOf td.columns record n).isNull) =
      (keyOf td pk record).any DataValue.isNull := by
  rw [keyOf, List.any_map, Bool.eq_iff_iff, List.any_eq_true, List.any_eq_true]
  refine exists_congr fun n => and_congr_right fun hn => ?_
  rw [decide_eq_true (hk.exist n hn), Bool.true_and, Function.comp_apply]

end Key

end RecordSerializer

open RecordSerializer

/-- **The key of a record that was decoded**, whatever the bytes are and in whatever order the key lists its columns:
the bytes of the key columns are read as the same values. -/
theorem deserializePrimaryKey_of_deserialize {td : TableDefinition} {pk : List String} (hk : td.Keyed pk)
    {bytes : Bytes} {record : Record D} (h : deserialize td.columns bytes = .ret (.ok record)) :
    deserializePrimaryKey td bytes =
      .ret (if (keyOf td pk record).any DataValue.isNull then .error .nullPrimaryKeyColumnValue
        else .ok (keyOf td pk record)) := by
  obtain ⟨keyCols, hcols, hpk⟩ := TableDefinition.getPrimaryKeyColumns_eq hk
  unfold deserialize at h
  obtain ⟨bitmap, hbitmap, h⟩ := Exec.bind_eq_ret.mp h
  obtain ⟨offset, hoffset, hloop⟩ := Exec.bind_eq_ret.mp h
  have hall : (pk.filter fun n => n ∈ td.columns.map ColumnDefinition.name) = pk :=
    List.filter_eq_self.mpr fun n hn => decide_eq_true (hk.exist n hn)
  have hkeys := deserializeKeyLoop_of_deserializeLoop hpk hk.nodup hloop hk.names
    (fun _ _ => rfl : ∀ n ∈ td.columns.map ColumnDefinition.name, valueOf td.columns record n = _)
    (show _ + 0 = pk.length by rw [hall, Nat.add_zero])
  rw [deserializePrimaryKey, hcols, Exec.ret_bind]
  dsimp only
  rw [deserializeKey]
  change (sliceOf bytes 0 (getNullBitmapSize td.columns) >>= _) = _
  rw [hbitmap, Exec.ret_bind]
  change (getVariableLengthDataOffset td.columns bitmap (getNullBitmapSize td.columns) >>= _) = _
  rw [hoffset, Exec.ret_bind, foundValues_start hk hpk (valueOf td.columns record), ← any_isNull_start hk]
  exact hkeys

/-- The key lists the second column first, and there is a byte behind the record. -/
theorem deserializePrimaryKey_of_deserialize_lines :
    deserialize (lineTable ["line", "order_id"]).columns [252, 7, 0, 0, 0, 1, 0, 0, 0, 99] = .ret (.ok (line 7 1)) ∧
      deserializePrimaryKey (lineTable ["line", "order_id"]) [252, 7, 0, 0, 0, 1, 0, 0, 0, 99] =
        .ret (.ok ([.int 1, .int 7] : Key Decimal96)) := by
  have hkeyed : (lineTable ["line", "order_id"]).Keyed ["line", "order_id"] :=
    ⟨rfl, by decide, by decide, by decide⟩
  have hdecoded : deserialize (lineTable ["line", "order_id"]).columns [252, 7, 0, 0, 0, 1, 0, 0, 0, 99] =
      .ret (.ok (line 7 1)) := by decide
  exact ⟨hdecoded, deserializePrimaryKey_of_deserialize hkeyed hdecoded⟩

/-! ## Bytes behind the record -/

namespace RecordSerializer

theorem sliceOf_more {bytes data : Bytes} {lo hi : ℕ} (h : sliceOf bytes lo hi = .ret data) (more : Bytes) :
    sliceOf (bytes ++ more) lo hi = .ret data := by
  unfold sliceOf at h ⊢
  split_ifs at h with hin
  have hin' : lo ≤ hi ∧ hi ≤ (bytes ++ more).length := ⟨hin.1, by rw [List.length_append]; omega⟩
  rw [if_pos hin', ← h, List.drop_append_of_le_length (hin.1.trans hin.2),
    List.take_append_of_le_length (by rw [List.length_drop]; omega)]

theorem splitAt_more {bytes size rest : Bytes} {mid : ℕ} (h : splitAt bytes mid = .ret (size, rest)) (more : Bytes) :
    splitAt (bytes ++ more) mid = .ret (size, rest ++ more) := by
  unfold splitAt at h ⊢
  split_ifs at h with hin
  cases h
  rw [if_pos (by rw [List.length_append]; omega), List.take_append_of_le_length hin,
    List.drop_append_of_le_length hin]

section Value

variable {col : ColumnDefinition} {bytes : Bytes} {f w f' w' : ℕ} {v : DataValue D}

theorem ReadsCell.deserializeColValue (h : ReadsCell col bytes f w v f' w') :
    deserializeColValue col bytes f w = .ret (v, f', w') := by
  rw [RecordSerializer.deserializeColValue, PrimitiveDataType.isFixedSize_eq]
  cases h with
  | fixedSized hsize htype hread =>
    rw [hsize, Option.isSome_some, if_pos rfl, Exec.unwrap_some, Exec.ret_bind, hread]
    rfl
  | variableSized hsize htype hslice hsplit hread hadvance =>
    rw [hsize, Option.isSome_none, if_neg Bool.false_ne_true, hslice, Exec.ret_bind, hsplit, Exec.ret_bind]
    dsimp only
    rw [hread, Exec.ret_bind, hadvance]
    rfl

theorem ReadsCell.more (h : ReadsCell col bytes f w v f' w') (more : Bytes) :
    ReadsCell col (bytes ++ more) f w v f' w' := by
  cases h with
  | fixedSized hsize htype hread =>
    refine .fixedSized hsize htype ?_
    unfold deserializeFixedSizedColValue at hread ⊢
    obtain ⟨data, hdata, hread⟩ := Exec.bind_eq_ret.mp hread
    rw [sliceOf_more hdata more, Exec.ret_bind]
    exact hread
  | variableSized hsize htype hslice hsplit hread hadvance =>
    refine .variableSized hsize htype ?_ (splitAt_more hsplit more) ?_ hadvance
    · unfold sliceOf at hslice ⊢
      split_ifs at hslice with hin
      cases hslice
      have hin' : w ≤ (bytes ++ more).length := by
        rw [List.length_append]
        omega
      rw [if_pos ⟨hin', le_rfl⟩, List.take_of_length_le (by rw [List.length_drop]),
        List.take_of_length_le (by rw [List.length_drop]), List.drop_append_of_le_length hin.1]
    · unfold deserializeVariableSizedColValue at hread ⊢
      obtain ⟨data, hdata, hread⟩ := Exec.bind_eq_ret.mp hread
      rw [sliceOf_more hdata more, Exec.ret_bind]
      exact hread

theorem deserializeLoop_more {bitmap : Bytes} {cols : List ColumnDefinition} {i : ℕ} {values : List (DataValue D)}
    (h : deserializeLoop bitmap bytes cols i f w = .ret (.ok values)) (more : Bytes) :
    deserializeLoop bitmap (bytes ++ more) cols i f w = .ret (.ok values) := by
  induction cols generalizing i f w values with
  | nil => exact h
  | cons col cols ih =>
    rw [deserializeLoop]
    obtain ⟨rest, hnull, hnullable, rfl, hloop⟩ | ⟨v, rest, f', w', hnull, hcell, rfl, -, hloop⟩ :=
      deserializeLoop_cons h
    · rw [hnull, Exec.ret_bind, if_pos rfl, if_pos hnullable, ih hloop]
      rfl
    · rw [hnull, Exec.ret_bind, if_neg Bool.false_ne_true, (hcell.more more).deserializeColValue, Exec.ret_bind]
      dsimp only
      rw [ih hloop]
      rfl

/-- **Bytes behind a record do not matter.** -/
theorem deserialize_more {columns : List ColumnDefinition} {record : Record D}
    (h : deserialize columns bytes = .ret (.ok record)) (more : Bytes) :
    deserialize columns (bytes ++ more) = .ret (.ok record) := by
  unfold deserialize at h ⊢
  dsimp only
  obtain ⟨bitmap, hbitmap, h⟩ := Exec.bind_eq_ret.mp h
  obtain ⟨offset, hoffset, hloop⟩ := Exec.bind_eq_ret.mp h
  rw [sliceOf_more hbitmap more, Exec.ret_bind, hoffset, Exec.ret_bind, deserializeLoop_more hloop more]

/-! ## The bytes that were read -/

omit [RustDecimal D] in
theorem fromUtf8_eq_some {data : Bytes} {text : String} (h : fromUtf8 data = some text) : asBytes text = data := by
  unfold fromUtf8 String.fromUTF8? at h
  split_ifs at h with hvalid
  cases h
  rfl

omit [RustDecimal D] in
theorem dataLength_of_read {rest : Bytes} {n : Int32}
    (h : deserializeVariableSizedColValue col rest n = .ret (.ok v)) :
    v.dataLength = asUsize n ∧ asUsize n ≤ rest.length := by
  unfold deserializeVariableSizedColValue at h
  obtain ⟨data, hdata, h⟩ := Exec.bind_eq_ret.mp h
  unfold sliceOf at hdata
  split_ifs at hdata with hin
  have hlen : data.length = asUsize n := by
    rw [← Exec.ret.inj hdata, List.drop_zero, Nat.sub_zero, List.length_take, Nat.min_eq_left hin.2]
  refine ⟨?_, hin.2⟩
  cases ht : col.dataType <;> rw [ht] at h <;> dsimp only at h
  case blob =>
    cases h
    exact hlen
  case varchar =>
    obtain ⟨text, htext, h⟩ := Exec.bind_eq_ret.mp h
    cases h
    cases hutf : fromUtf8 data with
    | none =>
      rw [hutf] at htext
      cases htext
    | some text' =>
      rw [hutf] at htext
      cases htext
      rw [← hlen, ← fromUtf8_eq_some hutf]
      rfl
  all_goals cases h

theorem asUsize_lt {n : Int32} (h : asUsize n < 2 ^ 63) : asUsize n < 2 ^ 31 := by
  have hlt := n.toInt_lt
  have hle := n.le_toInt
  unfold asUsize at h ⊢
  omega

theorem ReadsCell.sizes (hsize : bytes.length < 2 ^ 63) (h : ReadsCell col bytes f w v f' w')
    (hvariant : v.HasVariant col.dataType) :
    f' = f + (fixedBytes v).length ∧ w' = w + (variableBytes v).length ∧ v.dataLength < 2 ^ 31 ∧
      (f ≤ bytes.length → f' ≤ bytes.length) ∧ (w ≤ bytes.length → w' ≤ bytes.length) := by
  cases h with
  | @fixedSized n hn htype hread =>
    have hdata : v.dataLength = 0 := by
      obtain ⟨name, t, nullable⟩ := col
      cases v <;> cases t <;> first | rfl | exact False.elim hvariant | cases hn
    unfold deserializeFixedSizedColValue at hread
    obtain ⟨data, hdata', -⟩ := Exec.bind_eq_ret.mp hread
    unfold sliceOf at hdata'
    split_ifs at hdata' with hin
    rw [length_fixedBytes hvariant hn, (parts_of_fixed hvariant hn).1, hdata]
    exact ⟨rfl, rfl, by decide, fun _ => hin.2, id⟩
  | @variableSized data size rest _ hn htype hslice hsplit hread hadvance =>
    obtain ⟨text, hfixed, hvariable, hlen⟩ := parts_of_variable hvariant hn
    obtain ⟨hdata, hrest⟩ := dataLength_of_read hread
    unfold sliceOf at hslice
    split_ifs at hslice with hin
    unfold splitAt at hsplit
    split_ifs at hsplit with hsplit'
    cases hsplit
    have htake := congrArg List.length (Exec.ret.inj hslice)
    rw [List.length_take, List.length_drop] at htake
    rw [List.length_drop] at hrest
    have hshort : asUsize (i32FromLeBytes (data.take 4)) < 2 ^ 31 := asUsize_lt (by omega)
    have hw' : w' = w + 4 + asUsize (i32FromLeBytes (data.take 4)) := by
      unfold advance at hadvance
      split_ifs at hadvance
      exact (Exec.ret.inj hadvance).symm
    rw [hfixed, hvariable, List.length_append, length_leBytes, ← hlen, hdata]
    exact ⟨rfl, by omega, hshort, id, fun _ => by omega⟩

/-- The cursors pass over as many bytes as the values take when they are written. -/
theorem sizes_of_deserializeLoop (hsize : bytes.length < 2 ^ 63) {bitmap : Bytes} {cols : List ColumnDefinition}
    {i : ℕ} {values : List (DataValue D)} (h : deserializeLoop bitmap bytes cols i f w = .ret (.ok values)) :
    ShortData values ∧ (f ≤ bytes.length → f + (fixedPart values).length ≤ bytes.length) ∧
      (w ≤ bytes.length → w + (variablePart values).length ≤ bytes.length) ∧ ∀ offset offset',
        variableLengthDataOffsetLoop bitmap cols i offset = .ret offset' →
          offset' = offset + (fixedPart values).length := by
  induction cols generalizing i f w values with
  | nil =>
    cases h
    exact ⟨fun _ hv => absurd hv List.not_mem_nil, id, id, fun _ _ h => (Exec.ret.inj h).symm⟩
  | cons col cols ih =>
    obtain ⟨rest, hnull, -, rfl, hloop⟩ | ⟨v, rest, f', w', hnull, hcell, rfl, hvariant, hloop⟩ :=
      deserializeLoop_cons h
    · obtain ⟨hshort, hfixed, hvariable, hoffset⟩ := ih hloop
      refine ⟨List.forall_mem_cons.mpr ⟨Nat.two_pow_pos 31, hshort⟩, hfixed, hvariable, fun offset offset' h => ?_⟩
      rw [variableLengthDataOffsetLoop, hnull, Exec.ret_bind, if_pos rfl] at h
      exact hoffset offset offset' h
    · obtain ⟨hshort, hfixed, hvariable, hoffset⟩ := ih hloop
      obtain ⟨hf, hw, hv, hfin, hwin⟩ := hcell.sizes hsize hvariant
      rw [fixedPart_cons, variablePart_cons, List.length_append, List.length_append]
      refine ⟨List.forall_mem_cons.mpr ⟨hv, hshort⟩, fun hle => ?_, fun hle => ?_, fun offset offset' h => ?_⟩
      · have := hfixed (hfin hle)
        omega
      · have := hvariable (hwin hle)
        omega
      · rw [variableLengthDataOffsetLoop, hnull, Exec.ret_bind, if_neg Bool.false_ne_true] at h
        cases hcell with
        | fixedSized hn htype =>
          rw [if_pos htype, hn, Exec.unwrap_some, Exec.ret_bind] at h
          have := hoffset _ _ h
          omega
        | variableSized hn htype =>
          rw [if_neg (Bool.eq_false_iff.mp htype)] at h
          have := hoffset _ _ h
          omega

end Value

end RecordSerializer

/-- A record that was decoded from some bytes is written again as `canonical`. -/
structure Reserialized (columns : List ColumnDefinition) (bytes : Bytes) (record : Record D) (canonical : Bytes) :
    Prop where
  written : serialize columns record = .ret (.ok canonical)
  reread : ∀ more, deserialize columns (canonical ++ more) = .ret (.ok record)
  length_le : canonical.length ≤ bytes.length
  behind : ∀ more, deserialize columns (bytes ++ more) = .ret (.ok record)

/-- **A record that was decoded can be written again**, in no more bytes, and is read back from them. Whatever comes
behind it does not matter. A slice has less than `2 ^ 63` bytes. -/
theorem reserialized [DecimalCodec D] {columns : List ColumnDefinition} {bytes : Bytes} {record : Record D}
    (hsize : bytes.length < 2 ^ 63) (h : deserialize columns bytes = .ret (.ok record)) :
    ∃ canonical, Reserialized columns bytes record canonical := by
  have htyped := wellTyped_of_deserialize h
  have hbehind := deserialize_more h
  unfold deserialize at h
  obtain ⟨bitmap, hbitmap, h⟩ := Exec.bind_eq_ret.mp h
  obtain ⟨offset, hoffset, hloop⟩ := Exec.bind_eq_ret.mp h
  obtain ⟨hshort, hfixed, hvariable, hboundary⟩ := sizes_of_deserializeLoop hsize hloop
  refine ⟨encode record, serialize_eq htyped, deserialize_more (deserialize_encode htyped hshort), ?_, hbehind⟩
  have hnb : (nullBitmap record).length = getNullBitmapSize columns := by
    rw [length_nullBitmap, htyped.length_eq, getNullBitmapSize]
  have hin : getNullBitmapSize columns ≤ bytes.length := by
    unfold sliceOf at hbitmap
    split_ifs at hbitmap with hin
    exact hin.2
  have hoffset := hboundary _ _ hoffset
  have hend := hvariable (hoffset ▸ hfixed hin)
  rw [encode, List.length_append, List.length_append, hnb]
  omega

/-- Bits of the null bitmap that belong to no column, and a boolean that is neither `0` nor `1`. -/
theorem reserialized_padded : ∃ canonical,
    Reserialized [⟨"active", .boolean, false⟩] [254, 5, 99] ([.boolean true] : Record Decimal96) canonical :=
  reserialized (by decide) (by decide)

end RarmDb
