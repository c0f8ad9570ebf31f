import RarmDb.Record.RoundTrip

/-!
# What the decoder returns

* `hasVariant_of_fixed`, `hasVariant_of_variable`: a value has the variant of its column;
* **`wellTyped_of_deserialize`**: whatever the bytes are, a record that `deserialize` returns is
  well-typed;
* **`hasVariant_of_deserializePrimaryKey`**: and so are the values of a key.
-/

namespace RarmDb

variable {D : Type} [RustDecimal D]

namespace RecordSerializer

variable {col : ColumnDefinition} {bytes : Bytes} {v : DataValue D}

theorem hasVariant_of_fixed {offset n : ℕ}
    (h : deserializeFixedSizedColValue col bytes offset n = .ret (.ok v)) :
    v.HasVariant col.dataType := by
  unfold deserializeFixedSizedColValue at h
  obtain ⟨data, -, h⟩ := Exec.bind_eq_ret.mp h
  cases ht : col.dataType <;> rw [ht] at h <;> dsimp only at h
  case bigInt | dateTime | float | int =>
    obtain ⟨arr, -, h⟩ := Exec.bind_eq_ret.mp h
    cases h
    trivial
  case boolean =>
    obtain ⟨val, -, h⟩ := Exec.bind_eq_ret.mp h
    cases h
    trivial
  case decimal =>
    split_ifs at h <;> cases h
    trivial
  all_goals cases h

omit [RustDecimal D] in
theorem hasVariant_of_variable {n : Int32}
    (h : deserializeVariableSizedColValue col bytes n = .ret (.ok v)) :
    v.HasVariant col.dataType := by
  unfold deserializeVariableSizedColValue at h
  obtain ⟨data, -, h⟩ := Exec.bind_eq_ret.mp h
  cases ht : col.dataType <;> rw [ht] at h <;> dsimp only at h
  case blob =>
    cases h
    trivial
  case varchar =>
    obtain ⟨text, -, h⟩ := Exec.bind_eq_ret.mp h
    cases h
    trivial
  all_goals cases h

theorem eq_ok_of_unwrapResult {ε α : Type} {result : Except ε α} {a : α}
    (h : Exec.unwrapResult result = .ret a) : result = .ok a := by
  cases result with
  | error e => cases h
  | ok b => rw [Exec.ret.inj h]

theorem hasVariant_of_deserializeColValue {fixed variable' fixed' variable'' : ℕ}
    (h : deserializeColValue col bytes fixed variable' = .ret (v, fixed', variable'')) :
    v.HasVariant col.dataType := by
  unfold deserializeColValue at h
  split_ifs at h
  · obtain ⟨n, -, h⟩ := Exec.bind_eq_ret.mp h
    obtain ⟨result, hread, h⟩ := Exec.bind_eq_ret.mp h
    obtain ⟨value, hvalue, h⟩ := Exec.bind_eq_ret.mp h
    rw [eq_ok_of_unwrapResult hvalue] at hread
    cases h
    exact hasVariant_of_fixed hread
  · obtain ⟨data, -, h⟩ := Exec.bind_eq_ret.mp h
    obtain ⟨⟨size, rest⟩, -, h⟩ := Exec.bind_eq_ret.mp h
    obtain ⟨result, hread, h⟩ := Exec.bind_eq_ret.mp h
    obtain ⟨offset, -, h⟩ := Exec.bind_eq_ret.mp h
    obtain ⟨value, hvalue, h⟩ := Exec.bind_eq_ret.mp h
    rw [eq_ok_of_unwrapResult hvalue] at hread
    cases h
    exact hasVariant_of_variable hread

theorem wellTyped_of_deserializeLoop {bitmap : Bytes} {cols : List ColumnDefinition}
    {i fixed variable' : ℕ} {values : List (DataValue D)}
    (h : deserializeLoop bitmap bytes cols i fixed variable' = .ret (.ok values)) :
    WellTyped cols values := by
  induction cols generalizing i fixed variable' values with
  | nil =>
    cases h
    exact .nil
  | cons col cols ih =>
    rw [deserializeLoop] at h
    obtain ⟨isNull, -, h⟩ := Exec.bind_eq_ret.mp h
    split_ifs at h with hnull hnullable
    · obtain ⟨rest, hrest, h⟩ := Exec.bind_eq_ret.mp h
      cases rest with
      | error e => cases h
      | ok rest =>
        cases h
        exact .cons (.inl ⟨rfl, hnullable⟩) (ih hrest)
    · cases h
    · obtain ⟨⟨v, fixed', variable''⟩, hv, h⟩ := Exec.bind_eq_ret.mp h
      obtain ⟨rest, hrest, h⟩ := Exec.bind_eq_ret.mp h
      cases rest with
      | error e => cases h
      | ok rest =>
        cases h
        exact .cons (.inr (hasVariant_of_deserializeColValue hv)) (ih hrest)

/-- **`deserialize` returns well-typed records only.** -/
theorem wellTyped_of_deserialize {columns : List ColumnDefinition} {record : Record D}
    (h : deserialize columns bytes = .ret (.ok record)) : WellTyped columns record := by
  unfold deserialize at h
  obtain ⟨bitmap, -, h⟩ := Exec.bind_eq_ret.mp h
  obtain ⟨offset, -, h⟩ := Exec.bind_eq_ret.mp h
  exact wellTyped_of_deserializeLoop h

/-! ## Keys -/

/-- The key values of columns that are not among the columns still to come. -/
def FoundTyped (type : String → PrimitiveDataType) (pk names : List String) (key : Key D) : Prop :=
  key.length = pk.length ∧
    ∀ (k : ℕ) (n : String), pk[k]? = some n → n ∉ names → ∃ v : DataValue D, key[k]? = some v ∧ v.HasVariant (type n)

omit [RustDecimal D] in
theorem FoundTyped.set {type : String → PrimitiveDataType} {pk names : List String} {key : Key D}
    {n : String} (h : FoundTyped type pk (n :: names) key) (hnd : pk.Nodup) {k : ℕ}
    (hk : pk[k]? = some n) (hv : v.HasVariant (type n)) : FoundTyped type pk names (key.set k v) := by
  refine ⟨by rw [List.length_set, h.1], fun j m hj hm => ?_⟩
  have hlt : j < pk.length := (List.getElem?_eq_some_iff.mp hj).1
  by_cases hjk : k = j
  · subst hjk
    obtain rfl : n = m := Option.some.inj (hk.symm.trans hj)
    exact ⟨v, List.getElem?_set_self (by rw [h.1]; exact hlt), hv⟩
  · rw [List.getElem?_set_ne hjk]
    refine h.2 j m hj fun hmem => ?_
    rcases List.mem_cons.mp hmem with rfl | hmem
    · exact hjk ((List.getElem?_inj (List.getElem?_eq_some_iff.mp hk).1 hnd).mp (hk.trans hj.symm))
    · exact hm hmem

omit [RustDecimal D] in
theorem FoundTyped.skip {type : String → PrimitiveDataType} {pk names : List String} {key : Key D}
    {n : String} (h : FoundTyped type pk (n :: names) key) (hn : n ∉ pk) :
    FoundTyped type pk names key := by
  refine ⟨h.1, fun j m hj hm => h.2 j m hj fun hmem => ?_⟩
  rcases List.mem_cons.mp hmem with rfl | hmem
  · exact hn (List.mem_of_getElem? hj)
  · exact hm hmem

omit [RustDecimal D] in
theorem foundTyped_of_read {type : String → PrimitiveDataType} {keyCols : List ColumnDefinition}
    {pk names : List String} (hpk : keyCols.map ColumnDefinition.name = pk) (hnd : pk.Nodup)
    {key key' : Key D} (h : FoundTyped type pk (col.name :: names) key)
    (htype : type col.name = col.dataType) {keyColIndex : ℕ}
    (hindex : (if decide (col.name ∈ pk) = true then
        Exec.unwrap (keyCols.findIdx? fun c => c.name = col.name) else pure 0) = .ret keyColIndex)
    {read : Exec (Except SerializationError (DataValue D))}
    (hread : ∀ v, read = .ret (.ok v) → v.HasVariant col.dataType)
    (hkey : (if decide (col.name ∈ pk) = true then do
        let value ← read
        let value ← Exec.unwrapResult value
        return key.set keyColIndex value
      else pure key : Exec (Key D)) = .ret key') :
    FoundTyped type pk names key' := by
  by_cases hn : col.name ∈ pk
  · rw [if_pos (decide_eq_true hn)] at hindex hkey
    obtain ⟨result, hresult, hkey⟩ := Exec.bind_eq_ret.mp hkey
    obtain ⟨value, hvalue, hkey⟩ := Exec.bind_eq_ret.mp hkey
    rw [eq_ok_of_unwrapResult hvalue] at hresult
    obtain ⟨k, hfind, hk⟩ := findIdx_name hpk hn
    rw [hfind] at hindex
    cases hindex
    cases hkey
    exact h.set hnd hk (htype ▸ hread value hresult)
  · rw [if_neg (by simpa using hn)] at hkey
    cases hkey
    exact h.skip hn

theorem foundTyped_of_deserializeKeyLoop {type : String → PrimitiveDataType}
    {keyCols : List ColumnDefinition} {pk : List String}
    (hpk : keyCols.map ColumnDefinition.name = pk) (hnd : pk.Nodup) {cols : List ColumnDefinition}
    (hnames : (cols.map ColumnDefinition.name).Nodup)
    (htype : ∀ c ∈ cols, type c.name = c.dataType) {bitmap : Bytes} {i : ℕ} {s : KeyState D}
    {key : Key D} (hs : FoundTyped type pk (cols.map ColumnDefinition.name) s.rowValues)
    (hfound : (pk.filter fun n => n ∈ cols.map ColumnDefinition.name).length + s.keyColsFound =
      pk.length) (h : deserializeKeyLoop keyCols bitmap bytes cols i s = .ret (.ok key)) :
    FoundTyped type pk [] key := by
  have hlen : keyCols.length = pk.length := by rw [← hpk, List.length_map]
  induction cols generalizing i s with
  | nil =>
    cases h
    exact hs
  | cons col cols ih =>
    rw [List.map_cons] at hnames hs hfound
    obtain ⟨hfresh, hnames⟩ := List.nodup_cons.mp hnames
    have htype' : ∀ c ∈ cols, type c.name = c.dataType := fun c hc =>
      htype c (List.mem_cons_of_mem _ hc)
    rw [deserializeKeyLoop] at h
    by_cases hexit : s.keyColsFound ≥ keyCols.length
    · -- All key columns have been found, so none of the names is still to come.
      rw [if_pos hexit] at h
      cases h
      refine ⟨hs.1, fun k n hk _ => hs.2 k n hk ?_⟩
      exact not_mem_of_found hfound (hlen ▸ hexit) n (List.mem_of_getElem? hk)
    · have hfound' := found_cons hnd hfresh hfound
      rw [if_neg hexit, any_name hpk] at h
      dsimp only at h
      obtain ⟨keyColIndex, hindex, h⟩ := Exec.bind_eq_ret.mp h
      obtain ⟨isNull, -, h⟩ := Exec.bind_eq_ret.mp h
      by_cases hnull : isNull = true
      · rw [if_pos hnull] at h
        by_cases hkey : decide (col.name ∈ pk) = true
        · rw [if_pos hkey] at h
          cases h
        · rw [if_neg hkey] at h
          refine ih hnames htype' ?_ hfound' h
          exact hs.skip (by simpa using hkey)
      · rw [if_neg hnull] at h
        have htyped := htype _ List.mem_cons_self
        by_cases hfixed : col.isFixedType = true
        · rw [if_pos hfixed] at h
          obtain ⟨n, -, h⟩ := Exec.bind_eq_ret.mp h
          obtain ⟨rowValues, hrow, h⟩ := Exec.bind_eq_ret.mp h
          exact ih hnames htype' (foundTyped_of_read hpk hnd hs htyped hindex
            (fun v hv => hasVariant_of_fixed hv) hrow) hfound' h
        · rw [if_neg hfixed] at h
          obtain ⟨data, -, h⟩ := Exec.bind_eq_ret.mp h
          obtain ⟨⟨size, rest⟩, -, h⟩ := Exec.bind_eq_ret.mp h
          obtain ⟨rowValues, hrow, h⟩ := Exec.bind_eq_ret.mp h
          obtain ⟨offset, -, h⟩ := Exec.bind_eq_ret.mp h
          exact ih hnames htype' (foundTyped_of_read hpk hnd hs htyped hindex
            (fun v hv => hasVariant_of_variable hv) hrow) hfound' h

/-- **The values of a key have the variants of the key columns**, whatever the bytes are. -/
theorem hasVariant_of_deserializePrimaryKey {td : TableDefinition} {pk : List String}
    (hk : td.Keyed pk) {type : String → PrimitiveDataType}
    (htype : ∀ c ∈ td.columns, type c.name = c.dataType) {key : Key D}
    (h : deserializePrimaryKey td bytes = .ret (.ok key)) : FoundTyped type pk [] key := by
  obtain ⟨keyCols, hcols, hpk⟩ := TableDefinition.getPrimaryKeyColumns_eq hk
  rw [deserializePrimaryKey, hcols, Exec.ret_bind] at h
  dsimp only at h
  unfold deserializeKey at h
  obtain ⟨bitmap, -, h⟩ := Exec.bind_eq_ret.mp h
  obtain ⟨offset, -, h⟩ := Exec.bind_eq_ret.mp h
  have hall : (pk.filter fun n => n ∈ td.columns.map ColumnDefinition.name) = pk :=
    List.filter_eq_self.mpr fun n hn => decide_eq_true (hk.exist n hn)
  have hstart : FoundTyped type pk (td.columns.map ColumnDefinition.name)
      (List.replicate keyCols.length (.null : DataValue D)) := by
    refine ⟨?_, fun k n hkn hn => absurd (hk.exist n (List.mem_of_getElem? hkn)) hn⟩
    rw [List.length_replicate, ← hpk, List.length_map]
  refine foundTyped_of_deserializeKeyLoop hpk hk.nodup hk.names htype hstart ?_ h
  rw [hall]
  rfl

omit [RustDecimal D] in
/-- The offset of the values of variable size is found only when no value is in a column of unknown
type. -/
theorem isNull_of_variableLengthDataOffsetLoop {cols : List ColumnDefinition}
    {values : List (DataValue D)} (hlen : values.length = cols.length) {bitmap : Bytes} {i : ℕ}
    (hm : Marks bitmap i values) (hi : i + values.length ≤ 8 * bitmap.length) {offset offset' : ℕ}
    (h : variableLengthDataOffsetLoop bitmap cols i offset = .ret offset') :
    ∀ c ∈ cols.zip values, c.1.dataType = .unknown → c.2.isNull = true := by
  induction cols generalizing values i offset with
  | nil => exact fun _ hc => absurd hc List.not_mem_nil
  | cons col cols ih =>
    cases values with
    | nil => cases hlen
    | cons v values =>
      have hrest : i + 1 + values.length ≤ 8 * bitmap.length := by
        rw [List.length_cons] at hi
        omega
      rw [variableLengthDataOffsetLoop, hm.isColValueNull hi, Exec.ret_bind] at h
      rw [List.zip_cons_cons, List.forall_mem_cons]
      have hlen := Nat.succ_injective hlen
      by_cases hnull : v.isNull = true
      · rw [if_pos hnull] at h
        exact ⟨fun _ => hnull, ih hlen hm.tail hrest h⟩
      · rw [if_neg hnull] at h
        by_cases hfixed : col.isFixedType = true
        · rw [if_pos hfixed] at h
          obtain ⟨n, hn, h⟩ := Exec.bind_eq_ret.mp h
          refine ⟨fun ht => ?_, ih hlen hm.tail hrest h⟩
          rw [ht] at hn
          cases hn
        · rw [if_neg hfixed] at h
          refine ⟨fun ht => ?_, ih hlen hm.tail hrest h⟩
          rw [ColumnDefinition.isFixedType, ht] at hfixed
          exact absurd rfl hfixed

/-- The key of a record is read only when no value is in a column of unknown type. -/
theorem isNull_of_deserializePrimaryKey {td : TableDefinition} {pk : List String} (hk : td.Keyed pk)
    {record : Record D} (hlen : record.length = td.columns.length)
    {result : Except SerializationError (Key D)}
    (h : deserializePrimaryKey td (encodeAs td.columns record) = .ret result) :
    ∀ c ∈ td.columns.zip record, c.1.dataType = .unknown → c.2.isNull = true := by
  obtain ⟨keyCols, hcols, -⟩ := TableDefinition.getPrimaryKeyColumns_eq hk
  have hnb : (td.columns.length + 7) / 8 = (nullBitmap record).length := by
    rw [length_nullBitmap, hlen]
  have hi : 0 + record.length ≤ 8 * (nullBitmap record).length := by
    rw [length_nullBitmap]
    omega
  have hslice : sliceOf (encodeAs td.columns record) 0 (nullBitmap record).length =
      .ret (nullBitmap record) := sliceOf_zero (List.append_assoc ..)
  rw [deserializePrimaryKey, hcols, Exec.ret_bind] at h
  dsimp only at h
  rw [deserializeKey, hnb, hslice, Exec.ret_bind] at h
  obtain ⟨offset, hoffset, -⟩ := Exec.bind_eq_ret.mp h
  exact isNull_of_variableLengthDataOffsetLoop hlen (marks_nullBitmap record) hi hoffset

end RecordSerializer

end RarmDb
