import RarmDb.Record.Accept
import RarmDb.Leaf.Search

/-!
# What a leaf accepts

`insert_record` compares keys in memory, later searches decode the keys of the records on the page.

* `StoresKeys`: the bytes of the records of a page, with the keys that the code decodes from them;
* `Findable`: the records whose keys decode to themselves; `Readable`: what is expected of a leaf after
  a record was inserted;
* `insertRecord_cases`: what one insertion does; `readable_of_findable`, `findable_of_readable`;
* **`readable_iff`**: over every run of insertions.
-/

namespace RarmDb

open RecordSerializer SortedMap LeafNodeView

variable {D : Type} [RustDecimal D]

/-! ## The keys on a page -/

/-- Slot by slot, the keys that the code decodes and the bytes of the records. The keys increase
strictly. -/
structure StoresKeys (td : TableDefinition) (p : Page) (es : List (Key D × Bytes)) : Prop where
  wf : p.WF
  recordsOf : p.recordsOf = es.map Prod.snd
  decode : ∀ e ∈ es, deserializePrimaryKey td e.2 = .ret (.ok e.1)
  sorted : Sorted Key.cmp (es.map Prod.fst)

variable {td : TableDefinition} {pk : List String} {leaf leaf' : LeafNodeView} {p : Page}
  {es : List (Key D × Bytes)} {record : Record D}

namespace StoresKeys

theorem count (h : StoresKeys td p es) : p.itemCount = es.length := by
  rw [← Page.length_recordsOf, h.recordsOf, List.length_map]

theorem getRecord (h : StoresKeys td p es) {i : ℕ} (hi : i < es.length) :
    p.getRecord i = .ret (some es[i].2) := by
  refine Page.getRecord_of_recordsOf h.wf ?_
  rw [h.recordsOf, List.getElem?_map, List.getElem?_eq_getElem hi]
  rfl

theorem keysAre (h : StoresKeys td p es) : KeysAre p td (es.map Prod.fst) where
  count := by rw [List.length_map, h.count]
  decode i hi := by
    rw [List.length_map] at hi
    refine ⟨_, h.getRecord hi, ?_⟩
    rw [List.getElem_map, h.decode _ (List.getElem_mem hi)]

theorem insertPage (h : StoresKeys td p es) {key : Key D} {bytes : Bytes} {i : ℕ}
    (hn : Narrows Key.cmp (es.map Prod.fst) key i i)
    (hroom : bytes.length + 4 ≤ p.heapEnd - (32 + 4 * p.itemCount))
    (hkey : deserializePrimaryKey td bytes = .ret (.ok key)) :
    StoresKeys td (p.insertPage i bytes) (es.insertIdx i (key, bytes)) := by
  have hi : i ≤ p.itemCount := by
    have hle := hn.high_le
    rwa [List.length_map, ← h.count] at hle
  refine ⟨Page.insertPage_wf h.wf hroom hi, ?_, fun e he => ?_, ?_⟩
  · rw [Page.recordsOf_insertPage h.wf hroom hi, h.recordsOf, List.map_insertIdx]
  · rcases List.eq_or_mem_of_mem_insertIdx he with rfl | he
    · exact hkey
    · exact h.decode e he
  · rw [List.map_insertIdx]
    exact h.sorted.insertIdx hn

end StoresKeys

/-! ## Findable records -/

/-- Every key value has the variant of its column, and a column of unknown type is null. -/
def Findable (td : TableDefinition) (pk : List String) (record : Record D) : Prop :=
  ∀ c ∈ td.columns.zip record, (c.1.dataType = .unknown → c.2.isNull = true) ∧
    (c.1.name ∈ pk → c.2.HasVariant c.1.dataType)

theorem Findable.keyReadable (h : Findable td pk record) (hlen : record.length = td.columns.length)
    (hstores : ∀ c ∈ td.columns.zip record, Stores c.1 c.2) :
    List.Forall₂ (KeyReadable pk) td.columns record := by
  refine List.forall₂_iff_zip.mpr ⟨hlen.symm, fun {col v} hc => ⟨?_, fun hn _ => (h _ hc).2 hn⟩⟩
  by_cases hv : v.isNull = true
  · exact .inl hv
  · exact .inr ⟨(hstores _ hc).resolve_left hv, fun ht => hv ((h _ hc).1 ht)⟩

omit [RustDecimal D] in
theorem valueOf_eq {cols : List ColumnDefinition} {values : List (DataValue D)}
    (hnames : (cols.map ColumnDefinition.name).Nodup) {c : ColumnDefinition × DataValue D}
    (hc : c ∈ cols.zip values) : valueOf cols values c.1.name = c.2 := by
  induction cols generalizing values with
  | nil => exact absurd hc List.not_mem_nil
  | cons col cols ih =>
    cases values with
    | nil => exact absurd hc List.not_mem_nil
    | cons v values =>
      obtain ⟨hfresh, hnames⟩ := List.nodup_cons.mp hnames
      rw [valueOf]
      rcases List.mem_cons.mp hc with rfl | hc
      · exact if_pos rfl
      · rw [if_neg, ih hnames hc]
        intro heq
        exact hfresh (heq ▸ List.mem_map_of_mem (List.of_mem_zip hc).1)

omit [RustDecimal D] in
theorem exists_cell {cols : List ColumnDefinition} {values : List (DataValue D)}
    (hlen : values.length = cols.length) {n : String} (hn : n ∈ cols.map ColumnDefinition.name) :
    ∃ c ∈ cols.zip values, c.1.name = n := by
  have hfst := List.map_fst_zip hlen.ge
  rw [← hfst, List.map_map] at hn
  exact List.mem_map.mp hn

omit [RustDecimal D] in
theorem Findable.any_isNull (h : Findable td pk record) (hk : td.KeyInOrder pk)
    (hlen : record.length = td.columns.length) : (keyOf td pk record).any DataValue.isNull = false := by
  rw [keyOf, List.any_map, List.any_eq_false]
  intro n hn
  obtain ⟨c, hc, rfl⟩ := exists_cell hlen (hk.keyed.exist n hn)
  rw [Function.comp_apply, valueOf_eq hk.names hc, ((h c hc).2 hn).isNull]
  exact Bool.false_ne_true

theorem hasVariant_of_beq {v w : DataValue D} {t : PrimitiveDataType} (h : (v == w) = true)
    (hw : w.HasVariant t) : v.HasVariant t := by
  change DataValue.beq v w = true at h
  cases w <;> cases v <;> first | (cases t <;> exact hw) | cases h

theorem getElem?_of_beq {key key' : Key D} (h : (key == key') = true) {k : ℕ} {w : DataValue D}
    (hw : key'[k]? = some w) : ∃ v, key[k]? = some v ∧ (v == w) = true := by
  induction key generalizing key' k with
  | nil =>
    cases key' with
    | nil => cases hw
    | cons w' key' => cases h
  | cons v key ih =>
    cases key' with
    | nil => cases h
    | cons w' key' =>
      rw [List.cons_beq_cons, Bool.and_eq_true] at h
      cases k with
      | zero =>
        cases hw
        exact ⟨v, rfl, h.1⟩
      | succ k => exact ih h.2 hw

/-- The type of the column of the given name. -/
def TableDefinition.typeOf (td : TableDefinition) (n : String) : PrimitiveDataType :=
  ((td.column n).map ColumnDefinition.dataType).getD .unknown

/-- **A record whose key decodes to itself is findable.** -/
theorem findable_of_deserializePrimaryKey (hk : td.KeyInOrder pk)
    (hlen : record.length = td.columns.length) {key : Key D}
    (hkey : deserializePrimaryKey td (encodeAs td.columns record) = .ret (.ok key))
    (heq : (keyOf td pk record == key) = true) : Findable td pk record := by
  have htype : ∀ c ∈ td.columns, td.typeOf c.name = c.dataType := by
    intro c hc
    obtain ⟨c', hc'⟩ := TableDefinition.exists_column (List.mem_map_of_mem hc : c.name ∈ td.colNames)
    have hmem : c' ∈ td.columns := List.mem_of_find?_eq_some hc'
    obtain rfl : c' = c := List.inj_on_of_nodup_map hk.names hmem hc (TableDefinition.column_name hc')
    rw [TableDefinition.typeOf, hc']
    rfl
  obtain ⟨-, htyped⟩ := hasVariant_of_deserializePrimaryKey hk.keyed htype hkey
  intro c hc
  refine ⟨isNull_of_deserializePrimaryKey hk.keyed hlen hkey c hc, fun hn => ?_⟩
  obtain ⟨k, hkn⟩ := List.mem_iff_getElem?.mp hn
  obtain ⟨w, hw, hvariant⟩ := htyped k _ hkn List.not_mem_nil
  obtain ⟨v, hv, hvw⟩ := getElem?_of_beq heq hw
  rw [keyOf, List.getElem?_map, hkn, Option.map_some, valueOf_eq hk.names hc] at hv
  obtain rfl := Option.some.inj hv
  rw [← htype c.1 (List.of_mem_zip hc).1]
  exact hasVariant_of_beq hvw hvariant

/-! ## One insertion -/

/-- What is expected of a leaf after a record was inserted: every stored key decodes, the record is found
by its key, and every search ends. -/
structure Readable (td : TableDefinition) (leaf : LeafNodeView) (record : Record D) : Prop where
  stored : ∀ i, i < leaf.pageView.itemCount → ∃ data, ∃ key : Key D,
    leaf.pageView.getRecord i = .ret (some data) ∧ deserializePrimaryKey td data = .ret (.ok key)
  found : ∃ key i bytes, record.getPrimaryKey td = .ret key ∧
    findKey leaf.pageView key td = .ret (.ok i) ∧ serialize td.columns record = .ret (.ok bytes) ∧
      leaf.pageView.getRecord i = .ret (some bytes)
  searches : ∀ key : Key D, ∃ result, findKey leaf.pageView key td = .ret result

theorem findKeyLoop_ok {key : Key D} {low high i : ℕ}
    (h : findKeyLoop p key td low high = .ret (.ok i)) :
    ∃ data, ∃ key' : Key D, p.getRecord i = .ret (some data) ∧
      deserializePrimaryKey td data = .ret (.ok key') ∧ (key == key') = true := by
  rw [findKeyLoop] at h
  by_cases hlt : low < high
  · rw [dif_pos hlt] at h
    obtain ⟨record, hrecord, h⟩ := Exec.bind_eq_ret.mp h
    obtain ⟨data, hdata, h⟩ := Exec.bind_eq_ret.mp h
    obtain ⟨result, hresult, h⟩ := Exec.bind_eq_ret.mp h
    obtain ⟨key', hkey', h⟩ := Exec.bind_eq_ret.mp h
    by_cases heq : (key == key') = true
    · rw [if_pos heq] at h
      cases h
      cases record with
      | none => cases hdata
      | some bytes =>
        cases hdata
        rw [eq_ok_of_unwrapResult hkey'] at hresult
        exact ⟨data, key', hrecord, hresult, heq⟩
    · rw [if_neg heq] at h
      split_ifs at h
      · exact findKeyLoop_ok h
      · exact findKeyLoop_ok h
  · rw [dif_neg hlt] at h
    cases h
termination_by high - low

theorem Findable.deserializePrimaryKey [DecimalCodec D] (h : Findable td pk record) (hk : td.KeyInOrder pk)
    (hlen : record.length = td.columns.length) {bytes : Bytes}
    (hser : serialize td.columns record = .ret (.ok bytes)) (hshort : bytes.length < 2 ^ 31) :
    RecordSerializer.deserializePrimaryKey td bytes = .ret (.ok (keyOf td pk record)) := by
  obtain ⟨hstores, rfl⟩ := stores_of_serialize hlen hser
  have hdata : ShortData record := by
    rw [encodeAs, List.length_append] at hshort
    exact shortData_of_variablePart (by omega)
  rw [deserializePrimaryKey_encodeAs hk.keyed (h.keyReadable hlen hstores)
    (hdata.upToKey pk td.columns), h.any_isNull hk hlen, if_neg Bool.false_ne_true]

/-- **Only findable records** leave the leaf as expected. -/
theorem findable_of_readable (hk : td.KeyInOrder pk)
    (hlen : record.length = td.columns.length) (hread : Readable td leaf' record) :
    Findable td pk record := by
  obtain ⟨key, j, bytes', hkey, hfind, hser', hrecord⟩ := hread.found
  rw [Record.getPrimaryKey_eq hk hlen] at hkey
  obtain rfl := Exec.ret.inj hkey
  rw [findKey, Page.getItemCount_eq, Exec.ret_bind] at hfind
  obtain ⟨data, key', hdata, hdecode, heq⟩ := findKeyLoop_ok hfind
  obtain rfl : bytes' = data := Option.some.inj (Exec.ret.inj (hrecord.symm.trans hdata))
  obtain ⟨-, rfl⟩ := stores_of_serialize hlen hser'
  exact findable_of_deserializePrimaryKey hk hlen hdecode heq

variable [DecimalOrder D]

/-- **One insertion**: the record is stored where its key belongs, or the leaf stays as it is. -/
theorem insertRecord_cases (h : StoresKeys td leaf.pageView es) (hk : td.KeyInOrder pk)
    (hlen : record.length = td.columns.length) :
    (∃ i bytes, leaf.insertRecord record td =
        .ret (.ok i, { leaf with pageView := leaf.pageView.insertPage i bytes }) ∧
      serialize td.columns record = .ret (.ok bytes) ∧
      Narrows Key.cmp (es.map Prod.fst) (keyOf td pk record) i i ∧
      bytes.length + 4 ≤ leaf.pageView.heapEnd - (32 + 4 * leaf.pageView.itemCount)) ∨
    ∀ out leaf', leaf.insertRecord record td = .ret (out, leaf') → leaf' = leaf ∧ ∃ e, out = .error e := by
  have hkey := Record.getPrimaryKey_eq hk hlen
  obtain ⟨result, hfind, hfound⟩ := findKey_spec h.keysAre h.sorted (keyOf td pk record)
  unfold insertRecord
  rw [hkey, Exec.ret_bind, hfind, Exec.ret_bind]
  cases result with
  | ok i =>
    refine .inr fun out leaf' hrun => ?_
    cases hrun
    exact ⟨rfl, _, rfl⟩
  | error i =>
    dsimp only
    have hn : Narrows Key.cmp (es.map Prod.fst) (keyOf td pk record) i i := hfound
    have hi : i ≤ leaf.pageView.itemCount := by
      have hle := hn.high_le
      rwa [List.length_map, ← h.count] at hle
    have hcount := h.wf.count_le
    have hu16 : asU16 i = i := Nat.mod_eq_of_lt (by omega)
    cases hser : serialize td.columns record with
    | panic => exact .inr fun out leaf' hrun => by cases hrun
    | diverge => exact .inr fun out leaf' hrun => by cases hrun
    | ret result =>
      cases result with
      | error e => exact .inr fun out leaf' hrun => by cases hrun
      | ok bytes =>
        rw [Exec.ret_bind, Exec.unwrapResult_ok, Exec.ret_bind, hu16, onPage]
        by_cases hroom : bytes.length + 4 ≤ leaf.pageView.heapEnd - (32 + 4 * leaf.pageView.itemCount)
        · rw [Page.tryInsertRecord_ok h.wf hroom hi]
          exact .inl ⟨i, bytes, rfl, rfl, hn, hroom⟩
        · rw [Page.tryInsertRecord_full h.wf (by omega)]
          refine .inr fun out leaf' hrun => ?_
          cases hrun
          exact ⟨rfl, _, rfl⟩

variable [DecimalCodec D]

/-- **After the insertion of a findable record**, the leaf is as expected. -/
theorem readable_of_findable (h : StoresKeys td leaf.pageView es) (hk : td.KeyInOrder pk)
    (hlen : record.length = td.columns.length) (hf : Findable td pk record) {i : ℕ} {bytes : Bytes}
    (hser : serialize td.columns record = .ret (.ok bytes))
    (hn : Narrows Key.cmp (es.map Prod.fst) (keyOf td pk record) i i)
    (hroom : bytes.length + 4 ≤ leaf.pageView.heapEnd - (32 + 4 * leaf.pageView.itemCount)) :
    StoresKeys td (leaf.pageView.insertPage i bytes) (es.insertIdx i (keyOf td pk record, bytes)) ∧
      Readable td { leaf with pageView := leaf.pageView.insertPage i bytes } record := by
  have hheap := h.wf.heap_le
  have hkey := hf.deserializePrimaryKey hk hlen hser (by omega)
  have hnew := h.insertPage hn hroom hkey
  have hi : i ≤ es.length := by
    have hle := hn.high_le
    rwa [List.length_map] at hle
  have hilt : i < (es.insertIdx i (keyOf td pk record, bytes)).length := by
    rw [List.length_insertIdx, if_pos hi]
    omega
  have hget : (es.insertIdx i (keyOf td pk record, bytes))[i] = (keyOf td pk record, bytes) :=
    List.getElem_insertIdx_self hilt
  have hrecord : (leaf.pageView.insertPage i bytes).getRecord i = .ret (some bytes) := by
    rw [hnew.getRecord hilt, hget]
  have hmap : i < ((es.insertIdx i (keyOf td pk record, bytes)).map Prod.fst).length := by
    rwa [List.length_map]
  have hkeys : ((es.insertIdx i (keyOf td pk record, bytes)).map Prod.fst)[i] = keyOf td pk record := by
    rw [List.getElem_map, hget]
  have hsearch := findKey_spec hnew.keysAre hnew.sorted
  obtain ⟨result, hfind, hfound⟩ := hsearch (keyOf td pk record)
  obtain rfl := Found.eq_ok hnew.sorted _ hkeys hfound
  refine ⟨hnew, fun k hk => ?_, ⟨_, i, bytes, Record.getPrimaryKey_eq hk hlen, hfind, hser, hrecord⟩,
    fun key => (hsearch key).imp fun _ h => h.1⟩
  rw [hnew.count] at hk
  exact ⟨_, _, hnew.getRecord hk, hnew.decode _ (List.getElem_mem hk)⟩

/-! ## Runs -/

/-- The leaf after a call. A call that panics has not written to the page. -/
def insertNext (td : TableDefinition) (leaf : LeafNodeView) (record : Record D) : LeafNodeView :=
  match leaf.insertRecord record td with
  | .ret (_, leaf') => leaf'
  | _ => leaf

/-- After each call that returns `Ok`, `P` holds of the leaf and the record. -/
def AfterInserts (td : TableDefinition) (P : LeafNodeView → Record D → Prop) :
    LeafNodeView → List (Record D) → Prop
  | _, [] => True
  | leaf, record :: records =>
    (∀ i leaf', leaf.insertRecord record td = .ret (.ok i, leaf') → P leaf' record) ∧
      AfterInserts td P (insertNext td leaf record) records

theorem afterInserts_iff (h : StoresKeys td leaf.pageView es) (hk : td.KeyInOrder pk)
    {records : List (Record D)} (hlen : ∀ r ∈ records, r.length = td.columns.length) :
    AfterInserts td (Readable td) leaf records ↔
      AfterInserts td (fun _ r => Findable td pk r) leaf records := by
  induction records generalizing leaf es with
  | nil => exact Iff.rfl
  | cons record records ih =>
    have hlen₁ := hlen record List.mem_cons_self
    have hlen₂ : ∀ r ∈ records, r.length = td.columns.length := fun r hr =>
      hlen r (List.mem_cons_of_mem _ hr)
    rw [AfterInserts, AfterInserts]
    rcases insertRecord_cases h hk hlen₁ with ⟨i, bytes, hrun, hser, hn, hroom⟩ | hsame
    · have hnext : insertNext td leaf record =
          { leaf with pageView := leaf.pageView.insertPage i bytes } := by
        rw [insertNext, hrun]
      have hiff : (∀ j leaf', leaf.insertRecord record td = .ret (.ok j, leaf') →
          Readable td leaf' record) ↔ ∀ j leaf', leaf.insertRecord record td = .ret (.ok j, leaf') →
            Findable td pk record := by
        constructor
        · intro hread j leaf' hrun'
          exact findable_of_readable hk hlen₁ (hread j leaf' hrun')
        · intro hf j leaf' hrun'
          obtain rfl := (Prod.mk.inj (Exec.ret.inj (hrun.symm.trans hrun'))).2
          exact (readable_of_findable h hk hlen₁ (hf _ _ hrun') hser hn hroom).2
      rw [hiff, hnext]
      refine and_congr_right fun hf => ?_
      exact ih (readable_of_findable h hk hlen₁ (hf _ _ hrun) hser hn hroom).1 hlen₂
    · have hnext : insertNext td leaf record = leaf := by
        unfold insertNext
        split
        · next out leaf' hrun => exact (hsame out leaf' hrun).1
        · rfl
      have hnever : ∀ (P : LeafNodeView → Record D → Prop) (i : ℕ) (leaf' : LeafNodeView),
          leaf.insertRecord record td = .ret (.ok i, leaf') → P leaf' record := by
        intro P i leaf' hrun
        obtain ⟨-, e, he⟩ := hsame _ _ hrun
        cases he
      rw [hnext]
      exact and_congr ⟨fun _ => hnever _, fun _ => hnever _⟩ (ih h hlen₂)

/-- **What a leaf accepts and can read.** In a run of insertions into an initialized leaf, the leaf is as
expected after each one that returns `Ok`, exactly when every record that was stored is findable. -/
theorem readable_iff (hk : td.KeyInOrder pk) (leaf₀ : LeafNodeView) (parent : Option UInt64)
    {records : List (Record D)} (hlen : ∀ r ∈ records, r.length = td.columns.length) :
    ∃ leaf, leaf₀.initializeLeaf .leafNode parent = .ret leaf ∧
      (AfterInserts td (Readable td) leaf records ↔
        AfterInserts td (fun _ r => Findable td pk r) leaf records) := by
  have hinit : StoresKeys td (Page.blankPage .leafNode parent) ([] : List (Key D × Bytes)) :=
    ⟨Page.blankPage_wf .leafNode parent, Page.recordsOf_blankPage .leafNode parent,
      fun _ he => absurd he List.not_mem_nil, List.Pairwise.nil⟩
  refine ⟨{ leaf₀ with pageView := Page.blankPage .leafNode parent }, ?_, afterInserts_iff hinit hk hlen⟩
  rw [initializeLeaf, Page.initializePage_eq]
  rfl

/-- A table with one column. -/
def counterTable : TableDefinition where
  columns := [⟨"id", .int, false⟩]
  constraints := [.primaryKey ["id"]]

theorem counterTable_keyInOrder : counterTable.KeyInOrder ["id"] := ⟨rfl, by decide, by decide⟩

/-- Three counters, the last one without a value. -/
def counters : List (Record Decimal96) := [[.int 7], [.int 5], [.null]]

theorem readable_iff_counters :
    ∃ leaf, (LeafNodeView.mk ⟨1, 0⟩ (Buffer.const 8192 0)).initializeLeaf .leafNode none = .ret leaf ∧
      (AfterInserts counterTable (Readable counterTable) leaf counters ↔
        AfterInserts counterTable (fun _ r => Findable counterTable ["id"] r) leaf counters) :=
  readable_iff counterTable_keyInOrder _ _ (by decide)

/-- A leaf accepts a record whose key is null. The next search for any key panics. -/
theorem insertRecord_accepts_null_key :
    ∃ leaf leaf' : LeafNodeView, ∃ bytes,
      (LeafNodeView.mk ⟨1, 0⟩ (Buffer.const 8192 0)).initializeLeaf .leafNode none = .ret leaf ∧
        leaf.insertRecord ([.null] : Record Decimal96) counterTable = .ret (.ok 0, leaf') ∧
          leaf'.pageView.getRecord 0 = .ret (some bytes) ∧
            deserializePrimaryKey counterTable bytes =
              (.ret (.error .nullPrimaryKeyColumnValue) : Exec (Except _ (Key Decimal96))) ∧
              ∀ key : Key Decimal96, findKey leaf'.pageView key counterTable = .panic := by
  have hwf := Page.blankPage_wf .leafNode none
  have hcount := Page.itemCount_blankPage .leafNode none
  have hheap := Page.heapEnd_blankPage .leafNode none
  have hroom : ([1] : Bytes).length + 4 ≤ (Page.blankPage .leafNode none).heapEnd -
      (32 + 4 * (Page.blankPage .leafNode none).itemCount) := by
    rw [hcount, hheap]
    decide
  have hrecord : ((Page.blankPage .leafNode none).insertPage 0 [1]).getRecord 0 = .ret (some [1]) := by
    refine Page.getRecord_of_recordsOf (Page.insertPage_wf hwf hroom (Nat.zero_le _)) ?_
    rw [Page.recordsOf_insertPage hwf hroom (Nat.zero_le _), Page.recordsOf_blankPage]
    rfl
  have hdecode : deserializePrimaryKey counterTable [1] =
      (.ret (.error .nullPrimaryKeyColumnValue) : Exec (Except _ (Key Decimal96))) := by decide
  refine ⟨⟨⟨1, 0⟩, Page.blankPage .leafNode none⟩,
    ⟨⟨1, 0⟩, (Page.blankPage .leafNode none).insertPage 0 [1]⟩, [1], ?_, ?_, hrecord, hdecode,
    fun key => ?_⟩
  · rw [initializeLeaf, Page.initializePage_eq]
    rfl
  · have hkey : Record.getPrimaryKey ([.null] : Record Decimal96) counterTable = .ret [.null] := by decide
    have hser : serialize counterTable.columns ([.null] : Record Decimal96) = .ret (.ok [1]) := by decide
    have hfind : findKey (Page.blankPage .leafNode none) ([.null] : Key Decimal96) counterTable =
        .ret (.error 0) := by
      rw [findKey, Page.getItemCount_eq, Exec.ret_bind, hcount, findKeyLoop, dif_neg (lt_irrefl 0)]
      rfl
    unfold insertRecord
    rw [hkey, Exec.ret_bind, hfind, Exec.ret_bind]
    dsimp only
    rw [hser, Exec.ret_bind, Exec.unwrapResult_ok, Exec.ret_bind, onPage]
    exact congrArg (· >>= _) (Page.tryInsertRecord_ok hwf hroom (Nat.zero_le _))
  · rw [findKey, Page.getItemCount_eq, Exec.ret_bind, Page.itemCount_insertPage hwf, hcount, findKeyLoop,
      dif_pos (Nat.zero_lt_one)]
    dsimp only
    rw [hrecord, Exec.ret_bind, Exec.unwrap_some, Exec.ret_bind, hdecode]
    rfl

end RarmDb
