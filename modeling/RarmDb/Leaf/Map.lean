import RarmDb.Lib.Refine
import RarmDb.Leaf.Split

/-!
# A leaf is a sorted map

* `LeafOp`: inserting and updating a record; `RefinesMap`: the entries of a leaf stand for a map;
* `MapStep`: what an operation returns and does, in terms of the map;
* `insertRecord_spec`, `updateRecord_spec`: one operation on a leaf that holds well-typed records;
* **`leaf_refines_map`**: every run from an empty leaf follows the map.
-/

namespace RarmDb

open RecordSerializer SortedMap LeafNodeView

variable {D : Type} [RustDecimal D]

/-- The operations on the records of a leaf. -/
inductive LeafOp (D : Type)
  | insertRecord (record : Record D)
  | updateRecord (record : Record D)

/-- The record of an operation. -/
def LeafOp.record : LeafOp D → Record D
  | insertRecord record => record
  | updateRecord record => record

/-- Run one operation. -/
def LeafOp.run (td : TableDefinition) (leaf : LeafNodeView) :
    LeafOp D → Exec (Except StorageError ℕ × LeafNodeView)
  | insertRecord record => leaf.insertRecord record td
  | updateRecord record => leaf.updateRecord record td

/-- A map from keys to records. -/
abbrev RecordMap (D : Type) : Type := Key D → Option (Record D)

/-- The keys of the leaf increase strictly, and its entries are those of the map. -/
def RefinesMap (td : TableDefinition) (leaf : LeafNodeView) (m : RecordMap D) : Prop :=
  ∃ es, entries td leaf = .ret es ∧ Represents Key.cmp es m

/-- Slot `i` of the leaf has this key and this record. -/
def HasEntry (td : TableDefinition) (leaf : LeafNodeView) (i : ℕ) (key : Key D)
    (record : Record D) : Prop :=
  ∃ es, entries td leaf = .ret es ∧ es[i]? = some (key, record)

/-- The record is stored at the slot that was returned, or the page is full and nothing changed. -/
def StoredOrFull (td : TableDefinition) (key : Key D) (record : Record D)
    (out : Except StorageError ℕ) (s s' : LeafNodeView × RecordMap D) : Prop :=
  (∃ i, out = .ok i ∧ s'.2 = assign Key.cmp s.2 key record ∧ HasEntry td s'.1 i key record) ∨
    out = .error .pageFull ∧ s' = s

/-- What an operation returns and does, in terms of the map. -/
def MapStep (td : TableDefinition) (op : LeafOp D) (out : Except StorageError ℕ)
    (s s' : LeafNodeView × RecordMap D) : Prop :=
  ∃ key, op.record.getPrimaryKey td = .ret key ∧
    match op with
    | .insertRecord record =>
      if (s.2 key).isSome then out = .error .duplicateKey ∧ s' = s
      else StoredOrFull td key record out s s'
    | .updateRecord record =>
      if (s.2 key).isNone then out = .error .keyNotFound ∧ s' = s
      else StoredOrFull td key record out s s'

variable {td : TableDefinition} {pk : List String} {leaf : LeafNodeView} {rs : List (Record D)}
  {m : RecordMap D} {record : Record D}

/-- The invariant of the run: the leaf holds well-typed records, which stand for the map. -/
structure LeafInv (td : TableDefinition) (pk : List String) (leaf : LeafNodeView)
    (rs : List (Record D)) (m : RecordMap D) : Prop where
  holds : Holds td pk leaf.pageView rs
  represents : Represents Key.cmp (rs.map (entryOf td pk)) m

/-- The same page, with the same header. -/
structure SamePage (leaf leaf' : LeafNodeView) : Prop where
  pageId : leaf'.pageId = leaf.pageId
  header : Page.SameHeader leaf.pageView leaf'.pageView

theorem SamePage.refl (leaf : LeafNodeView) : SamePage leaf leaf := ⟨rfl, Page.SameHeader.refl _⟩

theorem leafInv_blank (td : TableDefinition) (pk : List String) (pageId : PageId) (ty : PageType)
    (parent : Option UInt64) :
    LeafInv td pk ⟨pageId, Page.blankPage ty parent⟩ ([] : List (Record D)) fun _ => none :=
  ⟨⟨Page.blankPage_wf ty parent, fun _ h => absurd h List.not_mem_nil,
    Page.recordsOf_blankPage ty parent⟩, represents_nil⟩

theorem LeafInv.refines [DecimalCodec D] (h : LeafInv td pk leaf rs m) (hk : td.Keyed pk) : RefinesMap td leaf m :=
  ⟨_, h.holds.entries_eq hk, h.represents⟩

variable [DecimalOrder D]

theorem LeafInv.insertPage (h : LeafInv td pk leaf rs m) (hr : GoodRecord td pk record) {i : ℕ}
    (hn : Narrows Key.cmp (rs.map (keyOf td pk)) (keyOf td pk record) i i)
    (hroom : (encode record).length + 4 ≤ leaf.pageView.heapEnd - (32 + 4 * leaf.pageView.itemCount)) :
    LeafInv td pk { leaf with pageView := leaf.pageView.insertPage i (encode record) }
      (rs.insertIdx i record) (assign Key.cmp m (keyOf td pk record) record) := by
  have hi : i ≤ rs.length := by
    have := hn.high_le
    rwa [List.length_map] at this
  have hi' : i ≤ leaf.pageView.itemCount := by rwa [h.holds.count]
  refine ⟨⟨Page.insertPage_wf h.holds.wf hroom hi', fun r hmem => ?_, ?_⟩, ?_⟩
  · rcases List.eq_or_mem_of_mem_insertIdx hmem with rfl | hmem
    · exact hr
    · exact h.holds.good r hmem
  · rw [Page.recordsOf_insertPage h.holds.wf hroom hi', h.holds.recordsOf, List.map_insertIdx]
  · rw [List.map_insertIdx]
    exact h.represents.insertIdx (map_fst_entryOf rs ▸ hn) record

theorem LeafInv.updatePage (h : LeafInv td pk leaf rs m) (hr : GoodRecord td pk record) {i : ℕ}
    (hi : i < rs.length) (heq : (keyOf td pk record).cmp (keyOf td pk rs[i]) = .eq)
    (hroom : leaf.pageView.UpdateFits i (encode record)) :
    LeafInv td pk { leaf with pageView := leaf.pageView.updatePage i (encode record) }
      (rs.set i record) (assign Key.cmp m (keyOf td pk record) record) := by
  have hi' : i < leaf.pageView.itemCount := by rwa [h.holds.count]
  refine ⟨⟨Page.updatePage_wf h.holds.wf hi' hroom, fun r hmem => ?_, ?_⟩, ?_⟩
  · rcases List.mem_or_eq_of_mem_set hmem with hmem | rfl
    · exact h.holds.good r hmem
    · exact hr
  · rw [Page.recordsOf_updatePage h.holds.wf hi' hroom, h.holds.recordsOf, List.map_set]
  · rw [List.map_set]
    exact h.represents.set (by rwa [List.length_map]) (by rwa [List.getElem_map]) record

variable [DecimalCodec D]

theorem LeafInv.findKey (h : LeafInv td pk leaf rs m) (hk : td.Keyed pk) (key : Key D) :
    ∃ result, LeafNodeView.findKey leaf.pageView key td = .ret result ∧
      Found (rs.map (keyOf td pk)) key result :=
  findKey_spec (h.holds.keysAre hk) (map_fst_entryOf rs ▸ h.represents.sorted) key

/-- The key is in slot `i` and in the map, or it is in neither, and `i` is the slot for it. -/
theorem LeafInv.findKey_cases (h : LeafInv td pk leaf rs m) (hk : td.Keyed pk) (key : Key D) :
    (∃ i, ∃ hi : i < rs.length, LeafNodeView.findKey leaf.pageView key td = .ret (.ok i) ∧ asU16 i = i ∧
        key.cmp (keyOf td pk rs[i]) = .eq ∧ ∃ r, m key = some r) ∨
      ∃ i, LeafNodeView.findKey leaf.pageView key td = .ret (.error i) ∧ i ≤ rs.length ∧ asU16 i = i ∧
        Narrows Key.cmp (rs.map (keyOf td pk)) key i i ∧ m key = none := by
  have hcount := h.holds.wf.count_le
  rw [h.holds.count] at hcount
  obtain ⟨result, hfind, hfound⟩ := h.findKey hk key
  cases result with
  | ok i =>
    obtain ⟨hi, heq⟩ := hfound
    rw [List.length_map] at hi
    rw [List.getElem_map] at heq
    have hsome := h.represents.eq_some (i := i) (by rwa [List.length_map])
      (by rw [List.getElem_map]; exact heq)
    exact .inl ⟨i, hi, hfind, Nat.mod_eq_of_lt (by omega), heq, _, hsome⟩
  | error i =>
    have hn : Narrows Key.cmp (rs.map (keyOf td pk)) key i i := hfound
    have hi := hn.high_le
    rw [List.length_map] at hi
    exact .inr ⟨i, hfind, hi, Nat.mod_eq_of_lt (by omega), hn,
      h.represents.eq_none (map_fst_entryOf rs ▸ hn)⟩

/-- **Inserting a record.** -/
theorem insertRecord_spec (h : LeafInv td pk leaf rs m) (hk : td.KeyInOrder pk)
    (hr : GoodRecord td pk record) :
    ∃ out leaf' rs' m', leaf.insertRecord record td = .ret (out, leaf') ∧
      MapStep td (.insertRecord record) out (leaf, m) (leaf', m') ∧ LeafInv td pk leaf' rs' m' ∧
        SamePage leaf leaf' := by
  have hkey := Record.getPrimaryKey_eq hk hr.wellTyped.length_eq
  rcases h.findKey_cases hk.keyed (keyOf td pk record) with
    ⟨i, hi, hfind, -, -, r, hsome⟩ | ⟨i, hfind, hi, hu16, hn, hnone⟩
  · refine ⟨.error .duplicateKey, leaf, rs, m, ?_, ⟨_, hkey, ?_⟩, h, .refl leaf⟩
    · rw [insertRecord, hkey, Exec.ret_bind, hfind]
      rfl
    · dsimp only
      rw [if_pos (by rw [hsome]; rfl)]
      exact ⟨rfl, rfl⟩
  · have hrun : leaf.insertRecord record td =
        leaf.onPage fun p => p.tryInsertRecord i (encode record) := by
      rw [insertRecord, hkey, Exec.ret_bind, hfind, Exec.ret_bind]
      dsimp only
      rw [serialize_eq hr.wellTyped, Exec.ret_bind, Exec.unwrapResult_ok, Exec.ret_bind, hu16]
    by_cases hroom : (encode record).length + 4 ≤
        leaf.pageView.heapEnd - (32 + 4 * leaf.pageView.itemCount)
    · have hinv := h.insertPage hr hn hroom
      refine ⟨.ok i, _, _, _, ?_, ⟨_, hkey, ?_⟩, hinv, rfl, Page.insertPage_sameHeader hroom⟩
      · rw [hrun, onPage, Page.tryInsertRecord_ok h.holds.wf hroom (by rwa [h.holds.count])]
        rfl
      · dsimp only
        rw [if_neg (by simp [hnone])]
        refine .inl ⟨i, rfl, rfl, _, hinv.holds.entries_eq hk.keyed, ?_⟩
        rw [List.getElem?_map, List.getElem?_insertIdx_self, if_pos hi]
        rfl
    · refine ⟨.error .pageFull, leaf, rs, m, ?_, ⟨_, hkey, ?_⟩, h, .refl leaf⟩
      · rw [hrun, onPage, Page.tryInsertRecord_full h.holds.wf (by omega)]
        rfl
      · dsimp only
        rw [if_neg (by simp [hnone])]
        exact .inr ⟨rfl, rfl⟩

/-- **Updating a record.** -/
theorem updateRecord_spec (h : LeafInv td pk leaf rs m) (hk : td.KeyInOrder pk)
    (hr : GoodRecord td pk record) :
    ∃ out leaf' rs' m', leaf.updateRecord record td = .ret (out, leaf') ∧
      MapStep td (.updateRecord record) out (leaf, m) (leaf', m') ∧ LeafInv td pk leaf' rs' m' ∧
        SamePage leaf leaf' := by
  have hkey := Record.getPrimaryKey_eq hk hr.wellTyped.length_eq
  rcases h.findKey_cases hk.keyed (keyOf td pk record) with
    ⟨i, hi, hfind, hu16, heq, r, hsome⟩ | ⟨i, hfind, -, -, -, hnone⟩
  · have hi' : i < leaf.pageView.itemCount := by rwa [h.holds.count]
    have hrun : leaf.updateRecord record td =
        leaf.onPage fun p => p.tryUpdateRecord i (encode record) := by
      rw [updateRecord, hkey, Exec.ret_bind, hfind, Exec.ret_bind]
      dsimp only
      rw [serialize_eq hr.wellTyped, Exec.ret_bind, Exec.unwrapResult_ok, Exec.ret_bind, hu16]
    by_cases hroom : leaf.pageView.UpdateFits i (encode record)
    · have hinv := h.updatePage hr hi heq hroom
      refine ⟨.ok i, _, _, _, ?_, ⟨_, hkey, ?_⟩, hinv, rfl,
        Page.updatePage_sameHeader h.holds.wf hi' hroom⟩
      · rw [hrun, onPage, Page.tryUpdateRecord_ok h.holds.wf hi' hroom]
        rfl
      · dsimp only
        rw [if_neg (by simp [hsome])]
        refine .inl ⟨i, rfl, rfl, _, hinv.holds.entries_eq hk.keyed, ?_⟩
        rw [List.getElem?_map, List.getElem?_set_self hi]
        rfl
    · refine ⟨.error .pageFull, leaf, rs, m, ?_, ⟨_, hkey, ?_⟩, h, .refl leaf⟩
      · rw [hrun, onPage, Page.tryUpdateRecord_full h.holds.wf hi' hroom]
        rfl
      · dsimp only
        rw [if_neg (by simp [hsome])]
        exact .inr ⟨rfl, rfl⟩
  · refine ⟨.error .keyNotFound, leaf, rs, m, ?_, ⟨_, hkey, ?_⟩, h, .refl leaf⟩
    · rw [updateRecord, hkey, Exec.ret_bind, hfind]
      rfl
    · dsimp only
      rw [if_pos (by rw [hnone]; rfl)]
      exact ⟨rfl, rfl⟩

/-- **A leaf refines a sorted map from primary keys to records.** From an initialized leaf, a run of
insertions and updates of well-typed records does not panic, keeps the keys strictly increasing, and
returns and does, operation by operation, what `MapStep` says. -/
theorem leaf_refines_map (td : TableDefinition) (pk : List String) (hk : td.KeyInOrder pk)
    (leaf₀ : LeafNodeView) (parent : Option UInt64) (ops : List (LeafOp D))
    (hops : ∀ op ∈ ops, GoodRecord td pk op.record) :
    ∃ leaf run, leaf₀.initializeLeaf .leafNode parent = .ret leaf ∧
      RefinesMap (D := D) td leaf (fun _ => none) ∧ trace (LeafOp.run td) leaf ops = .ret run ∧
        Simulates (fun leaf s => leaf = s.1 ∧ RefinesMap td leaf s.2) (MapStep td)
          (leaf, fun _ => none) ops run := by
  have hinit := leafInv_blank (D := D) td pk leaf₀.pageId .leafNode parent
  have hstep : ∀ (leaf : LeafNodeView) (s : LeafNodeView × RecordMap D) (op : LeafOp D),
      GoodRecord td pk op.record → (leaf = s.1 ∧ ∃ rs, LeafInv td pk leaf rs s.2) →
        ∃ out leaf' s', LeafOp.run td leaf op = .ret (out, leaf') ∧ MapStep td op out s s' ∧
          leaf' = s'.1 ∧ ∃ rs, LeafInv td pk leaf' rs s'.2 := by
    rintro leaf ⟨_, m⟩ op hr ⟨rfl, rs, h⟩
    cases op with
    | insertRecord record =>
      obtain ⟨out, leaf', rs', m', hrun, hmap, hinv, -⟩ := insertRecord_spec h hk hr
      exact ⟨out, leaf', (leaf', m'), hrun, hmap, rfl, rs', hinv⟩
    | updateRecord record =>
      obtain ⟨out, leaf', rs', m', hrun, hmap, hinv, -⟩ := updateRecord_spec h hk hr
      exact ⟨out, leaf', (leaf', m'), hrun, hmap, rfl, rs', hinv⟩
  have hR : ∀ (leaf : LeafNodeView) (s : LeafNodeView × RecordMap D),
      (leaf = s.1 ∧ ∃ rs, LeafInv td pk leaf rs s.2) → leaf = s.1 ∧ RefinesMap td leaf s.2 := by
    rintro leaf s ⟨hl, rs, h⟩
    exact ⟨hl, h.refines hk.keyed⟩
  obtain ⟨run, hrun, hsim⟩ := simulates_trace hR hstep
    (admittedRun_of_forall hops _) (t := (_, fun _ => none)) ⟨rfl, [], hinit⟩
  exact ⟨_, run, initializeLeaf_eq leaf₀ .leafNode parent, hinit.refines hk.keyed, hrun, hsim⟩

theorem productTable_keyInOrder : productTable.KeyInOrder ["id"] :=
  ⟨rfl, by decide, by decide⟩

theorem leaf_refines_map_products :
    ∃ leaf run, (⟨⟨1, 0⟩, Buffer.const 8192 0⟩ : LeafNodeView).initializeLeaf .leafNode none =
        .ret leaf ∧
      RefinesMap (D := Decimal96) productTable leaf (fun _ => none) ∧
      trace (LeafOp.run productTable) leaf
        [.insertRecord (product 7 [1]), .insertRecord (product 3 []),
          .updateRecord (product 7 [2, 3])] = .ret run ∧
        Simulates (fun leaf s => leaf = s.1 ∧ RefinesMap productTable leaf s.2)
          (MapStep productTable) (leaf, fun _ => none)
          [.insertRecord (product 7 [1]), .insertRecord (product 3 []),
            .updateRecord (product 7 [2, 3])] run :=
  leaf_refines_map productTable ["id"] productTable_keyInOrder ⟨⟨1, 0⟩, Buffer.const 8192 0⟩ none _
    (by simp [LeafOp.record, product_good])

end RarmDb
