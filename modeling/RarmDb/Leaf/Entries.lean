import RarmDb.Leaf.Map
import RarmDb.Leaf.Split

/-!
# The entries of a split

The leaf is given by the keys that the code decodes and the bytes of its records.

* `SplitEntries`: what a split is applied to; `newEntry`, `inKeyOrder`: the records in key order;
* `counted`, `CutFits`: where the code cuts them, and whether both parts fit;
* **`SplitEntries.of_ok`**: the pages of a split that returns `Ok`;
* `SplitInput`: a leaf of well-typed records; **`SplitInput.entries`**: its entries.
-/

namespace RarmDb

open RecordSerializer SortedMap Page LeafNodeView

variable {D : Type} [RustDecimal D]

/-- A leaf whose keys decode, a new record whose key is absent, and an empty right sibling. -/
structure SplitEntries (td : TableDefinition) (pk : List String) (es : List (Key D × Bytes))
    (leaf right : LeafNodeView) (r : Record D) : Prop where
  keyed : td.KeyInOrder pk
  stores : StoresKeys td leaf.pageView es
  good : GoodRecord td pk r
  absent : ∀ e ∈ es, (keyOf td pk r).cmp e.1 ≠ .eq
  right : EmptyPage right.pageView

/-- The key and the bytes of the new record. -/
def newEntry (td : TableDefinition) (pk : List String) (r : Record D) : Key D × Bytes :=
  (keyOf td pk r, encode r)

/-- The entries with the new one at its place. -/
def inKeyOrder (td : TableDefinition) (pk : List String) (es : List (Key D × Bytes)) (r : Record D) :
    List (Key D × Bytes) :=
  place Key.cmp Prod.fst es (newEntry td pk r)

/-- The bytes that the code counts: a new record with the largest key is left out. -/
def counted (td : TableDefinition) (pk : List String) (es : List (Key D × Bytes)) (r : Record D) : ℕ :=
  countedBytes Prod.fst Prod.snd es (newEntry td pk r)

/-- Cut after the longest prefix that is at most `half`, each part fits an empty page. -/
def CutFits (records : List Bytes) (half : ℕ) : Prop :=
  ∃ k, SplitAt records half k ∧ FitsIn (records.take k) 8160 ∧ FitsIn (records.drop k) 8160

variable {td : TableDefinition} {pk : List String} {es : List (Key D × Bytes)}
  {leaf right leaf' right' : LeafNodeView} {orig orig' : Option LeafNodeView} {r : Record D}
  {sep : Key D} {rs : List (Record D)}

theorem columns_eq_nil {a : Record D} (ha : WellTyped td.columns a) (h : (encode a).length = 0) :
    td.columns = [] := by
  rw [encode, List.length_append, List.length_append, length_nullBitmap] at h
  have hlen := ha.length_eq
  exact List.length_eq_zero_iff.mp (by omega)

theorem TableDefinition.Keyed.eq_nil (hk : td.Keyed pk) (hcols : td.columns = []) : pk = [] := by
  refine List.eq_nil_iff_forall_not_mem.mpr fun n hn => ?_
  have hmem := hk.exist n hn
  rw [TableDefinition.colNames, hcols] at hmem
  exact absurd hmem List.not_mem_nil

theorem recordsOf_appended_empty (hempty : EmptyPage leaf.pageView) {records : List Bytes}
    (hfit : FitsIn records 8160) : (leaf.appended records).pageView.recordsOf = records := by
  rw [← hempty.room] at hfit
  rw [appended, (appendPages_spec hempty.wf hfit).2.1, hempty.recordsOf, List.nil_append]

theorem recordsOf_cleared_appended (leaf : LeafNodeView) {records : List Bytes}
    (hfit : FitsIn records 8160) : (leaf.cleared.appended records).pageView.recordsOf = records :=
  recordsOf_appended_empty (emptyPage_cleared leaf) hfit

theorem eq_nil_of_decode (hk : td.Keyed pk) (hcols : td.columns = []) {bytes : Bytes} {key : Key D}
    (hdecode : deserializePrimaryKey td bytes = .ret (.ok key)) : key = [] := by
  obtain ⟨keyCols, hkeyCols, hnames⟩ := TableDefinition.getPrimaryKeyColumns_eq hk
  have hnil : keyCols = [] := List.map_eq_nil_iff.mp (hnames.trans (hk.eq_nil hcols))
  rw [deserializePrimaryKey, hkeyCols, Exec.ret_bind] at hdecode
  dsimp only at hdecode
  rw [deserializeKey, hcols, hnil] at hdecode
  simp only [Exec.bind_eq_ret, deserializeKeyLoop] at hdecode
  obtain ⟨nullBitmap, -, offset, -, hkey⟩ := hdecode
  cases hkey
  rfl

/-- What a split is applied to: a leaf with sorted records, a new record whose key is absent, and an
empty right sibling. -/
structure SplitInput (td : TableDefinition) (pk : List String) (rs : List (Record D))
    (leaf right : LeafNodeView) (r : Record D) : Prop where
  keyed : td.KeyInOrder pk
  holds : Holds td pk leaf.pageView rs
  sorted : Sorted Key.cmp (rs.map (keyOf td pk))
  good : GoodRecord td pk r
  absent : ∀ r' ∈ rs, (keyOf td pk r).cmp (keyOf td pk r') ≠ .eq
  right : EmptyPage right.pageView

theorem inKeyOrder_map (rs : List (Record D)) (r : Record D) :
    inKeyOrder td pk (rs.map (newEntry td pk)) r = (withNew td pk rs r).map (newEntry td pk) := by
  rw [inKeyOrder, withNew, place, place, lower, upper, List.filter_map, List.filter_map, List.map_append,
    List.map_cons]
  rfl

theorem counted_map (rs : List (Record D)) (r : Record D) :
    counted td pk (rs.map (newEntry td pk)) r = splitTotal td pk rs r := by
  have hbytes : (rs.map (newEntry td pk)).map Prod.snd = rs.map encode := List.map_map
  rw [counted, countedBytes, splitTotal, countedBytes, upper, hbytes, List.filter_map, List.isEmpty_map]
  rfl

/-- A leaf of well-typed records. -/
theorem SplitInput.entries [DecimalCodec D]
    (h : SplitInput td pk rs leaf right r) :
    SplitEntries td pk (rs.map (newEntry td pk)) leaf right r where
  keyed := h.keyed
  stores := by
    refine ⟨h.holds.wf, ?_, List.forall_mem_map.mpr fun r' hr' => ?_, ?_⟩
    · rw [h.holds.recordsOf, List.map_map]
      rfl
    · exact h.holds.deserializePrimaryKey_eq h.keyed.keyed hr'
    · rw [List.map_map]
      exact h.sorted
  good := h.good
  absent := List.forall_mem_map.mpr h.absent
  right := h.right

namespace SplitEntries

/-- A record that fits an empty page is short enough for its key to be read back. -/
theorem decode_new [DecimalCodec D] (h : SplitEntries td pk es leaf right r)
    (hshort : (encode r).length < 2 ^ 31) :
    deserializePrimaryKey td (newEntry td pk r).2 = .ret (.ok (newEntry td pk r).1) := by
  have hdata := (shortData_of_encode hshort).upToKey pk td.columns
  rw [newEntry, deserializePrimaryKey_encode h.keyed.keyed h.good.wellTyped hdata, h.good.any_isNull,
    if_neg Bool.false_ne_true]

variable [DecimalOrder D]

theorem length_inKeyOrder (h : SplitEntries td pk es leaf right r) :
    ((inKeyOrder td pk es r).map Prod.snd).length = es.length + 1 := by
  rw [List.length_map, inKeyOrder, length_place h.stores.sorted h.absent]

theorem bytesOf_inKeyOrder (h : SplitEntries td pk es leaf right r) :
    bytesOf ((inKeyOrder td pk es r).map Prod.snd) =
      bytesOf (es.map Prod.snd) + (encode r).length := bytesOf_place Prod.snd h.stores.sorted h.absent

theorem run_eq (h : SplitEntries td pk es leaf right r) (orig : Option LeafNodeView) :
    ∃ k, SplitAt ((inKeyOrder td pk es r).map Prod.snd) (counted td pk es r / 2) k ∧
      splitAndInsert leaf r right orig td =
        Exec.unwrap ((inKeyOrder td pk es r).map Prod.fst)[k]? >>= fun sep =>
          splitRewrite leaf right orig ((inKeyOrder td pk es r).map Prod.snd) k es.length sep :=
  splitAndInsert_collects h.keyed h.stores.decodes h.good rfl rfl h.absent h.right.count orig

theorem run_fits (h : SplitEntries td pk es leaf right r) {k : ℕ}
    (hcut : SplitAt ((inKeyOrder td pk es r).map Prod.snd) (counted td pk es r / 2) k)
    (hk : k < es.length + 1) (hleft : FitsIn (((inKeyOrder td pk es r).map Prod.snd).take k) 8160)
    (hdrop : FitsIn (((inKeyOrder td pk es r).map Prod.snd).drop k) 8160)
    (orig : Option LeafNodeView) :
    ∃ sep leaf' right' orig', splitAndInsert leaf r right orig td =
      .ret (.ok sep, leaf', right', orig') := by
  obtain ⟨k', hcut', heq⟩ := h.run_eq orig
  obtain rfl := hcut.unique hcut'
  have hlen := h.length_inKeyOrder
  have hkey : k < ((inKeyOrder td pk es r).map Prod.fst).length := by
    rw [List.length_map] at hlen ⊢
    omega
  rw [List.getElem?_eq_getElem hkey, Exec.unwrap_some, Exec.ret_bind,
    splitRewrite_fits h.right hlen hk.le hleft hdrop] at heq
  exact ⟨_, _, _, _, heq⟩

theorem of_ok (h : SplitEntries td pk es leaf right r)
    (hrun : splitAndInsert leaf r right orig td = .ret (.ok sep, leaf', right', orig')) :
    ∃ k, SplitAt ((inKeyOrder td pk es r).map Prod.snd) (counted td pk es r / 2) k ∧
      ((inKeyOrder td pk es r).map Prod.fst)[k]? = some sep ∧
      FitsIn (((inKeyOrder td pk es r).map Prod.snd).take k) 8160 ∧
      FitsIn (((inKeyOrder td pk es r).map Prod.snd).drop k) 8160 ∧
      (leaf'.pageView.WF ∧
        leaf'.pageView.recordsOf = ((inKeyOrder td pk es r).take k).map Prod.snd) ∧
      right'.pageView.WF ∧
        right'.pageView.recordsOf = ((inKeyOrder td pk es r).drop k).map Prod.snd := by
  obtain ⟨k, hcut, heq⟩ := h.run_eq orig
  have hlen := h.length_inKeyOrder
  have hk := hlen ▸ hcut.le
  rw [hrun] at heq
  obtain ⟨key, hkey, heq⟩ := Exec.bind_eq_ret.mp heq.symm
  have hkey' : ((inKeyOrder td pk es r).map Prod.fst)[k]? = some key := by
    cases hget : ((inKeyOrder td pk es r).map Prod.fst)[k]? with
    | none =>
      rw [hget] at hkey
      cases hkey
    | some a =>
      rw [hget] at hkey
      exact congrArg some (Exec.ret.inj hkey)
  by_cases hfit : FitsIn (((inKeyOrder td pk es r).map Prod.snd).take k) 8160 ∧
      FitsIn (((inKeyOrder td pk es r).map Prod.snd).drop k) 8160
  · have hleft := recordsOf_cleared_appended leaf hfit.1
    have hright := recordsOf_appended_empty h.right hfit.2
    have hcleared := emptyPage_cleared leaf
    have hwf := appended_wf hcleared.wf (hcleared.room ▸ hfit.1)
    have hwf' := appended_wf h.right.wf (h.right.room ▸ hfit.2)
    rw [splitRewrite_fits h.right hlen hk hfit.1 hfit.2] at heq
    cases heq
    refine ⟨k, hcut, hkey', hfit.1, hfit.2, ⟨withPointer_wf hwf (by decide) _, ?_⟩,
      withPointer_wf (withPointer_wf hwf' (by decide) _) (by decide) _, ?_⟩
    · rw [recordsOf_withPointer hwf (by decide), hleft, List.map_take]
    · rw [recordsOf_withPointer (withPointer_wf hwf' (by decide) _) (by decide),
        recordsOf_withPointer hwf' (by decide), hright, List.map_drop]
  · obtain ⟨_, _, hfull⟩ := splitRewrite_full leaf orig key h.right hlen hk hfit
    rw [hfull] at heq
    cases heq

omit [DecimalOrder D] in
theorem length_new_pos (h : SplitEntries td pk es leaf right r) (hne : es ≠ []) :
    0 < (encode r).length := by
  by_contra hzero
  have hcols := columns_eq_nil h.good.wellTyped (Nat.eq_zero_of_not_pos hzero)
  obtain ⟨e, he⟩ := List.exists_mem_of_ne_nil es hne
  have hkey := eq_nil_of_decode h.keyed.keyed hcols (h.stores.decode e he)
  refine h.absent e he ?_
  rw [hkey, h.keyed.keyed.eq_nil hcols]
  rfl

theorem counted_le (h : SplitEntries td pk es leaf right r) :
    counted td pk es r ≤ bytesOf ((inKeyOrder td pk es r).map Prod.snd) :=
  countedBytes_le Prod.snd h.stores.sorted h.absent

theorem cut_lt (h : SplitEntries td pk es leaf right r) (hne : es ≠ []) {k : ℕ}
    (hcut : SplitAt ((inKeyOrder td pk es r).map Prod.snd) (counted td pk es r / 2) k) :
    k < es.length + 1 := by
  have hlen := h.length_inKeyOrder
  by_contra hge
  have hlow := hcut.low
  rw [List.take_of_length_le (by omega)] at hlow
  have hle := h.counted_le
  have hsum := h.bytesOf_inKeyOrder
  have hpos := h.length_new_pos hne
  omega

omit [DecimalOrder D] in
theorem drop_eq {k : ℕ} (hsep : ((inKeyOrder td pk es r).map Prod.fst)[k]? = some sep) :
    ∃ e rest, (inKeyOrder td pk es r).drop k = e :: rest ∧ e.1 = sep := by
  rw [List.getElem?_map, Option.map_eq_some_iff] at hsep
  obtain ⟨e, hget, he⟩ := hsep
  obtain ⟨hk, rfl⟩ := List.getElem?_eq_some_iff.mp hget
  exact ⟨_, _, List.drop_eq_getElem_cons hk, he⟩

/-- The parts of the sorted entries are on either side of the separator. -/
theorem parts_apart (h : SplitEntries td pk es leaf right r) {k : ℕ}
    (hsep : ((inKeyOrder td pk es r).map Prod.fst)[k]? = some sep) :
    (∀ e ∈ (inKeyOrder td pk es r).take k, e.1.cmp sep = .lt) ∧
      ∀ e ∈ (inKeyOrder td pk es r).drop k, e.1.cmp sep ≠ .lt := by
  obtain ⟨e, rest, hdrop, rfl⟩ := drop_eq hsep
  have hsorted : ((inKeyOrder td pk es r).take k ++ e :: rest).Pairwise
      fun a b => a.1.cmp b.1 = .lt := by
    rw [← hdrop, List.take_append_drop]
    exact List.pairwise_map.mp (sorted_place h.stores.sorted)
  obtain ⟨-, hrest, hlt⟩ := List.pairwise_append.mp hsorted
  refine ⟨fun a ha => hlt a ha e List.mem_cons_self, fun a ha => ?_⟩
  rw [hdrop] at ha
  rcases List.mem_cons.mp ha with rfl | ha
  · have hself : Key.cmp a.1 a.1 = .eq := Std.ReflCmp.compare_self
    rw [hself]
    decide
  · rw [Std.OrientedCmp.gt_of_lt ((List.pairwise_cons.mp hrest).1 a ha)]
    decide

omit [DecimalOrder D] in
/-- The keys of the collected entries decode, when the new record fits a page. -/
theorem decode_inKeyOrder [DecimalCodec D] (h : SplitEntries td pk es leaf right r)
    (hshort : (encode r).length < 2 ^ 31) :
    ∀ e ∈ inKeyOrder td pk es r, deserializePrimaryKey td e.2 = .ret (.ok e.1) := by
  intro e he
  rcases List.mem_append.mp he with he | he
  · exact h.stores.decode e (List.mem_of_mem_filter he)
  · rcases List.mem_cons.mp he with rfl | he
    · exact h.decode_new hshort
    · exact h.stores.decode e (List.mem_of_mem_filter he)

theorem length_new_lt (h : SplitEntries td pk es leaf right r) {k : ℕ}
    (hleft : FitsIn (((inKeyOrder td pk es r).map Prod.snd).take k) 8160)
    (hdrop : FitsIn (((inKeyOrder td pk es r).map Prod.snd).drop k) 8160) :
    (encode r).length < 2 ^ 31 := by
  have hsum := h.bytesOf_inKeyOrder
  rw [← List.take_append_drop k ((inKeyOrder td pk es r).map Prod.snd), bytesOf_append] at hsum
  rw [FitsIn] at hleft hdrop
  omega

end SplitEntries

end RarmDb
