import RarmDb.Leaf.Collect

/-!
# What a split does

* `below`, `above`, `withNew`: the records in key order with the new one at its place;
* `splitFinish_full`, `splitFinish_ok`, `splitRewrite_left_full`, `splitRewrite_left_fits`: the rewriting
  part runs out of space, or returns;
* **`splitAndInsert_collects`**, **`splitAndInsert_eq`**: a split collects, chooses the index and
  rewrites.
-/

namespace RarmDb

open RecordSerializer SortedMap Page

variable {D : Type} [RustDecimal D]

namespace LeafNodeView

/-! ## The records in key order -/

section Order

variable (td : TableDefinition) (pk : List String)

/-- The records whose keys are less than that of `r`. -/
def below (rs : List (Record D)) (r : Record D) : List (Record D) :=
  lower Key.cmp (keyOf td pk) rs (keyOf td pk r)

/-- The records whose keys are greater than that of `r`. -/
def above (rs : List (Record D)) (r : Record D) : List (Record D) :=
  upper Key.cmp (keyOf td pk) rs (keyOf td pk r)

/-- The records with `r` at its place. -/
def withNew (rs : List (Record D)) (r : Record D) : List (Record D) := place Key.cmp (keyOf td pk) rs r

/-- The total that the split index is computed from. A new record with the largest key is not
counted. -/
def splitTotal (rs : List (Record D)) (r : Record D) : ℕ := countedBytes (keyOf td pk) encode rs r

theorem withNew_eq (rs : List (Record D)) (r : Record D) :
    withNew td pk rs r = below td pk rs r ++ r :: above td pk rs r := rfl

theorem splitTotal_eq (rs : List (Record D)) (r : Record D) : splitTotal td pk rs r =
    bytesOf (rs.map encode) + if (above td pk rs r).isEmpty then 0 else (encode r).length := rfl

end Order

omit [RustDecimal D]

/-! ## Rewriting the pages -/

/-- An initialized page without records. -/
structure EmptyPage (p : Page) : Prop where
  wf : p.WF
  count : p.itemCount = 0
  heap : p.heapEnd = 8192

theorem emptyPage_blankPage (ty : PageType) (parent : Option UInt64) :
    EmptyPage (blankPage ty parent) :=
  ⟨blankPage_wf ty parent, itemCount_blankPage ty parent, heapEnd_blankPage ty parent⟩

theorem EmptyPage.room {p : Page} (h : EmptyPage p) : Page.room p = 8160 := by
  rw [Page.room, h.count, h.heap]

theorem EmptyPage.recordsOf {p : Page} (h : EmptyPage p) : p.recordsOf = [] := by
  rw [Page.recordsOf, Page.slots, h.count]
  rfl

theorem initializeLeaf_eq (leaf : LeafNodeView) (ty : PageType) (parent : Option UInt64) :
    leaf.initializeLeaf ty parent = .ret { leaf with pageView := blankPage ty parent } := by
  rw [initializeLeaf, initializePage_eq]
  rfl

/-- The leaf with the pointer at `off` overwritten. -/
def withPointer (leaf : LeafNodeView) (off : ℕ) (v : UInt32) : LeafNodeView :=
  { leaf with pageView := setPointer leaf.pageView off v }

theorem withPointer_wf {leaf : LeafNodeView} (hwf : leaf.pageView.WF) {off : ℕ} (h : off + 4 ≤ 20)
    (v : UInt32) : (leaf.withPointer off v).pageView.WF := setPointer_wf h hwf

theorem recordsOf_withPointer {leaf : LeafNodeView} (hwf : leaf.pageView.WF) {off : ℕ}
    (h : off + 4 ≤ 20) (v : UInt32) :
    (leaf.withPointer off v).pageView.recordsOf = leaf.pageView.recordsOf := recordsOf_setPointer h hwf

theorem setLeafIndex_eq (leaf : LeafNodeView) {off : ℕ} (h : off + 4 ≤ 8192) (v : Option UInt32) :
    leaf.setLeafIndex off v = .ret (leaf.withPointer off (v.getD invalidPageIndex)) := by
  rw [setLeafIndex, setPageHeaderU32Value_eq h]
  rfl

/-- A pointer as an option. -/
def toIndex (v : UInt32) : Option UInt32 := if v = invalidPageIndex then none else some v

theorem toIndex_getD (v : UInt32) : (toIndex v).getD invalidPageIndex = v := by
  rw [toIndex]
  split_ifs with h
  · exact h.symm
  · rfl

theorem getLeafIndex_eq (leaf : LeafNodeView) {off : ℕ} (h : off + 4 ≤ 8192) :
    leaf.getLeafIndex off = .ret (toIndex (u32At leaf.pageView off)) := by
  rw [getLeafIndex, getPageHeaderU32Value_eq h, Exec.ret_bind, toIndex]
  split_ifs <;> rfl

theorem getNextLeafIndex_eq (leaf : LeafNodeView) :
    leaf.getNextLeafIndex = .ret (toIndex (u32At leaf.pageView 16)) := getLeafIndex_eq leaf (by decide)

theorem getPrevLeafIndex_eq (leaf : LeafNodeView) :
    leaf.getPrevLeafIndex = .ret (toIndex (u32At leaf.pageView 12)) := getLeafIndex_eq leaf (by decide)

theorem setPrevLeafIndexOf_eq (leaf : Option LeafNodeView) (v : Option UInt32) :
    setPrevLeafIndexOf leaf v =
      .ret (leaf.map fun l => l.withPointer 12 (v.getD invalidPageIndex)) := by
  cases leaf with
  | none => rfl
  | some l =>
    rw [setPrevLeafIndexOf, setPrevLeafIndex, setLeafIndex_eq l (by decide)]
    rfl

/-- This leaf after it was initialized for the split. -/
def cleared (leaf : LeafNodeView) : LeafNodeView :=
  { leaf with pageView := blankPage .leafNode (parentOf leaf.pageView) }

section Rewrite

variable {leaf right : LeafNodeView} {orig : Option LeafNodeView} {records rest : List Bytes} {k n : ℕ}
  {next : Option UInt32} {key : Key D}

theorem emptyPage_cleared (leaf : LeafNodeView) : EmptyPage leaf.cleared.pageView :=
  emptyPage_blankPage ..

theorem sliceRecords_eq (hn : records.length = n + 1) (hk : k ≤ n + 1) :
    sliceRecords records k (n + 1) = .ret (records.drop k) := by
  rw [sliceRecords, if_pos ⟨hk, hn.ge⟩, List.take_of_length_le]
  rw [List.length_drop, hn]

/-- The right sibling runs out of space: this leaf has the first part, the right sibling some of the
second. -/
theorem splitFinish_full (leaf : LeafNodeView) (orig : Option LeafNodeView) (next : Option UInt32)
    (key : Key D) (hright : EmptyPage right.pageView)
    (hslice : sliceRecords records k (n + 1) = .ret rest) (hfit : ¬ FitsIn rest 8160) :
    ∃ j, j < rest.length ∧ FitsIn (rest.take j) 8160 ∧
      splitFinish leaf right orig records k n next key =
        .ret (.error .pageFull, leaf, right.appended (rest.take j), orig) := by
  rw [← hright.room] at hfit ⊢
  obtain ⟨j, hj, hj', hrun⟩ := appendAll_full hright.wf hfit
  refine ⟨j, hj, hj', ?_⟩
  rw [splitFinish]
  dsimp only
  rw [hslice, Exec.ret_bind, hrun]
  rfl

/-- **Both parts fit**: the pages hold them, and the pointers are adjusted. -/
theorem splitFinish_ok (leaf : LeafNodeView) (orig : Option LeafNodeView) (next : Option UInt32)
    (key : Key D) (hright : EmptyPage right.pageView)
    (hslice : sliceRecords records k (n + 1) = .ret rest) (hfit : FitsIn rest 8160) :
    splitFinish leaf right orig records k n next key =
      .ret (.ok key, leaf.withPointer 16 right.pageId.pageIndex,
        ((right.appended rest).withPointer 16 (next.getD invalidPageIndex)).withPointer 12
          leaf.pageId.pageIndex,
        orig.map fun l => l.withPointer 12 right.pageId.pageIndex) := by
  rw [← hright.room] at hfit
  rw [splitFinish]
  dsimp only
  rw [hslice, Exec.ret_bind, appendAll_fits hright.wf hfit, Exec.ret_bind]
  dsimp only
  rw [setNextLeafIndex, setLeafIndex_eq _ (by decide), Exec.ret_bind, setNextLeafIndex,
    setLeafIndex_eq _ (by decide), Exec.ret_bind, setPrevLeafIndex, setLeafIndex_eq _ (by decide),
    Exec.ret_bind, setPrevLeafIndexOf_eq]
  rfl

/-- The page is captured, cleared and filled with the first part. -/
theorem splitRewrite_eq (leaf right : LeafNodeView) (orig : Option LeafNodeView)
    (records : List Bytes) (k n : ℕ) (key : Key D) :
    splitRewrite leaf right orig records k n key =
      appendAll (records.take k) leaf.cleared >>= fun x =>
        match x.1 with
        | .error e => .ret (.error e, x.2, right, orig)
        | .ok () =>
          splitFinish x.2 right orig records k n (toIndex (u32At leaf.pageView 16)) key := by
  rw [splitRewrite, getPageHeaderU64Value_eq (by decide), Exec.ret_bind]
  dsimp only
  rw [getNextLeafIndex, getLeafIndex_eq _ (by decide), Exec.ret_bind, initializeLeaf_eq,
    Exec.ret_bind]
  rfl

theorem splitRewrite_left_full (leaf right : LeafNodeView) (orig : Option LeafNodeView) (n : ℕ)
    (key : Key D) (hfit : ¬ FitsIn (records.take k) 8160) :
    ∃ j, j < (records.take k).length ∧ FitsIn ((records.take k).take j) 8160 ∧
      splitRewrite leaf right orig records k n key =
        .ret (.error .pageFull, leaf.cleared.appended ((records.take k).take j), right, orig) := by
  have hempty := emptyPage_cleared leaf
  rw [← hempty.room] at hfit ⊢
  obtain ⟨j, hj, hj', hrun⟩ := appendAll_full hempty.wf hfit
  refine ⟨j, hj, hj', ?_⟩
  rw [splitRewrite_eq, hrun]
  rfl

theorem splitRewrite_left_fits (hfit : FitsIn (records.take k) 8160) :
    splitRewrite leaf right orig records k n key =
      splitFinish (leaf.cleared.appended (records.take k)) right orig records k n
        (toIndex (u32At leaf.pageView 16)) key := by
  have hempty := emptyPage_cleared leaf
  rw [← hempty.room] at hfit
  rw [splitRewrite_eq, appendAll_fits hempty.wf hfit]
  rfl

theorem splitRewrite_fits (hright : EmptyPage right.pageView) (hn : records.length = n + 1)
    (hk : k ≤ n + 1) (hleft : FitsIn (records.take k) 8160) (hdrop : FitsIn (records.drop k) 8160) :
    splitRewrite leaf right orig records k n key = .ret (.ok key,
      (leaf.cleared.appended (records.take k)).withPointer 16 right.pageId.pageIndex,
      ((right.appended (records.drop k)).withPointer 16 (u32At leaf.pageView 16)).withPointer 12
        leaf.pageId.pageIndex,
      orig.map fun l => l.withPointer 12 right.pageId.pageIndex) := by
  rw [splitRewrite_left_fits hleft, splitFinish_ok _ _ _ _ hright (sliceRecords_eq hn hk) hdrop,
    toIndex_getD]
  rfl

theorem splitRewrite_full (leaf : LeafNodeView) (orig : Option LeafNodeView) (key : Key D)
    (hright : EmptyPage right.pageView) (hn : records.length = n + 1) (hk : k ≤ n + 1)
    (hfit : ¬ (FitsIn (records.take k) 8160 ∧ FitsIn (records.drop k) 8160)) :
    ∃ leaf' right', splitRewrite leaf right orig records k n key =
      .ret (.error .pageFull, leaf', right', orig) := by
  by_cases hleft : FitsIn (records.take k) 8160
  · obtain ⟨j, -, -, hfull⟩ := splitFinish_full (leaf.cleared.appended (records.take k)) orig
      (toIndex (u32At leaf.pageView 16)) key hright (sliceRecords_eq hn hk)
      fun hdrop => hfit ⟨hleft, hdrop⟩
    exact ⟨_, _, (splitRewrite_left_fits hleft).trans hfull⟩
  · obtain ⟨j, -, -, hfull⟩ := splitRewrite_left_full leaf right orig n key hleft
    exact ⟨_, _, hfull⟩

end Rewrite

/-! ## The whole split -/

section Whole

variable [RustDecimal D] [DecimalOrder D] {td : TableDefinition} {pk : List String} {r : Record D}
  {leaf right : LeafNodeView}

/-- **A split** collects the records, chooses the index and rewrites the pages. -/
theorem splitAndInsert_collects {α : Type} {key : α → Key D} {bytes : α → Bytes} {xs : List α} {x : α}
    (hk : td.KeyInOrder pk) (h : Decodes td leaf.pageView key bytes xs) (hr : GoodRecord td pk r)
    (hkey : key x = keyOf td pk r) (hbytes : bytes x = encode r)
    (habs : ∀ a ∈ xs, (key x).cmp (key a) ≠ .eq) (hright : right.pageView.itemCount = 0)
    (orig : Option LeafNodeView) :
    ∃ k, SplitAt ((place Key.cmp key xs x).map bytes) (countedBytes key bytes xs x / 2) k ∧
      splitAndInsert leaf r right orig td =
        Exec.unwrap ((place Key.cmp key xs x).map key)[k]? >>= fun sep =>
          splitRewrite leaf right orig ((place Key.cmp key xs x).map bytes) k xs.length sep := by
  refine ⟨_, splitAt_findSplitIndexBySize _ _, ?_⟩
  obtain ⟨s, s', h₁, h₂, h₃, h₄, h₅⟩ := splitLoop_collects h (List.nil_append xs).symm habs [] 0
  have hcount : ∀ l : LeafNodeView, l.getItemCount = .ret l.pageView.itemCount := fun l =>
    getPageHeaderU16Value_eq (by decide)
  rw [List.nil_append] at h₃ h₄
  rw [Nat.zero_add] at h₅
  rw [splitAndInsert, hcount, Exec.ret_bind, hright, if_neg (not_not_intro rfl), hcount,
    Exec.ret_bind, serialize_eq hr.wellTyped, Exec.ret_bind, Exec.unwrapResult_ok, Exec.ret_bind,
    Record.getPrimaryKey_eq hk hr.wellTyped.length_eq, Exec.ret_bind, h.count,
    List.range_eq_range', ← hkey, ← hbytes]
  have hnone : (⟨[], [], 0, false, 0⟩ : SplitState D) = collected key bytes [] false 0 := rfl
  have h₁' : splitLoop leaf.pageView td (key x) (bytes x) (List.range' 0 xs.length)
      (collected key bytes [] false 0) = .ret (.ok s) := h₁
  rw [hnone, h₁', Exec.ret_bind]
  dsimp only
  rw [h₂, Exec.ret_bind, h₃, h₄, h₅]

theorem splitAndInsert_eq [DecimalCodec D] {rs : List (Record D)} (hk : td.KeyInOrder pk)
    (h : Holds td pk leaf.pageView rs) (hs : Sorted Key.cmp (rs.map (keyOf td pk)))
    (hr : GoodRecord td pk r) (habs : ∀ r' ∈ rs, (keyOf td pk r).cmp (keyOf td pk r') ≠ .eq)
    (hright : right.pageView.itemCount = 0) (orig : Option LeafNodeView) :
    ∃ k, SplitAt ((withNew td pk rs r).map encode) (splitTotal td pk rs r / 2) k ∧
      splitAndInsert leaf r right orig td =
        Exec.unwrap ((withNew td pk rs r).map (keyOf td pk))[k]? >>= fun key =>
          splitRewrite leaf right orig ((withNew td pk rs r).map encode) k rs.length key :=
  splitAndInsert_collects hk (h.decodes hk.keyed hs) hr rfl rfl habs hright orig

end Whole

end LeafNodeView

end RarmDb
