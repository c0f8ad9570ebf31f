import RarmDb.Leaf.Split

/-!
# Successful splits and merges

* **`splitAndInsert_ok`**: the pages after a successful split;
* **`merge_eq`**, **`merge_ok`**: a merge, and the pages after a successful one;
* **`splitAndInsert_done`**, **`merge_done`**: their pointers.
-/

namespace RarmDb

open Page

variable {D : Type}

namespace LeafNodeView

/-! ## Successful splits -/

section Split

variable {leaf right leaf' right' : LeafNodeView} {orig orig' : Option LeafNodeView} {key key' : Key D}

theorem splitFinish_inv {records : List Bytes} {k n : ℕ} {next : Option UInt32}
    (hright : EmptyPage right.pageView)
    (h : splitFinish leaf right orig records k n next key = .ret (.ok key', leaf', right', orig')) :
    ∃ rest, FitsIn rest 8160 ∧ leaf' = leaf.withPointer 16 right.pageId.pageIndex ∧
      right' = ((right.appended rest).withPointer 16 (next.getD invalidPageIndex)).withPointer 12
        leaf.pageId.pageIndex ∧
      orig' = orig.map fun l => l.withPointer 12 right.pageId.pageIndex := by
  have hcopy := h
  rw [splitFinish, Exec.bind_eq_ret] at hcopy
  obtain ⟨rest, hslice, -⟩ := hcopy
  by_cases hfit : FitsIn rest 8160
  · rw [splitFinish_ok leaf orig next key hright hslice hfit] at h
    cases h
    exact ⟨rest, hfit, rfl, rfl, rfl⟩
  · obtain ⟨j, -, -, hfull⟩ := splitFinish_full leaf orig next key hright hslice hfit
    rw [hfull] at h
    cases h

theorem splitRewrite_inv {records : List Bytes} {k n : ℕ} (hright : EmptyPage right.pageView)
    (h : splitRewrite leaf right orig records k n key = .ret (.ok key', leaf', right', orig')) :
    ∃ first rest, FitsIn first 8160 ∧ FitsIn rest 8160 ∧
      leaf' = (leaf.cleared.appended first).withPointer 16 right.pageId.pageIndex ∧
      right' = ((right.appended rest).withPointer 16 (u32At leaf.pageView 16)).withPointer 12
        leaf.pageId.pageIndex ∧
      orig' = orig.map fun l => l.withPointer 12 right.pageId.pageIndex := by
  by_cases hfit : FitsIn (records.take k) 8160
  · rw [splitRewrite_left_fits hfit] at h
    obtain ⟨rest, hrest, h₁, h₂, h₃⟩ := splitFinish_inv hright h
    rw [toIndex_getD] at h₂
    exact ⟨_, rest, hfit, hrest, h₁, h₂, h₃⟩
  · obtain ⟨j, -, -, hfull⟩ := splitRewrite_left_full leaf right orig n key hfit
    rw [hfull] at h
    cases h

/-- **A successful split** clears the leaf, fills both pages and sets their pointers. -/
theorem splitAndInsert_ok [RustDecimal D] {td : TableDefinition} {r : Record D} (hright : EmptyPage right.pageView)
    (h : splitAndInsert leaf r right orig td = .ret (.ok key', leaf', right', orig')) :
    ∃ first rest, FitsIn first 8160 ∧ FitsIn rest 8160 ∧
      leaf' = (leaf.cleared.appended first).withPointer 16 right.pageId.pageIndex ∧
      right' = ((right.appended rest).withPointer 16 (u32At leaf.pageView 16)).withPointer 12
        leaf.pageId.pageIndex ∧
      orig' = orig.map fun l => l.withPointer 12 right.pageId.pageIndex := by
  rw [splitAndInsert, Exec.bind_eq_ret] at h
  obtain ⟨rightItemCount, -, h⟩ := h
  split_ifs at h with hne
  · cases h
  · simp only [Exec.bind_eq_ret] at h
    obtain ⟨itemCount, -, result, -, recordBytes, -, newKey, -, result, -, h⟩ := h
    cases result with
    | error e => cases h
    | ok s =>
      simp only [Exec.bind_eq_ret] at h
      obtain ⟨s', -, midPointKey, -, h⟩ := h
      exact splitRewrite_inv hright h

end Split

/-! ## Merges -/

section Merge

variable {leaf right leaf' right' : LeafNodeView} {next next' : Option LeafNodeView}

theorem mergeLoop_fits {p : Page} (hp : p.WF) (hwf : leaf.pageView.WF) {pre rest : List Bytes}
    (hrecords : p.recordsOf = pre ++ rest) (hfit : FitsIn rest (room leaf.pageView)) :
    mergeLoop p (List.range' pre.length rest.length) leaf = .ret (.ok (), leaf.appended rest) := by
  induction rest generalizing pre leaf with
  | nil => rfl
  | cons r rest ih =>
    obtain ⟨hr, hrest⟩ := fitsIn_cons.mp hfit
    have hget : p.getRecord pre.length = .ret (some r) := by
      refine getRecord_of_recordsOf hp ?_
      rw [hrecords, List.getElem?_append_right le_rfl, Nat.sub_self, List.getElem?_cons_zero]
    have hrecords' : p.recordsOf = (pre ++ [r]) ++ rest := by
      rw [hrecords, List.append_assoc, List.singleton_append]
    rw [← room_insertPage hwf] at hrest
    have hwf' : (leaf.appended [r]).pageView.WF := insertPage_wf hwf hr le_rfl
    have hnext := ih hwf' hrecords' hrest
    rw [List.length_append, List.length_singleton] at hnext
    rw [List.length_cons, List.range'_succ, mergeLoop, hget, Exec.ret_bind]
    dsimp only
    rw [append_fits hwf hr, Exec.ret_bind]
    dsimp only
    rw [hnext]
    rfl

/-- The check of `merge`: the bytes of the right sibling's records and slots. -/
theorem merge_eq (leaf : LeafNodeView) (next : Option LeafNodeView) (hright : right.pageView.WF)
    (hwf : leaf.pageView.WF) :
    merge leaf right next =
      if room leaf.pageView < bytesOf right.pageView.recordsOf + 4 * right.pageView.recordsOf.length then
        .ret (.error .insufficientSpaceForMerge, leaf, right, next)
      else .ret (.ok (),
        (leaf.appended right.pageView.recordsOf).withPointer 16 (u32At right.pageView 16),
        { right with pageView := blankPage .invalid none },
        next.map fun l => l.withPointer 12 leaf.pageId.pageIndex) := by
  have htotal : bytesOf right.pageView.recordsOf = total right.pageView.slots :=
    sum_length_recordsOf right.pageView
  have hlen := right.pageView.length_recordsOf
  have h₁ := hright.heap_le
  have h₂ := hright.slots_le
  have h₃ := hright.total_le
  have hused : Exec.sub 8192 (8160 - 4 * right.pageView.itemCount - total right.pageView.slots) =
      .ret (32 + (bytesOf right.pageView.recordsOf + 4 * right.pageView.recordsOf.length)) := by
    rw [Exec.sub_of_le (by omega)]
    congr 1
    omega
  rw [merge, getFreeSpace_eq hright, Exec.ret_bind]
  change (Exec.sub 8192 _ >>= fun used => Exec.sub used 32 >>= _) = _
  rw [hused, Exec.ret_bind, Exec.sub_of_le (Nat.le_add_right ..), Exec.ret_bind, Nat.add_sub_cancel_left,
    getFreeSpaceContiguous_eq hwf, Exec.ret_bind]
  change (if room leaf.pageView < _ then _ else _) = _
  split_ifs with hroom
  · rfl
  · have hloop := mergeLoop_fits hright hwf (List.nil_append _).symm (Nat.not_lt.mp hroom)
    rw [List.length_nil, hlen, ← List.range_eq_range'] at hloop
    rw [getItemCount, getPageHeaderU16Value_eq (by decide), Exec.ret_bind]
    change (mergeLoop right.pageView (List.range right.pageView.itemCount) leaf >>= _) = _
    rw [hloop, Exec.ret_bind]
    dsimp only
    rw [getNextLeafIndex, getLeafIndex_eq _ (by decide), Exec.ret_bind, setNextLeafIndex,
      setLeafIndex_eq _ (by decide), Exec.ret_bind, setPrevLeafIndexOf_eq, Exec.ret_bind,
      initializeLeaf_eq, toIndex_getD]
    rfl

/-- **A successful merge** appends the records of the right sibling to the leaf, sets the pointers around
the removed one and clears it. -/
theorem merge_ok (hright : right.pageView.WF) (hwf : leaf.pageView.WF)
    (h : merge leaf right next = .ret (.ok (), leaf', right', next')) :
    FitsIn right.pageView.recordsOf (room leaf.pageView) ∧
      leaf' = (leaf.appended right.pageView.recordsOf).withPointer 16 (u32At right.pageView 16) ∧
      right' = { right with pageView := blankPage .invalid none } ∧
      next' = next.map fun l => l.withPointer 12 leaf.pageId.pageIndex := by
  rw [merge_eq leaf next hright hwf] at h
  split_ifs at h with hroom
  · cases h
  · cases h
    exact ⟨Nat.not_lt.mp hroom, rfl, rfl, rfl⟩

end Merge

/-! ## The pointers afterwards -/

/-- The two pages after a split. -/
structure SplitDone (leaf right leaf' right' : LeafNodeView) : Prop where
  leafId : leaf'.pageId = leaf.pageId
  leafWF : leaf'.pageView.WF
  leafPrev : u32At leaf'.pageView 12 = invalidPageIndex
  leafNext : u32At leaf'.pageView 16 = right.pageId.pageIndex
  rightId : right'.pageId = right.pageId
  rightWF : right'.pageView.WF
  rightPrev : u32At right'.pageView 12 = leaf.pageId.pageIndex
  rightNext : u32At right'.pageView 16 = u32At leaf.pageView 16

/-- **The pointers after a split.** The left page has lost its previous index. -/
theorem splitAndInsert_done [RustDecimal D] {td : TableDefinition} {r : Record D} {key : Key D}
    {leaf right leaf' right' : LeafNodeView} {orig orig' : Option LeafNodeView}
    (hright : EmptyPage right.pageView)
    (h : splitAndInsert leaf r right orig td = .ret (.ok key, leaf', right', orig')) :
    SplitDone leaf right leaf' right' ∧
      orig' = orig.map fun l => l.withPointer 12 right.pageId.pageIndex := by
  obtain ⟨first, rest, hfirst, hrest, rfl, rfl, horig⟩ := splitAndInsert_ok hright h
  have hcleared := emptyPage_cleared leaf
  rw [← hcleared.room] at hfirst
  rw [← hright.room] at hrest
  refine ⟨?_, horig⟩
  constructor
  case leafId | rightId => rfl
  case leafWF => exact withPointer_wf (appended_wf hcleared.wf hfirst) (by decide) _
  case leafPrev =>
    refine (u32At_setPointer_ne (by decide)).trans ?_
    rw [u32At_appended hcleared.wf hfirst (by decide)]
    exact u32At_blankPage_prev ..
  case leafNext => exact u32At_setPointer (by decide)
  case rightWF =>
    exact withPointer_wf (withPointer_wf (appended_wf hright.wf hrest) (by decide) _) (by decide) _
  case rightPrev => exact u32At_setPointer (by decide)
  case rightNext => exact (u32At_setPointer_ne (by decide)).trans (u32At_setPointer (by decide))

/-- The leaf after a merge. -/
structure MergeDone (leaf right leaf' : LeafNodeView) : Prop where
  leafId : leaf'.pageId = leaf.pageId
  leafWF : leaf'.pageView.WF
  leafPrev : u32At leaf'.pageView 12 = u32At leaf.pageView 12
  leafNext : u32At leaf'.pageView 16 = u32At right.pageView 16

/-- **The pointers after a merge.** -/
theorem merge_done {leaf right leaf' right' : LeafNodeView} {next next' : Option LeafNodeView}
    (hright : right.pageView.WF) (hwf : leaf.pageView.WF)
    (h : merge leaf right next = .ret (.ok (), leaf', right', next')) :
    MergeDone leaf right leaf' ∧ next' = next.map fun l => l.withPointer 12 leaf.pageId.pageIndex := by
  obtain ⟨hfit, rfl, -, hnext⟩ := merge_ok hright hwf h
  refine ⟨?_, hnext⟩
  constructor
  case leafId => rfl
  case leafWF => exact withPointer_wf (appended_wf hwf hfit) (by decide) _
  case leafPrev =>
    exact (u32At_setPointer_ne (by decide)).trans (u32At_appended hwf hfit (by decide))
  case leafNext => exact u32At_setPointer (by decide)

end LeafNodeView

end RarmDb
