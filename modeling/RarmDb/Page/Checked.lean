import RarmDb.Page.Refine

/-!
# Conversions to `u16`

The conversion `as u16` is a parameter of the record operations. With `castU16`, which truncates, they
are the operations of the source; with `checkedU16`, a value that does not fit is a panic.

* `PageOp.runWith`: an operation with any conversion;
* **`runWith_checkedU16`**: on a page in `WF` no conversion truncates.
-/

namespace RarmDb

/-- A conversion to `u16` that panics on a value that does not fit. -/
def checkedU16 (n : ℕ) : Exec ℕ := if n < 65536 then .ret n else .panic

theorem checkedU16_of_lt {n : ℕ} (h : n < 65536) : checkedU16 n = castU16 n := by
  rw [checkedU16, if_pos h, Page.castU16_of_lt h]

namespace Page

variable {p : Page}

/-! ## The conversions fit -/

theorem initializePageWith_checkedU16 (p : Page) (ty : PageType) (parent : Option UInt64) :
    initializePageWith checkedU16 p ty parent = p.initializePage ty parent := rfl

theorem tryInsertRecordWith_checkedU16 (h : WF p) (i : ℕ) (r : Bytes) :
    tryInsertRecordWith checkedU16 p i r = tryInsertRecord p i r := by
  have hheap := h.heap_le
  rw [tryInsertRecord, tryInsertRecordWith, tryInsertRecordWith, getFreeSpaceContiguous_eq h, Exec.ret_bind, Exec.ret_bind]
  by_cases hr : heapEnd p - (32 + 4 * itemCount p) < r.length + slotSize
  · rw [if_pos hr, if_pos hr]
  · have hlen : checkedU16 r.length = castU16 r.length := checkedU16_of_lt (by omega)
    rw [if_neg hr, if_neg hr]
    simp only [hlen]

theorem u16At_lt (p : Page) (off : ℕ) : u16At p off < 65536 := by
  have hlt := ofLeBytes_lt (p.read off 2)
  rwa [Buffer.length_read] at hlt

theorem tryUpdateRecordWith_checkedU16 (h : WF p) (i : ℕ) (r : Bytes) :
    tryUpdateRecordWith checkedU16 p i r = tryUpdateRecord p i r := by
  have hcount := h.count_le
  have hheap := h.heap_le
  rw [tryUpdateRecord, tryUpdateRecordWith, tryUpdateRecordWith, getItemCount_eq, Exec.ret_bind, Exec.ret_bind]
  by_cases hi : i ≥ itemCount p
  · rw [if_pos hi, if_pos hi]
  · rw [if_neg hi, if_neg hi, getSlot_eq (by omega), Exec.ret_bind, Exec.ret_bind]
    dsimp only
    by_cases hle : r.length ≤ (slotAt p i).2
    · have hsize : (slotAt p i).2 < 65536 := u16At_lt p _
      have hoff : checkedU16 (slotAt p i).1 = castU16 (slotAt p i).1 :=
        checkedU16_of_lt (u16At_lt p _)
      have hlen : checkedU16 r.length = castU16 r.length := checkedU16_of_lt (by omega)
      rw [if_pos hle, if_pos hle]
      simp only [hoff, hlen]
    · rw [if_neg hle, if_neg hle, getFreeSpaceContiguous_eq h, Exec.ret_bind, Exec.ret_bind]
      by_cases hr : r.length > heapEnd p - (32 + 4 * itemCount p)
      · rw [if_pos hr, if_pos hr]
      · have hlen : checkedU16 r.length = castU16 r.length := checkedU16_of_lt (by omega)
        rw [if_neg hr, if_neg hr]
        simp only [hlen]

theorem compactStepWith_checkedU16 {block : Bytes} {s : Page × ℕ × ℕ} {i : ℕ} (hs : s.2.1 ≤ 8192)
    (hi : 36 + i * 4 ≤ 8192) : compactStepWith checkedU16 block s i = compactStep block s i := by
  obtain ⟨p, heap, off⟩ := s
  have hsize : checkedU16 (slotAt p i).2 = castU16 (slotAt p i).2 :=
    checkedU16_of_lt (u16At_lt p _)
  have hheap : checkedU16 (heap - (slotAt p i).2) = castU16 (heap - (slotAt p i).2) := by
    apply checkedU16_of_lt
    dsimp only at hs
    omega
  rw [compactStep, compactStepWith, compactStepWith, getSlot_eq hi, Exec.ret_bind, Exec.ret_bind]
  dsimp only
  unfold Exec.sub
  split_ifs
  · simp only [Exec.ret_bind, hheap, hsize]
  · rfl

/-- The offset of the loop only moves down. -/
theorem compactStep_heap_le {block : Bytes} {s s' : Page × ℕ × ℕ} {i : ℕ} (hs : s.2.1 ≤ 8192)
    (h : compactStep block s i = .ret s') : s'.2.1 ≤ 8192 := by
  obtain ⟨p, heap, off⟩ := s
  rw [compactStep, compactStepWith] at h
  obtain ⟨slot, -, h⟩ := Exec.bind_eq_ret.mp h
  obtain ⟨data, -, h⟩ := Exec.bind_eq_ret.mp h
  obtain ⟨heap', hsub, h⟩ := Exec.bind_eq_ret.mp h
  obtain ⟨p₁, -, h⟩ := Exec.bind_eq_ret.mp h
  obtain ⟨u, -, h⟩ := Exec.bind_eq_ret.mp h
  obtain ⟨v, -, h⟩ := Exec.bind_eq_ret.mp h
  obtain ⟨p₂, -, h⟩ := Exec.bind_eq_ret.mp h
  cases h
  unfold Exec.sub at hsub
  split_ifs at hsub
  · cases hsub
    exact (Nat.sub_le ..).trans hs

theorem compactWith_checkedU16 (h : WF p) : compactWith checkedU16 p = compact p := by
  have hcount := h.count_le
  have hheap := h.heap_le
  have hslots := h.slots_le
  have htotal := h.total_le
  rw [compact, compactWith, compactWith, getFreeSpace_eq h, Exec.ret_bind, Exec.ret_bind,
    getFreeSpaceContiguous_eq h, Exec.ret_bind, Exec.ret_bind]
  by_cases hfree : 8160 - 4 * itemCount p - total (slots p) = heapEnd p - (32 + 4 * itemCount p)
  · rw [if_pos hfree, if_pos hfree]
  · obtain ⟨q, hloop, -⟩ := rewritten_loop h
    have hsame : (List.range (itemCount p)).foldlM
        (compactStepWith checkedU16 (recordsOf p).flatten) (p, 8192, 0) =
          .ret (q, 8192 - total (slots p), total (slots p)) := by
      rw [← hloop]
      refine Exec.foldlM_congr (fun s => s.2.1 ≤ 8192) le_rfl (fun i hi s hs => ?_) fun i s s' hs => ?_
      · rw [List.mem_range] at hi
        exact compactStepWith_checkedU16 hs (by omega)
      · exact compactStep_heap_le hs
    have hconv : checkedU16 (8192 - total (slots p)) = castU16 (8192 - total (slots p)) :=
      checkedU16_of_lt (by omega)
    rw [if_neg hfree, if_neg hfree, getItemCount_eq, Exec.ret_bind, Exec.ret_bind]
    simp only [pageSize, pageHeaderSize, slotSize]
    rw [Exec.sub_of_le (by omega), Exec.ret_bind, Exec.ret_bind, Exec.sub_of_le (by omega),
      Exec.ret_bind, Exec.ret_bind]
    have hloop' : (List.range (itemCount p)).foldlM
        (compactStepWith castU16 (recordsOf p).flatten) (p, 8192, 0) =
          .ret (q, 8192 - total (slots p), total (slots p)) := hloop
    simp only [compactBlock_eq h, hloop', hsame, hconv, Exec.ret_bind]

end Page

/-- Run one operation with any conversion. -/
def PageOp.runWith (conv : ℕ → Exec ℕ) (p : Page) : PageOp → Exec (PageOut × Page)
  | tryInsertRecord index recordData => do
    let (result, p) ← p.tryInsertRecordWith conv index recordData
    return (some result, p)
  | tryUpdateRecord index recordData => do
    let (result, p) ← p.tryUpdateRecordWith conv index recordData
    return (some result, p)
  | deleteRecord index => do
    let p ← p.deleteRecord index
    return (none, p)
  | compact => do
    let p ← p.compactWith conv
    return (none, p)

/-- **No conversion truncates** on a page in `WF`. -/
theorem runWith_checkedU16 {p : Page} (h : p.WF) (op : PageOp) :
    op.runWith checkedU16 p = op.run p := by
  cases op with
  | tryInsertRecord i r => rw [PageOp.runWith, Page.tryInsertRecordWith_checkedU16 h, PageOp.run]
  | tryUpdateRecord i r => rw [PageOp.runWith, Page.tryUpdateRecordWith_checkedU16 h, PageOp.run]
  | deleteRecord i => rfl
  | compact => rw [PageOp.runWith, Page.compactWith_checkedU16 h, PageOp.run]

end RarmDb
