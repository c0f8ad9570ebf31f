import RarmDb.Page.Checked

/-!
# The space of a page

What holds of every page that the record operations can reach from `initialize`.

* `ReachablePage`: the pages of all runs;
* `Accounted`: where the slots and records of a page are, and how much space is free;
* **`page_accounted`**: the layout of every reachable page, and no operation panics or truncates;
* **`compact_reclaims`**: compaction leaves no gap, and an insertion succeeds if it fits;
* **`pageOp_frame`**: what the operations leave as it was.
-/

namespace RarmDb

/-- The pages that the record operations reach from `initialize`. -/
inductive ReachablePage : Page → Prop
  | initialized {b p : Page} {ty : PageType} {parent : Option UInt64}
      (h : b.initializePage ty parent = .ret p) : ReachablePage p
  | step {p q : Page} {op : PageOp} {out : PageOut} (hp : ReachablePage p)
      (h : op.run p = .ret (out, q)) : ReachablePage q

/-- The page has `n` slots, the data heap from `h` on, and these records. -/
structure Accounted (p : Page) (n h : ℕ) (rs : List Bytes) : Prop where
  count : p.getItemCount = .ret n
  heap : p.getDataStartOffset = .ret h
  records : records p = .ret rs
  slots_le : 32 + 4 * n ≤ h
  heap_le : h ≤ 8192
  inside : ∀ i < n, ∃ s, p.getSlot i = .ret s ∧ h ≤ s.1 ∧ s.1 + s.2 ≤ 8192
  apart : ∀ i < n, ∀ j < n, i ≠ j → ∃ s t, p.getSlot i = .ret s ∧ p.getSlot j = .ret t ∧ Apart s t
  contiguous : p.getFreeSpaceContiguous = .ret (h - (32 + 4 * n))
  free : ∃ f, p.getFreeSpace = .ret f ∧ 32 + 4 * n + (rs.map List.length).sum + f = 8192 ∧
    h - (32 + 4 * n) ≤ f

theorem ReachablePage.wf {p : Page} (h : ReachablePage p) : p.WF := by
  induction h with
  | @initialized b p ty parent h =>
    rw [Page.initializePage_eq] at h
    cases h
    exact Page.blankPage_wf ty parent
  | @step p q op out _ h ih =>
    obtain ⟨out', q', l', hrun, -, hwf, -⟩ := pageOp_step op ⟨ih, rfl⟩
    rw [h] at hrun
    cases hrun
    exact hwf

namespace Page

variable {p q : Page}

theorem WF.accounted (h : WF p) : Accounted p (itemCount p) (heapEnd p) (recordsOf p) := by
  have hcount := h.count_le
  have hheap := h.heap_le
  have hslots := h.slots_le
  have htotal := h.total_le
  constructor
  case count => exact getItemCount_eq p
  case heap => exact getPageHeaderU16Value_eq (by decide)
  case records => exact records_eq h
  case slots_le => exact hslots
  case heap_le => exact hheap
  case inside =>
    intro i hi
    exact ⟨slotAt p i, getSlot_eq (by omega), h.slot_inside hi⟩
  case apart =>
    intro i hi j hj hij
    exact ⟨slotAt p i, slotAt p j, getSlot_eq (by omega), getSlot_eq (by omega), h.slot_apart hi hj hij⟩
  case contiguous => exact getFreeSpaceContiguous_eq h
  case free =>
    refine ⟨_, getFreeSpace_eq h, ?_, ?_⟩
    · rw [sum_length_recordsOf]
      omega
    · omega

end Page

/-- **The layout of every reachable page**, with its space accounted for. Neither `initialize` nor an
operation on the page panics, not even when a conversion to `u16` that truncates is a panic. -/
theorem page_accounted {p : Page} (h : ReachablePage p) :
    (∃ n heap rs, Accounted p n heap rs) ∧
      (∀ ty parent, ∃ q, p.initializePage ty parent = .ret q ∧
        Page.initializePageWith checkedU16 p ty parent = .ret q) ∧
      ∀ op : PageOp, ∃ out q, op.run p = .ret (out, q) ∧ op.runWith checkedU16 p = .ret (out, q) := by
  refine ⟨⟨_, _, _, h.wf.accounted⟩, fun ty parent => ?_, fun op => ?_⟩
  · have hinit := Page.initializePage_eq p ty parent
    exact ⟨_, hinit, (Page.initializePageWith_checkedU16 p ty parent).trans hinit⟩
  · obtain ⟨out, q, -, hrun, -⟩ := pageOp_step op ⟨h.wf, rfl⟩
    exact ⟨out, q, hrun, (runWith_checkedU16 h.wf op).trans hrun⟩

/-! ## Compaction -/

namespace Page

variable {p q : Page}

theorem WF.covered (h : WF p) (hheap : heapEnd p = 8192 - total (slots p)) {k : ℕ} (hk : heapEnd p ≤ k)
    (hlt : k < 8192) : ∃ i < itemCount p, (slotAt p i).1 ≤ k ∧ k < (slotAt p i).1 + (slotAt p i).2 := by
  have htotal := h.total_le
  have hle := h.heap_le
  obtain ⟨s, hs, hks⟩ := h.packed.covers (by omega) hk hlt
  obtain ⟨i, hi, rfl⟩ := List.mem_map.mp hs
  exact ⟨i, List.mem_range.mp hi, hks⟩

theorem itemCount_of_recordsOf (h : recordsOf q = recordsOf p) : itemCount q = itemCount p := by
  rw [← length_recordsOf, h, length_recordsOf]

/-- The page after compaction: the records fill its end. -/
theorem compact_full (h : WF p) : ∃ q, compact p = .ret q ∧ WF q ∧ recordsOf q = recordsOf p ∧
    SameHeader p q ∧ heapEnd q = 8192 - total (slots q) ∧ (heapEnd p = 8192 - total (slots p) → q = p) := by
  obtain ⟨q, hq, hwf, hrec, hheader, hheap, hsame, -⟩ := compact_spec h
  refine ⟨q, hq, hwf, hrec, hheader, ?_, hsame⟩
  rw [hheap, ← sum_length_recordsOf, ← sum_length_recordsOf, hrec]

theorem compact_of_full (h : WF p) (hheap : heapEnd p = 8192 - total (slots p)) :
    compact p = .ret p := by
  obtain ⟨q, hq, -, -, -, -, hsame⟩ := compact_full h
  rw [hq, hsame hheap]

theorem tryInsertRecord_ok_iff (h : WF p) {i : ℕ} {r : Bytes} (hi : i ≤ itemCount p) :
    (∃ k q, tryInsertRecord p i r = .ret (.ok k, q)) ↔
      r.length + 4 ≤ heapEnd p - (32 + 4 * itemCount p) := by
  refine ⟨fun ⟨k, q, hok⟩ => ?_, fun hr => ⟨i, _, tryInsertRecord_ok h hr hi⟩⟩
  by_contra hr
  rw [tryInsertRecord_full h (by omega)] at hok
  cases hok

end Page

/-- **Compaction reclaims all garbage**: the whole free space is one block, the records fill the end of the
page, a second compaction changes nothing, and an insertion succeeds if and only if it fits the space
that was free. -/
theorem compact_reclaims {p : Page} (h : ReachablePage p) :
    ∃ q n heap free, p.compact = .ret q ∧ p.getItemCount = .ret n ∧ q.getItemCount = .ret n ∧
      p.getFreeSpace = .ret free ∧ q.getFreeSpaceContiguous = .ret free ∧ records q = records p ∧
      q.getDataStartOffset = .ret heap ∧
      (∀ k, heap ≤ k → k < 8192 → ∃ i < n, ∃ s, q.getSlot i = .ret s ∧ s.1 ≤ k ∧ k < s.1 + s.2) ∧
      q.compact = .ret q ∧
      ∀ i r, i ≤ n →
        ((∃ k q', q.tryInsertRecord i r = .ret (.ok k, q')) ↔ r.length + 4 ≤ free) := by
  have hp := h.wf
  obtain ⟨q, hq, hwf, hrec, -, hheap, -⟩ := Page.compact_full hp
  have hcount : q.itemCount = p.itemCount := Page.itemCount_of_recordsOf hrec
  have htotal : total q.slots = total p.slots := by
    rw [← Page.sum_length_recordsOf, hrec, Page.sum_length_recordsOf]
  have hfree : q.heapEnd - (32 + 4 * q.itemCount) = 8160 - 4 * p.itemCount - total p.slots := by
    rw [hheap, hcount, htotal]
    omega
  have hslots := hwf.count_le
  refine ⟨q, p.itemCount, q.heapEnd, _, hq, p.getItemCount_eq, hcount ▸ q.getItemCount_eq,
    Page.getFreeSpace_eq hp, hfree ▸ Page.getFreeSpaceContiguous_eq hwf, ?_,
    Page.getPageHeaderU16Value_eq (by decide), fun k hk hlt => ?_, Page.compact_of_full hwf hheap,
    fun i r hi => ?_⟩
  · rw [records_eq hwf, records_eq hp, hrec]
  · obtain ⟨i, hi, hks⟩ := hwf.covered hheap hk hlt
    exact ⟨i, hcount ▸ hi, _, Page.getSlot_eq (by omega), hks⟩
  · rw [Page.tryInsertRecord_ok_iff hwf (hcount.symm ▸ hi), hfree]

/-! ## What stays as it was -/

namespace Page

theorem deletePage_sameHeader (p : Page) (i : ℕ) : SameHeader p (deletePage p i) :=
  ((SameHeader.refl p).write (by omega)).write_u16 (Or.inl rfl)

end Page

/-- **The frame of the record operations.** The header bytes `0` to `19` and `24` to `31` stay, and an
operation that fails or has nothing to do leaves the whole page as it was. -/
theorem pageOp_frame {p : Page} (h : ReachablePage p) (op : PageOp) :
    ∃ out q, op.run p = .ret (out, q) ∧ (∀ k, k < 20 ∨ 24 ≤ k ∧ k < 32 → q.get k = p.get k) ∧
      (∀ e, out = some (.error e) → q = p) ∧
      (∀ i n, op = .deleteRecord i → p.getItemCount = .ret n → n ≤ i → q = p) ∧
      (op = .compact → p.getFreeSpace = p.getFreeSpaceContiguous → q = p) := by
  have hp := h.wf
  cases op with
  | tryInsertRecord i r =>
    by_cases hr : r.length + 4 ≤ p.heapEnd - (32 + 4 * p.itemCount)
    · by_cases hi : i ≤ p.itemCount
      · refine ⟨some (.ok i), p.insertPage i r, ?_, Page.insertPage_sameHeader hr, by rintro e ⟨⟩,
          by rintro j n ⟨⟩, by rintro ⟨⟩⟩
        rw [PageOp.run, Page.tryInsertRecord_ok hp hr hi]
        rfl
      · refine ⟨some (.error .invalidSlotIndex), p, ?_, fun _ _ => rfl, fun _ _ => rfl,
          by rintro j n ⟨⟩, by rintro ⟨⟩⟩
        rw [PageOp.run, Page.tryInsertRecord_invalid hp hr (by omega)]
        rfl
    · refine ⟨some (.error .pageFull), p, ?_, fun _ _ => rfl, fun _ _ => rfl, by rintro j n ⟨⟩,
        by rintro ⟨⟩⟩
      rw [PageOp.run, Page.tryInsertRecord_full hp (by omega)]
      rfl
  | tryUpdateRecord i r =>
    by_cases hi : i < p.itemCount
    · by_cases hr : p.UpdateFits i r
      · refine ⟨some (.ok i), p.updatePage i r, ?_, Page.updatePage_sameHeader hp hi hr, by rintro e ⟨⟩,
          by rintro j n ⟨⟩, by rintro ⟨⟩⟩
        rw [PageOp.run, Page.tryUpdateRecord_ok hp hi hr]
        rfl
      · refine ⟨some (.error .pageFull), p, ?_, fun _ _ => rfl, fun _ _ => rfl, by rintro j n ⟨⟩,
          by rintro ⟨⟩⟩
        rw [PageOp.run, Page.tryUpdateRecord_full hp hi hr]
        rfl
    · refine ⟨some (.error .invalidSlotIndex), p, ?_, fun _ _ => rfl, fun _ _ => rfl,
        by rintro j n ⟨⟩, by rintro ⟨⟩⟩
      rw [PageOp.run, Page.tryUpdateRecord_invalid (by omega)]
      rfl
  | deleteRecord i =>
    by_cases hi : i < p.itemCount
    · refine ⟨none, p.deletePage i, ?_, Page.deletePage_sameHeader p i, by rintro e ⟨⟩,
        fun j n hj hn hle => ?_, by rintro ⟨⟩⟩
      · rw [PageOp.run, Page.deleteRecord_eq hp hi]
        rfl
      · cases hj
        rw [p.getItemCount_eq] at hn
        cases hn
        exact absurd hi (Nat.not_lt.mpr hle)
    · refine ⟨none, p, ?_, fun _ _ => rfl, by rintro e ⟨⟩, fun _ _ _ _ _ => rfl, by rintro ⟨⟩⟩
      rw [PageOp.run, Page.deleteRecord_ignored (by omega)]
      rfl
  | compact =>
    obtain ⟨q, hq, -, -, hheader, -, hsame⟩ := Page.compact_full hp
    refine ⟨none, q, ?_, hheader, by rintro e ⟨⟩, by rintro j n ⟨⟩, fun _ hfree => hsame ?_⟩
    · rw [PageOp.run, hq]
      rfl
    · rw [Page.getFreeSpace_eq hp, Page.getFreeSpaceContiguous_eq hp] at hfree
      have hfree := Exec.ret.inj hfree
      have hheap := hp.heap_le
      have hslots := hp.slots_le
      have htotal := hp.total_le
      omega

section Witness

/-- Run the operations one after the other. -/
def runOps (p : Page) (ops : List PageOp) : Exec Page :=
  ops.foldlM (fun p op => do
    let result ← op.run p
    return result.2) p

theorem ReachablePage.runOps {p q : Page} {ops : List PageOp} (hp : ReachablePage p)
    (h : RarmDb.runOps p ops = .ret q) : ReachablePage q := by
  induction ops generalizing p with
  | nil =>
    cases h
    exact hp
  | cons op ops ih =>
    obtain ⟨p', hrun, hrest⟩ := Exec.bind_eq_ret.mp h
    obtain ⟨result, hop, hret⟩ := Exec.bind_eq_ret.mp hrun
    cases hret
    exact ih (hp.step hop) hrest

/-- Three records are inserted, the first one is replaced by a shorter one, and the last one is deleted. -/
def churn : List PageOp :=
  [.tryInsertRecord 0 [1, 2, 3, 4, 5], .tryInsertRecord 1 [6, 7], .tryInsertRecord 1 [8, 8, 8],
    .tryUpdateRecord 0 [9, 9], .deleteRecord 2]

theorem churn_runs : (runOps (Page.blankPage .leafNode none) churn).toOption.isSome = true := by
  decide +kernel

/-- A page with two records, and five dead bytes. -/
def churnedPage : Page := (runOps (Page.blankPage .leafNode none) churn).toOption.get churn_runs

theorem churnedPage_reachable : ReachablePage churnedPage := by
  have hblank : ReachablePage (Page.blankPage .leafNode none) :=
    .initialized (Page.initializePage_eq (.const 8192 0) .leafNode none)
  exact hblank.runOps (Exec.toOption_eq_some.mp (Option.some_get churn_runs).symm)

theorem page_accounted_churned :
    Accounted churnedPage 2 8182 [[9, 9], [8, 8, 8]] ∧
      churnedPage.getFreeSpaceContiguous = .ret 8142 ∧ churnedPage.getFreeSpace = .ret 8147 ∧
      (∀ ty parent, ∃ q, churnedPage.initializePage ty parent = .ret q ∧
        Page.initializePageWith checkedU16 churnedPage ty parent = .ret q) ∧
      ∀ op : PageOp, ∃ out q, op.run churnedPage = .ret (out, q) ∧
        op.runWith checkedU16 churnedPage = .ret (out, q) := by
  obtain ⟨⟨n, heap, rs, h⟩, hinit, hops⟩ := page_accounted churnedPage_reachable
  obtain rfl : n = 2 := Exec.ret.inj (h.count.symm.trans (by decide +kernel))
  obtain rfl : heap = 8182 := Exec.ret.inj (h.heap.symm.trans (by decide +kernel))
  obtain rfl : rs = [[9, 9], [8, 8, 8]] := Exec.ret.inj (h.records.symm.trans (by decide +kernel))
  exact ⟨h, h.contiguous, by decide +kernel, hinit, hops⟩

/-- The five dead bytes are free space of the compacted page. -/
theorem compact_reclaims_churned : ∃ q, churnedPage.compact = .ret q ∧
    churnedPage.getFreeSpaceContiguous = .ret 8142 ∧ q.getFreeSpaceContiguous = .ret 8147 ∧
      records q = .ret [[9, 9], [8, 8, 8]] ∧ q.getDataStartOffset = .ret 8187 ∧ q.compact = .ret q ∧
      ∀ i r, i ≤ 2 → ((∃ k q', q.tryInsertRecord i r = .ret (.ok k, q')) ↔ r.length + 4 ≤ 8147) := by
  obtain ⟨q, n, heap, free, hq, hn, -, hfree, hcont, hrecords, hheap, -, hagain, hfits⟩ :=
    compact_reclaims churnedPage_reachable
  obtain rfl : n = 2 := Exec.ret.inj (hn.symm.trans (by decide +kernel))
  obtain rfl : free = 8147 := Exec.ret.inj (hfree.symm.trans (by decide +kernel))
  have hstart : (churnedPage.compact >>= Page.getDataStartOffset) = .ret 8187 := by decide +kernel
  rw [hq] at hstart
  refine ⟨q, hq, by decide +kernel, hcont, hrecords.trans (by decide +kernel), hstart, hagain, hfits⟩

/-- An insertion moves both slots, a compaction moves the first record, and an insertion at a slot that is not there
leaves the page as it was. -/
theorem pageOp_frame_churned :
    (∃ q, (PageOp.tryInsertRecord 0 [5]).run churnedPage = .ret (some (.ok 0), q) ∧
      records q = .ret [[5], [9, 9], [8, 8, 8]] ∧
      ∀ k, k < 20 ∨ 24 ≤ k ∧ k < 32 → q.get k = churnedPage.get k) ∧
    (∃ q, PageOp.compact.run churnedPage = .ret (none, q) ∧ churnedPage.getSlot 0 = .ret (8187, 2) ∧
      q.getSlot 0 = .ret (8190, 2) ∧ ∀ k, k < 20 ∨ 24 ≤ k ∧ k < 32 → q.get k = churnedPage.get k) ∧
    (PageOp.tryInsertRecord 3 [5]).run churnedPage = .ret (some (.error .invalidSlotIndex), churnedPage) := by
  refine ⟨?_, ?_, ?_⟩
  · obtain ⟨out, q, hrun, hheader, -⟩ := pageOp_frame churnedPage_reachable (.tryInsertRecord 0 [5])
    have hout : ((PageOp.tryInsertRecord 0 [5]).run churnedPage >>= fun result => do
        let rs ← records result.2
        return (result.1, rs)) = .ret (some (.ok 0), [[5], [9, 9], [8, 8, 8]]) := by decide +kernel
    rw [hrun, Exec.ret_bind] at hout
    obtain ⟨rs, hrecords, hret⟩ := Exec.bind_eq_ret.mp hout
    cases hret
    exact ⟨q, hrun, hrecords, hheader⟩
  · obtain ⟨out, q, hrun, hheader, -⟩ := pageOp_frame churnedPage_reachable .compact
    have hout : (PageOp.compact.run churnedPage >>= fun result => do
        let slot ← result.2.getSlot 0
        return (result.1, slot)) = .ret (none, (8190, 2)) := by decide +kernel
    rw [hrun, Exec.ret_bind] at hout
    obtain ⟨slot, hslot, hret⟩ := Exec.bind_eq_ret.mp hout
    cases hret
    exact ⟨q, hrun, by decide +kernel, hslot, hheader⟩
  · obtain ⟨out, q, hrun, -, hsame, -⟩ := pageOp_frame churnedPage_reachable (.tryInsertRecord 3 [5])
    have hout : ((PageOp.tryInsertRecord 3 [5]).run churnedPage >>= fun result => pure result.1) =
        .ret (some (.error .invalidSlotIndex)) := by decide +kernel
    rw [hrun, Exec.ret_bind] at hout
    cases hout
    rw [hrun, hsame _ rfl]

end Witness

end RarmDb
