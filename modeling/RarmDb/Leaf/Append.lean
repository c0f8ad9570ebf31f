import RarmDb.Page.Header
import RarmDb.Leaf.Model

/-!
# Appending records

* `appendPages`: the page after records were appended one by one;
* `room`, `FitsIn`: the contiguous space of a page, and lists of records that fit;
* **`appendAll_fits`**, **`appendAll_full`**: the loops of `split_and_insert` and `merge` append
  everything, or stop at the first record that does not fit.
-/

namespace RarmDb

namespace Page

variable {p : Page} {r : Bytes} {records : List Bytes}

/-- The contiguous free space. -/
def room (p : Page) : ℕ := heapEnd p - (32 + 4 * itemCount p)

/-- The total length of the records. -/
def bytesOf (records : List Bytes) : ℕ := (records.map List.length).sum

/-- The page after the records were appended, one by one. -/
def appendPages (p : Page) : List Bytes → Page
  | [] => p
  | r :: records => appendPages (insertPage p (itemCount p) r) records

/-- The records fit the contiguous space, each with its slot. -/
def FitsIn (records : List Bytes) (space : ℕ) : Prop := bytesOf records + 4 * records.length ≤ space

@[simp] theorem bytesOf_nil : bytesOf [] = 0 := rfl

@[simp] theorem bytesOf_cons (r : Bytes) (records : List Bytes) :
    bytesOf (r :: records) = r.length + bytesOf records := by
  rw [bytesOf, List.map_cons, List.sum_cons, bytesOf]

@[simp] theorem bytesOf_append (l l' : List Bytes) :
    bytesOf (l ++ l') = bytesOf l + bytesOf l' := by
  rw [bytesOf, List.map_append, List.sum_append, bytesOf, bytesOf]

theorem fitsIn_cons {space : ℕ} :
    FitsIn (r :: records) space ↔ r.length + 4 ≤ space ∧ FitsIn records (space - (r.length + 4)) := by
  rw [FitsIn, FitsIn, bytesOf_cons, List.length_cons]
  omega

theorem room_insertPage (h : WF p) (r : Bytes) :
    room (insertPage p (itemCount p) r) = room p - (r.length + 4) := by
  rw [room, heapEnd_insertPage h, itemCount_insertPage h, room]
  omega

theorem recordsOf_insertPage_last (h : WF p) (hr : r.length + 4 ≤ room p) :
    recordsOf (insertPage p (itemCount p) r) = recordsOf p ++ [r] := by
  have hlen : itemCount p = (recordsOf p).length := (length_recordsOf p).symm
  rw [recordsOf_insertPage h hr le_rfl]
  conv_lhs => rw [hlen]
  exact List.insertIdx_length_self

/-- **Appending records that fit** keeps the layout and the header, and appends to the records. -/
theorem appendPages_spec (h : WF p) (hfit : FitsIn records (room p)) :
    WF (appendPages p records) ∧ recordsOf (appendPages p records) = recordsOf p ++ records ∧
      SameHeader p (appendPages p records) ∧
      room (appendPages p records) = room p - (bytesOf records + 4 * records.length) := by
  induction records generalizing p with
  | nil => exact ⟨h, (List.append_nil _).symm, SameHeader.refl p, rfl⟩
  | cons r records ih =>
    obtain ⟨hr, hrest⟩ := fitsIn_cons.mp hfit
    have hwf := insertPage_wf h hr le_rfl
    rw [← room_insertPage h] at hrest
    obtain ⟨h₁, h₂, h₃, h₄⟩ := ih hwf hrest
    refine ⟨h₁, ?_, SameHeader.trans (insertPage_sameHeader hr) h₃, ?_⟩
    · rw [appendPages, h₂, recordsOf_insertPage_last h hr, List.append_assoc, List.singleton_append]
    · rw [appendPages, h₄, room_insertPage h, bytesOf_cons, List.length_cons]
      omega

end Page

namespace LeafNodeView

open Page

variable {leaf : LeafNodeView} {records : List Bytes}

/-- The leaf with the records appended to its page. -/
def appended (leaf : LeafNodeView) (records : List Bytes) : LeafNodeView :=
  { leaf with pageView := appendPages leaf.pageView records }

theorem append_eq (leaf : LeafNodeView) (r : Bytes) :
    leaf.append r = leaf.onPage fun p => p.tryInsertRecord leaf.pageView.itemCount r := by
  rw [append, getPageHeaderU16Value_eq (by decide), Exec.ret_bind]
  rfl

theorem append_fits (h : leaf.pageView.WF) {r : Bytes} (hr : r.length + 4 ≤ room leaf.pageView) :
    leaf.append r = .ret (.ok leaf.pageView.itemCount, leaf.appended [r]) := by
  rw [append_eq, onPage, tryInsertRecord_ok h hr le_rfl]
  rfl

theorem append_full (h : leaf.pageView.WF) {r : Bytes} (hr : ¬ r.length + 4 ≤ room leaf.pageView) :
    leaf.append r = .ret (.error .pageFull, leaf) := by
  rw [append_eq, onPage, tryInsertRecord_full h (by unfold room at hr; omega)]
  rfl

/-- **All records are appended, when they fit.** -/
theorem appendAll_fits (h : leaf.pageView.WF) (hfit : FitsIn records (room leaf.pageView)) :
    appendAll records leaf = .ret (.ok (), leaf.appended records) := by
  induction records generalizing leaf with
  | nil => rfl
  | cons r records ih =>
    obtain ⟨hr, hrest⟩ := fitsIn_cons.mp hfit
    have hwf : (leaf.appended [r]).pageView.WF := insertPage_wf h hr le_rfl
    rw [← room_insertPage h] at hrest
    rw [appendAll, append_fits h hr, Exec.ret_bind]
    dsimp only
    rw [ih hwf hrest]
    rfl

/-- **The loop stops at the first record that does not fit.** -/
theorem appendAll_full (h : leaf.pageView.WF) (hfit : ¬ FitsIn records (room leaf.pageView)) :
    ∃ j, j < records.length ∧ FitsIn (records.take j) (room leaf.pageView) ∧
      appendAll records leaf = .ret (.error .pageFull, leaf.appended (records.take j)) := by
  induction records generalizing leaf with
  | nil => exact absurd (Nat.zero_le _) hfit
  | cons r records ih =>
    by_cases hr : r.length + 4 ≤ room leaf.pageView
    · have hwf : (leaf.appended [r]).pageView.WF := insertPage_wf h hr le_rfl
      have hrest : ¬ FitsIn records (room (leaf.appended [r]).pageView) := by
        intro hrest
        refine hfit (fitsIn_cons.mpr ⟨hr, ?_⟩)
        rwa [← room_insertPage h]
      obtain ⟨j, hj, hfits, hrun⟩ := ih hwf hrest
      refine ⟨j + 1, Nat.succ_lt_succ hj, ?_, ?_⟩
      · rw [List.take_succ_cons, fitsIn_cons]
        exact ⟨hr, by rwa [← room_insertPage h]⟩
      · rw [appendAll, append_fits h hr, Exec.ret_bind]
        dsimp only
        rw [hrun]
        rfl
    · refine ⟨0, Nat.succ_pos _, Nat.zero_le _, ?_⟩
      rw [appendAll, append_full h hr]
      rfl

theorem u32At_appended (hwf : leaf.pageView.WF)
    (hfit : FitsIn records (room leaf.pageView)) {off : ℕ} (hoff : off + 4 ≤ 20) :
    u32At (leaf.appended records).pageView off = u32At leaf.pageView off :=
  (appendPages_spec hwf hfit).2.2.1.u32At hoff

theorem appended_wf (hwf : leaf.pageView.WF)
    (hfit : FitsIn records (room leaf.pageView)) : (leaf.appended records).pageView.WF :=
  (appendPages_spec hwf hfit).1

end LeafNodeView

end RarmDb
