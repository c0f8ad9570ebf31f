import RarmDb.Lib.Refine
import RarmDb.Page.Compact

/-!
# A slotted page is a list of byte strings

* `records`: the records of a page as `get_record` reads them;
* `PageOp`, `ListStep`: the operations of a page and what they mean for the list of records;
* `pageOp_step`: one operation on a page in `WF`;
* **`slotted_page_refines_list`**: every run from `initialize` follows the list.
-/

namespace RarmDb

/-- `get_record(0)`, …, `get_record(get_item_count() - 1)`. -/
def records (p : Page) : Exec (List Bytes) := do
  let itemCount ← p.getItemCount
  (List.range itemCount).mapM fun i => do
    let record ← p.getRecord i
    Exec.unwrap record

theorem records_eq {p : Page} (h : p.WF) : records p = .ret p.recordsOf := by
  rw [records, Page.getItemCount_eq, Exec.ret_bind,
    Exec.mapM_ret (g := fun i => p.recordAt (p.slotAt i)) fun i hi => by
      rw [Page.getRecord_eq h (List.mem_range.mp hi), Exec.ret_bind, Exec.unwrap_some],
    Page.recordsOf, Page.slots, List.map_map]
  rfl

/-- The mutating operations of a page. -/
inductive PageOp
  | tryInsertRecord (index : ℕ) (recordData : Bytes)
  | tryUpdateRecord (index : ℕ) (recordData : Bytes)
  | deleteRecord (index : ℕ)
  | compact

/-- What an operation returns: nothing, or a result. -/
abbrev PageOut : Type := Option (Except StorageError ℕ)

/-- Run one operation. -/
def PageOp.run (p : Page) : PageOp → Exec (PageOut × Page)
  | tryInsertRecord index recordData => do
    let (result, p) ← p.tryInsertRecord index recordData
    return (some result, p)
  | tryUpdateRecord index recordData => do
    let (result, p) ← p.tryUpdateRecord index recordData
    return (some result, p)
  | deleteRecord index => do
    let p ← p.deleteRecord index
    return (none, p)
  | compact => do
    let p ← p.compact
    return (none, p)

/-- What an operation with the given output means for the list of records. -/
def ListStep : PageOp → PageOut → List Bytes → List Bytes → Prop
  | .tryInsertRecord i r, some (.ok k), l, l' => k = i ∧ i ≤ l.length ∧ l' = l.insertIdx i r
  | .tryUpdateRecord i r, some (.ok k), l, l' => k = i ∧ i < l.length ∧ l' = l.set i r
  | .tryInsertRecord _ _, some (.error _), l, l' => l' = l
  | .tryUpdateRecord _ _, some (.error _), l, l' => l' = l
  | .deleteRecord i, none, l, l' => l' = if i < l.length then l.eraseIdx i else l
  | .compact, none, l, l' => l' = l
  | _, _, _, _ => False

/-- **One operation on a page in `WF`.** -/
theorem pageOp_step {p : Page} {l : List Bytes} (op : PageOp) (h : p.WF ∧ p.recordsOf = l) :
    ∃ out p' l', op.run p = .ret (out, p') ∧ ListStep op out l l' ∧ p'.WF ∧ p'.recordsOf = l' := by
  obtain ⟨h, rfl⟩ := h
  have hlen := p.length_recordsOf
  cases op with
  | tryInsertRecord i r =>
    by_cases hr : r.length + 4 ≤ p.heapEnd - (32 + 4 * p.itemCount)
    · by_cases hi : i ≤ p.itemCount
      · exact ⟨some (.ok i), p.insertPage i r, _, by
          rw [PageOp.run, Page.tryInsertRecord_ok h hr hi]; rfl,
          ⟨rfl, by rwa [hlen], rfl⟩, Page.insertPage_wf h hr hi, Page.recordsOf_insertPage h hr hi⟩
      · exact ⟨some (.error .invalidSlotIndex), p, _, by
          rw [PageOp.run, Page.tryInsertRecord_invalid h hr (by omega)]; rfl, rfl, h, rfl⟩
    · exact ⟨some (.error .pageFull), p, _, by
        rw [PageOp.run, Page.tryInsertRecord_full h (by omega)]; rfl, rfl, h, rfl⟩
  | tryUpdateRecord i r =>
    by_cases hi : i < p.itemCount
    · by_cases hr : p.UpdateFits i r
      · exact ⟨some (.ok i), p.updatePage i r, _, by
          rw [PageOp.run, Page.tryUpdateRecord_ok h hi hr]; rfl,
          ⟨rfl, by rwa [hlen], rfl⟩, Page.updatePage_wf h hi hr, Page.recordsOf_updatePage h hi hr⟩
      · exact ⟨some (.error .pageFull), p, _, by
          rw [PageOp.run, Page.tryUpdateRecord_full h hi hr]; rfl, rfl, h, rfl⟩
    · exact ⟨some (.error .invalidSlotIndex), p, _, by
        rw [PageOp.run, Page.tryUpdateRecord_invalid (by omega)]; rfl, rfl, h, rfl⟩
  | deleteRecord i =>
    by_cases hi : i < p.itemCount
    · exact ⟨none, p.deletePage i, _, by rw [PageOp.run, Page.deleteRecord_eq h hi]; rfl,
        by rw [ListStep, if_pos (by rwa [hlen])], Page.deletePage_wf h hi,
        Page.recordsOf_deletePage h hi⟩
    · exact ⟨none, p, _, by rw [PageOp.run, Page.deleteRecord_ignored (by omega)]; rfl,
        by rw [ListStep, if_neg (by rwa [hlen])], h, rfl⟩
  | compact =>
    obtain ⟨q, hq, hwf, hrec, -⟩ := Page.compact_spec h
    exact ⟨none, q, _, by rw [PageOp.run, hq]; rfl, rfl, hwf, hrec⟩

/-- **A slotted page refines a list of byte strings.** Whatever the buffer held before, the page
type and the parent, `initialize` leaves no records, and a run of any operations from there does
not panic and does to the list of records what `ListStep` says, operation by operation. -/
theorem slotted_page_refines_list (b : Page) (ty : PageType) (parent : Option UInt64)
    (ops : List PageOp) :
    ∃ p run, b.initializePage ty parent = .ret p ∧ records p = .ret [] ∧
      trace PageOp.run p ops = .ret run ∧
        Simulates (fun p l => records p = .ret l) ListStep [] ops run := by
  have hwf := Page.blankPage_wf ty parent
  have hrec := Page.recordsOf_blankPage ty parent
  have hall : ∀ op ∈ ops, (fun _ : PageOp => True) op := fun _ _ => trivial
  obtain ⟨run, hrun, hsim⟩ := simulates_trace (I := fun p l => p.WF ∧ p.recordsOf = l)
    (R := fun p l => records p = .ret l) (fun _ _ h => h.2 ▸ records_eq h.1)
    (fun _ _ op _ hI => pageOp_step op hI) (admittedRun_of_forall hall _) ⟨hwf, hrec⟩
  exact ⟨_, run, Page.initializePage_eq b ty parent, by rw [records_eq hwf, hrec], hrun, hsim⟩

end RarmDb
