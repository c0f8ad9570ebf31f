import RarmDb.Page.Refine
import RarmDb.Leaf.Header
import RarmDb.Leaf.Pointers

/-!
# The pages after a merge

* `Reached`: the leaves that record operations and sibling pointers make of an initialized page;
* `OnlyPrev`, `Wiped`: what becomes of the leaf after the right sibling, and of the right sibling;
* **`merge_concatenates`**: what the three pages hold after a merge that returns `Ok`;
* **`merge_check_exact`**: the space check decides, and nothing fails after it.
-/

namespace RarmDb

open RecordSerializer SortedMap Page LeafNodeView

namespace LeafNodeView

/-- The leaves that record operations and sibling pointers make of an initialized page. -/
inductive Reached : LeafNodeView → Prop
  | blank {leaf : LeafNodeView} (leaf₀ : LeafNodeView) (ty : PageType) (parent : Option UInt64)
      (hrun : leaf₀.initializeLeaf ty parent = .ret leaf) : Reached leaf
  | record {leaf leaf' : LeafNodeView} {out : PageOut} (op : PageOp) (h : Reached leaf)
      (hrun : leaf.onPage (fun p => op.run p) = .ret (out, leaf')) : Reached leaf'
  | setNextLeafIndex {leaf leaf' : LeafNodeView} (index : Option UInt32) (h : Reached leaf)
      (hrun : leaf.setNextLeafIndex index = .ret leaf') : Reached leaf'
  | setPrevLeafIndex {leaf leaf' : LeafNodeView} (index : Option UInt32) (h : Reached leaf)
      (hrun : leaf.setPrevLeafIndex index = .ret leaf') : Reached leaf'

variable {leaf right leaf' right' : LeafNodeView} {next next' : Option LeafNodeView}

theorem Reached.wf (h : Reached leaf) : leaf.pageView.WF := by
  induction h with
  | blank leaf₀ ty parent hrun =>
    rw [initializeLeaf_eq] at hrun
    cases hrun
    exact blankPage_wf ty parent
  | @record leaf leaf' out op h hrun ih =>
    obtain ⟨out', p, l, hop, -, hwf, -⟩ := pageOp_step (l := leaf.pageView.recordsOf) op ⟨ih, rfl⟩
    rw [onPage, hop, Exec.ret_bind] at hrun
    cases hrun
    exact hwf
  | setNextLeafIndex index h hrun ih =>
    rw [LeafNodeView.setNextLeafIndex, setLeafIndex_eq _ (by decide)] at hrun
    cases hrun
    exact withPointer_wf ih (by decide) _
  | setPrevLeafIndex index h hrun ih =>
    rw [LeafNodeView.setPrevLeafIndex, setLeafIndex_eq _ (by decide)] at hrun
    cases hrun
    exact withPointer_wf ih (by decide) _

/-- A leaf whose previous index was set to `index`, and nothing else. -/
structure OnlyPrev (leaf leaf' : LeafNodeView) (index : UInt32) : Prop where
  pageId : leaf'.pageId = leaf.pageId
  header : leaf'.pageView.getPageHeaderU32Value pageHeaderPrevSiblingLeafPageIndexOffset = .ret index
  prev : leaf'.getPrevLeafIndex = .ret (toIndex index)
  next : leaf'.getNextLeafIndex = leaf.getNextLeafIndex
  records : records leaf'.pageView = records leaf.pageView
  itemCount : leaf'.getItemCount = leaf.getItemCount
  pageType : leaf'.pageView.getPageType = leaf.pageView.getPageType

/-- A page without records, type and siblings. -/
structure Wiped (leaf leaf' : LeafNodeView) : Prop where
  pageId : leaf'.pageId = leaf.pageId
  records : records leaf'.pageView = .ret []
  itemCount : leaf'.getItemCount = .ret 0
  pageType : leaf'.pageView.getPageType = .invalid
  prev : leaf'.getPrevLeafIndex = .ret none
  next : leaf'.getNextLeafIndex = .ret none

theorem getItemCount_eq (leaf : LeafNodeView) : leaf.getItemCount = .ret leaf.pageView.itemCount :=
  getPageHeaderU16Value_eq (by decide)

theorem onlyPrev_withPointer (hwf : leaf.pageView.WF) (index : UInt32) :
    OnlyPrev leaf (leaf.withPointer 12 index) index where
  pageId := rfl
  header := (getPageHeaderU32Value_eq (by decide)).trans (congrArg _ (u32At_setPointer (by decide)))
  prev := by
    rw [getPrevLeafIndex_eq]
    exact congrArg (fun v => Exec.ret (toIndex v)) (u32At_setPointer (by decide))
  next := by
    rw [getNextLeafIndex_eq, getNextLeafIndex_eq]
    exact congrArg (fun v => Exec.ret (toIndex v)) (u32At_setPointer_ne (by decide))
  records := by
    rw [records_eq (withPointer_wf hwf (by decide) _), records_eq hwf,
      recordsOf_withPointer hwf (by decide)]
  itemCount := by
    rw [getItemCount_eq, getItemCount_eq]
    exact congrArg Exec.ret (itemCount_setPointer (by decide))
  pageType := getPageType_write (by rw [length_leBytes]; decide)

theorem wiped_blank (leaf : LeafNodeView) :
    Wiped leaf { leaf with pageView := blankPage .invalid none } where
  pageId := rfl
  records := by rw [records_eq (blankPage_wf ..), recordsOf_blankPage]
  itemCount := by rw [getItemCount_eq, itemCount_blankPage]
  pageType := getPageType_blankPage ..
  prev := by
    rw [getPrevLeafIndex_eq, u32At_blankPage_prev]
    rfl
  next := by
    rw [getNextLeafIndex_eq, u32At_blankPage_next]
    rfl

theorem storesKeys_merge {D : Type} [RustDecimal D] {td : TableDefinition}
    {es es₂ : List (Key D × Bytes)} (h : StoresKeys td leaf.pageView es)
    (h₂ : StoresKeys td right.pageView es₂)
    (hlt : ∀ e ∈ es, ∀ e₂ ∈ es₂, e.1.cmp e₂.1 = .lt) (hwf' : leaf'.pageView.WF)
    (hrecords : leaf'.pageView.recordsOf = leaf.pageView.recordsOf ++ right.pageView.recordsOf) :
    StoresKeys td leaf'.pageView (es ++ es₂) where
  wf := hwf'
  recordsOf := by rw [hrecords, h.recordsOf, h₂.recordsOf, List.map_append]
  decode e he := (List.mem_append.mp he).elim (h.decode e) (h₂.decode e)
  sorted := sorted_append.mpr ⟨h.sorted, h₂.sorted, hlt⟩

end LeafNodeView

/-! ## What a merge leaves, and when it fits -/

/-- A leaf with one record. -/
def oneRecord (pageIndex : UInt32) (recordData : Bytes) : LeafNodeView :=
  ⟨⟨1, pageIndex⟩, appendPages (blankPage .leafNode none) [recordData]⟩

section OneRecord

variable (pageIndex : UInt32) {recordData : Bytes} (h : recordData.length + 4 ≤ 8160)
include h

theorem reached_oneRecord : (oneRecord pageIndex recordData).Reached := by
  have hempty := emptyPage_blankPage .leafNode none
  rw [← hempty.room] at h
  have hblank : (⟨⟨1, pageIndex⟩, blankPage .leafNode none⟩ : LeafNodeView).Reached :=
    .blank ⟨⟨1, pageIndex⟩, blankPage .leafNode none⟩ .leafNode none (initializeLeaf_eq ..)
  have hrun : onPage ⟨⟨1, pageIndex⟩, blankPage .leafNode none⟩ (fun p =>
      (PageOp.tryInsertRecord (blankPage .leafNode none).itemCount recordData).run p) =
        .ret (some (.ok (blankPage .leafNode none).itemCount), oneRecord pageIndex recordData) := by
    rw [onPage, PageOp.run, tryInsertRecord_ok hempty.wf h le_rfl]
    rfl
  exact .record _ hblank hrun

theorem oneRecord_spec :
    (oneRecord pageIndex recordData).pageView.recordsOf = [recordData] ∧
      room (oneRecord pageIndex recordData).pageView = 8160 - (recordData.length + 4) := by
  have hempty := emptyPage_blankPage .leafNode none
  have hfit : FitsIn [recordData] (room (blankPage .leafNode none)) := by
    rw [hempty.room, fitsIn_cons]
    exact ⟨h, Nat.zero_le _⟩
  obtain ⟨-, hrecords, -, hroom⟩ := appendPages_spec hempty.wf hfit
  rw [hempty.recordsOf, List.nil_append] at hrecords
  rw [hempty.room] at hroom
  exact ⟨hrecords, hroom⟩

end OneRecord

/-- **A merge concatenates and unlinks.** When `merge` returns `Ok`, the leaf has its old records followed
by those of the right sibling, the next index of the right sibling and its own previous one; the leaf
after the right sibling has a new previous index and is otherwise unchanged; the right sibling is wiped.
If every key of the leaf was less than every key of the right sibling, the merged keys are sorted. -/
theorem merge_concatenates {D : Type} [RustDecimal D] (leaf right : LeafNodeView)
    (next : Option LeafNodeView) (leaf' right' : LeafNodeView) (next' : Option LeafNodeView)
    (hleaf : leaf.Reached) (hright : right.Reached) (hnext : ∀ l ∈ next, l.Reached)
    (hrun : merge leaf right next = .ret (.ok (), leaf', right', next')) :
    (∃ l l', records leaf.pageView = .ret l ∧ records right.pageView = .ret l' ∧
      records leaf'.pageView = .ret (l ++ l')) ∧
    leaf'.pageId = leaf.pageId ∧ leaf'.getNextLeafIndex = right.getNextLeafIndex ∧
    leaf'.getPrevLeafIndex = leaf.getPrevLeafIndex ∧
    Option.Rel (fun l l' => OnlyPrev l l' leaf.pageId.pageIndex) next next' ∧ Wiped right right' ∧
    ∀ (td : TableDefinition) (es es₂ : List (Key D × Bytes)), StoresKeys td leaf.pageView es →
      StoresKeys td right.pageView es₂ → (∀ e ∈ es, ∀ e₂ ∈ es₂, e.1.cmp e₂.1 = .lt) →
        StoresKeys td leaf'.pageView (es ++ es₂) := by
  obtain ⟨hfit, rfl, rfl, rfl⟩ := merge_ok hright.wf hleaf.wf hrun
  obtain ⟨hwf, hrecords, hheader, -⟩ := appendPages_spec hleaf.wf hfit
  have hwf' : ((leaf.appended right.pageView.recordsOf).withPointer 16
      (u32At right.pageView 16)).pageView.WF := withPointer_wf hwf (by decide) _
  have hrecords' : ((leaf.appended right.pageView.recordsOf).withPointer 16
      (u32At right.pageView 16)).pageView.recordsOf =
        leaf.pageView.recordsOf ++ right.pageView.recordsOf := by
    rw [recordsOf_withPointer hwf (by decide), appended, hrecords]
  refine ⟨⟨_, _, records_eq hleaf.wf, records_eq hright.wf, ?_⟩, rfl, ?_, ?_, ?_, wiped_blank right, ?_⟩
  · rw [records_eq hwf', hrecords']
  · rw [getNextLeafIndex_eq, getNextLeafIndex_eq]
    exact congrArg (fun v => Exec.ret (toIndex v)) (u32At_setPointer (by decide))
  · rw [getPrevLeafIndex_eq, getPrevLeafIndex_eq]
    exact congrArg (fun v => Exec.ret (toIndex v))
      ((u32At_setPointer_ne (by decide)).trans (hheader.u32At (by decide)))
  · cases next with
    | none => exact .none
    | some l => exact .some (onlyPrev_withPointer (hnext l rfl).wf _)
  · exact fun td es es₂ h h₂ hlt => storesKeys_merge h h₂ hlt hwf' hrecords'

theorem merge_concatenates_two : ∃ leaf' right' next',
    merge (oneRecord 0 [1, 2]) (oneRecord 1 [3]) (some (oneRecord 2 [])) =
      .ret (.ok (), leaf', right', next') ∧
    (∃ l l', records (oneRecord 0 [1, 2]).pageView = .ret l ∧
      records (oneRecord 1 [3]).pageView = .ret l' ∧ records leaf'.pageView = .ret (l ++ l')) ∧
    leaf'.pageId = (oneRecord 0 [1, 2]).pageId ∧
    leaf'.getNextLeafIndex = (oneRecord 1 [3]).getNextLeafIndex ∧
    leaf'.getPrevLeafIndex = (oneRecord 0 [1, 2]).getPrevLeafIndex ∧
    Option.Rel (fun l l' => OnlyPrev l l' (oneRecord 0 [1, 2]).pageId.pageIndex)
      (some (oneRecord 2 [])) next' ∧ Wiped (oneRecord 1 [3]) right' ∧
    ∀ (td : TableDefinition) (es es₂ : List (Key Decimal96 × Bytes)),
      StoresKeys td (oneRecord 0 [1, 2]).pageView es → StoresKeys td (oneRecord 1 [3]).pageView es₂ →
        (∀ e ∈ es, ∀ e₂ ∈ es₂, e.1.cmp e₂.1 = .lt) → StoresKeys td leaf'.pageView (es ++ es₂) := by
  have hleaf : (oneRecord 0 [1, 2]).Reached := reached_oneRecord 0 (by decide)
  have hright : (oneRecord 1 [3]).Reached := reached_oneRecord 1 (by decide)
  have hnext : (oneRecord 2 []).Reached := reached_oneRecord 2 (by decide)
  have hroom : ¬ room (oneRecord 0 [1, 2]).pageView < bytesOf (oneRecord 1 [3]).pageView.recordsOf +
      4 * (oneRecord 1 [3]).pageView.recordsOf.length := by
    rw [(oneRecord_spec 0 (by decide)).2, (oneRecord_spec 1 (by decide)).1]
    decide
  have hrun := merge_eq (oneRecord 0 [1, 2]) (some (oneRecord 2 [])) hright.wf hleaf.wf
  rw [if_neg hroom] at hrun
  exact ⟨_, _, _, hrun, merge_concatenates _ _ _ _ _ _ hleaf hright (by rintro l ⟨⟩; exact hnext) hrun⟩

/-- **The space check of a merge is exact.** `merge` returns `InsufficientSpaceForMerge` and leaves all
three pages as they were when the right sibling's records, with four bytes each for their slots, exceed
the contiguous free space of the leaf; otherwise it returns `Ok`. -/
theorem merge_check_exact (leaf right : LeafNodeView) (next : Option LeafNodeView)
    (hleaf : leaf.Reached) (hright : right.Reached) :
    ∃ l free, records right.pageView = .ret l ∧ leaf.pageView.getFreeSpaceContiguous = .ret free ∧
      if free < bytesOf l + 4 * l.length then
        merge leaf right next = .ret (.error .insufficientSpaceForMerge, leaf, right, next)
      else ∃ leaf' right' next', merge leaf right next = .ret (.ok (), leaf', right', next') := by
  refine ⟨_, _, records_eq hright.wf, getFreeSpaceContiguous_eq hleaf.wf, ?_⟩
  rw [merge_eq leaf next hright.wf hleaf.wf]
  change if room leaf.pageView < _ then _ else _
  split_ifs with hroom
  · rfl
  · exact ⟨_, _, _, rfl⟩

theorem merge_check_exact_two :
    ∃ l free, records (oneRecord 1 [3]).pageView = .ret l ∧
      (oneRecord 0 [1, 2]).pageView.getFreeSpaceContiguous = .ret free ∧
      if free < bytesOf l + 4 * l.length then
        merge (oneRecord 0 [1, 2]) (oneRecord 1 [3]) none =
          .ret (.error .insufficientSpaceForMerge, oneRecord 0 [1, 2], oneRecord 1 [3], none)
      else ∃ leaf' right' next',
        merge (oneRecord 0 [1, 2]) (oneRecord 1 [3]) none = .ret (.ok (), leaf', right', next') :=
  merge_check_exact _ _ none (reached_oneRecord 0 (by decide)) (reached_oneRecord 1 (by decide))

end RarmDb
