import RarmDb.Leaf.Scan

/-!
# Scanning the leaves backwards

A split clears the previous index of the leaf that it splits. No previous index is ever wrong.

* `BackScan`: following `get_prev_leaf_index`;
* `BackInv`: the leaf before another one points to it; `BackInv.split`, `BackInv.merge`;
* **`backward_scan`**: in every reachable state a backward scan meets the leaves of the forward scan in
  reverse, without gaps, and ends at the first leaf or earlier.
-/

namespace RarmDb

open RecordSerializer SortedMap Page LeafNodeView

variable {D : Type} [RustDecimal D]

/-- Following `get_prev_leaf_index` up to `None`: the visited leaves. -/
inductive BackScan (s : Store) : Option UInt32 → List UInt32 → Prop
  | done : BackScan s none []
  | leaf {x : UInt32} {leaf : LeafNodeView} {prev : Option UInt32} {visited : List UInt32}
      (hx : s x = some leaf) (hprev : leaf.getPrevLeafIndex = .ret prev)
      (rest : BackScan s prev visited) : BackScan s (some x) (x :: visited)

/-- The leaf that another one has before it points to that one. -/
def BackInv (s : Store) : Prop :=
  BackLinked s.prevOf s.nextOf invalidPageIndex fun z => (s z).isSome

namespace Store

variable {s : Store} {leaf : LeafNodeView} {orig : Option LeafNodeView} {z : UInt32}

theorem nextOf_put (s : Store) (leaf : LeafNodeView) (z : UInt32) : (s.put leaf).nextOf z =
    if z = leaf.pageId.pageIndex then u32At leaf.pageView 16 else s.nextOf z := by
  split_ifs with hz
  · rw [hz, nextOf_eq (put_self s leaf)]
  · exact nextOf_congr (put_of_ne hz)

theorem prevOf_put (s : Store) (leaf : LeafNodeView) (z : UInt32) : (s.put leaf).prevOf z =
    if z = leaf.pageId.pageIndex then u32At leaf.pageView 12 else s.prevOf z := by
  split_ifs with hz
  · rw [hz, prevOf_eq (put_self s leaf)]
  · exact prevOf_congr (put_of_ne hz)

theorem nextOf_remove {y : UInt32} (hz : z ≠ y) : (s.remove y).nextOf z = s.nextOf z :=
  nextOf_congr (remove_of_ne hz)

theorem prevOf_remove {y : UInt32} (hz : z ≠ y) : (s.remove y).prevOf z = s.prevOf z :=
  prevOf_congr (remove_of_ne hz)

theorem nextOf_putOption (horig : ∀ l ∈ orig, s l.pageId.pageIndex = some l) (v z : UInt32) :
    (s.putOption (orig.map fun l => l.withPointer 12 v)).nextOf z = s.nextOf z := by
  cases orig with
  | none => rfl
  | some l =>
    refine (nextOf_put s (l.withPointer 12 v) z).trans ?_
    split_ifs with hz
    · rw [hz, withPointer, u32At_setPointer_ne (by decide), nextOf_eq (horig l rfl)]
    · rfl

theorem prevOf_putOption (v z : UInt32) : (s.putOption (orig.map fun l => l.withPointer 12 v)).prevOf z =
    if z ∈ orig.map fun l => l.pageId.pageIndex then v else s.prevOf z := by
  cases orig with
  | none => rfl
  | some l =>
    refine (prevOf_put s (l.withPointer 12 v) z).trans ?_
    have hmem : z ∈ (some l).map (fun l => l.pageId.pageIndex) ↔ z = l.pageId.pageIndex :=
      ⟨fun h => (Option.some.inj h).symm, fun h => congrArg some h.symm⟩
    simp only [hmem, withPointer, u32At_setPointer (show 12 + 4 ≤ 8192 by decide)]

end Store

variable {td : TableDefinition} {pk : List String} {s s' : Store} {first x y : UInt32}
  {leaf leaf' right right' : LeafNodeView} {nodes : List (UInt32 × List (Record D))} {m : RecordMap D}
  {record : Record D}

theorem BackInv.put (h : BackInv s) (hx : s leaf.pageId.pageIndex = some leaf) (hpage : SamePage leaf leaf') :
    BackInv (s.put leaf') := by
  have hid : leaf'.pageId.pageIndex = leaf.pageId.pageIndex := by rw [hpage.pageId]
  have hprev : (s.put leaf').prevOf = s.prevOf := by
    funext z
    rw [Store.prevOf_put, hid, hpage.header.u32At (by decide)]
    split_ifs with hz
    · rw [hz, Store.prevOf_eq hx]
    · rfl
  have hnext : (s.put leaf').nextOf = s.nextOf := by
    funext z
    rw [Store.nextOf_put, hid, hpage.header.u32At (by decide)]
    split_ifs with hz
    · rw [hz, Store.nextOf_eq hx]
    · rfl
  rw [BackInv, hprev, hnext]
  intro z hz hne
  rw [isSome_put (hid ▸ hx)] at hz
  obtain ⟨hw, hwz⟩ := h z hz hne
  exact ⟨(isSome_put (hid ▸ hx) _).trans hw, hwz⟩

namespace LevelInv

theorem mem_leafAt (h : LevelInv td pk s first nodes m) {v z : UInt32} :
    z ∈ (s.leafAt (toIndex v)).map (fun l => l.pageId.pageIndex) ↔ z = v ∧ (s z).isSome := by
  rw [Option.mem_def, Option.map_eq_some_iff]
  constructor
  · rintro ⟨l, hl, rfl⟩
    obtain ⟨y, hy, hl⟩ := Option.bind_eq_some_iff.mp hl
    obtain ⟨rfl, -⟩ := toIndex_eq_some.mp hy
    obtain ⟨-, -, -, -, hid, -⟩ := h.split_at hl
    rw [hid, hl]
    exact ⟨rfl, rfl⟩
  · rintro ⟨rfl, hz⟩
    obtain ⟨l, hl⟩ := Option.isSome_iff_exists.mp hz
    obtain ⟨-, -, -, -, hid, -⟩ := h.split_at hl
    have hvalid : z ≠ invalidPageIndex := fun hne => h.valid (hne ▸ (h.mem z).mpr hz)
    refine ⟨l, ?_, hid⟩
    rw [Store.leafAt, toIndex_eq_some.mpr ⟨rfl, hvalid⟩]
    exact hl

theorem next_ne (h : LevelInv td pk s first nodes m) (hx : s x = some leaf) : x ≠ s.nextOf x := by
  obtain ⟨front, rs, back, rfl, -, -, hn⟩ := h.split_at hx
  rw [Store.nextOf_eq hx, hn]
  cases back with
  | nil => exact fun hne => h.valid (hne ▸ (h.mem x).mpr (hx ▸ rfl))
  | cons e back => exact (h.ne_of_mem rfl e (by simp)).symm

theorem next_next_ne (h : LevelInv td pk s first nodes m) (hx : s x = some leaf)
    (hy : s (s.nextOf x) = some right) : s.nextOf (s.nextOf x) ≠ x := by
  obtain ⟨front, rs, back, rfl, -, -, hn⟩ := h.split_at hx
  rw [← Store.nextOf_eq hx] at hn
  cases back with
  | nil =>
    have hmem := (h.mem _).mpr (hy ▸ rfl : (s (s.nextOf x)).isSome)
    rw [hn] at hmem
    exact absurd hmem h.valid
  | cons e back =>
    obtain ⟨-, -, ⟨right₁, hright₁, -, -, hnext⟩, -⟩ := segment_append.mp h.segment
    rw [show s.nextOf x = e.1 from hn, Store.nextOf_eq hright₁, hnext]
    cases back with
    | nil => exact fun hne => h.valid (hne ▸ (h.mem x).mpr (hx ▸ rfl))
    | cons e' back => exact h.ne_of_mem rfl e' (by simp)

/-- **A split** clears the previous index of the leaf, and sets those of the new one and of the one after
that. -/
theorem back_split (h : LevelInv td pk s first nodes m) (hback : BackInv s) (hx : s x = some leaf)
    (hfresh : s right.pageId.pageIndex = none) (hempty : EmptyPage right.pageView) {key : Key D}
    {orig' : Option LeafNodeView}
    (hrun : leaf.splitAndInsert record right (s.leafAt (toIndex (u32At leaf.pageView 16))) td =
      .ret (.ok key, leaf', right', orig')) :
    BackInv (((s.put leaf').put right').putOption orig') := by
  obtain ⟨-, -, -, -, hid, -⟩ := h.split_at hx
  obtain ⟨hdone, rfl⟩ := splitAndInsert_done hempty hrun
  have hleafId : leaf'.pageId.pageIndex = x := by rw [hdone.leafId, hid]
  have hrightId : right'.pageId.pageIndex = right.pageId.pageIndex := by rw [hdone.rightId]
  have hrightNext := hdone.rightNext
  rw [← Store.nextOf_eq hx] at hrightNext ⊢
  have hrightPrev := hdone.rightPrev
  have hleafNext := hdone.leafNext
  generalize right.pageId.pageIndex = i at *
  have hhere : ∀ z, (s z).isSome → z ≠ i := by
    rintro z hz rfl
    rw [hfresh] at hz
    cases hz
  have hxi := hhere x (hx ▸ rfl)
  have hother : ∀ z, z ≠ x → z ≠ i → (s.put leaf').put right' z = s z := fun z hz hz' => by
    rw [Store.put_of_ne (hrightId ▸ hz'), Store.put_of_ne (hleafId ▸ hz)]
  have horig : ∀ l ∈ s.leafAt (toIndex (s.nextOf x)),
      (s.put leaf').put right' l.pageId.pageIndex = some l := by
    intro l hl
    obtain ⟨hz, hsome⟩ := h.mem_leafAt.mp (Option.mem_map_of_mem (fun l => l.pageId.pageIndex) hl)
    have hne := h.next_ne hx
    rw [hother _ (hz ▸ hne.symm) (hhere _ hsome)]
    obtain ⟨y, hy, hl⟩ := Option.bind_eq_some_iff.mp hl
    obtain ⟨rfl, -⟩ := toIndex_eq_some.mp hy
    rw [hz, hl]
  have hprev : ∀ z, (((s.put leaf').put right').putOption ((s.leafAt (toIndex (s.nextOf x))).map
      fun l => l.withPointer 12 i)).prevOf z = if z = s.nextOf x ∧ (s z).isSome then i else
        if z = i then x else if z = x then invalidPageIndex else s.prevOf z := by
    intro z
    rw [Store.prevOf_putOption, Store.prevOf_put, Store.prevOf_put, hrightId, hleafId, hrightPrev, hid,
      hdone.leafPrev]
    simp only [h.mem_leafAt]
  have hnext : ∀ z, (((s.put leaf').put right').putOption ((s.leafAt (toIndex (s.nextOf x))).map
      fun l => l.withPointer 12 i)).nextOf z =
        if z = i then s.nextOf x else if z = x then i else s.nextOf z := by
    intro z
    rw [Store.nextOf_putOption horig, Store.nextOf_put, Store.nextOf_put, hrightId, hleafId, hrightNext,
      hleafNext]
  have hsome : ∀ z, (((s.put leaf').put right').putOption ((s.leafAt (toIndex (s.nextOf x))).map
      fun l => l.withPointer 12 i) z).isSome ↔ z = i ∨ (s z).isSome := by
    intro z
    rw [isSome_putOption horig]
    by_cases hzi : z = i
    · rw [hzi, ← hrightId, Store.put_self]
      exact ⟨fun _ => .inl rfl, fun _ => rfl⟩
    · rw [or_iff_right hzi, Store.put_of_ne (hrightId ▸ hzi), isSome_put (hleafId ▸ hx)]
  refine BackLinked.insertAfter hback (x := x) (hx ▸ rfl) (fun hi => hhere i hi rfl) hsome ?_ ?_ ?_ ?_
    (fun hz => ?_) fun z hz hzx hzn => ?_
  · rw [hprev, if_neg fun hn => h.next_ne hx hn.1, if_neg hxi, if_pos rfl]
  · rw [hnext, if_neg hxi, if_pos rfl]
  · rw [hprev, if_neg fun hn => hhere i hn.2 rfl, if_pos rfl]
  · rw [hnext, if_pos rfl]
  · rw [hprev, hnext, if_pos ⟨rfl, hz⟩, if_neg (hhere _ hz), if_neg (h.next_ne hx).symm]
    exact ⟨rfl, rfl⟩
  · rw [hprev, hnext, if_neg fun hn => hzn hn.1, if_neg (hhere z hz), if_neg hzx, if_neg (hhere z hz),
      if_neg hzx]
    exact ⟨rfl, rfl⟩

/-- **A merge** sets the previous index of the leaf after the one that it removes. -/
theorem back_merge (h : LevelInv td pk s first nodes m) (hback : BackInv s) (hx : s x = some leaf)
    (hy : s y = some right) (hnext : u32At leaf.pageView 16 = y) {next' : Option LeafNodeView}
    (hrun : leaf.merge right (s.leafAt (toIndex (u32At right.pageView 16))) =
      .ret (.ok (), leaf', right', next')) :
    BackInv (((s.put leaf').remove y).putOption next') := by
  obtain ⟨_, _, _, -, hid, hholds, -⟩ := h.split_at hx
  obtain ⟨_, _, _, -, -, hright, -⟩ := h.split_at hy
  obtain ⟨hdone, rfl⟩ := merge_done hright.wf hholds.wf hrun
  have hleafId : leaf'.pageId.pageIndex = x := by rw [hdone.leafId, hid]
  have hleafNext := hdone.leafNext
  have hleafPrev := hdone.leafPrev
  rw [← Store.nextOf_eq hy] at hleafNext ⊢
  rw [← Store.prevOf_eq hx] at hleafPrev
  rw [← Store.nextOf_eq hx] at hnext
  subst hnext
  rw [hid]
  have hxy := h.next_ne hx
  have hyz := h.next_ne hy
  have hzx := h.next_next_ne hx hy
  have horig : ∀ l ∈ s.leafAt (toIndex (s.nextOf (s.nextOf x))),
      (s.put leaf').remove (s.nextOf x) l.pageId.pageIndex = some l := by
    intro l hl
    obtain ⟨hz, -⟩ := h.mem_leafAt.mp (Option.mem_map_of_mem (fun l => l.pageId.pageIndex) hl)
    rw [Store.remove_of_ne (hz ▸ hyz.symm), Store.put_of_ne (by rwa [hleafId, hz])]
    obtain ⟨z, hz', hl⟩ := Option.bind_eq_some_iff.mp hl
    obtain ⟨rfl, -⟩ := toIndex_eq_some.mp hz'
    rw [hz, hl]
  have hprev : ∀ z, z ≠ s.nextOf x → (((s.put leaf').remove (s.nextOf x)).putOption
      ((s.leafAt (toIndex (s.nextOf (s.nextOf x)))).map fun l => l.withPointer 12 x)).prevOf z =
        if z = s.nextOf (s.nextOf x) ∧ (s z).isSome then x else s.prevOf z := by
    intro z hz
    rw [Store.prevOf_putOption, Store.prevOf_remove hz, Store.prevOf_put, hleafId, hleafPrev]
    simp only [h.mem_leafAt]
    congr 1
    split_ifs with hzx
    · rw [hzx]
    · rfl
  have hnext : ∀ z, z ≠ s.nextOf x → (((s.put leaf').remove (s.nextOf x)).putOption
      ((s.leafAt (toIndex (s.nextOf (s.nextOf x)))).map fun l => l.withPointer 12 x)).nextOf z =
        if z = x then s.nextOf (s.nextOf x) else s.nextOf z := by
    intro z hz
    rw [Store.nextOf_putOption horig, Store.nextOf_remove hz, Store.nextOf_put, hleafId, hleafNext]
  have hsome : ∀ z, (((s.put leaf').remove (s.nextOf x)).putOption
      ((s.leafAt (toIndex (s.nextOf (s.nextOf x)))).map fun l => l.withPointer 12 x) z).isSome ↔
        z ≠ s.nextOf x ∧ (s z).isSome := by
    intro z
    rw [isSome_putOption horig]
    by_cases hzy : z = s.nextOf x
    · rw [hzy, Store.remove_self]
      exact ⟨fun hz => (by cases hz), fun hz => absurd rfl hz.1⟩
    · rw [Store.remove_of_ne hzy, isSome_put (hleafId ▸ hx), and_iff_right hzy]
  refine BackLinked.removeAfter hback (x := x) (hx ▸ rfl) hxy hsome ?_ ?_ (fun hz => ?_)
    fun z hz hzx hzy hzn => ?_
  · rw [hprev x hxy, if_neg fun hn => hzx hn.1.symm]
  · rw [hnext x hxy, if_pos rfl]
  · rw [hprev _ hyz.symm, hnext _ hyz.symm, if_pos ⟨rfl, hz⟩, if_neg hzx]
    exact ⟨rfl, rfl⟩
  · rw [hprev z hzy, hnext z hzy, if_neg fun hn => hzn hn.1, if_neg hzx]
    exact ⟨rfl, rfl⟩

/-- **One step.** -/
theorem back_step [DecimalOrder D] [DecimalCodec D] (h : LevelInv td pk s first nodes m) (hback : BackInv s)
    (hk : td.KeyInOrder pk) {op : LevelOp D} (hop : op.Admitted td pk first s)
    (hstep : LevelStep td s op s') : BackInv s' := by
  cases hstep with
  | insertRecord hx hrun =>
    obtain ⟨_, rs, _, rfl, hid, hholds, -⟩ := h.split_at hx
    obtain ⟨out, leaf₁, rs', m', hrun', -, -, hpage⟩ :=
      insertRecord_spec (h.leafInv hholds) hk hop.1
    cases hrun.symm.trans hrun'
    exact hback.put (by rwa [hid]) hpage
  | updateRecord hx hrun =>
    obtain ⟨_, rs, _, rfl, hid, hholds, -⟩ := h.split_at hx
    obtain ⟨out, leaf₁, rs', m', hrun', -, -, hpage⟩ := updateRecord_spec (h.leafInv hholds) hk hop
    cases hrun.symm.trans hrun'
    exact hback.put (by rwa [hid]) hpage
  | chain hstep =>
    cases hstep with
    | split hx hfresh hvalid hempty hnext hrun =>
      rw [getNextLeafIndex_eq] at hnext
      cases hnext
      exact h.back_split hback hx hfresh hempty hrun
    | merge hx hnext hy hnext' hrun =>
      rw [getNextLeafIndex_eq] at hnext hnext'
      obtain ⟨hy', -⟩ := toIndex_eq_some.mp (Exec.ret.inj hnext)
      cases hnext'
      exact h.back_merge hback hx hy hy' hrun

/-- The previous index of a leaf is that of the leaf before it, or it was cleared. -/
theorem prev_cases (h : LevelInv td pk s first nodes m) (hback : BackInv s) {front back : List UInt32}
    (horder : nodes.map Prod.fst = front ++ x :: back) :
    s.prevOf x = invalidPageIndex ∨ ∃ front', front = front' ++ [s.prevOf x] := by
  by_cases hne : s.prevOf x = invalidPageIndex
  · exact .inl hne
  · obtain ⟨hw, hnext⟩ := hback x ((h.mem x).mp (by simp [horder])) hne
    obtain ⟨l, hl⟩ := Option.isSome_iff_exists.mp hw
    obtain ⟨before, rs, after, rfl, -, -, hn⟩ := h.split_at hl
    rw [← Store.nextOf_eq hl, hnext] at hn
    cases after with
    | nil => exact absurd (hn ▸ (h.mem x).mpr ((h.mem x).mp (by simp [horder]))) h.valid
    | cons e after =>
      have hnodup := h.nodup
      rw [horder] at hnodup
      obtain ⟨-, hxback, hxfront⟩ := List.nodup_append.mp hnodup
      rw [List.map_append, List.map_cons, List.map_cons, List.append_cons,
        show e.1 = x from hn.symm] at horder
      obtain ⟨rfl, -⟩ := (List.append_cons_inj_of_notMem
        (fun hm => hxfront x hm x List.mem_cons_self rfl) (List.nodup_cons.mp hxback).1).mp horder.symm
      exact .inr ⟨_, rfl⟩

/-- **A walk back** from any leaf. -/
theorem back_scan (h : LevelInv td pk s first nodes m) (hback : BackInv s) {x : UInt32}
    {front back : List UInt32} (horder : nodes.map Prod.fst = front ++ x :: back) :
    ∃ front' visited, BackScan s (some x) visited ∧ visited.head? = some x ∧
      front ++ [x] = front' ++ visited.reverse ∧
        ∀ y ∈ visited.getLast?, ∃ leaf, s y = some leaf ∧ leaf.getPrevLeafIndex = .ret none := by
  obtain ⟨leaf, hx⟩ := Option.isSome_iff_exists.mp ((h.mem x).mp (by simp [horder]))
  have hprev := getPrevLeafIndex_eq leaf
  have hcases := h.prev_cases hback horder
  rw [Store.prevOf_eq hx] at hcases
  generalize u32At leaf.pageView 12 = w at *
  rcases hcases with rfl | ⟨front, rfl⟩
  · refine ⟨front, [x], .leaf hx hprev .done, rfl, rfl, fun y hy => ?_⟩
    obtain rfl := Option.some.inj hy
    exact ⟨leaf, hx, hprev⟩
  · rw [List.append_assoc, List.singleton_append] at horder
    have hw : w ≠ invalidPageIndex := fun hne => h.valid (by simp [horder, ← hne])
    obtain ⟨front', visited, hscan, hhead, hvisited, hlast⟩ := h.back_scan hback horder
    rw [toIndex_eq_some.mpr ⟨rfl, hw⟩] at hprev
    refine ⟨front', x :: visited, .leaf hx hprev hscan, rfl, ?_, fun y hy => hlast y ?_⟩
    · rw [hvisited, List.reverse_cons, List.append_assoc]
    · cases visited with
      | nil => cases hhead
      | cons z visited => exact hy
termination_by front.length

end LevelInv

/-! ## Runs -/

theorem backInv_initial (pageId : PageId) (parent : Option UInt64) :
    BackInv (Store.initial pageId parent) := by
  intro z hz hne
  by_cases hzx : z = pageId.pageIndex
  · have hself : Store.initial pageId parent pageId.pageIndex =
        some ⟨pageId, blankPage .leafNode parent⟩ := Store.put_self ..
    rw [hzx, Store.prevOf_eq hself] at hne
    exact absurd (u32At_blankPage_prev ..) hne
  · have hnone : Store.initial pageId parent z = none := Store.put_of_ne hzx
    rw [hnone] at hz
    cases hz

theorem LevelRun.back [DecimalOrder D] [DecimalCodec D] (hk : td.KeyInOrder pk) {pageId : PageId}
    (hvalid : pageId.pageIndex ≠ invalidPageIndex) (parent : Option UInt64)
    (hrun : LevelRun td pk pageId.pageIndex (Store.initial pageId parent) m s) :
    ∃ nodes, LevelInv td pk s pageId.pageIndex nodes m ∧ BackInv s := by
  induction hrun with
  | nil => exact ⟨_, levelInv_initial td pk pageId hvalid parent, backInv_initial pageId parent⟩
  | snoc run hop hstep ih =>
    obtain ⟨nodes, h, hback⟩ := ih
    obtain ⟨nodes', h'⟩ := h.step hk hvalid hop hstep
    exact ⟨nodes', h', h.back_step hback hk hop hstep⟩

/-- **A backward scan.** After any insertions, updates, splits and merges that returned `Ok`, following
`get_prev_leaf_index` from any leaf ends, and the leaves on the way are those of the forward scan in
reverse, without gaps, back to the first leaf or to one whose previous index was cleared. -/
theorem backward_scan [DecimalOrder D] [DecimalCodec D] (td : TableDefinition) (pk : List String)
    (hk : td.KeyInOrder pk) (pageId : PageId) (parent : Option UInt64)
    (hvalid : pageId.pageIndex ≠ invalidPageIndex) (m : RecordMap D) (s : Store)
    (hrun : LevelRun td pk pageId.pageIndex (Store.initial pageId parent) m s) (x : UInt32)
    (hx : (s x).isSome) :
    ∃ pages, Scan (D := D) td s (some pageId.pageIndex) pages ∧
      ∃ front visited back, BackScan s (some x) visited ∧ visited.head? = some x ∧
        pages.map Prod.fst = front ++ visited.reverse ++ back ∧
        ∀ y ∈ visited.getLast?, ∃ leaf, s y = some leaf ∧ leaf.getPrevLeafIndex = .ret none := by
  obtain ⟨nodes, h, hback⟩ := hrun.back hk hvalid parent
  obtain ⟨front, back, horder⟩ := List.append_of_mem ((h.mem x).mpr hx)
  obtain ⟨front', visited, hscan, hhead, hvisited, hlast⟩ := h.back_scan hback horder
  refine ⟨_, h.scan hk.keyed hvalid, front', visited, back, hscan, hhead, ?_, hlast⟩
  rw [map_fst_pageOf, horder, List.append_cons, hvisited]

/-- A walk back from the second of two leaves of products visits it and the first one. -/
theorem backward_scan_products :
    ∃ (m : RecordMap Decimal96) (s : Store), LevelRun productTable ["id"] 0 (Store.initial ⟨1, 0⟩ none) m s ∧
      TwoLeaves s ∧ ∃ pages, Scan (D := Decimal96) productTable s (some 0) pages ∧
        ∃ front visited back, BackScan s (some 1) visited ∧ visited.head? = some 1 ∧
          pages.map Prod.fst = front ++ visited.reverse ++ back ∧
          ∀ y ∈ visited.getLast?, ∃ leaf, s y = some leaf ∧ leaf.getPrevLeafIndex = .ret none := by
  obtain ⟨m, s, hrun, hleaves, -⟩ := grown_level
  exact ⟨m, s, hrun, hleaves, backward_scan productTable ["id"] productTable_keyInOrder ⟨1, 0⟩ none (by decide)
    m s hrun 1 hleaves.isSome⟩

end RarmDb
