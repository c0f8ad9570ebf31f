import RarmDb.Lib.Linked
import RarmDb.Leaf.Atomic
import RarmDb.Leaf.Pointers

/-!
# The chain of leaves

* `Store`: leaves by page index; `ChainOp`, `ChainStep`, `ChainRun`: splits and merges on a store;
* `Consistent`: the next and previous indices of the leaves agree;
* `ChainInv`: the leaves are the elements of a doubly linked list; `ChainInv.split`, `ChainInv.merge`;
* **`chain_consistent_iff`**: the states of a run are consistent exactly when it splits only leaves
  without a previous one.
-/

namespace RarmDb

open RecordSerializer Page LeafNodeView

/-- Leaves by page index. -/
abbrev Store : Type := UInt32 → Option LeafNodeView

namespace Store

/-- Write a leaf. -/
def put (s : Store) (leaf : LeafNodeView) : Store :=
  Function.update s leaf.pageId.pageIndex (some leaf)

/-- Write a leaf, if there is one. -/
def putOption (s : Store) (leaf : Option LeafNodeView) : Store := leaf.elim s s.put

/-- Take a leaf out of the chain. -/
def remove (s : Store) (x : UInt32) : Store := Function.update s x none

/-- The leaf of a page index, if there is one. -/
def leafAt (s : Store) (index : Option UInt32) : Option LeafNodeView := index.bind s

/-- The next index of a leaf. -/
def nextOf (s : Store) (x : UInt32) : UInt32 :=
  (s x).elim invalidPageIndex fun leaf => u32At leaf.pageView 16

/-- The previous index of a leaf. -/
def prevOf (s : Store) (x : UInt32) : UInt32 :=
  (s x).elim invalidPageIndex fun leaf => u32At leaf.pageView 12

variable {s s' s₁ : Store} {x y z v : UInt32} {leaf : LeafNodeView} {post : List UInt32}

theorem put_self (s : Store) (leaf : LeafNodeView) : s.put leaf leaf.pageId.pageIndex = some leaf :=
  Function.update_self ..

theorem put_of_ne (h : z ≠ leaf.pageId.pageIndex) : s.put leaf z = s z := Function.update_of_ne h ..

theorem remove_self (s : Store) (x : UInt32) : s.remove x x = none := Function.update_self ..

theorem remove_of_ne (h : z ≠ x) : s.remove x z = s z := Function.update_of_ne h ..

theorem nextOf_eq (h : s x = some leaf) : s.nextOf x = u32At leaf.pageView 16 := by
  rw [nextOf, h]
  rfl

theorem prevOf_eq (h : s x = some leaf) : s.prevOf x = u32At leaf.pageView 12 := by
  rw [prevOf, h]
  rfl

theorem nextOf_congr (h : s' z = s z) : s'.nextOf z = s.nextOf z := by rw [nextOf, h, nextOf]

theorem prevOf_congr (h : s' z = s z) : s'.prevOf z = s.prevOf z := by rw [prevOf, h, prevOf]

theorem not_head_of_tail (h : post.Nodup) (hy : y ∈ post.tail) : y ∉ post.head? := by
  cases post with
  | nil => exact Option.not_mem_none y
  | cons z post =>
    intro hm
    obtain rfl : z = y := Option.some.inj hm
    exact (List.nodup_cons.mp h).1 hy

theorem leafAt_headD (h : invalidPageIndex ∉ post) :
    s.leafAt (toIndex (post.headD invalidPageIndex)) = post.head?.bind s := by
  cases post with
  | nil => rfl
  | cons y post =>
    have hy : y ≠ invalidPageIndex := fun hy => h (hy ▸ List.mem_cons_self)
    rw [List.headD_cons, toIndex, if_neg hy]
    rfl

/-- Every leaf is at its own index, and its page is well-formed. -/
def Located (s : Store) : Prop :=
  ∀ x leaf, s x = some leaf → leaf.pageId.pageIndex = x ∧ leaf.pageView.WF

theorem Located.put (h : s.Located) (hwf : leaf.pageView.WF) : (s.put leaf).Located := by
  intro x leaf' hx
  by_cases hne : x = leaf.pageId.pageIndex
  · subst hne
    rw [put_self] at hx
    cases hx
    exact ⟨rfl, hwf⟩
  · rw [put_of_ne hne] at hx
    exact h x leaf' hx

theorem Located.remove (h : s.Located) (y : UInt32) : (s.remove y).Located := by
  intro x leaf hx
  by_cases hne : x = y
  · subst hne
    rw [remove_self] at hx
    cases hx
  · rw [remove_of_ne hne] at hx
    exact h x leaf hx

/-- The first of these leaves has a new previous index. -/
structure Relinked (s s' : Store) (post : List UInt32) (v : UInt32) : Prop where
  first : ∀ y ∈ post.head?, s'.prevOf y = v ∧ s'.nextOf y = s.nextOf y
  other : ∀ z, z ∉ post.head? → s' z = s z
  isSome : ∀ z, (s' z).isSome = (s z).isSome
  located : s.Located → s'.Located

/-- Writing the first leaf of the old store with a new previous index. -/
theorem relinked_putOption (hs : s.Located) (hsome : ∀ y ∈ post, (s y).isSome)
    (hsame : ∀ y ∈ post, s₁ y = s y) (v : UInt32) :
    Relinked s₁ (s₁.putOption ((post.head?.bind s).map fun l => l.withPointer 12 v)) post v := by
  cases post with
  | nil => exact ⟨fun _ hy => absurd hy (Option.not_mem_none _), fun _ _ => rfl, fun _ => rfl, id⟩
  | cons y post =>
    obtain ⟨l, hl⟩ := Option.isSome_iff_exists.mp (hsome y List.mem_cons_self)
    obtain ⟨rfl, hwf⟩ := hs y l hl
    have hl₁ := (hsame _ List.mem_cons_self).trans hl
    have hput : s₁.putOption (((l.pageId.pageIndex :: post).head?.bind s).map
        fun l => l.withPointer 12 v) = s₁.put (l.withPointer 12 v) := by
      rw [List.head?_cons, Option.bind_some, hl]
      rfl
    have hself : s₁.put (l.withPointer 12 v) l.pageId.pageIndex = some (l.withPointer 12 v) :=
      put_self ..
    have hother : ∀ z, z ≠ l.pageId.pageIndex → s₁.put (l.withPointer 12 v) z = s₁ z :=
      fun z hz => put_of_ne hz
    rw [hput]
    refine ⟨?_, fun z hz => hother z fun hne => hz (hne ▸ rfl), fun z => ?_,
      fun h => h.put (setPointer_wf (by decide) hwf)⟩
    · rintro z hz
      obtain rfl := Option.some.inj hz
      refine ⟨(prevOf_eq hself).trans (u32At_setPointer (by decide)), ?_⟩
      exact (nextOf_eq hself).trans ((u32At_setPointer_ne (by decide)).trans (nextOf_eq hl₁).symm)
    · by_cases hne : z = l.pageId.pageIndex
      · rw [hne, hself, hl₁]
        rfl
      · rw [hother z hne]

end Store

variable {D : Type} [RustDecimal D]

/-- The operations on the chain of leaves: a split of a leaf with a new record and a new right
sibling, a merge of a leaf with its next one. -/
inductive ChainOp (D : Type)
  | split (x : UInt32) (record : Record D) (right : LeafNodeView)
  | merge (x : UInt32)

/-- A successful operation. -/
inductive ChainStep (td : TableDefinition) : Store → ChainOp D → Store → Prop
  | split {s : Store} {x : UInt32} {record : Record D} {leaf right leaf' right' : LeafNodeView}
      {orig' : Option LeafNodeView} {next : Option UInt32} {key : Key D} (hx : s x = some leaf)
      (hfresh : s right.pageId.pageIndex = none)
      (hvalid : right.pageId.pageIndex ≠ invalidPageIndex) (hempty : EmptyPage right.pageView)
      (hnext : leaf.getNextLeafIndex = .ret next)
      (hrun : leaf.splitAndInsert record right (s.leafAt next) td =
        .ret (.ok key, leaf', right', orig')) :
      ChainStep td s (.split x record right) (((s.put leaf').put right').putOption orig')
  | merge {s : Store} {x y : UInt32} {leaf right leaf' right' : LeafNodeView}
      {next' : Option LeafNodeView} {next : Option UInt32} (hx : s x = some leaf)
      (hnext : leaf.getNextLeafIndex = .ret (some y)) (hy : s y = some right)
      (hnext' : right.getNextLeafIndex = .ret next)
      (hrun : leaf.merge right (s.leafAt next) = .ret (.ok (), leaf', right', next')) :
      ChainStep td s (.merge x) (((s.put leaf').remove y).putOption next')

/-- A run: the states before its operations, with the operations, and the last state. -/
inductive ChainRun (td : TableDefinition) (s₀ : Store) : List (Store × ChainOp D) → Store → Prop
  | nil : ChainRun td s₀ [] s₀
  | snoc {steps : List (Store × ChainOp D)} {s s' : Store} {op : ChainOp D}
      (run : ChainRun td s₀ steps s) (step : ChainStep td s op s') :
      ChainRun td s₀ (steps ++ [(s, op)]) s'

/-- The next and previous indices agree, and only the first leaf has no previous one. -/
structure Consistent (s : Store) (first : UInt32) : Prop where
  prev_of_next : ∀ x y leaf, s x = some leaf → leaf.getNextLeafIndex = .ret (some y) →
    ∃ leaf', s y = some leaf' ∧ leaf'.getPrevLeafIndex = .ret (some x)
  next_of_prev : ∀ x y leaf, s y = some leaf → leaf.getPrevLeafIndex = .ret (some x) →
    ∃ leaf', s x = some leaf' ∧ leaf'.getNextLeafIndex = .ret (some y)
  first_iff : ∀ x leaf, s x = some leaf → (leaf.getPrevLeafIndex = .ret none ↔ x = first)

/-- A split is applied to a leaf without a previous one. -/
def SplitsFirst (s : Store) : ChainOp D → Prop
  | .split x _ _ => ∀ leaf, s x = some leaf → leaf.getPrevLeafIndex = .ret none
  | .merge _ => True

/-- The leaves are the elements of a doubly linked list. -/
structure ChainInv (s : Store) (order : List UInt32) : Prop where
  chain : Chain s.prevOf s.nextOf invalidPageIndex order
  mem : ∀ x, x ∈ order ↔ (s x).isSome
  located : s.Located

variable {td : TableDefinition} {s s' : Store} {order : List UInt32} {x y : UInt32}
  {leaf right : LeafNodeView}

theorem toIndex_eq_some {v : UInt32} : toIndex v = some y ↔ v = y ∧ v ≠ invalidPageIndex := by
  rw [toIndex]
  split_ifs with h
  · exact ⟨fun hne => (by cases hne), fun hne => absurd h hne.2⟩
  · exact ⟨fun he => ⟨Option.some.inj he, h⟩, fun he => congrArg some he.1⟩

theorem toIndex_eq_none {v : UInt32} : toIndex v = none ↔ v = invalidPageIndex := by
  rw [toIndex]
  split_ifs with h
  · exact ⟨fun _ => h, fun _ => rfl⟩
  · exact ⟨fun hne => (by cases hne), fun he => absurd he h⟩

namespace ChainInv

theorem mem_of_some (h : ChainInv s order) (hx : s x = some leaf) : x ∈ order :=
  (h.mem x).mpr (Option.isSome_iff_exists.mpr ⟨leaf, hx⟩)

/-- The store after a split of `x`, which had the leaves `post` after it. -/
structure AfterSplit (s s' : Store) (x i : UInt32) (post : List UInt32)
    (leaf' right' : LeafNodeView) : Prop where
  left : s' x = some leaf'
  right : s' i = some right'
  first : ∀ y ∈ post.head?, s'.prevOf y = i ∧ s'.nextOf y = s.nextOf y
  other : ∀ z, z ≠ x → z ≠ i → z ∉ post.head? → s' z = s z
  mem : ∀ z, (s' z).isSome ↔ z = i ∨ (s z).isSome
  located : s'.Located

section Split

variable {record : Record D} {leaf' right' : LeafNodeView} {orig' : Option LeafNodeView}
  {key : Key D}

/-- What a split does to the store, wherever the leaf is in the chain. -/
theorem afterSplit (h : ChainInv s order) (hx : s x = some leaf)
    (hfresh : s right.pageId.pageIndex = none) (hempty : EmptyPage right.pageView)
    (hrun : leaf.splitAndInsert record right (s.leafAt (toIndex (u32At leaf.pageView 16))) td =
      .ret (.ok key, leaf', right', orig')) :
    SplitDone leaf right leaf' right' ∧
      ∃ before post, order = before ++ x :: post ∧
        AfterSplit s (((s.put leaf').put right').putOption orig') x right.pageId.pageIndex post
          leaf' right' := by
  obtain ⟨before, post, rfl, -, hnext, -, -⟩ := h.chain.split (h.mem_of_some hx)
  have hpostmem : ∀ z ∈ post, z ∈ before ++ x :: post := fun z hz => by simp [hz]
  have hinvalid : invalidPageIndex ∉ post := fun hm => h.chain.valid (hpostmem _ hm)
  have hxpost : x ∉ post := (List.nodup_cons.mp (List.nodup_append.mp h.chain.nodup).2.1).1
  rw [← Store.nextOf_eq hx, hnext, Store.leafAt_headD hinvalid] at hrun
  obtain ⟨hdone, rfl⟩ := splitAndInsert_done hempty hrun
  refine ⟨hdone, before, post, rfl, ?_⟩
  have hleaf' : leaf'.pageId.pageIndex = x := by rw [hdone.leafId, (h.located x leaf hx).1]
  have hright' : right'.pageId.pageIndex = right.pageId.pageIndex := by rw [hdone.rightId]
  generalize right.pageId.pageIndex = i at *
  have hne : ∀ z leaf, s z = some leaf → z ≠ i := by
    rintro z leaf hz rfl
    rw [hfresh] at hz
    cases hz
  have hsx : (s.put leaf').put right' x = some leaf' := by
    rw [Store.put_of_ne (hright' ▸ hne x leaf hx), ← hleaf', Store.put_self]
  have hsi : (s.put leaf').put right' i = some right' := by
    rw [← hright', Store.put_self]
  have hother : ∀ z, z ≠ x → z ≠ i → (s.put leaf').put right' z = s z := fun z hz hz' => by
    rw [Store.put_of_ne (hright' ▸ hz'), Store.put_of_ne (hleaf' ▸ hz)]
  have hsome : ∀ z ∈ post, (s z).isSome := fun z hz => (h.mem z).mp (hpostmem z hz)
  have hpost : ∀ z ∈ post, z ≠ i := fun z hz => by
    obtain ⟨l, hl⟩ := Option.isSome_iff_exists.mp (hsome z hz)
    exact hne z l hl
  have hkeep : ∀ z ∈ post, (s.put leaf').put right' z = s z := fun z hz =>
    hother z (fun hzx => hxpost (hzx ▸ hz)) (hpost z hz)
  have hre := Store.relinked_putOption h.located hsome hkeep i
  constructor
  case left => exact (hre.other x fun hm => hxpost (List.mem_of_mem_head? hm)).trans hsx
  case right => exact (hre.other i fun hm => hpost i (List.mem_of_mem_head? hm) rfl).trans hsi
  case first =>
    intro y hy
    obtain ⟨hp, hn⟩ := hre.first y hy
    exact ⟨hp, hn.trans (Store.nextOf_congr (hkeep y (List.mem_of_mem_head? hy)))⟩
  case other => exact fun z hzx hzi hz => (hre.other z hz).trans (hother z hzx hzi)
  case mem =>
    intro z
    rw [hre.isSome]
    by_cases hzx : z = x
    · rw [hzx, hsx, hx]
      exact ⟨fun _ => .inr rfl, fun _ => rfl⟩
    · by_cases hzi : z = i
      · rw [hzi, hsi]
        exact ⟨fun _ => .inl rfl, fun _ => rfl⟩
      · rw [hother z hzx hzi]
        exact ⟨.inr, fun hor => hor.resolve_left hzi⟩
  case located => exact hre.located ((h.located.put hdone.leafWF).put hdone.rightWF)

theorem split (h : ChainInv s order) (hx : s x = some leaf)
    (hprev : u32At leaf.pageView 12 = invalidPageIndex) (hfresh : s right.pageId.pageIndex = none)
    (hvalid : right.pageId.pageIndex ≠ invalidPageIndex) (hempty : EmptyPage right.pageView)
    (hrun : leaf.splitAndInsert record right (s.leafAt (toIndex (u32At leaf.pageView 16))) td =
      .ret (.ok key, leaf', right', orig')) :
    ∃ order', order'.head? = order.head? ∧
      ChainInv (((s.put leaf').put right').putOption orig') order' := by
  obtain ⟨hdone, before, post, rfl, hafter⟩ := h.afterSplit hx hfresh hempty hrun
  generalize ((s.put leaf').put right').putOption orig' = s' at *
  have hhead := (h.chain.prev_eq_nil_iff (h.mem_of_some hx)).mp ((Store.prevOf_eq hx).trans hprev)
  obtain rfl : before = [] := by
    cases before with
    | nil => rfl
    | cons z before =>
      have hdisj := (List.nodup_append.mp h.chain.nodup).2.2 z List.mem_cons_self x List.mem_cons_self
      exact absurd (Option.some.inj hhead) hdisj
  rw [List.nil_append] at h ⊢
  obtain ⟨hxpost, hnodup⟩ := List.nodup_cons.mp h.chain.nodup
  have hi : right.pageId.pageIndex ∉ x :: post := by
    intro hm
    have hsome := (h.mem _).mp hm
    rw [hfresh] at hsome
    cases hsome
  have htail : ∀ y ∈ post.tail, s' y = s y := by
    intro y hy
    have hmem := List.mem_of_mem_tail hy
    refine hafter.other y ?_ ?_ (Store.not_head_of_tail hnodup hy)
    · rintro rfl
      exact hxpost hmem
    · rintro rfl
      exact hi (List.mem_cons_of_mem x hmem)
  refine ⟨x :: right.pageId.pageIndex :: post, rfl, ⟨?_, ?_, ?_⟩, fun z => ?_, hafter.located⟩
  · refine h.chain.linked.insertAfter ⟨?_, ?_⟩ ⟨?_, ?_⟩ hafter.first fun y hy => ?_
    · exact (Store.prevOf_eq hafter.left).trans hdone.leafPrev
    · exact (Store.nextOf_eq hafter.left).trans hdone.leafNext
    · exact (Store.prevOf_eq hafter.right).trans (hdone.rightPrev.trans (h.located x leaf hx).1)
    · rw [Store.nextOf_eq hafter.right, hdone.rightNext, ← Store.nextOf_eq hx, h.chain.linked.2.1]
    · exact ⟨Store.prevOf_congr (htail y hy), Store.nextOf_congr (htail y hy)⟩
  · have hswap : (right.pageId.pageIndex :: x :: post).Nodup := List.nodup_cons.mpr ⟨hi, h.chain.nodup⟩
    exact (List.Perm.swap x right.pageId.pageIndex post).nodup hswap
  · intro hm
    rcases List.mem_cons.mp hm with hm | hm
    · exact h.chain.valid (hm ▸ List.mem_cons_self)
    · rcases List.mem_cons.mp hm with hm | hm
      · exact hvalid hm.symm
      · exact h.chain.valid (List.mem_cons_of_mem x hm)
  · rw [hafter.mem, ← h.mem, List.mem_cons, List.mem_cons, List.mem_cons]
    exact or_left_comm

/-- Splitting another leaf loses the link back to the one before it. -/
theorem split_lost (h : ChainInv s order) (hx : s x = some leaf)
    (hprev : u32At leaf.pageView 12 ≠ invalidPageIndex) (hfresh : s right.pageId.pageIndex = none)
    (hempty : EmptyPage right.pageView)
    (hrun : leaf.splitAndInsert record right (s.leafAt (toIndex (u32At leaf.pageView 16))) td =
      .ret (.ok key, leaf', right', orig')) :
    ∃ w before left, (((s.put leaf').put right').putOption orig') w = some before ∧
      before.getNextLeafIndex = .ret (some x) ∧
      (((s.put leaf').put right').putOption orig') x = some left ∧
      left.getPrevLeafIndex = .ret none := by
  have hmem := h.mem_of_some hx
  obtain ⟨hdone, before, post, -, hafter⟩ := h.afterSplit hx hfresh hempty hrun
  generalize ((s.put leaf').put right').putOption orig' = s' at *
  rw [← Store.prevOf_eq hx] at hprev
  have hwx := h.chain.prev_ne hmem
  obtain ⟨hw, hnext⟩ := h.chain.next_of_prev hmem rfl hprev
  generalize s.prevOf x = w at *
  have hsome := (h.mem w).mp hw
  have hwi : w ≠ right.pageId.pageIndex := by
    rintro rfl
    rw [hfresh] at hsome
    cases hsome
  obtain ⟨l, hl⟩ := Option.isSome_iff_exists.mp ((hafter.mem w).mpr (.inr hsome))
  have hnext' : s'.nextOf w = x := by
    by_cases hhead : w ∈ post.head?
    · exact (hafter.first w hhead).2.trans hnext
    · exact (Store.nextOf_congr (hafter.other w hwx hwi hhead)).trans hnext
  refine ⟨w, l, leaf', hl, ?_, hafter.left, ?_⟩
  · rw [getNextLeafIndex_eq, ← Store.nextOf_eq hl, hnext', toIndex,
      if_neg fun hne : x = invalidPageIndex => h.chain.valid (hne ▸ hmem)]
  · rw [getPrevLeafIndex_eq, hdone.leafPrev]
    rfl

end Split

theorem merge (h : ChainInv s order) {leaf right leaf' right' : LeafNodeView}
    {next' : Option LeafNodeView} (hx : s x = some leaf) (hy : s y = some right)
    (hnext : u32At leaf.pageView 16 = y) (hvalid : y ≠ invalidPageIndex)
    (hrun : leaf.merge right (s.leafAt (toIndex (u32At right.pageView 16))) =
      .ret (.ok (), leaf', right', next')) :
    ∃ order', order'.head? = order.head? ∧
      ChainInv (((s.put leaf').remove y).putOption next') order' := by
  obtain ⟨before, after, rfl, -, hn, -, hafter⟩ := h.chain.split (h.mem_of_some hx)
  obtain ⟨post, rfl⟩ : ∃ post, after = y :: post := by
    rw [Store.nextOf_eq hx, hnext] at hn
    cases after with
    | nil => exact absurd hn hvalid
    | cons z post => exact ⟨post, by rw [hn]; rfl⟩
  refine ⟨before ++ x :: post, by cases before <;> rfl, ?_⟩
  have hsub : (before ++ x :: post).Sublist (before ++ x :: y :: post) :=
    (List.Sublist.refl before).append ((List.sublist_cons_self y post).cons_cons x)
  obtain ⟨-, hxyp, hdisj⟩ := List.nodup_append.mp h.chain.nodup
  obtain ⟨hxyp, hyp⟩ := List.nodup_cons.mp hxyp
  obtain ⟨hypost, hnodup⟩ := List.nodup_cons.mp hyp
  have hxy : x ≠ y := fun hne => hxyp (hne ▸ List.mem_cons_self)
  have hxpost : x ∉ post := fun hm => hxyp (List.mem_cons_of_mem y hm)
  have hinvalid : invalidPageIndex ∉ before ++ x :: post := fun hm => h.chain.valid (hsub.subset hm)
  have hpostmem : ∀ z ∈ post, z ∈ before ++ x :: y :: post := fun z hz => by simp [hz]
  rw [← Store.nextOf_eq hy, hafter.2.1, Store.leafAt_headD fun hm => hinvalid (by simp [hm])] at hrun
  obtain ⟨hleaf, hwf⟩ := h.located x leaf hx
  obtain ⟨hdone, rfl⟩ := merge_done (h.located y right hy).2 hwf hrun
  rw [hleaf]
  have hleaf' : leaf'.pageId.pageIndex = x := by rw [hdone.leafId, hleaf]
  have hsx : (s.put leaf').remove y x = some leaf' := by
    rw [Store.remove_of_ne hxy, ← hleaf', Store.put_self]
  have hsy : (s.put leaf').remove y y = none := Store.remove_self ..
  have hother : ∀ z, z ≠ x → z ≠ y → (s.put leaf').remove y z = s z := fun z hz hz' => by
    rw [Store.remove_of_ne hz', Store.put_of_ne (hleaf' ▸ hz)]
  have hpost : ∀ z ∈ post, (s.put leaf').remove y z = s z := fun z hz =>
    hother z (fun hne => hxpost (hne ▸ hz)) fun hne => hypost (hne ▸ hz)
  have hre := Store.relinked_putOption h.located (fun z hz => (h.mem z).mp (hpostmem z hz)) hpost x
  have hlocated := hre.located ((h.located.put hdone.leafWF).remove y)
  generalize (s.put leaf').remove y = s₁ at *
  generalize s₁.putOption _ = s' at *
  have hx' : s' x = some leaf' :=
    (hre.other x fun hm => hxpost (List.mem_of_mem_head? hm)).trans hsx
  have htail : ∀ z ∈ post.tail, s' z = s z := fun z hz =>
    (hre.other z (Store.not_head_of_tail hnodup hz)).trans (hpost z (List.mem_of_mem_tail hz))
  have hbefore : ∀ z ∈ before, s' z = s z := fun z hz => by
    have hne : ∀ w ∈ x :: y :: post, z ≠ w := hdisj z hz
    rw [hre.other z fun hm => hne z (by simp [List.mem_of_mem_head? hm]) rfl,
      hother z (hne x (by simp)) (hne y (by simp))]
  refine ⟨⟨?_, h.chain.nodup.sublist hsub, hinvalid⟩, fun z => ?_, hlocated⟩
  · refine h.chain.linked.removeAfter (fun z hz => ?_) ⟨?_, ?_⟩ (fun z hz => ?_) fun z hz => ?_
    · exact ⟨Store.prevOf_congr (hbefore z hz), Store.nextOf_congr (hbefore z hz)⟩
    · rw [Store.prevOf_eq hx', hdone.leafPrev, ← Store.prevOf_eq hx]
    · rw [Store.nextOf_eq hx', hdone.leafNext, ← Store.nextOf_eq hy, hafter.2.1]
    · obtain ⟨hp, hn⟩ := hre.first z hz
      exact ⟨hp, hn.trans (Store.nextOf_congr (hpost z (List.mem_of_mem_head? hz)))⟩
    · exact ⟨Store.prevOf_congr (htail z hz), Store.nextOf_congr (htail z hz)⟩
  · rw [hre.isSome]
    by_cases hzx : z = x
    · rw [hzx, hsx]
      exact ⟨fun _ => rfl, fun _ => by simp⟩
    · by_cases hzy : z = y
      · rw [hzy, hsy]
        refine ⟨fun hm => ?_, fun hm => by cases hm⟩
        rcases List.mem_append.mp hm with hm | hm
        · exact absurd rfl (hdisj y hm y (by simp))
        · rcases List.mem_cons.mp hm with hm | hm
          · exact absurd hm.symm hxy
          · exact absurd hm hypost
      · rw [hother z hzx hzy, ← h.mem]
        simp only [List.mem_append, List.mem_cons, hzx, hzy, false_or]

theorem consistent (h : ChainInv s order) {first : UInt32} (hfirst : order.head? = some first) :
    Consistent s first := by
  have hleaf : ∀ z ∈ order, ∃ l, s z = some l := fun z hz =>
    Option.isSome_iff_exists.mp ((h.mem z).mp hz)
  constructor
  case prev_of_next =>
    intro x y leaf hx hnext
    rw [getNextLeafIndex_eq, ← Store.nextOf_eq hx] at hnext
    obtain ⟨rfl, hvalid⟩ := toIndex_eq_some.mp (Exec.ret.inj hnext)
    obtain ⟨hy, hprev⟩ := h.chain.prev_of_next (h.mem_of_some hx) rfl hvalid
    obtain ⟨l, hl⟩ := hleaf _ hy
    refine ⟨l, hl, ?_⟩
    rw [getPrevLeafIndex_eq, ← Store.prevOf_eq hl, hprev]
    exact congrArg _ (toIndex_eq_some.mpr ⟨rfl, fun hne => h.chain.valid (hne ▸ h.mem_of_some hx)⟩)
  case next_of_prev =>
    intro x y leaf hy hprev
    rw [getPrevLeafIndex_eq, ← Store.prevOf_eq hy] at hprev
    obtain ⟨rfl, hvalid⟩ := toIndex_eq_some.mp (Exec.ret.inj hprev)
    obtain ⟨hx, hnext⟩ := h.chain.next_of_prev (h.mem_of_some hy) rfl hvalid
    obtain ⟨l, hl⟩ := hleaf _ hx
    refine ⟨l, hl, ?_⟩
    rw [getNextLeafIndex_eq, ← Store.nextOf_eq hl, hnext]
    exact congrArg _ (toIndex_eq_some.mpr ⟨rfl, fun hne => h.chain.valid (hne ▸ h.mem_of_some hy)⟩)
  case first_iff =>
    intro x leaf hx
    rw [getPrevLeafIndex_eq, ← Store.prevOf_eq hx]
    constructor
    · intro hnone
      have hhead := (h.chain.prev_eq_nil_iff (h.mem_of_some hx)).mp
        (toIndex_eq_none.mp (Exec.ret.inj hnone))
      exact Option.some.inj (hhead.symm.trans hfirst)
    · rintro rfl
      rw [(h.chain.prev_eq_nil_iff (h.mem_of_some hx)).mpr hfirst]
      rfl

theorem step (h : ChainInv s order) {op : ChainOp D} (hstep : ChainStep td s op s')
    (hop : SplitsFirst s op) : ∃ order', order'.head? = order.head? ∧ ChainInv s' order' := by
  cases hstep with
  | split hx hfresh hvalid hempty hnext hrun =>
    have hprev := hop _ hx
    rw [getPrevLeafIndex_eq] at hprev
    rw [getNextLeafIndex_eq] at hnext
    cases hnext
    exact h.split hx (toIndex_eq_none.mp (Exec.ret.inj hprev)) hfresh hvalid hempty hrun
  | merge hx hnext hy hnext' hrun =>
    rw [getNextLeafIndex_eq] at hnext hnext'
    obtain ⟨hy', hvalid⟩ := toIndex_eq_some.mp (Exec.ret.inj hnext)
    cases hnext'
    exact h.merge hx hy hy' (hy' ▸ hvalid) hrun

theorem step_lost (h : ChainInv s order) {op : ChainOp D} (hstep : ChainStep td s op s')
    (hop : ¬ SplitsFirst s op) :
    ∃ w x before left, s' w = some before ∧ before.getNextLeafIndex = .ret (some x) ∧
      s' x = some left ∧ left.getPrevLeafIndex = .ret none := by
  cases hstep with
  | @split x _ leaf _ _ _ _ _ _ hx hfresh hvalid hempty hnext hrun =>
    have hprev : u32At leaf.pageView 12 ≠ invalidPageIndex := by
      intro hne
      refine hop fun l hl => ?_
      obtain rfl : leaf = l := Option.some.inj (hx.symm.trans hl)
      rw [getPrevLeafIndex_eq, hne]
      rfl
    rw [getNextLeafIndex_eq] at hnext
    cases hnext
    obtain ⟨w, before, left, hlost⟩ := h.split_lost hx hprev hfresh hempty hrun
    exact ⟨w, x, before, left, hlost⟩
  | merge => exact absurd trivial hop

end ChainInv

/-- Where a link was lost, the indices of the leaves are no chain. -/
theorem not_consistent_of_lost {first w x : UInt32} {before left : LeafNodeView}
    (hw : s w = some before) (hnext : before.getNextLeafIndex = .ret (some x)) (hx : s x = some left)
    (hprev : left.getPrevLeafIndex = .ret none) : ¬ Consistent s first := by
  intro h
  obtain ⟨left', hx', hprev'⟩ := h.prev_of_next w x before hw hnext
  obtain rfl : left = left' := Option.some.inj (hx.symm.trans hx')
  rw [hprev] at hprev'
  cases hprev'

/-! ## Runs -/

/-- The store with one initialized leaf. -/
def Store.initial (pageId : PageId) (parent : Option UInt64) : Store :=
  Store.put (fun _ => none) ⟨pageId, blankPage .leafNode parent⟩

theorem chainInv_initial (pageId : PageId) (hvalid : pageId.pageIndex ≠ invalidPageIndex)
    (parent : Option UInt64) : ChainInv (Store.initial pageId parent) [pageId.pageIndex] := by
  have hself : Store.initial pageId parent pageId.pageIndex =
      some ⟨pageId, blankPage .leafNode parent⟩ := Store.put_self ..
  refine ⟨⟨⟨?_, ?_, trivial⟩, List.nodup_singleton _, ?_⟩, fun z => ?_, ?_⟩
  · exact (Store.prevOf_eq hself).trans (u32At_blankPage_prev ..)
  · exact (Store.nextOf_eq hself).trans (u32At_blankPage_next ..)
  · exact fun hm => hvalid (List.mem_singleton.mp hm).symm
  · rw [List.mem_singleton]
    by_cases hz : z = pageId.pageIndex
    · rw [hz, hself]
      exact ⟨fun _ => rfl, fun _ => rfl⟩
    · rw [Store.initial, Store.put_of_ne hz]
      exact ⟨fun hne => absurd hne hz, fun hsome => by cases hsome⟩
  · have hnone : Store.Located fun _ => none := fun _ _ hne => by cases hne
    exact hnone.put (blankPage_wf ..)

variable {s₀ : Store} {steps : List (Store × ChainOp D)}

theorem ChainRun.inv {first : UInt32} (h : ChainInv s₀ order) (hfirst : order.head? = some first)
    (hrun : ChainRun td s₀ steps s) (hops : ∀ e ∈ steps, SplitsFirst e.1 e.2) :
    ∃ order', order'.head? = some first ∧ ChainInv s order' := by
  induction hrun with
  | nil => exact ⟨order, hfirst, h⟩
  | @snoc steps t t' op run hstep ih =>
    obtain ⟨order₁, hfirst₁, h₁⟩ := ih fun e he => hops e (List.mem_append_left _ he)
    obtain ⟨order₂, hfirst₂, h₂⟩ := h₁.step hstep (hops (t, op) (by simp))
    exact ⟨order₂, hfirst₂.trans hfirst₁, h₂⟩

/-- **When the chain of leaves is consistent.** In a run of splits and merges from one initialized
leaf, the next and previous indices agree in every state, exactly if every split is applied to a leaf
without a previous one. -/
theorem chain_consistent_iff (td : TableDefinition) (pageId : PageId) (parent : Option UInt64)
    (hvalid : pageId.pageIndex ≠ invalidPageIndex) (steps : List (Store × ChainOp D)) (s : Store)
    (hrun : ChainRun td (Store.initial pageId parent) steps s) :
    (∀ t ∈ steps.map Prod.fst ++ [s], Consistent t pageId.pageIndex) ↔
      ∀ e ∈ steps, SplitsFirst e.1 e.2 := by
  have hinit := chainInv_initial pageId hvalid parent
  induction hrun with
  | nil =>
    refine ⟨fun _ e he => absurd he List.not_mem_nil, fun _ t ht => ?_⟩
    obtain rfl := List.mem_singleton.mp ht
    exact hinit.consistent rfl
  | @snoc steps t t' op run hstep ih =>
    rw [List.map_append, List.map_singleton]
    constructor
    · intro hall
      have hops := ih.mp fun z hz => hall z (List.mem_append_left _ hz)
      obtain ⟨order, -, h⟩ := run.inv hinit rfl hops
      intro e he
      rcases List.mem_append.mp he with he | he
      · exact hops e he
      · obtain rfl := List.mem_singleton.mp he
        by_contra hop
        obtain ⟨w, x, before, left, h₁, h₂, h₃, h₄⟩ := h.step_lost hstep hop
        exact not_consistent_of_lost h₁ h₂ h₃ h₄ (hall t' (by simp))
    · intro hops z hz
      rcases List.mem_append.mp hz with hz | hz
      · exact ih.mpr (fun e he => hops e (List.mem_append_left _ he)) z hz
      · obtain rfl := List.mem_singleton.mp hz
        obtain ⟨order, hfirst, h⟩ := (run.snoc hstep).inv hinit rfl hops
        exact h.consistent hfirst

/-! ## A split that loses a link -/

theorem splitFits_first : SplitFits productTable ["id"] [] (product 1 []) := by
  refine ⟨0, ⟨Nat.zero_le _, Nat.zero_le _, fun _ => ?_⟩, Nat.zero_le _, ?_⟩
  · change 0 < bytesOf [encode (product 1 [])]
    rw [bytesOf_cons, length_encode_product]
    decide
  · change FitsIn [encode (product 1 [])] 8160
    rw [FitsIn, bytesOf_cons, length_encode_product]
    decide

theorem splitFits_second : SplitFits productTable ["id"] [product 1 []] (product 2 []) := by
  have htotal : splitTotal productTable ["id"] [product 1 []] (product 2 []) = 34 := by
    have habove : above productTable ["id"] [product 1 []] (product 2 []) = [] := rfl
    rw [splitTotal_eq, habove, List.map_singleton, bytesOf_cons, length_encode_product]
    rfl
  refine ⟨0, ⟨Nat.zero_le _, Nat.zero_le _, fun _ => ?_⟩, Nat.zero_le _, ?_⟩
  · change _ < bytesOf [encode (product 1 [])]
    rw [htotal, bytesOf_cons, length_encode_product]
    decide
  · change FitsIn [encode (product 1 []), encode (product 2 [])] 8160
    rw [FitsIn, bytesOf_cons, bytesOf_cons, length_encode_product, length_encode_product]
    decide

theorem first_split :
    ∃ s₁ leaf, ChainStep productTable (Store.initial ⟨1, 0⟩ none)
        (.split 0 (product 1 []) (emptyLeaf 1)) s₁ ∧ (∃ order, ChainInv s₁ order) ∧
      s₁ 1 = some leaf ∧ s₁ 2 = none ∧ Holds productTable ["id"] leaf.pageView [product 1 []] ∧
      u32At leaf.pageView 12 = 0 := by
  have hblank := emptyPage_blankPage .leafNode none
  have hinit := chainInv_initial ⟨1, 0⟩ (by decide) none
  have hx : Store.initial ⟨1, 0⟩ none 0 = some (emptyLeaf 0) := Store.put_self ..
  have hinput : SplitInput productTable ["id"] [] (emptyLeaf 0) (emptyLeaf 1) (product 1 []) :=
    ⟨productTable_keyInOrder, (leafInv_blank productTable ["id"] ⟨1, 0⟩ .leafNode none).holds,
      List.Pairwise.nil, product_good 1 [], fun _ hm => absurd hm List.not_mem_nil, hblank⟩
  obtain ⟨k, key, leaf', right', hk, -, hrun, -, hholds⟩ := hinput.distributes splitFits_first
    (by rw [length_encode_product]; decide)
    ((Store.initial ⟨1, 0⟩ none).leafAt (toIndex (u32At (emptyLeaf 0).pageView 16)))
  obtain rfl := Nat.le_zero.mp hk
  obtain ⟨hdone, before, post, -, hafter⟩ := hinit.afterSplit hx rfl hblank hrun
  have hstep := ChainStep.split hx rfl (by decide) hblank (getNextLeafIndex_eq (emptyLeaf 0)) hrun
  obtain ⟨order, -, hinv⟩ := hinit.step hstep fun leaf hleaf => by
    obtain rfl : emptyLeaf 0 = leaf := Option.some.inj (hx.symm.trans hleaf)
    rw [getPrevLeafIndex_eq, emptyLeaf, u32At_blankPage_prev]
    rfl
  refine ⟨_, right', hstep, ⟨order, hinv⟩, hafter.right, ?_, hholds, hdone.rightPrev⟩
  have hnone := mt (hafter.mem 2).mp (by decide)
  rwa [Bool.not_eq_true, Option.isSome_eq_false_iff, Option.isNone_iff_eq_none] at hnone

theorem chain_consistent_iff_first_split :
    ∃ s₁, ChainRun productTable (Store.initial ⟨1, 0⟩ none)
        [(Store.initial ⟨1, 0⟩ none, .split 0 (product 1 []) (emptyLeaf 1))] s₁ ∧
      ((∀ t ∈ [Store.initial ⟨1, 0⟩ none, s₁], Consistent t 0) ↔
        ∀ e ∈ [(Store.initial ⟨1, 0⟩ none, ChainOp.split 0 (product 1 []) (emptyLeaf 1))],
          SplitsFirst e.1 e.2) := by
  obtain ⟨s₁, leaf, hstep, -⟩ := first_split
  have hrun := ChainRun.nil.snoc hstep
  exact ⟨s₁, hrun, chain_consistent_iff productTable ⟨1, 0⟩ none (by decide) _ s₁ hrun⟩

/-- Two splits, the second of the leaf that the first one added: its next one points to it, it does
not point back. -/
theorem second_split_loses_prev :
    ∃ s₁ s₂, ChainRun productTable (Store.initial ⟨1, 0⟩ none)
        [(Store.initial ⟨1, 0⟩ none, .split 0 (product 1 []) (emptyLeaf 1)),
          (s₁, .split 1 (product 2 []) (emptyLeaf 2))] s₂ ∧
      (∃ w before left, s₂ w = some before ∧ before.getNextLeafIndex = .ret (some 1) ∧
        s₂ 1 = some left ∧ left.getPrevLeafIndex = .ret none) ∧ ¬ Consistent s₂ 0 := by
  obtain ⟨s₁, leaf, hstep, ⟨order, hinv⟩, hx, hfresh, hholds, hprev⟩ := first_split
  have hblank := emptyPage_blankPage .leafNode none
  have hinput : SplitInput productTable ["id"] [product 1 []] leaf (emptyLeaf 2) (product 2 []) := by
    refine ⟨productTable_keyInOrder, hholds, List.pairwise_singleton .., product_good 2 [],
      fun r hr => ?_, hblank⟩
    obtain rfl := List.mem_singleton.mp hr
    exact Ordering.noConfusion
  obtain ⟨k, key, leaf', right', -, -, hrun, -, -⟩ := hinput.distributes splitFits_second
    (by rw [length_encode_product]; decide) (s₁.leafAt (toIndex (u32At leaf.pageView 16)))
  have hstep' := ChainStep.split hx hfresh (by decide) hblank (getNextLeafIndex_eq leaf) hrun
  obtain ⟨w, before, left, hw, hnext, hleft, hlost⟩ :=
    hinv.split_lost hx (by rw [hprev]; decide) hfresh hblank hrun
  exact ⟨s₁, _, (ChainRun.nil.snoc hstep).snoc hstep', ⟨w, before, left, hw, hnext, hleft, hlost⟩,
    not_consistent_of_lost hw hnext hleft hlost⟩

end RarmDb
