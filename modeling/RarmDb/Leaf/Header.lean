import RarmDb.Leaf.Split

/-!
# The header fields of a leaf

The parent index has eight bytes from offset 8 on, and the pointer to the previous leaf has four from
offset 12 on.

* `HeaderOp`, `LeafHeader`: the writes to the header, and the value that each field was last given;
* `ReadsBack`: every field reads back as it was last written;
* **`readsBack_iff`**: it does, unless the upper half of the parent index differs from the pointer.
-/

namespace RarmDb

open Page LeafNodeView

/-! ## Writes to the header -/

/-- The functions that write header fields. -/
inductive HeaderOp
  | initializeLeaf (parent : Option UInt64)
  | setPrevLeafIndex (pageIndex : Option UInt32)
  | setNextLeafIndex (pageIndex : Option UInt32)
  | setParentIndex (value : UInt64)

/-- Run one of them. -/
def HeaderOp.run (leaf : LeafNodeView) : HeaderOp → Exec LeafNodeView
  | initializeLeaf parent => leaf.initializeLeaf .leafNode parent
  | setPrevLeafIndex pageIndex => leaf.setPrevLeafIndex pageIndex
  | setNextLeafIndex pageIndex => leaf.setNextLeafIndex pageIndex
  | setParentIndex value => do
    let pageView ← leaf.pageView.setPageHeaderU64Value pageHeaderParentIndexOffset value
    return { leaf with pageView }

/-- The value that each field was last given, if it was written. No pointer is the invalid index. -/
structure LeafHeader where
  parent : Option UInt64
  prev : Option UInt32
  next : Option UInt32
  itemCount : Option ℕ
  dataHeapEnd : Option ℕ
  pageType : Option PageType

namespace LeafHeader

/-- Nothing was written. -/
def unwritten : LeafHeader := ⟨none, none, none, none, none, none⟩

/-- The fields after a write. -/
def after (h : LeafHeader) : HeaderOp → LeafHeader
  | .initializeLeaf parent =>
    ⟨some (parent.getD 0xFFFFFFFFFFFFFFFF), some invalidPageIndex, some invalidPageIndex, some 0,
      some pageSize, some .leafNode⟩
  | .setPrevLeafIndex pageIndex => { h with prev := some (pageIndex.getD invalidPageIndex) }
  | .setNextLeafIndex pageIndex => { h with next := some (pageIndex.getD invalidPageIndex) }
  | .setParentIndex value => { h with parent := some value }

/-- The upper half of the parent index is the pointer to the previous leaf, once both are written. -/
def Agrees (h : LeafHeader) : Prop :=
  ∀ parent prev, h.parent = some parent → h.prev = some prev → parent.toNat / 2 ^ 32 = prev.toNat

end LeafHeader

/-- Every field reads back as it was last written. -/
structure ReadsBack (leaf : LeafNodeView) (h : LeafHeader) : Prop where
  parent : ∀ v, h.parent = some v →
    leaf.pageView.getPageHeaderU64Value pageHeaderParentIndexOffset = .ret v
  prev : ∀ v, h.prev = some v → leaf.getPrevLeafIndex = .ret (toIndex v)
  next : ∀ v, h.next = some v → leaf.getNextLeafIndex = .ret (toIndex v)
  itemCount : ∀ v, h.itemCount = some v → leaf.getItemCount = .ret v
  dataHeapEnd : ∀ v, h.dataHeapEnd = some v → leaf.pageView.getDataStartOffset = .ret v
  pageType : ∀ v, h.pageType = some v → leaf.pageView.getPageType = v

/-! ## The bytes of the header -/

/-- The bytes of the header. The four bytes at offset 12 are those of the last write to either field. -/
structure HeaderInv (p : Page) (h : LeafHeader) : Prop where
  low : ∀ v, h.parent = some v → (u32At p 8).toNat = v.toNat % 2 ^ 32
  upper : ∀ v, h.parent = some v → h.prev = none → (u32At p 12).toNat = v.toNat / 2 ^ 32
  prev : ∀ v, h.prev = some v → h.parent = none → u32At p 12 = v
  shared : ∀ v w, h.parent = some v → h.prev = some w →
    (u32At p 12).toNat = v.toNat / 2 ^ 32 ∨ u32At p 12 = w
  next : ∀ v, h.next = some v → u32At p 16 = v
  itemCount : ∀ v, h.itemCount = some v → Page.itemCount p = v
  dataHeapEnd : ∀ v, h.dataHeapEnd = some v → heapEnd p = v
  pageType : ∀ v, h.pageType = some v → getPageType p = v

theorem toIndex_inj {v w : UInt32} (h : toIndex v = toIndex w) : v = w := by
  rw [← toIndex_getD v, h, toIndex_getD]

theorem getPageType_write {p : Page} {off : ℕ} {xs : Bytes} (h : off + xs.length ≤ 24) :
    getPageType (p.write off xs) = getPageType p := by
  rw [getPageType, getPageType, Buffer.get_write_of_not (.inr h)]

theorem fields_write (p : Page) (off : ℕ) (xs : Bytes) (h : off + xs.length ≤ 20) :
    Page.itemCount (p.write off xs) = Page.itemCount p ∧ heapEnd (p.write off xs) = heapEnd p ∧
      getPageType (p.write off xs) = getPageType p := by
  refine ⟨u16At_write_disjoint (.inr h), u16At_write_disjoint (.inr ?_), getPageType_write ?_⟩
  · omega
  · omega

theorem PageType.ofU8_toU8 (ty : PageType) : PageType.ofU8 ty.toU8 = ty := by
  cases ty <;> rfl

theorem getPageType_blankPage (ty : PageType) (parent : Option UInt64) :
    getPageType (blankPage ty parent) = ty := by
  have hread : ((Buffer.const 8192 0 : Page).write 24 [ty.toU8]).get 24 = ty.toU8 :=
    (Buffer.get_write _ (by rw [List.length_singleton]; decide) 24).trans rfl
  unfold blankPage
  simp (disch := (try simp only [length_leBytes]); omega) only [getPageType_write]
  rw [getPageType, hread, PageType.ofU8_toU8]

theorem toNat_u32At_blankPage_parent (ty : PageType) (parent : Option UInt64) :
    (u32At (blankPage ty parent) 8).toNat = (parent.getD 0xFFFFFFFFFFFFFFFF).toNat % 2 ^ 32 := by
  have hpow : (256 : ℕ) ^ 4 = 2 ^ 32 := by norm_num
  rw [toNat_u32At, read_blankPage_parent, leBytes_add 4 4, List.take_left' (length_leBytes ..),
    ofLeBytes_leBytes, hpow]

section Parent

variable {p : Page} {v : UInt64}

/-- The page with the parent index overwritten. -/
def setParent (p : Page) (v : UInt64) : Page := p.write 8 (leBytes 8 v.toNat)

theorem read_setParent : u64At (setParent p v) 8 = v := by
  have hlt : v.toNat < 256 ^ 8 := v.toNat_lt
  rw [u64At, setParent, Buffer.read_write_same p (by rw [length_leBytes]; decide)
    (length_leBytes ..).symm, ofLeBytes_leBytes_of_lt hlt, UInt64.ofNat_toNat]

theorem u32At_setParent :
    (u32At (setParent p v) 8).toNat = v.toNat % 2 ^ 32 ∧
      (u32At (setParent p v) 12).toNat = v.toNat / 2 ^ 32 := by
  have hboth := toNat_u64At (setParent p v) 8
  rw [read_setParent] at hboth
  have hlow : (u32At (setParent p v) 8).toNat < 2 ^ 32 := UInt32.toNat_lt _
  change v.toNat = (u32At (setParent p v) 8).toNat + 2 ^ 32 * (u32At (setParent p v) 12).toNat at hboth
  omega

end Parent

/-! ## Runs -/

theorem headerInv_unwritten (p : Page) : HeaderInv p LeafHeader.unwritten := by
  constructor <;> (intros; contradiction)

/-- **One write.** -/
theorem HeaderInv.run {leaf : LeafNodeView} {h : LeafHeader} (hinv : HeaderInv leaf.pageView h)
    (op : HeaderOp) : ∃ leaf', op.run leaf = .ret leaf' ∧ HeaderInv leaf'.pageView (h.after op) := by
  cases op with
  | initializeLeaf parent =>
    refine ⟨_, initializeLeaf_eq leaf .leafNode parent, ?_⟩
    have hprev := u32At_blankPage_prev .leafNode parent
    constructor <;> dsimp only [LeafHeader.after]
    case low =>
      rintro v ⟨⟩
      exact toNat_u32At_blankPage_parent ..
    case upper =>
      rintro v - ⟨⟩
    case prev =>
      rintro v - ⟨⟩
    case shared =>
      rintro v w - ⟨⟩
      exact .inr hprev
    case next =>
      rintro v ⟨⟩
      exact u32At_blankPage_next ..
    case itemCount =>
      rintro v ⟨⟩
      exact itemCount_blankPage ..
    case dataHeapEnd =>
      rintro v ⟨⟩
      exact heapEnd_blankPage ..
    case pageType =>
      rintro v ⟨⟩
      exact getPageType_blankPage ..
  | setPrevLeafIndex pageIndex =>
    refine ⟨_, setLeafIndex_eq leaf (by decide) pageIndex, ?_⟩
    have hprev : u32At (setPointer leaf.pageView 12 (pageIndex.getD invalidPageIndex)) 12 =
        pageIndex.getD invalidPageIndex := u32At_setPointer (by decide)
    have hfields := fields_write leaf.pageView 12 (leBytes 4 (pageIndex.getD invalidPageIndex).toNat)
      (by rw [length_leBytes]; decide)
    constructor <;> dsimp only [LeafHeader.after, withPointer]
    case low =>
      intro v hv
      rw [u32At_setPointer_ne (by decide), hinv.low v hv]
    case upper =>
      rintro v - ⟨⟩
    case prev =>
      rintro v ⟨⟩ -
      exact hprev
    case shared =>
      rintro v w - ⟨⟩
      exact .inr hprev
    case next =>
      intro v hv
      rw [u32At_setPointer_ne (by decide), hinv.next v hv]
    case itemCount => exact fun v hv => hfields.1.trans (hinv.itemCount v hv)
    case dataHeapEnd => exact fun v hv => hfields.2.1.trans (hinv.dataHeapEnd v hv)
    case pageType => exact fun v hv => hfields.2.2.trans (hinv.pageType v hv)
  | setNextLeafIndex pageIndex =>
    refine ⟨_, setLeafIndex_eq leaf (by decide) pageIndex, ?_⟩
    have hkeep : u32At (setPointer leaf.pageView 16 (pageIndex.getD invalidPageIndex)) 12 =
        u32At leaf.pageView 12 := u32At_setPointer_ne (by decide)
    have hfields := fields_write leaf.pageView 16 (leBytes 4 (pageIndex.getD invalidPageIndex).toNat)
      (by rw [length_leBytes])
    constructor <;> dsimp only [LeafHeader.after, withPointer]
    case low =>
      intro v hv
      rw [u32At_setPointer_ne (by decide), hinv.low v hv]
    case upper =>
      intro v hv hnone
      rw [hkeep, hinv.upper v hv hnone]
    case prev =>
      intro v hv hnone
      rw [hkeep, hinv.prev v hv hnone]
    case shared =>
      intro v w hv hw
      rw [hkeep]
      exact hinv.shared v w hv hw
    case next =>
      rintro v ⟨⟩
      exact u32At_setPointer (by decide)
    case itemCount => exact fun v hv => hfields.1.trans (hinv.itemCount v hv)
    case dataHeapEnd => exact fun v hv => hfields.2.1.trans (hinv.dataHeapEnd v hv)
    case pageType => exact fun v hv => hfields.2.2.trans (hinv.pageType v hv)
  | setParentIndex value =>
    refine ⟨{ leaf with pageView := setParent leaf.pageView value }, ?_, ?_⟩
    · rw [HeaderOp.run, setPageHeaderU64Value_eq (by decide)]
      rfl
    have hhalves := u32At_setParent (p := leaf.pageView) (v := value)
    have hfields := fields_write leaf.pageView 8 (leBytes 8 value.toNat) (by rw [length_leBytes]; decide)
    constructor <;> dsimp only [LeafHeader.after]
    case low =>
      rintro v ⟨⟩
      exact hhalves.1
    case upper =>
      rintro v ⟨⟩ -
      exact hhalves.2
    case prev =>
      rintro v - ⟨⟩
    case shared =>
      rintro v w ⟨⟩ -
      exact .inl hhalves.2
    case next =>
      intro v hv
      rw [setParent, u32At_write_disjoint (by rw [length_leBytes]; omega), hinv.next v hv]
    case itemCount => exact fun v hv => hfields.1.trans (hinv.itemCount v hv)
    case dataHeapEnd => exact fun v hv => hfields.2.1.trans (hinv.dataHeapEnd v hv)
    case pageType => exact fun v hv => hfields.2.2.trans (hinv.pageType v hv)

/-- **Every run of writes.** -/
theorem HeaderInv.foldlM {leaf : LeafNodeView} {h : LeafHeader} (hinv : HeaderInv leaf.pageView h)
    (ops : List HeaderOp) :
    ∃ leaf', ops.foldlM HeaderOp.run leaf = .ret leaf' ∧
      HeaderInv leaf'.pageView (ops.foldl LeafHeader.after h) := by
  induction ops generalizing leaf h with
  | nil => exact ⟨leaf, rfl, hinv⟩
  | cons op ops ih =>
    obtain ⟨leaf₁, hrun, hinv₁⟩ := hinv.run op
    obtain ⟨leaf₂, hruns, hinv₂⟩ := ih hinv₁
    exact ⟨leaf₂, by rw [List.foldlM_cons, hrun, Exec.ret_bind, hruns], hinv₂⟩

/-- The fields read back when the upper half of the parent index is the pointer. -/
theorem HeaderInv.readsBackAll_iff {leaf : LeafNodeView} {h : LeafHeader}
    (hinv : HeaderInv leaf.pageView h) : ReadsBack leaf h ↔ h.Agrees := by
  have hparent : leaf.pageView.getPageHeaderU64Value pageHeaderParentIndexOffset =
      .ret (u64At leaf.pageView 8) := getPageHeaderU64Value_eq (by decide)
  have hprev : leaf.getPrevLeafIndex = .ret (toIndex (u32At leaf.pageView 12)) :=
    getLeafIndex_eq leaf (by decide)
  have hnext : leaf.getNextLeafIndex = .ret (toIndex (u32At leaf.pageView 16)) :=
    getLeafIndex_eq leaf (by decide)
  have hboth : (u64At leaf.pageView 8).toNat =
      (u32At leaf.pageView 8).toNat + 2 ^ 32 * (u32At leaf.pageView 12).toNat := toNat_u64At _ 8
  constructor
  · intro hread v w hv hw
    have hlow : (u32At leaf.pageView 8).toNat < 2 ^ 32 := UInt32.toNat_lt _
    have h₁ := Exec.ret.inj (hparent.symm.trans (hread.parent v hv))
    have h₂ := toIndex_inj (Exec.ret.inj (hprev.symm.trans (hread.prev w hw)))
    rw [h₁, h₂] at hboth
    omega
  · intro hagrees
    have hupper : ∀ v, h.parent = some v → (u32At leaf.pageView 12).toNat = v.toNat / 2 ^ 32 := by
      intro v hv
      cases hw : h.prev with
      | none => exact hinv.upper v hv hw
      | some w =>
        rcases hinv.shared v w hv hw with hshared | hshared
        · exact hshared
        · rw [hshared, hagrees v w hv hw]
    constructor
    case parent =>
      intro v hv
      have h₁ := hinv.low v hv
      have h₂ := hupper v hv
      rw [hparent]
      refine congrArg Exec.ret (UInt64.toNat_inj.mp ?_)
      omega
    case prev =>
      intro w hw
      rw [hprev]
      refine congrArg (fun x => Exec.ret (toIndex x)) ?_
      cases hv : h.parent with
      | none => exact hinv.prev w hw hv
      | some v =>
        refine UInt32.toNat_inj.mp ?_
        rw [hupper v hv, hagrees v w hv hw]
    case next =>
      intro v hv
      rw [hnext, hinv.next v hv]
    case itemCount =>
      intro v hv
      rw [← hinv.itemCount v hv]
      exact getPageHeaderU16Value_eq (by decide)
    case dataHeapEnd =>
      intro v hv
      rw [← hinv.dataHeapEnd v hv]
      exact getPageHeaderU16Value_eq (by decide)
    case pageType => exact hinv.pageType

/-- **When the header fields read back**: after every run of writes, exactly when the upper half of the
last parent index is the last pointer to the previous leaf. -/
theorem readsBack_iff (leaf₀ : LeafNodeView) (ops : List HeaderOp) :
    ∃ leaf, ops.foldlM HeaderOp.run leaf₀ = .ret leaf ∧
      (ReadsBack leaf (ops.foldl LeafHeader.after LeafHeader.unwritten) ↔
        (ops.foldl LeafHeader.after LeafHeader.unwritten).Agrees) := by
  obtain ⟨leaf, hrun, hinv⟩ := (headerInv_unwritten leaf₀.pageView).foldlM ops
  exact ⟨leaf, hrun, hinv.readsBackAll_iff⟩

/-- A leaf initialized with the parent index 5 has another parent index. -/
theorem initialize_loses_parent :
    ∃ leaf, (⟨⟨1, 0⟩, Buffer.const 8192 0⟩ : LeafNodeView).initializeLeaf .leafNode (some 5) =
        .ret leaf ∧
      leaf.pageView.getPageHeaderU64Value pageHeaderParentIndexOffset =
        .ret 0xFFFFFFFF00000005 := by
  refine ⟨_, initializeLeaf_eq _ .leafNode (some 5), ?_⟩
  rw [getPageHeaderU64Value_eq (by decide)]
  have hlow := toNat_u32At_blankPage_parent .leafNode (some 5)
  have hboth := toNat_u64At (blankPage .leafNode (some 5)) 8
  rw [hlow, u32At_blankPage_prev] at hboth
  exact congrArg Exec.ret (UInt64.toNat_inj.mp hboth)

end RarmDb
