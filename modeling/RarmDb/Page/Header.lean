import RarmDb.Page.Ops

/-!
# The pointers in the header

* `u32At`, `u64At`: header values of four and eight bytes;
* `setPointer`: overwrite a sibling pointer; it keeps the layout and the records;
* `parentOf`: the parent as `split_and_insert` reads it; **`blankPage_parentOf`**: a blank leaf
  initialized again with its own parent is the same page.
-/

namespace RarmDb.Page

variable {p q : Page}

/-- The `u32` at `off`. -/
def u32At (p : Page) (off : ℕ) : UInt32 := UInt32.ofNat (ofLeBytes (p.read off 4))

/-- The `u64` at `off`. -/
def u64At (p : Page) (off : ℕ) : UInt64 := UInt64.ofNat (ofLeBytes (p.read off 8))

theorem getPageHeaderU32Value_eq {off : ℕ} (h : off + 4 ≤ 8192) :
    getPageHeaderU32Value p off = .ret (u32At p off) := by
  rw [getPageHeaderU32Value, getPageHeaderValue, Buffer.slice_eq p h]
  rfl

theorem getPageHeaderU64Value_eq {off : ℕ} (h : off + 8 ≤ 8192) :
    getPageHeaderU64Value p off = .ret (u64At p off) := by
  rw [getPageHeaderU64Value, getPageHeaderValue, Buffer.slice_eq p h]
  rfl

theorem toNat_u32At (p : Page) (off : ℕ) : (u32At p off).toNat = ofLeBytes (p.read off 4) := by
  have hlt := ofLeBytes_lt (p.read off 4)
  rw [Buffer.length_read] at hlt
  rw [u32At, UInt32.toNat_ofNat', Nat.mod_eq_of_lt (by simpa using hlt)]

theorem toNat_u64At (p : Page) (off : ℕ) :
    (u64At p off).toNat = (u32At p off).toNat + 2 ^ 32 * (u32At p (off + 4)).toNat := by
  have hlt := ofLeBytes_lt (p.read off 8)
  rw [Buffer.length_read] at hlt
  rw [u64At, UInt64.toNat_ofNat', Nat.mod_eq_of_lt (by simpa using hlt), Buffer.read_append p off 4 4,
    ofLeBytes_append, Buffer.length_read, toNat_u32At, toNat_u32At]
  norm_num

theorem u32At_write_disjoint {off off' : ℕ} {xs : Bytes}
    (h : off' + 4 ≤ off ∨ off + xs.length ≤ off') : u32At (p.write off xs) off' = u32At p off' := by
  rw [u32At, Buffer.read_write_disjoint p h, u32At]

theorem SameHeader.u32At (h : SameHeader p q) {off : ℕ} (hl : off + 4 ≤ 20) :
    Page.u32At q off = Page.u32At p off := by
  rw [Page.u32At, h.read hl, Page.u32At]

/-! ## Sibling pointers -/

/-- Overwrite the pointer at `off`. -/
def setPointer (p : Page) (off : ℕ) (v : UInt32) : Page := p.write off (leBytes 4 v.toNat)

section Pointer

variable {off : ℕ} {v : UInt32}

theorem u32At_setPointer (h : off + 4 ≤ 8192) : u32At (setPointer p off v) off = v := by
  have hlt : v.toNat < 256 ^ 4 := v.toNat_lt
  rw [u32At, setPointer, Buffer.read_write_same p (by rwa [length_leBytes]) (length_leBytes ..).symm,
    ofLeBytes_leBytes_of_lt hlt, UInt32.ofNat_toNat]

theorem u32At_setPointer_ne {off' : ℕ} (h : off' + 4 ≤ off ∨ off + 4 ≤ off') :
    u32At (setPointer p off v) off' = u32At p off' :=
  u32At_write_disjoint (by rwa [length_leBytes])

variable (h : off + 4 ≤ 20)
include h

theorem itemCount_setPointer : itemCount (setPointer p off v) = itemCount p :=
  u16At_write_disjoint (by rw [length_leBytes]; omega)

theorem heapEnd_setPointer : heapEnd (setPointer p off v) = heapEnd p :=
  u16At_write_disjoint (by rw [length_leBytes]; omega)

theorem slots_setPointer : slots (setPointer p off v) = slots p := by
  refine slots_eq (by rw [itemCount_setPointer h, length_slots]) fun i hi => ?_
  rw [getElem_slots, slotAt, slotAt, setPointer,
    u16At_write_disjoint (by rw [length_leBytes]; omega),
    u16At_write_disjoint (by rw [length_leBytes]; omega)]

theorem recordsOf_setPointer (hp : WF p) : recordsOf (setPointer p off v) = recordsOf p := by
  rw [recordsOf, recordsOf, slots_setPointer h]
  refine List.map_congr_left fun s hs => ?_
  have h₁ := (hp.packed.inside s hs).1
  have h₂ := hp.slots_le
  exact Buffer.read_write_disjoint p (by rw [length_leBytes]; omega)

theorem setPointer_wf (hp : WF p) : WF (setPointer p off v) where
  heap_le := by
    rw [heapEnd_setPointer h]
    exact hp.heap_le
  slots_le := by
    rw [heapEnd_setPointer h, itemCount_setPointer h]
    exact hp.slots_le
  packed := by
    rw [heapEnd_setPointer h, slots_setPointer h]
    exact hp.packed

end Pointer

/-! ## Blank pages -/

theorem u32At_blankPage_prev (ty : PageType) (parent : Option UInt64) :
    u32At (blankPage ty parent) 12 = invalidPageIndex := by
  rw [blankPage, u32At_write_disjoint (by rw [length_leBytes]; omega)]
  exact u32At_setPointer (by decide)

theorem u32At_blankPage_next (ty : PageType) (parent : Option UInt64) :
    u32At (blankPage ty parent) 16 = invalidPageIndex := by
  rw [blankPage, u32At_write_disjoint (by rw [length_leBytes]; omega),
    u32At_write_disjoint (by rw [length_leBytes]; omega)]
  exact u32At_setPointer (by decide)

/-- The parent of the page, as `split_and_insert` reads it. -/
def parentOf (p : Page) : Option UInt64 :=
  if u64At p 8 = 0xFFFFFFFFFFFFFFFF then none else some (u64At p 8)

theorem parentOf_getD (p : Page) : (parentOf p).getD 0xFFFFFFFFFFFFFFFF = u64At p 8 := by
  rw [parentOf]
  split_ifs with h
  · exact h.symm
  · rfl

/-- Only the low half of the parent is left when the pointer above it is written. -/
theorem write_parent_congr (b : Page) {xs xs' ys : Bytes} (hx : xs.length = 8) (hx' : xs'.length = 8)
    (hy : ys.length = 4) (h : xs.take 4 = xs'.take 4) :
    (b.write 8 xs).write 12 ys = (b.write 8 xs').write 12 ys := by
  refine Buffer.ext_get fun i _ => ?_
  rw [Buffer.get_write _ (by omega), Buffer.get_write _ (by omega), Buffer.get_write _ (by omega),
    Buffer.get_write _ (by omega), hx, hx', hy]
  by_cases h₁ : 12 ≤ i ∧ i < 12 + 4
  · rw [if_pos h₁, if_pos h₁]
  · rw [if_neg h₁, if_neg h₁]
    by_cases h₂ : 8 ≤ i ∧ i < 8 + 8
    · rw [if_pos h₂, if_pos h₂]
      have hget := congrArg (fun l => l[i - 8]?) h
      rw [List.getElem?_take_of_lt (by omega), List.getElem?_take_of_lt (by omega)] at hget
      rw [List.getD_eq_getElem?_getD, hget, List.getD_eq_getElem?_getD]
    · rw [if_neg h₂, if_neg h₂]

theorem blankPage_congr (ty : PageType) {parent parent' : Option UInt64}
    (h : (leBytes 8 (parent.getD 0xFFFFFFFFFFFFFFFF).toNat).take 4 =
      (leBytes 8 (parent'.getD 0xFFFFFFFFFFFFFFFF).toNat).take 4) :
    blankPage ty parent = blankPage ty parent' := by
  rw [blankPage, blankPage, write_parent_congr _ (length_leBytes ..) (length_leBytes ..)
    (length_leBytes ..) h]

theorem read_blankPage_parent (ty : PageType) (parent : Option UInt64) :
    (blankPage ty parent).read 8 4 =
      (leBytes 8 (parent.getD 0xFFFFFFFFFFFFFFFF).toNat).take 4 := by
  unfold blankPage
  simp (disch := (try simp only [length_leBytes]); omega) only [Buffer.read_write_disjoint]
  rw [Buffer.read_write_inside _ (by rw [length_leBytes]; decide) le_rfl
    (by rw [length_leBytes]; decide)]
  rfl

/-- **A blank page initialized again with its own parent** is the same page. -/
theorem blankPage_parentOf (ty : PageType) (parent : Option UInt64) :
    blankPage ty (parentOf (blankPage ty parent)) = blankPage ty parent := by
  refine blankPage_congr ty ?_
  have hraw : leBytes 8 (u64At (blankPage ty parent) 8).toNat = (blankPage ty parent).read 8 8 := by
    have hlt := ofLeBytes_lt ((blankPage ty parent).read 8 8)
    have hle := leBytes_ofLeBytes ((blankPage ty parent).read 8 8)
    rw [Buffer.length_read] at hlt hle
    rw [u64At, UInt64.toNat_ofNat', Nat.mod_eq_of_lt (by simpa using hlt), hle]
  rw [parentOf_getD, hraw, ← read_blankPage_parent, Buffer.read_append _ 8 4 4, List.take_left' (Buffer.length_read ..)]

end RarmDb.Page
