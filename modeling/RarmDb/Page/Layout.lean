import RarmDb.Lib.Ranges
import RarmDb.Page.Model

/-!
# The layout of a slotted page

* `slots`, `recordsOf`: the slot array and the records of a page, read off its bytes;
* `WF`: the layout invariant, the live ranges are packed into the data heap;
* `SameHeader`: the header bytes that no record operation writes;
* one lemma per reading function (`getSlot_eq`, `getFreeSpace_eq`, …): its value on a page in `WF`.
-/

namespace RarmDb.Page

variable {p q : Page}

/-! ## Numbers in a page -/

theorem castU16_of_lt {n : ℕ} (h : n < 65536) : castU16 n = .ret n := congrArg Exec.ret (Nat.mod_eq_of_lt h)

/-- The `u16` at `off`. -/
def u16At (p : Page) (off : ℕ) : ℕ := ofLeBytes (p.read off 2)

theorem u16At_write_same {off v : ℕ} (h : off + 2 ≤ 8192) (hv : v < 65536) :
    u16At (p.write off (leBytes 2 v)) off = v := by
  rw [u16At, Buffer.read_write_same p (by rwa [length_leBytes]) (length_leBytes ..).symm,
    ofLeBytes_leBytes_of_lt (by simpa using hv)]

theorem u16At_write_disjoint {off off' : ℕ} {xs : Bytes}
    (h : off' + 2 ≤ off ∨ off + xs.length ≤ off') : u16At (p.write off xs) off' = u16At p off' := by
  rw [u16At, Buffer.read_write_disjoint p h, u16At]

theorem u16At_write_read {off src l off' : ℕ} (h : off + l ≤ 8192) (h₁ : off ≤ off')
    (h₂ : off' + 2 ≤ off + l) :
    u16At (p.write off (q.read src l)) off' = u16At q (src + (off' - off)) := by
  rw [u16At, Buffer.read_write_read p q h h₁ h₂, u16At]

/-! ## Slots and records -/

/-- The number of records, as the header has it. -/
def itemCount (p : Page) : ℕ := u16At p 20

/-- The offset at which the data heap starts, as the header has it. -/
def heapEnd (p : Page) : ℕ := u16At p 22

/-- Slot `i`: the record offset and the record size. -/
def slotAt (p : Page) (i : ℕ) : ℕ × ℕ := (u16At p (32 + i * 4), u16At p (32 + i * 4 + 2))

/-- The slot array. -/
def slots (p : Page) : List (ℕ × ℕ) := (List.range (itemCount p)).map (slotAt p)

/-- The bytes of a slot's record. -/
def recordAt (p : Page) (s : ℕ × ℕ) : Bytes := p.read s.1 s.2

/-- The records in slot order. -/
def recordsOf (p : Page) : List Bytes := (slots p).map (recordAt p)

@[simp] theorem length_slots (p : Page) : (slots p).length = itemCount p := by
  rw [slots, List.length_map, List.length_range]

@[simp] theorem length_recordsOf (p : Page) : (recordsOf p).length = itemCount p := by
  rw [recordsOf, List.length_map, length_slots]

@[simp] theorem getElem_slots {i : ℕ} (h : i < (slots p).length) : (slots p)[i] = slotAt p i := by
  simp only [slots, List.getElem_map, List.getElem_range]

theorem getElem_recordsOf {i : ℕ} (h : i < (recordsOf p).length) :
    (recordsOf p)[i] = recordAt p (slotAt p i) := by
  simp only [recordsOf, List.getElem_map, getElem_slots]

@[simp] theorem length_recordAt (s : ℕ × ℕ) : (recordAt p s).length = s.2 := Buffer.length_read ..

theorem recordAt_write_same {off len : ℕ} {r : Bytes} (h : off + len ≤ 8192)
    (hl : len = r.length) : recordAt (p.write off r) (off, len) = r := by
  rw [recordAt, Buffer.read_write_same p (by omega) hl]

theorem recordAt_write_disjoint {off : ℕ} {xs : Bytes} {s : ℕ × ℕ}
    (h : s.1 + s.2 ≤ off ∨ off + xs.length ≤ s.1) : recordAt (p.write off xs) s = recordAt p s := by
  rw [recordAt, Buffer.read_write_disjoint p h, recordAt]

theorem map_length_recordsOf (p : Page) : (recordsOf p).map List.length = (slots p).map Prod.snd := by
  rw [recordsOf, List.map_map]
  exact List.map_congr_left fun s _ => length_recordAt s

theorem sum_length_recordsOf (p : Page) : ((recordsOf p).map List.length).sum = total (slots p) := by
  rw [map_length_recordsOf, total]

/-- Overwrite slot `i`. -/
def writeSlot (p : Page) (i off len : ℕ) : Page :=
  (p.write (32 + i * 4) (leBytes 2 off)).write (32 + i * 4 + 2) (leBytes 2 len)

theorem slotAt_writeSlot {i j off len : ℕ} (hi : 36 + i * 4 ≤ 8192) (ho : off < 65536)
    (hl : len < 65536) :
    slotAt (writeSlot p i off len) j = if j = i then (off, len) else slotAt p j := by
  unfold slotAt writeSlot
  split_ifs with h
  · subst h
    rw [u16At_write_disjoint (Or.inl (by omega)), u16At_write_same (by omega) ho,
      u16At_write_same (by omega) hl]
  · simp (disch := (try simp only [length_leBytes]); omega) only [u16At_write_disjoint]

theorem u16At_writeSlot {i off len o : ℕ} (h : o + 2 ≤ 32) :
    u16At (writeSlot p i off len) o = u16At p o := by
  unfold writeSlot
  rw [u16At_write_disjoint (Or.inl (by omega)), u16At_write_disjoint (Or.inl (by omega))]

theorem recordAt_writeSlot {i off len : ℕ} {s : ℕ × ℕ} (hs : 36 + i * 4 ≤ s.1) :
    recordAt (writeSlot p i off len) s = recordAt p s := by
  unfold writeSlot
  simp (disch := (try simp only [length_leBytes]); omega) only [recordAt_write_disjoint]

theorem slots_eq {l : List (ℕ × ℕ)} (hn : itemCount p = l.length)
    (h : ∀ i (hi : i < l.length), slotAt p i = l[i]) : slots p = l :=
  List.ext_getElem (by rw [length_slots, hn]) fun i _ hi => by rw [getElem_slots, h i hi]

theorem slots_set {i : ℕ} {s : ℕ × ℕ} (hn : itemCount q = itemCount p)
    (h : ∀ j, j < itemCount p → slotAt q j = if j = i then s else slotAt p j) :
    slots q = (slots p).set i s := by
  refine slots_eq (by rw [hn, List.length_set, length_slots]) fun j hj => ?_
  rw [List.length_set, length_slots] at hj
  rw [h j hj, List.getElem_set, getElem_slots]
  simp only [eq_comm]

theorem recordsOf_set {i : ℕ} {s : ℕ × ℕ} {r : Bytes} (hq : slots q = (slots p).set i s)
    (hr : recordAt q s = r)
    (h : ∀ j, j < itemCount p → j ≠ i → recordAt q (slotAt p j) = recordAt p (slotAt p j)) :
    recordsOf q = (recordsOf p).set i r := by
  refine List.ext_getElem ?_ fun j hj _ => ?_
  · rw [recordsOf, hq, List.length_map, List.length_set, List.length_set, length_slots,
      length_recordsOf]
  · simp only [recordsOf, hq, List.length_map, List.length_set, length_slots] at hj
    simp only [recordsOf, hq, List.getElem_map, List.getElem_set, getElem_slots]
    split_ifs with hji
    · exact hr
    · exact h j hj (Ne.symm hji)

/-- **The layout invariant.** -/
structure WF (p : Page) : Prop where
  heap_le : heapEnd p ≤ 8192
  slots_le : 32 + 4 * itemCount p ≤ heapEnd p
  packed : Packed (heapEnd p) 8192 (slots p)

namespace WF

theorem total_le (h : WF p) : total (slots p) ≤ 8192 - heapEnd p := h.packed.total_le

theorem count_le (h : WF p) : itemCount p ≤ 2040 := by
  have := h.heap_le
  have := h.slots_le
  omega

theorem slot_inside (h : WF p) {i : ℕ} (hi : i < itemCount p) :
    heapEnd p ≤ (slotAt p i).1 ∧ (slotAt p i).1 + (slotAt p i).2 ≤ 8192 := by
  have hi' : i < (slots p).length := by rwa [length_slots]
  have := h.packed.inside (slots p)[i] (List.getElem_mem hi')
  rwa [getElem_slots] at this

theorem slot_apart (h : WF p) {i j : ℕ} (hi : i < itemCount p) (hj : j < itemCount p)
    (hij : i ≠ j) : Apart (slotAt p i) (slotAt p j) := by
  have key : ∀ i j, i < j → j < itemCount p → Apart (slotAt p i) (slotAt p j) := by
    intro i j hlt hj
    have := List.pairwise_iff_getElem.mp h.packed.apart i j (by rw [length_slots]; omega)
      (by rwa [length_slots]) hlt
    rwa [getElem_slots, getElem_slots] at this
  rcases Nat.lt_or_gt_of_ne hij with hlt | hlt
  · exact key i j hlt hj
  · exact (key j i hlt hi).symm

end WF

/-! ## The header bytes that record operations keep -/

/-- `q` has the header bytes of `p`, apart from the item count and the data heap end. -/
def SameHeader (p q : Page) : Prop := ∀ i, i < 20 ∨ 24 ≤ i ∧ i < 32 → q.get i = p.get i

theorem SameHeader.refl (p : Page) : SameHeader p p := fun _ _ => rfl

theorem SameHeader.trans {r : Page} (h₁ : SameHeader p q) (h₂ : SameHeader q r) : SameHeader p r :=
  fun i hi => (h₂ i hi).trans (h₁ i hi)

theorem SameHeader.read (h : SameHeader p q) {off len : ℕ} (hl : off + len ≤ 20) :
    q.read off len = p.read off len :=
  Buffer.read_congr fun k hk => h (off + k) (Or.inl (by omega))

theorem SameHeader.write (h : SameHeader p q) {off : ℕ} {xs : Bytes} (ho : 32 ≤ off) :
    SameHeader p (q.write off xs) :=
  fun i hi => (Buffer.get_write_of_not (by omega)).trans (h i hi)

theorem SameHeader.write_u16 (h : SameHeader p q) {off v : ℕ} (ho : off = 20 ∨ off = 22) :
    SameHeader p (q.write off (leBytes 2 v)) :=
  fun i hi => (Buffer.get_write_of_not (by rw [length_leBytes]; omega)).trans (h i hi)

/-! ## The reading functions -/

theorem getPageHeaderU16Value_eq {off : ℕ} (h : off + 2 ≤ 8192) :
    getPageHeaderU16Value p off = .ret (u16At p off) := by
  rw [getPageHeaderU16Value, getPageHeaderValue, Buffer.slice_eq p h]
  rfl

theorem setPageHeaderValue_eq {w off v : ℕ} (h : off + w ≤ 8192) :
    setPageHeaderValue w p off v = .ret (p.write off (leBytes w v)) :=
  Buffer.copyFromSlice_eq p (length_leBytes ..) h

theorem setPageHeaderU16Value_eq {off v : ℕ} (h : off + 2 ≤ 8192) :
    setPageHeaderU16Value p off v = .ret (p.write off (leBytes 2 v)) := setPageHeaderValue_eq h

theorem setPageHeaderU32Value_eq {off : ℕ} {v : UInt32} (h : off + 4 ≤ 8192) :
    setPageHeaderU32Value p off v = .ret (p.write off (leBytes 4 v.toNat)) :=
  setPageHeaderValue_eq h

theorem setPageHeaderU64Value_eq {off : ℕ} {v : UInt64} (h : off + 8 ≤ 8192) :
    setPageHeaderU64Value p off v = .ret (p.write off (leBytes 8 v.toNat)) :=
  setPageHeaderValue_eq h

theorem getItemCount_eq (p : Page) : getItemCount p = .ret (itemCount p) := by
  rw [getItemCount, Buffer.slice_eq p (by decide)]
  rfl

theorem getSlot_eq {i : ℕ} (h : 36 + i * 4 ≤ 8192) : getSlot p i = .ret (slotAt p i) := by
  have h₁ : p.slice (32 + i * 4) (32 + i * 4 + 2) = .ret (p.read (32 + i * 4) 2) :=
    Buffer.slice_eq p (by omega)
  have h₂ : p.slice (32 + i * 4 + 2) (32 + i * 4 + 2 + 2) = .ret (p.read (32 + i * 4 + 2) 2) :=
    Buffer.slice_eq p (by omega)
  simp only [getSlot, slotSize, h₁, Exec.ret_bind]
  rw [show 32 + i * 4 + 4 = 32 + i * 4 + 2 + 2 by omega, h₂]
  rfl

theorem setSlot_eq {i off len : ℕ} (h : 36 + i * 4 ≤ 8192) :
    setSlot p i off len = .ret (writeSlot p i off len) := by
  have h₁ : p.copyFromSlice (32 + i * 4) (32 + i * 4 + 2) (leBytes 2 off) =
      .ret (p.write (32 + i * 4) (leBytes 2 off)) :=
    Buffer.copyFromSlice_eq p (length_leBytes ..) (by omega)
  have h₂ (q : Page) : q.copyFromSlice (32 + i * 4 + 2) (32 + i * 4 + 2 + 2) (leBytes 2 len) =
      .ret (q.write (32 + i * 4 + 2) (leBytes 2 len)) :=
    Buffer.copyFromSlice_eq q (length_leBytes ..) (by omega)
  simp only [setSlot, slotSize, h₁, Exec.ret_bind]
  rw [show 32 + i * 4 + 4 = 32 + i * 4 + 2 + 2 by omega, h₂]
  rfl

theorem getFreeSpaceContiguous_eq (h : WF p) :
    getFreeSpaceContiguous p = .ret (heapEnd p - (32 + 4 * itemCount p)) := by
  have h₁ := h.heap_le
  have h₂ := h.slots_le
  rw [getFreeSpaceContiguous, getItemCount_eq, Exec.ret_bind,
    getPageHeaderU16Value_eq (by decide), Exec.ret_bind]
  change (Exec.sub 8192 (heapEnd p) >>= fun dataHeapSize =>
    Exec.sub 8160 (itemCount p * 4) >>= fun space => Exec.sub space dataHeapSize) = _
  rw [Exec.sub_of_le h₁, Exec.ret_bind, Exec.sub_of_le (by omega), Exec.ret_bind,
    Exec.sub_of_le (by omega)]
  congr 1
  omega

theorem getFreeSpace_eq (h : WF p) :
    getFreeSpace p = .ret (8160 - 4 * itemCount p - total (slots p)) := by
  have h₁ := h.heap_le
  have h₂ := h.slots_le
  have h₃ := h.total_le
  have hfold : (List.range (itemCount p)).foldlM (fun total i => do
      let slot ← getSlot p i
      return total + slot.2) 0 = Exec.ret (total (slots p)) := by
    rw [Exec.foldlM_ret (g := fun total i => total + (slotAt p i).2) fun i hi s => by
      rw [getSlot_eq (by have := List.mem_range.mp hi; omega)]; rfl]
    rw [total, slots, List.map_map, List.sum_eq_foldl, List.foldl_map]
    rfl
  rw [getFreeSpace, getItemCount_eq, Exec.ret_bind, getPageHeaderU16Value_eq (by decide),
    Exec.ret_bind]
  simp only [hfold, Exec.ret_bind]
  change (Exec.sub 8192 (heapEnd p) >>= fun dataHeapSize =>
    Exec.sub 8160 (itemCount p * 4) >>= fun space => Exec.sub space dataHeapSize >>= fun free =>
      Exec.sub dataHeapSize (total (slots p)) >>= fun garbage => Exec.ret (free + garbage)) = _
  rw [Exec.sub_of_le h₁, Exec.ret_bind, Exec.sub_of_le (by omega), Exec.ret_bind,
    Exec.sub_of_le (by omega), Exec.ret_bind, Exec.sub_of_le h₃, Exec.ret_bind]
  congr 1
  omega

theorem getRecord_eq (h : WF p) {i : ℕ} (hi : i < itemCount p) :
    getRecord p i = .ret (some (recordAt p (slotAt p i))) := by
  have h₁ := h.count_le
  have h₂ := h.slot_inside hi
  rw [getRecord, getItemCount_eq, Exec.ret_bind, if_neg (by omega), getSlot_eq (by omega),
    Exec.ret_bind]
  dsimp only
  rw [Buffer.slice_eq p h₂.2]
  rfl

theorem getRecord_of_recordsOf (h : WF p) {i : ℕ} {data : Bytes} (hi : (recordsOf p)[i]? = some data) :
    getRecord p i = .ret (some data) := by
  have hlt : i < itemCount p := by
    rw [← length_recordsOf]
    exact (List.getElem?_eq_some_iff.mp hi).1
  rw [getRecord_eq h hlt, ← hi, recordsOf, slots, List.map_map, List.getElem?_map,
    List.getElem?_range hlt]
  rfl

end RarmDb.Page
