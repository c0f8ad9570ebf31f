import RarmDb.Page.Layout

/-!
# What the record operations do to a page

Each operation on a page in `WF` returns; its result is given outright, with its slots, its
records, its header, and `WF` again.

* `blankPage`, `initializePage_eq`;
* `insertPage`, `tryInsertRecord_ok`, **`recordsOf_insertPage`**, **`insertPage_wf`**;
* `updatePage`, `tryUpdateRecord_ok`, **`recordsOf_updatePage`**, **`updatePage_wf`**;
* `deletePage`, `deleteRecord_eq`, **`recordsOf_deletePage`**, **`deletePage_wf`**.
-/

namespace RarmDb.Page

variable {p q : Page}

/-! ## Initialization -/

/-- The page that `initialize` leaves. -/
def blankPage (pageType : PageType) (parentPageIndex : Option UInt64) : Page :=
  (((((((Buffer.const 8192 0).write 24 [pageType.toU8]).write 20 (leBytes 2 0)).write 8
    (leBytes 8 (parentPageIndex.getD 0xFFFFFFFFFFFFFFFF).toNat)).write 12
      (leBytes 4 invalidPageIndex.toNat)).write 16 (leBytes 4 invalidPageIndex.toNat)).write 12
        (leBytes 4 invalidPageIndex.toNat)).write 22 (leBytes 2 8192)

theorem initializePage_eq (p : Page) (ty : PageType) (parent : Option UInt64) :
    initializePage p ty parent = .ret (blankPage ty parent) := by
  have h₀ : p.fill 0 8192 0 = .ret (Buffer.const 8192 0) := Buffer.fill_all p 0
  have h₁ (q : Page) (xs : Bytes) (hx : xs.length = 1) : q.copyFromSlice 24 (24 + 1) xs =
      .ret (q.write 24 xs) := Buffer.copyFromSlice_eq q hx (by decide)
  have h₂ (q : Page) (xs : Bytes) (hx : xs.length = 2) : q.copyFromSlice 22 (22 + 2) xs =
      .ret (q.write 22 xs) := Buffer.copyFromSlice_eq q hx (by decide)
  rw [initializePage, initializePageWith, h₀, Exec.ret_bind, h₁ _ _ rfl, Exec.ret_bind,
    setPageHeaderU16Value_eq (by decide), Exec.ret_bind]
  dsimp only
  rw [setPageHeaderU64Value_eq (by decide), Exec.ret_bind, setPageHeaderU32Value_eq (by decide),
    Exec.ret_bind, setPageHeaderU32Value_eq (by decide), Exec.ret_bind,
    setPageHeaderU32Value_eq (by decide), Exec.ret_bind, castU16_of_lt (by decide), Exec.ret_bind,
    h₂ _ _ (length_leBytes ..)]
  rfl

theorem itemCount_blankPage (ty : PageType) (parent : Option UInt64) :
    itemCount (blankPage ty parent) = 0 := by
  rw [itemCount, blankPage]
  simp (disch := (try simp only [length_leBytes]); omega) only [u16At_write_disjoint]
  exact u16At_write_same (by decide) (by decide)

theorem heapEnd_blankPage (ty : PageType) (parent : Option UInt64) :
    heapEnd (blankPage ty parent) = 8192 := u16At_write_same (by decide) (by decide)

theorem slots_blankPage (ty : PageType) (parent : Option UInt64) :
    slots (blankPage ty parent) = [] := by
  rw [slots, itemCount_blankPage]
  rfl

theorem recordsOf_blankPage (ty : PageType) (parent : Option UInt64) :
    recordsOf (blankPage ty parent) = [] := by
  rw [recordsOf, slots_blankPage]
  rfl

theorem blankPage_wf (ty : PageType) (parent : Option UInt64) : WF (blankPage ty parent) where
  heap_le := by rw [heapEnd_blankPage]
  slots_le := by rw [heapEnd_blankPage, itemCount_blankPage]; decide
  packed := by rw [slots_blankPage]; exact Packed.nil

/-! ## Insertion -/

/-- The page after a successful insertion. -/
def insertPage (p : Page) (i : ℕ) (r : Bytes) : Page :=
  let off := heapEnd p - r.length
  let s := 32 + 4 * i
  let p₁ := (p.write off r).write 22 (leBytes 2 off)
  let p₂ := p₁.write (s + 4) (p₁.read s ((itemCount p - i) * 4))
  ((p₂.write s (leBytes 2 off)).write (s + 2) (leBytes 2 r.length)).write 20
    (leBytes 2 (itemCount p + 1))

theorem tryInsertRecord_full (h : WF p) {r : Bytes}
    (hr : heapEnd p - (32 + 4 * itemCount p) < r.length + 4) (i : ℕ) :
    tryInsertRecord p i r = .ret (.error .pageFull, p) := by
  rw [tryInsertRecord, tryInsertRecordWith, getFreeSpaceContiguous_eq h, Exec.ret_bind, if_pos hr]
  rfl

theorem tryInsertRecord_invalid (h : WF p) {r : Bytes}
    (hr : r.length + 4 ≤ heapEnd p - (32 + 4 * itemCount p)) {i : ℕ} (hi : itemCount p < i) :
    tryInsertRecord p i r = .ret (.error .invalidSlotIndex, p) := by
  rw [tryInsertRecord, tryInsertRecordWith, getFreeSpaceContiguous_eq h, Exec.ret_bind, if_neg (by simpa using hr),
    getItemCount_eq, Exec.ret_bind, if_pos hi]
  rfl

theorem tryInsertRecord_ok (h : WF p) {r : Bytes}
    (hr : r.length + 4 ≤ heapEnd p - (32 + 4 * itemCount p)) {i : ℕ} (hi : i ≤ itemCount p) :
    tryInsertRecord p i r = .ret (.ok i, insertPage p i r) := by
  have h₁ := h.heap_le
  have h₂ := h.slots_le
  have hlen : castU16 r.length = .ret r.length := castU16_of_lt (by omega)
  have hshift (q : Page) : (if itemCount p - i > 0 then
      q.copyWithin (32 + 4 * i) (32 + 4 * i + (itemCount p - i) * 4) (32 + 4 * i + 4)
      else pure q) = .ret (q.write (32 + 4 * i + 4) (q.read (32 + 4 * i) ((itemCount p - i) * 4))) := by
    split_ifs with hc
    · exact Buffer.copyWithin_eq q (by omega) (by omega)
    · rw [show itemCount p - i = 0 by omega]
      exact congrArg Exec.ret (Buffer.write_nil q _).symm
  have hw {off : ℕ} (q : Page) (xs : Bytes) (hx : off + xs.length ≤ 8192) :
      q.copyFromSlice off (off + xs.length) xs = .ret (q.write off xs) :=
    Buffer.copyFromSlice_eq q rfl hx
  have hw₂ {off : ℕ} (q : Page) (v : ℕ) (hx : off + 2 ≤ 8192) :
      q.copyFromSlice off (off + 2) (leBytes 2 v) = .ret (q.write off (leBytes 2 v)) :=
    Buffer.copyFromSlice_eq q (length_leBytes ..) hx
  rw [tryInsertRecord, tryInsertRecordWith, getFreeSpaceContiguous_eq h, Exec.ret_bind, if_neg (by simpa using hr),
    getItemCount_eq, Exec.ret_bind, if_neg (by omega), getPageHeaderU16Value_eq (by decide),
    Exec.ret_bind]
  simp only [hlen, Exec.ret_bind]
  rw [Exec.sub_of_le (show r.length ≤ u16At p 22 by unfold heapEnd at hr; omega), Exec.ret_bind,
    hw _ _ (by unfold heapEnd at h₁ hr; omega), Exec.ret_bind,
    setPageHeaderU16Value_eq (by decide), Exec.ret_bind, Exec.sub_of_le hi, Exec.ret_bind]
  simp only [pageHeaderSize, slotSize, hshift, Exec.ret_bind]
  rw [hw₂ _ _ (by omega), Exec.ret_bind,
    show 32 + 4 * i + 4 = 32 + 4 * i + 2 + 2 by omega, hw₂ _ _ (by omega), Exec.ret_bind, addU16,
    if_pos (by omega), Exec.ret_bind, setPageHeaderU16Value_eq (by decide)]
  rfl

section Insert

variable {i : ℕ} {r : Bytes}

theorem itemCount_insertPage (h : WF p) : itemCount (insertPage p i r) = itemCount p + 1 := by
  have := h.count_le
  exact u16At_write_same (by decide) (by omega)

theorem heapEnd_insertPage (h : WF p) : heapEnd (insertPage p i r) = heapEnd p - r.length := by
  have := h.heap_le
  have hv : heapEnd p - r.length < 65536 := by omega
  unfold heapEnd insertPage
  simp (disch := (try simp only [length_leBytes, Buffer.length_read]); omega) only
    [u16At_write_disjoint]
  exact u16At_write_same (by decide) hv

theorem slotAt_insertPage (h : WF p) (hr : r.length + 4 ≤ heapEnd p - (32 + 4 * itemCount p))
    (hi : i ≤ itemCount p) {j : ℕ} (hj : j ≤ itemCount p) :
    slotAt (insertPage p i r) j = if j < i then slotAt p j
      else if j = i then (heapEnd p - r.length, r.length) else slotAt p (j - 1) := by
  have h₁ := h.heap_le
  have h₂ := h.slots_le
  unfold slotAt insertPage
  split_ifs with hlt heq
  · simp (disch := (try simp only [length_leBytes, Buffer.length_read]); omega) only
      [u16At_write_disjoint]
  · subst heq
    rw [show 32 + j * 4 = 32 + 4 * j by omega]
    simp (disch := (try simp only [length_leBytes, Buffer.length_read]); omega) only
      [u16At_write_disjoint]
    rw [u16At_write_same (by omega) (by omega), u16At_write_same (by omega) (by omega)]
  · have hs : ∀ o, 32 + 4 * i + 4 ≤ o → o + 2 ≤ 36 + 4 * itemCount p →
        u16At (insertPage p i r) o = u16At p (o - 4) := by
      intro o ho₁ ho₂
      unfold insertPage
      simp (disch := (try simp only [length_leBytes, Buffer.length_read]); omega) only
        [u16At_write_disjoint]
      rw [u16At_write_read (by omega) ho₁ (by omega),
        show 32 + 4 * i + (o - (32 + 4 * i + 4)) = o - 4 by omega]
      simp (disch := (try simp only [length_leBytes]); omega) only [u16At_write_disjoint]
    have e₁ := hs (32 + j * 4) (by omega) (by omega)
    have e₂ := hs (32 + j * 4 + 2) (by omega) (by omega)
    unfold insertPage at e₁ e₂
    rw [e₁, e₂, show 32 + j * 4 - 4 = 32 + (j - 1) * 4 by omega,
      show 32 + j * 4 + 2 - 4 = 32 + (j - 1) * 4 + 2 by omega]

theorem slots_insertPage (h : WF p) (hr : r.length + 4 ≤ heapEnd p - (32 + 4 * itemCount p))
    (hi : i ≤ itemCount p) :
    slots (insertPage p i r) = (slots p).insertIdx i (heapEnd p - r.length, r.length) := by
  have hi' : i ≤ (slots p).length := by rwa [length_slots]
  refine slots_eq ?_ fun j hj => ?_
  · rw [itemCount_insertPage h, List.length_insertIdx_of_le_length hi', length_slots]
  · rw [List.length_insertIdx_of_le_length hi', length_slots] at hj
    rw [slotAt_insertPage h hr hi (by omega), List.getElem_insertIdx]
    simp only [getElem_slots, dite_eq_ite]

theorem recordAt_insertPage (h : WF p) (hr : r.length + 4 ≤ heapEnd p - (32 + 4 * itemCount p))
    (hi : i ≤ itemCount p) {s : ℕ × ℕ} (hs : heapEnd p ≤ s.1) :
    recordAt (insertPage p i r) s = recordAt p s := by
  have h₁ := h.slots_le
  unfold insertPage
  simp (disch := (try simp only [length_leBytes, Buffer.length_read]); omega) only
    [recordAt_write_disjoint]

theorem recordAt_insertPage_new (h : WF p)
    (hr : r.length + 4 ≤ heapEnd p - (32 + 4 * itemCount p)) (hi : i ≤ itemCount p) :
    recordAt (insertPage p i r) (heapEnd p - r.length, r.length) = r := by
  have h₁ := h.heap_le
  unfold insertPage
  simp (disch := (try simp only [length_leBytes, Buffer.length_read]); omega) only
    [recordAt_write_disjoint]
  exact recordAt_write_same (by omega) rfl

/-- **An insertion inserts into the list of records.** -/
theorem recordsOf_insertPage (h : WF p)
    (hr : r.length + 4 ≤ heapEnd p - (32 + 4 * itemCount p)) (hi : i ≤ itemCount p) :
    recordsOf (insertPage p i r) = (recordsOf p).insertIdx i r := by
  rw [recordsOf, slots_insertPage h hr hi, List.map_insertIdx, recordAt_insertPage_new h hr hi,
    recordsOf]
  congr 1
  exact List.map_congr_left fun s hs => recordAt_insertPage h hr hi (h.packed.inside s hs).1

theorem insertPage_wf (h : WF p) (hr : r.length + 4 ≤ heapEnd p - (32 + 4 * itemCount p))
    (hi : i ≤ itemCount p) : WF (insertPage p i r) := by
  have h₁ := h.heap_le
  refine ⟨?_, ?_, ?_⟩
  · rw [heapEnd_insertPage h]
    omega
  · rw [heapEnd_insertPage h, itemCount_insertPage h]
    omega
  · rw [heapEnd_insertPage h, slots_insertPage h hr hi]
    exact h.packed.insertIdx (by rwa [length_slots]) (by omega) h₁

theorem insertPage_sameHeader
    (hr : r.length + 4 ≤ heapEnd p - (32 + 4 * itemCount p)) : SameHeader p (insertPage p i r) := by
  refine SameHeader.write_u16 (((SameHeader.write ?_ ?_).write ?_).write ?_) (Or.inl rfl)
  · exact ((SameHeader.refl p).write (by omega)).write_u16 (Or.inr rfl)
  all_goals omega

end Insert

/-! ## Update -/

/-- The page after an update that writes over the old record. -/
def overwritePage (p : Page) (i : ℕ) (r : Bytes) : Page :=
  let q := p.write (slotAt p i).1 r
  if r.length < (slotAt p i).2 then writeSlot q i (slotAt p i).1 r.length else q

/-- The page after an update that moves the record below the data heap. -/
def relocatePage (p : Page) (i : ℕ) (r : Bytes) : Page :=
  (writeSlot (p.write (heapEnd p - r.length) r) i (heapEnd p - r.length) r.length).write 22
    (leBytes 2 (heapEnd p - r.length))

/-- The page after a successful update. -/
def updatePage (p : Page) (i : ℕ) (r : Bytes) : Page :=
  if r.length ≤ (slotAt p i).2 then overwritePage p i r else relocatePage p i r

/-- An update of record `i` by `r` has the room it needs. -/
def UpdateFits (p : Page) (i : ℕ) (r : Bytes) : Prop :=
  r.length ≤ (slotAt p i).2 ∨ r.length ≤ heapEnd p - (32 + 4 * itemCount p)

theorem tryUpdateRecord_invalid {i : ℕ} (hi : itemCount p ≤ i) (r : Bytes) :
    tryUpdateRecord p i r = .ret (.error .invalidSlotIndex, p) := by
  rw [tryUpdateRecord, tryUpdateRecordWith, getItemCount_eq, Exec.ret_bind, if_pos hi]
  rfl

section Update

variable {i : ℕ} {r : Bytes}

theorem tryUpdateRecord_full (h : WF p) (hi : i < itemCount p) (hr : ¬ UpdateFits p i r) :
    tryUpdateRecord p i r = .ret (.error .pageFull, p) := by
  have := h.count_le
  unfold UpdateFits at hr
  rw [tryUpdateRecord, tryUpdateRecordWith, getItemCount_eq, Exec.ret_bind, if_neg (by omega), getSlot_eq (by omega),
    Exec.ret_bind]
  dsimp only
  rw [if_neg (by omega), getFreeSpaceContiguous_eq h, Exec.ret_bind, if_pos (by omega)]
  rfl

theorem tryUpdateRecord_ok (h : WF p) (hi : i < itemCount p) (hr : UpdateFits p i r) :
    tryUpdateRecord p i r = .ret (.ok i, updatePage p i r) := by
  have h₁ := h.count_le
  have h₂ := h.slot_inside hi
  have h₃ := h.heap_le
  have h₄ := h.slots_le
  rw [tryUpdateRecord, tryUpdateRecordWith, getItemCount_eq, Exec.ret_bind, if_neg (by omega), getSlot_eq (by omega),
    Exec.ret_bind]
  dsimp only
  unfold updatePage
  by_cases hle : r.length ≤ (slotAt p i).2
  · rw [if_pos hle, if_pos hle]
    have hw : p.copyFromSlice (slotAt p i).1 ((slotAt p i).1 + r.length) r =
        .ret (p.write (slotAt p i).1 r) := Buffer.copyFromSlice_eq p rfl (by omega)
    have ho : castU16 (slotAt p i).1 = .ret (slotAt p i).1 := castU16_of_lt (by omega)
    have hl : castU16 r.length = .ret r.length := castU16_of_lt (by omega)
    rw [hw, Exec.ret_bind, ho, Exec.ret_bind, hl, Exec.ret_bind, setSlot_eq (by omega)]
    unfold overwritePage
    split_ifs <;> rfl
  · rw [if_neg hle, if_neg hle]
    have hr' : r.length ≤ heapEnd p - (32 + 4 * itemCount p) := hr.resolve_left hle
    have hl : castU16 r.length = .ret r.length := castU16_of_lt (by omega)
    have hw : p.copyFromSlice (heapEnd p - r.length) (heapEnd p - r.length + r.length) r =
        .ret (p.write (heapEnd p - r.length) r) := Buffer.copyFromSlice_eq p rfl (by omega)
    rw [getFreeSpaceContiguous_eq h, Exec.ret_bind, if_neg (by omega),
      getPageHeaderU16Value_eq (by decide), Exec.ret_bind, hl, Exec.ret_bind]
    change (Exec.sub (heapEnd p) r.length >>= _) = _
    rw [Exec.sub_of_le (by omega), Exec.ret_bind, hw, Exec.ret_bind, Exec.ret_bind, setSlot_eq (by omega),
      Exec.ret_bind, setPageHeaderU16Value_eq (by decide)]
    rfl

theorem slotAt_overwritePage (h : WF p) (hi : i < itemCount p) (hle : r.length ≤ (slotAt p i).2)
    {j : ℕ} (hj : j < itemCount p) :
    slotAt (overwritePage p i r) j = if j = i then ((slotAt p i).1, r.length) else slotAt p j := by
  have h₁ := h.count_le
  have h₂ := h.slot_inside hi
  have h₃ := h.slots_le
  have hs : ∀ j, j < itemCount p → slotAt (p.write (slotAt p i).1 r) j = slotAt p j := by
    intro j hj
    rw [slotAt, u16At_write_disjoint (Or.inl (by omega)), u16At_write_disjoint (Or.inl (by omega)),
      slotAt]
  unfold overwritePage
  dsimp only
  split_ifs with hlt hji hji
  · rw [slotAt_writeSlot (by omega) (by omega) (by omega), if_pos hji]
  · rw [slotAt_writeSlot (by omega) (by omega) (by omega), if_neg hji, hs j hj]
  · rw [hs j hj, hji, show r.length = (slotAt p i).2 by omega]
  · exact hs j hj

theorem u16At_overwritePage (h : WF p) (hi : i < itemCount p) {o : ℕ} (ho : o + 2 ≤ 32) :
    u16At (overwritePage p i r) o = u16At p o := by
  have h₁ := h.slot_inside hi
  have h₂ := h.slots_le
  unfold overwritePage
  dsimp only
  split_ifs
  · rw [u16At_writeSlot ho, u16At_write_disjoint (Or.inl (by omega))]
  · rw [u16At_write_disjoint (Or.inl (by omega))]

theorem recordAt_overwritePage (h : WF p) (hi : i < itemCount p) {s : ℕ × ℕ}
    (hs : heapEnd p ≤ s.1) :
    recordAt (overwritePage p i r) s = recordAt (p.write (slotAt p i).1 r) s := by
  have h₁ := h.slots_le
  unfold overwritePage
  dsimp only
  split_ifs
  · exact recordAt_writeSlot (by omega)
  · rfl

theorem slots_overwritePage (h : WF p) (hi : i < itemCount p) (hle : r.length ≤ (slotAt p i).2) :
    slots (overwritePage p i r) = (slots p).set i ((slotAt p i).1, r.length) :=
  slots_set (u16At_overwritePage h hi (by decide)) fun _ hj => slotAt_overwritePage h hi hle hj

theorem recordsOf_overwritePage (h : WF p) (hi : i < itemCount p)
    (hle : r.length ≤ (slotAt p i).2) :
    recordsOf (overwritePage p i r) = (recordsOf p).set i r := by
  have h₁ := h.slot_inside hi
  refine recordsOf_set (slots_overwritePage h hi hle) ?_ fun j hj hji => ?_
  · rw [recordAt_overwritePage h hi (s := ((slotAt p i).1, r.length)) h₁.1]
    exact recordAt_write_same (by omega) rfl
  · rw [recordAt_overwritePage h hi (h.slot_inside hj).1]
    have := h.slot_apart hj hi hji
    unfold Apart at this
    exact recordAt_write_disjoint (by omega)

theorem overwritePage_wf (h : WF p) (hi : i < itemCount p) (hle : r.length ≤ (slotAt p i).2) :
    WF (overwritePage p i r) := by
  have hn : itemCount (overwritePage p i r) = itemCount p := u16At_overwritePage h hi (by decide)
  have hh : heapEnd (overwritePage p i r) = heapEnd p := u16At_overwritePage h hi (by decide)
  have hi' : i < (slots p).length := by rwa [length_slots]
  refine ⟨by rw [hh]; exact h.heap_le, by rw [hh, hn]; exact h.slots_le, ?_⟩
  rw [hh, slots_overwritePage h hi hle, ← getElem_slots hi']
  exact h.packed.set_shrink hi' (by rwa [getElem_slots])

theorem overwritePage_sameHeader (h : WF p) (hi : i < itemCount p) :
    SameHeader p (overwritePage p i r) := by
  have h₁ := h.slot_inside hi
  have h₂ := h.slots_le
  unfold overwritePage writeSlot
  dsimp only
  split_ifs
  · exact (((SameHeader.refl p).write (by omega)).write (by omega)).write (by omega)
  · exact (SameHeader.refl p).write (by omega)

section Relocate

variable (h : WF p) (hi : i < itemCount p) (hr : r.length ≤ heapEnd p - (32 + 4 * itemCount p))

include h hi hr

theorem slots_relocatePage :
    slots (relocatePage p i r) = (slots p).set i (heapEnd p - r.length, r.length) := by
  have h₁ := h.count_le
  have h₂ := h.heap_le
  have h₃ := h.slots_le
  refine slots_set ?_ fun j hj => ?_
  · unfold itemCount relocatePage
    rw [u16At_write_disjoint (Or.inl (by decide)), u16At_writeSlot (by decide),
      u16At_write_disjoint (Or.inl (by omega))]
  · have hd : slotAt (relocatePage p i r) j = slotAt (writeSlot (p.write (heapEnd p - r.length) r)
        i (heapEnd p - r.length) r.length) j := by
      unfold relocatePage slotAt
      simp (disch := (try simp only [length_leBytes]); omega) only [u16At_write_disjoint]
    rw [hd, slotAt_writeSlot (by omega) (by omega) (by omega)]
    split_ifs
    · rfl
    · unfold slotAt
      simp (disch := omega) only [u16At_write_disjoint]

omit hi hr in
theorem heapEnd_relocatePage : heapEnd (relocatePage p i r) = heapEnd p - r.length := by
  have := h.heap_le
  exact u16At_write_same (by decide) (by omega)

theorem itemCount_relocatePage : itemCount (relocatePage p i r) = itemCount p := by
  rw [← length_slots, slots_relocatePage h hi hr, List.length_set, length_slots]

theorem recordAt_relocatePage {s : ℕ × ℕ} (hs : heapEnd p - r.length ≤ s.1) :
    recordAt (relocatePage p i r) s = recordAt (p.write (heapEnd p - r.length) r) s := by
  have h₁ := h.slots_le
  have hd (q : Page) : recordAt (q.write 22 (leBytes 2 (heapEnd p - r.length))) s = recordAt q s :=
    recordAt_write_disjoint (by rw [length_leBytes]; omega)
  rw [relocatePage, hd, recordAt_writeSlot (by omega)]

theorem recordsOf_relocatePage : recordsOf (relocatePage p i r) = (recordsOf p).set i r := by
  have h₁ := h.heap_le
  refine recordsOf_set (slots_relocatePage h hi hr) ?_ fun j hj _ => ?_
  · rw [recordAt_relocatePage h hi hr le_rfl]
    exact recordAt_write_same (by omega) rfl
  · have hin := h.slot_inside hj
    rw [recordAt_relocatePage h hi hr (by omega)]
    exact recordAt_write_disjoint (by omega)

theorem relocatePage_wf : WF (relocatePage p i r) := by
  have h₁ := h.heap_le
  have h₂ := h.slots_le
  refine ⟨?_, ?_, ?_⟩
  · rw [heapEnd_relocatePage h]
    omega
  · rw [heapEnd_relocatePage h, itemCount_relocatePage h hi hr]
    omega
  · rw [heapEnd_relocatePage h, slots_relocatePage h hi hr]
    exact h.packed.set_below (by rwa [length_slots]) (by omega) h₁

omit hi in
theorem relocatePage_sameHeader : SameHeader p (relocatePage p i r) := by
  have h₁ := h.slots_le
  refine SameHeader.write_u16 (((SameHeader.write (SameHeader.refl p) ?_).write ?_).write ?_)
    (Or.inr rfl)
  all_goals omega

end Relocate

/-- **An update replaces one record.** -/
theorem recordsOf_updatePage (h : WF p) (hi : i < itemCount p) (hr : UpdateFits p i r) :
    recordsOf (updatePage p i r) = (recordsOf p).set i r := by
  unfold updatePage
  split_ifs with hle
  · exact recordsOf_overwritePage h hi hle
  · exact recordsOf_relocatePage h hi (hr.resolve_left hle)

theorem updatePage_wf (h : WF p) (hi : i < itemCount p) (hr : UpdateFits p i r) :
    WF (updatePage p i r) := by
  unfold updatePage
  split_ifs with hle
  · exact overwritePage_wf h hi hle
  · exact relocatePage_wf h hi (hr.resolve_left hle)

theorem updatePage_sameHeader (h : WF p) (hi : i < itemCount p) (hr : UpdateFits p i r) :
    SameHeader p (updatePage p i r) := by
  unfold updatePage
  split_ifs with hle
  · exact overwritePage_sameHeader h hi
  · exact relocatePage_sameHeader h (hr.resolve_left hle)

end Update

/-! ## Deletion -/

/-- The page after the deletion of record `i`. -/
def deletePage (p : Page) (i : ℕ) : Page :=
  (p.write (32 + i * 4) (p.read (32 + i * 4 + 4) ((itemCount p - (i + 1)) * 4))).write 20
    (leBytes 2 (itemCount p - 1))

theorem deleteRecord_ignored {i : ℕ} (hi : itemCount p ≤ i) : deleteRecord p i = .ret p := by
  rw [deleteRecord, getItemCount_eq, Exec.ret_bind, if_pos hi]
  rfl

section Delete

variable {i : ℕ} (h : WF p) (hi : i < itemCount p)

include h hi

theorem deleteRecord_eq : deleteRecord p i = .ret (deletePage p i) := by
  have h₁ := h.count_le
  have hshift : (if itemCount p * 4 - (i + 1) * 4 > 0 then
      p.copyWithin (32 + i * 4 + 4) (32 + i * 4 + 4 + (itemCount p * 4 - (i + 1) * 4)) (32 + i * 4)
      else pure p) =
        .ret (p.write (32 + i * 4) (p.read (32 + i * 4 + 4) ((itemCount p - (i + 1)) * 4))) := by
    rw [Nat.sub_mul]
    split_ifs with hc
    · exact Buffer.copyWithin_eq p (by omega) (by omega)
    · rw [show itemCount p * 4 - (i + 1) * 4 = 0 by omega]
      exact congrArg Exec.ret (Buffer.write_nil p _).symm
  rw [deleteRecord, getItemCount_eq, Exec.ret_bind, if_neg (by omega)]
  simp only [slotSize, pageHeaderSize]
  rw [Exec.sub_of_le (by omega), Exec.ret_bind, hshift, Exec.ret_bind, Exec.sub_of_le (by omega),
    Exec.ret_bind, setPageHeaderU16Value_eq (by decide)]
  rfl

theorem itemCount_deletePage : itemCount (deletePage p i) = itemCount p - 1 := by
  have := h.count_le
  exact u16At_write_same (by decide) (by omega)

omit h hi in
theorem heapEnd_deletePage : heapEnd (deletePage p i) = heapEnd p := by
  unfold heapEnd deletePage
  rw [u16At_write_disjoint (Or.inr (by rw [length_leBytes])), u16At_write_disjoint
    (Or.inl (by omega))]

theorem slots_deletePage : slots (deletePage p i) = (slots p).eraseIdx i := by
  have h₁ := h.count_le
  have hi' : i < (slots p).length := by rwa [length_slots]
  refine slots_eq ?_ fun j hj => ?_
  · rw [itemCount_deletePage h hi, List.length_eraseIdx_of_lt hi', length_slots]
  · rw [List.length_eraseIdx_of_lt hi', length_slots] at hj
    rw [List.getElem_eraseIdx]
    unfold slotAt deletePage
    split_ifs with hji
    · simp (disch := (try simp only [length_leBytes, Buffer.length_read]); omega) only
        [u16At_write_disjoint]
      rw [getElem_slots, slotAt]
    · simp (disch := (try simp only [length_leBytes, Buffer.length_read]); omega) only
        [u16At_write_disjoint]
      rw [u16At_write_read (by omega) (by omega) (by omega),
        u16At_write_read (by omega) (by omega) (by omega), getElem_slots, slotAt]
      congr 2 <;> omega

omit hi in
theorem recordAt_deletePage (hi : i < itemCount p) {s : ℕ × ℕ} (hs : heapEnd p ≤ s.1) :
    recordAt (deletePage p i) s = recordAt p s := by
  have h₁ := h.slots_le
  unfold deletePage
  simp (disch := (try simp only [length_leBytes, Buffer.length_read]); omega) only
    [recordAt_write_disjoint]

/-- **A deletion erases one record.** -/
theorem recordsOf_deletePage : recordsOf (deletePage p i) = (recordsOf p).eraseIdx i := by
  rw [recordsOf, slots_deletePage h hi, recordsOf, ← List.eraseIdx_map]
  congr 1
  exact List.map_congr_left fun s hs => recordAt_deletePage h hi (h.packed.inside s hs).1

theorem deletePage_wf : WF (deletePage p i) := by
  have h₁ := h.slots_le
  refine ⟨?_, ?_, ?_⟩
  · rw [heapEnd_deletePage]
    exact h.heap_le
  · rw [heapEnd_deletePage, itemCount_deletePage h hi]
    omega
  · rw [heapEnd_deletePage, slots_deletePage h hi]
    exact h.packed.eraseIdx i

end Delete

end RarmDb.Page
