import RarmDb.Page.Ops

/-!
# Compaction

`compact` copies the records of a fragmented page into one block and writes them back from the
end of the page downwards. The invariant of the rewriting loop, `Rewritten`, is that the first `j`
slots are stacked below the end of the page and hold the first `j` records, and that the other
slots are still the old ones.

* `rewritten_step`, `compactBlock_eq`: the two loops;
* **`compact_spec`**: compaction keeps the records and leaves one free block.
-/

namespace RarmDb.Page

variable {p : Page}

/-- The sizes of the records of `p`. -/
def sizes (p : Page) : List ℕ := (slots p).map Prod.snd

theorem length_sizes (p : Page) : (sizes p).length = itemCount p := by
  rw [sizes, List.length_map, length_slots]

theorem sum_sizes (p : Page) : (sizes p).sum = total (slots p) := rfl

theorem compactBlock_eq (h : WF p) : (List.range (itemCount p)).foldlM
    (fun block i => do
      let record ← getRecord p i
      let recordData ← Exec.unwrap record
      return block ++ recordData) [] = .ret (recordsOf p).flatten := by
  rw [Exec.foldlM_ret (g := fun block i => block ++ recordAt p (slotAt p i)) fun i hi b => by
    rw [getRecord_eq h (List.mem_range.mp hi), Exec.ret_bind, Exec.unwrap_some, Exec.ret_bind,
      Exec.pure_eq]]
  have key : ∀ (l : List ℕ) (b : Bytes), l.foldl (fun block i => block ++ recordAt p (slotAt p i)) b
      = b ++ (l.map fun i => recordAt p (slotAt p i)).flatten := by
    intro l
    induction l with
    | nil => simp
    | cons i l ih => intro b; simp [ih]
  rw [key, List.nil_append, recordsOf, slots, List.map_map]
  rfl

/-- The state of the second loop after `j` turns. -/
structure Rewritten (p : Page) (j : ℕ) (q : Page) : Prop where
  header : SameHeader p q
  count : itemCount q = itemCount p
  slots_eq : slots q = stackDown 8192 ((sizes p).take j) ++ (slots p).drop j
  records : (stackDown 8192 ((sizes p).take j)).map (recordAt q) = (recordsOf p).take j

theorem sum_take_le (h : WF p) (j : ℕ) : ((sizes p).take j).sum ≤ 8192 - heapEnd p := by
  have h₁ := h.total_le
  have h₂ : ((sizes p).take j).sum + ((sizes p).drop j).sum = (sizes p).sum :=
    List.sum_take_add_sum_drop ..
  rw [sum_sizes] at h₂
  omega

theorem sum_take_succ {j : ℕ} (hj : j < itemCount p) :
    ((sizes p).take (j + 1)).sum = ((sizes p).take j).sum + (slotAt p j).2 := by
  have hj' : j < (sizes p).length := by rwa [length_sizes]
  rw [List.take_add_one, List.getElem?_eq_getElem hj', Option.toList_some, List.sum_append,
    List.sum_singleton]
  simp only [sizes, List.getElem_map, getElem_slots]

theorem stackDown_take_succ {j : ℕ} (hj : j < itemCount p) :
    stackDown 8192 ((sizes p).take (j + 1)) = stackDown 8192 ((sizes p).take j) ++
      [(8192 - ((sizes p).take (j + 1)).sum, (slotAt p j).2)] := by
  have hj' : j < (sizes p).length := by rwa [length_sizes]
  have he : (sizes p)[j] = (slotAt p j).2 := by simp only [sizes, List.getElem_map, getElem_slots]
  rw [sum_take_succ hj, List.take_add_one, List.getElem?_eq_getElem hj', Option.toList_some, he,
    stackDown_append, stackDown, stackDown, Nat.sub_sub]

/-- **One turn of the rewriting loop.** -/
theorem rewritten_step (h : WF p) {j : ℕ} (hj : j < itemCount p) {q : Page}
    (hq : Rewritten p j q) : ∃ q',
    compactStep (recordsOf p).flatten
      (q, 8192 - ((sizes p).take j).sum, ((sizes p).take j).sum) j =
        .ret (q', 8192 - ((sizes p).take (j + 1)).sum, ((sizes p).take (j + 1)).sum) ∧
      Rewritten p (j + 1) q' := by
  have h₁ := h.count_le
  have h₂ := h.slots_le
  have h₃ := h.heap_le
  have hs := sum_take_succ hj
  have hle := sum_take_le h (j + 1)
  have hlen : (stackDown 8192 ((sizes p).take j)).length = j := by
    rw [length_stackDown, List.length_take, length_sizes]
    omega
  -- slot `j` is still the old one
  have hslot : slotAt q j = slotAt p j := by
    have hj₁ : j < (slots q).length := by rwa [length_slots, hq.count]
    have hj₂ : j < (slots p).length := by rwa [length_slots]
    have e : (slots q)[j]? = some (slotAt p j) := by
      rw [hq.slots_eq, List.getElem?_append_right (by omega), hlen, Nat.sub_self,
        List.getElem?_drop, Nat.add_zero, List.getElem?_eq_getElem hj₂, getElem_slots]
    rw [List.getElem?_eq_getElem hj₁, getElem_slots] at e
    exact Option.some.inj e
  -- the record to write is the next piece of the block
  have hrec : sliceOf (recordsOf p).flatten ((sizes p).take j).sum
      (((sizes p).take j).sum + (slotAt p j).2) = .ret (recordAt p (slotAt p j)) := by
    have hj' : j < (recordsOf p).length := by rwa [length_recordsOf]
    have hflat : (recordsOf p).flatten = ((recordsOf p).take j).flatten ++
        recordAt p (slotAt p j) ++ ((recordsOf p).drop (j + 1)).flatten := by
      rw [← getElem_recordsOf hj', List.append_assoc, ← List.flatten_cons,
        List.getElem_cons_drop hj', ← List.flatten_append, List.take_append_drop]
    have hl : ((recordsOf p).take j).flatten.length = ((sizes p).take j).sum := by
      rw [List.length_flatten, List.map_take, map_length_recordsOf, sizes]
    exact sliceOf_eq hflat hl.symm (by rw [hl, length_recordAt])
  refine ⟨writeSlot (q.write (8192 - ((sizes p).take (j + 1)).sum) (recordAt p (slotAt p j))) j
    (8192 - ((sizes p).take (j + 1)).sum) (slotAt p j).2, ?_, ?_, ?_, ?_, ?_⟩
  · have hw (off : ℕ) (ho : off + (slotAt p j).2 ≤ 8192) :
        q.copyFromSlice off (off + (slotAt p j).2) (recordAt p (slotAt p j)) =
          .ret (q.write off (recordAt p (slotAt p j))) :=
      Buffer.copyFromSlice_eq q (length_recordAt _) ho
    have ho : castU16 (8192 - ((sizes p).take (j + 1)).sum) = .ret (8192 - ((sizes p).take (j + 1)).sum) :=
      castU16_of_lt (by omega)
    have hl : castU16 (slotAt p j).2 = .ret (slotAt p j).2 := castU16_of_lt (by omega)
    rw [compactStep, compactStepWith, getSlot_eq (by omega), Exec.ret_bind, hslot]
    dsimp only
    rw [hrec, Exec.ret_bind, Exec.sub_of_le (by omega), Exec.ret_bind, Nat.sub_sub, ← hs,
      hw _ (by omega), Exec.ret_bind, ho, Exec.ret_bind, hl, Exec.ret_bind, setSlot_eq (by omega), Exec.ret_bind,
      Exec.pure_eq]
  · exact ((hq.header.write (by omega)).write (by omega)).write (by omega)
  · rw [itemCount, u16At_writeSlot (by decide), u16At_write_disjoint (Or.inl (by omega))]
    exact hq.count
  · have hset : slots (writeSlot (q.write (8192 - ((sizes p).take (j + 1)).sum)
        (recordAt p (slotAt p j))) j (8192 - ((sizes p).take (j + 1)).sum) (slotAt p j).2) =
          (slots q).set j (8192 - ((sizes p).take (j + 1)).sum, (slotAt p j).2) := by
      refine slots_set ?_ fun k hk => ?_
      · rw [itemCount, u16At_writeSlot (by decide), u16At_write_disjoint (Or.inl (by omega))]
        rfl
      · rw [hq.count] at hk
        rw [slotAt_writeSlot (by omega) (by omega) (by omega)]
        split_ifs
        · rfl
        · rw [slotAt, u16At_write_disjoint (Or.inl (by omega)),
            u16At_write_disjoint (Or.inl (by omega)), slotAt]
    have hj' : j < (slots p).length := by rwa [length_slots]
    rw [hset, hq.slots_eq, List.set_append_right _ _ (by omega), hlen, Nat.sub_self,
      ← List.getElem_cons_drop hj', List.set_cons_zero, stackDown_take_succ hj, List.append_assoc,
      List.singleton_append]
  · have hj' : j < (recordsOf p).length := by rwa [length_recordsOf]
    have htake : (recordsOf p).take (j + 1) = (recordsOf p).take j ++ [recordAt p (slotAt p j)] := by
      rw [List.take_add_one, List.getElem?_eq_getElem hj', getElem_recordsOf, Option.toList_some]
    have hin : Packed (8192 - ((sizes p).take j).sum) 8192 (stackDown 8192 ((sizes p).take j)) :=
      packed_stackDown (by omega)
    rw [stackDown_take_succ hj, List.map_append, List.map_singleton, recordAt_writeSlot (by
      dsimp only; omega), htake, ← hq.records]
    refine congrArg₂ (· ++ ·) ?_ ?_
    · refine List.map_congr_left fun s hmem => ?_
      have := hin.inside s hmem
      rw [recordAt_writeSlot (by omega), recordAt_write_disjoint (by rw [length_recordAt]; omega)]
    · have hl : (slotAt p j).2 = (recordAt p (slotAt p j)).length := (length_recordAt _).symm
      rw [recordAt_write_same (by omega) hl]

theorem rewritten_loop (h : WF p) : ∃ q,
    (List.range (itemCount p)).foldlM (compactStep (recordsOf p).flatten) (p, 8192, 0) =
        .ret (q, 8192 - total (slots p), total (slots p)) ∧
      Rewritten p (itemCount p) q := by
  let I (l : List ℕ) (s : Page × ℕ × ℕ) : Prop := ∃ j q, j ≤ itemCount p ∧
    l = List.range' j (itemCount p - j) ∧ Rewritten p j q ∧
      s = (q, 8192 - ((sizes p).take j).sum, ((sizes p).take j).sum)
  have hstep : ∀ i l s, I (i :: l) s → ∃ s',
      compactStep (recordsOf p).flatten s i = .ret s' ∧ I l s' := by
    rintro i l s ⟨j, q, hj, hl, hq, rfl⟩
    obtain ⟨m, hm⟩ : ∃ m, itemCount p - j = m + 1 := by
      cases hm : itemCount p - j with
      | zero => rw [hm] at hl; exact absurd hl (List.cons_ne_nil _ _)
      | succ m => exact ⟨m, rfl⟩
    rw [hm, List.range'_succ] at hl
    obtain ⟨rfl, rfl⟩ := List.cons.inj hl
    obtain ⟨q', hq', hr⟩ := rewritten_step h (by omega) hq
    exact ⟨_, hq', i + 1, q', by omega, by rw [show itemCount p - (i + 1) = m by omega], hr, rfl⟩
  have hinit : I (List.range (itemCount p)) (p, 8192, 0) :=
    ⟨0, p, Nat.zero_le _, by rw [List.range_eq_range', Nat.sub_zero],
      ⟨SameHeader.refl p, rfl, by simp [stackDown], by simp [stackDown]⟩, by simp⟩
  obtain ⟨s', hs', j, q, hj, hl, hq, rfl⟩ := Exec.foldlM_inv I hstep _ _ hinit
  have hj' : j = itemCount p := by
    have := congrArg List.length hl
    rw [List.length_range', List.length_nil] at this
    omega
  subst hj'
  rw [← length_sizes p, List.take_length, sum_sizes] at hs'
  exact ⟨q, by rwa [length_sizes] at hs', hq⟩

/-- **Compaction keeps the records.** A page with garbage gets its records stacked at the end of
the page; a page without garbage is left alone. -/
theorem compact_spec (h : WF p) : ∃ q, compact p = .ret q ∧ WF q ∧
    recordsOf q = recordsOf p ∧ SameHeader p q ∧ heapEnd q = 8192 - total (slots p) ∧
      (heapEnd p = 8192 - total (slots p) → q = p) ∧
        (heapEnd p ≠ 8192 - total (slots p) → slots q = stackDown 8192 (sizes p)) := by
  have h₁ := h.heap_le
  have h₂ := h.slots_le
  have h₃ := h.total_le
  rw [compact, compactWith, getFreeSpace_eq h, Exec.ret_bind, getFreeSpaceContiguous_eq h, Exec.ret_bind]
  by_cases hfree : 8160 - 4 * itemCount p - total (slots p) = heapEnd p - (32 + 4 * itemCount p)
  · rw [if_pos hfree]
    exact ⟨p, rfl, h, rfl, SameHeader.refl p, by omega, fun _ => rfl, fun hne => by omega⟩
  · obtain ⟨q, hloop, hq⟩ := rewritten_loop h
    rw [if_neg hfree, getItemCount_eq, Exec.ret_bind]
    simp only [pageSize, pageHeaderSize, slotSize]
    rw [Exec.sub_of_le (by omega), Exec.ret_bind, Exec.sub_of_le (by omega), Exec.ret_bind]
    have hsizes : (sizes p).take (itemCount p) = sizes p := by
      rw [← length_sizes p, List.take_length]
    have hslots : slots q = stackDown 8192 (sizes p) := by
      rw [hq.slots_eq, hsizes, ← length_slots p, List.drop_length, List.append_nil]
    have hcur : castU16 (8192 - total (slots p)) = .ret (8192 - total (slots p)) := castU16_of_lt (by omega)
    have hloop' : (List.range (itemCount p)).foldlM (compactStepWith castU16 (recordsOf p).flatten) (p, 8192, 0) =
        .ret (q, 8192 - total (slots p), total (slots p)) := hloop
    simp only [compactBlock_eq h, hloop', Exec.ret_bind, hcur]
    rw [Buffer.fill_eq _ (by omega), Exec.ret_bind, setPageHeaderU16Value_eq (by decide)]
    set free := 8160 - 4 * itemCount p - total (slots p) with hf
    set q' := (Buffer.write q (32 + itemCount p * 4) (List.replicate free 0)).write 22
      (leBytes 2 (8192 - total (slots p))) with hq'
    have hheap : heapEnd q' = 8192 - total (slots p) := u16At_write_same (by decide) (by omega)
    have hcount : itemCount q' = itemCount p := by
      rw [itemCount, hq', u16At_write_disjoint (Or.inl (by decide)),
        u16At_write_disjoint (Or.inl (by omega))]
      exact hq.count
    have hslots' : slots q' = stackDown 8192 (sizes p) := by
      rw [← hslots]
      refine Page.slots_eq (by rw [hcount, length_slots, hq.count]) fun i hi => ?_
      rw [length_slots, hq.count] at hi
      rw [getElem_slots, hq', slotAt]
      simp (disch := (try simp only [length_leBytes]); omega) only [u16At_write_disjoint]
      rfl
    have hsum : (sizes p).sum ≤ 8192 := by
      rw [sum_sizes]
      omega
    have hpack : Packed (8192 - total (slots p)) 8192 (stackDown 8192 (sizes p)) :=
      packed_stackDown hsum
    refine ⟨q', rfl, ⟨by omega, by omega, by rwa [hheap, hslots']⟩, ?_, ?_, hheap,
      fun he => by omega, fun _ => hslots'⟩
    · rw [recordsOf, hslots']
      have hrec := hq.records
      rw [hsizes, ← length_recordsOf p, List.take_length] at hrec
      rw [← hrec]
      refine List.map_congr_left fun s hs => ?_
      have := (hpack.inside s hs).1
      rw [hq', recordAt_write_disjoint (Or.inr (by rw [length_leBytes]; omega)),
        recordAt_write_disjoint (Or.inr (by rw [List.length_replicate]; omega))]
    · exact (hq.header.write (by omega)).write_u16 (Or.inr rfl)

end RarmDb.Page
