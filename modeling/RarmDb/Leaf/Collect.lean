import RarmDb.Leaf.Accept
import RarmDb.Leaf.Append

/-!
# What a split collects

A page is seen as a list of items; `key` is the key that the code decodes from an item's record, and
`bytes` are the bytes of the record.

* `Decodes`: the items of a page, in key order;
* `countedBytes`: the total that the split index is computed from;
* **`splitLoop_collects`**: the collecting loop of `split_and_insert`;
* `SplitAt`: the split index, **`splitIndexLoop_spec`**, `SplitAt.unique`.
-/

namespace RarmDb

open RecordSerializer SortedMap Page LeafNodeView

variable {D : Type} [RustDecimal D] {α : Type}

/-- The items of the page, slot by slot. Their keys increase strictly. -/
structure Decodes (td : TableDefinition) (p : Page) (key : α → Key D) (bytes : α → Bytes)
    (xs : List α) : Prop where
  count : p.itemCount = xs.length
  getRecord : ∀ i (hi : i < xs.length), p.getRecord i = .ret (some (bytes xs[i]))
  decode : ∀ x ∈ xs, deserializePrimaryKey td (bytes x) = .ret (.ok (key x))
  sorted : Sorted Key.cmp (xs.map key)

theorem StoresKeys.decodes {td : TableDefinition} {p : Page} {es : List (Key D × Bytes)}
    (h : StoresKeys td p es) : Decodes td p Prod.fst Prod.snd es where
  count := h.count
  getRecord _ hi := h.getRecord hi
  decode := h.decode
  sorted := h.sorted

theorem LeafNodeView.Holds.decodes [DecimalCodec D] {td : TableDefinition} {pk : List String} {p : Page}
    {rs : List (Record D)} (h : Holds td pk p rs) (hk : td.Keyed pk)
    (hs : Sorted Key.cmp (rs.map (keyOf td pk))) : Decodes td p (keyOf td pk) encode rs where
  count := h.count
  getRecord _ hi := h.getRecord hi
  decode _ hx := h.deserializePrimaryKey_eq hk hx
  sorted := hs

namespace LeafNodeView

/-! ## The collecting loop -/

section Collect

/-- The bytes that the split index is computed from. A new item with the largest key is not
counted. -/
def countedBytes (key : α → Key D) (bytes : α → Bytes) (xs : List α) (x : α) : ℕ :=
  bytesOf (xs.map bytes) + if (upper Key.cmp key xs (key x)).isEmpty then 0 else (bytes x).length

theorem bytesOf_place [DecimalOrder D] {key : α → Key D} {xs : List α} {x : α} (bytes : α → Bytes)
    (hs : Sorted Key.cmp (xs.map key)) (habs : ∀ a ∈ xs, (key x).cmp (key a) ≠ .eq) :
    bytesOf ((place Key.cmp key xs x).map bytes) = bytesOf (xs.map bytes) + (bytes x).length := by
  conv_rhs => rw [← lower_append_upper hs habs]
  rw [place, List.map_append, List.map_append, List.map_cons, bytesOf_append, bytesOf_append, bytesOf_cons]
  omega

theorem countedBytes_le [DecimalOrder D] {key : α → Key D} {xs : List α} {x : α} (bytes : α → Bytes)
    (hs : Sorted Key.cmp (xs.map key)) (habs : ∀ a ∈ xs, (key x).cmp (key a) ≠ .eq) :
    countedBytes key bytes xs x ≤ bytesOf ((place Key.cmp key xs x).map bytes) := by
  rw [bytesOf_place bytes hs habs, countedBytes]
  split_ifs <;> omega

/-- The collected state with these items. -/
def collected (key : α → Key D) (bytes : α → Bytes) (done : List α) (newRecordInserted : Bool)
    (totalSize : ℕ) : SplitState D where
  sortedKeys := done.map key
  sortedRecords := done.map bytes
  sortedKeyIndex := done.length
  newRecordInserted := newRecordInserted
  totalSize := totalSize

variable {td : TableDefinition} {p : Page} {key : α → Key D} {bytes : α → Bytes}
  {xs pre rest : List α} {x y : α}

omit [RustDecimal D] in
theorem collected_insert (done : List α) (ins : Bool) (total : ℕ) (x : α) :
    (collected key bytes done ins total).insert (key x) (bytes x) =
      .ret { collected key bytes (done ++ [x]) ins total with sortedKeyIndex := done.length } := by
  have h₁ := Record.vecInsert_length (done.map key) (key x)
  have h₂ := Record.vecInsert_length (done.map bytes) (bytes x)
  rw [List.length_map] at h₁ h₂
  simp only [SplitState.insert, collected, h₁, h₂, Exec.ret_bind, Exec.pure_eq, List.map_append,
    List.map_cons, List.map_nil]

theorem splitStep_eq (hkey : deserializePrimaryKey td (bytes y) = .ret (.ok (key y)))
    (done : List α) (ins : Bool) (total : ℕ) :
    splitStep td (key x) (bytes x) (bytes y) (collected key bytes done ins total) =
      .ret (if !ins && (key x).cmp (key y) = .lt then
          collected key bytes (done ++ [x, y]) true
            (total + (bytes y).length + (bytes x).length)
        else collected key bytes (done ++ [y]) ins (total + (bytes y).length)) := by
  have hins : ∀ (done : List α) (ins : Bool) (total : ℕ) (x : α),
      SplitState.insert ⟨done.map key, done.map bytes, done.length, ins, total⟩ (key x) (bytes x) =
      .ret { collected key bytes (done ++ [x]) ins total with
        sortedKeyIndex := done.length } := collected_insert
  have hnext := hins (done ++ [x]) true (total + (bytes y).length + (bytes x).length) y
  rw [List.length_append, List.length_singleton] at hnext
  simp only [splitStep, collected, hkey, Exec.ret_bind, Exec.unwrapResult_ok]
  by_cases hc : (!ins && decide ((key x).cmp (key y) = .lt)) = true
  · simp only [hc, if_true, hins, Exec.ret_bind, Exec.pure_eq, collected, hnext,
      List.append_assoc, List.length_append, List.singleton_append, List.length_cons, List.length_nil]
  · rw [Bool.not_eq_true] at hc
    simp only [hc, Bool.false_eq_true, if_false, Exec.pure_eq, Exec.ret_bind, hins, collected,
      List.length_append, List.length_singleton]

theorem splitLoop_cons (h : Decodes td p key bytes xs) (hxs : xs = pre ++ y :: rest)
    (done : List α) (ins : Bool) (total : ℕ) :
    splitLoop p td (key x) (bytes x) (List.range' pre.length (rest.length + 1))
        (collected key bytes done ins total) =
      splitLoop p td (key x) (bytes x) (List.range' (pre.length + 1) rest.length)
        (if !ins && (key x).cmp (key y) = .lt then
          collected key bytes (done ++ [x, y]) true
            (total + (bytes y).length + (bytes x).length)
        else collected key bytes (done ++ [y]) ins (total + (bytes y).length)) := by
  have hmem : y ∈ xs := by simp [hxs]
  have hget : p.getRecord pre.length = .ret (some (bytes y)) := by
    have hlt : pre.length < xs.length := by
      rw [hxs, List.length_append, List.length_cons]
      omega
    rw [h.getRecord _ hlt]
    simp only [hxs, List.getElem_append_right le_rfl, Nat.sub_self, List.getElem_cons_zero]
  rw [List.range'_succ, splitLoop, hget, Exec.ret_bind]
  dsimp only
  rw [splitStep_eq (h.decode y hmem), Exec.ret_bind]

theorem splitLoop_inserted (h : Decodes td p key bytes xs) (hxs : xs = pre ++ rest)
    (done : List α) (total : ℕ) :
    splitLoop p td (key x) (bytes x) (List.range' pre.length rest.length)
        (collected key bytes done true total) =
      .ret (.ok (collected key bytes (done ++ rest) true
        (total + bytesOf (rest.map bytes)))) := by
  induction rest generalizing pre done total with
  | nil => simp [splitLoop]
  | cons y rest ih =>
    have hxs' : xs = (pre ++ [y]) ++ rest := by rw [hxs, List.append_assoc, List.singleton_append]
    have hnext := ih hxs' (done ++ [y]) (total + (bytes y).length)
    rw [List.length_append, List.length_singleton] at hnext
    rw [List.length_cons, splitLoop_cons h hxs, Bool.not_true, Bool.false_and,
      if_neg Bool.false_ne_true, hnext, List.append_assoc, List.singleton_append, List.map_cons,
      bytesOf_cons, Nat.add_assoc]

/-- **The collected keys and records** are the old ones with the new ones at their place. -/
theorem splitLoop_collects [DecimalOrder D] (h : Decodes td p key bytes xs) (hxs : xs = pre ++ rest)
    (habs : ∀ a ∈ rest, (key x).cmp (key a) ≠ .eq) (done : List α) (total : ℕ) :
    ∃ s s', splitLoop p td (key x) (bytes x) (List.range' pre.length rest.length)
        (collected key bytes done false total) = .ret (.ok s) ∧
      (if !s.newRecordInserted then s.insert (key x) (bytes x) else pure s) = .ret s' ∧
      s'.sortedKeys = (done ++ place Key.cmp key rest x).map key ∧
      s'.sortedRecords = (done ++ place Key.cmp key rest x).map bytes ∧
      s'.totalSize = total + countedBytes key bytes rest x := by
  induction rest generalizing pre done total with
  | nil => exact ⟨_, _, rfl, collected_insert done false total x, rfl, rfl, rfl⟩
  | cons y rest ih =>
    have hxs' : xs = (pre ++ [y]) ++ rest := by rw [hxs, List.append_assoc, List.singleton_append]
    have hlen : (pre ++ [y]).length = pre.length + 1 := List.length_append
    have hs : Sorted Key.cmp ((y :: rest).map key) := by
      have hall := h.sorted
      rw [hxs, List.map_append] at hall
      exact (List.pairwise_append.mp hall).2.1
    rw [List.length_cons, splitLoop_cons h hxs]
    cases hcmp : (key x).cmp (key y) with
    | eq => exact absurd hcmp (habs y List.mem_cons_self)
    | lt =>
      obtain ⟨hlower, hupper⟩ := parts_of_lt hs hcmp
      have hloop := splitLoop_inserted (x := x) h hxs' (done ++ [x, y])
        (total + (bytes y).length + (bytes x).length)
      rw [hlen] at hloop
      refine ⟨_, _, hloop, rfl, ?_, ?_, ?_⟩
      · rw [place, hlower, hupper]
        simp [collected]
      · rw [place, hlower, hupper]
        simp [collected]
      · rw [countedBytes, hupper, List.map_cons, bytesOf_cons]
        simp only [collected, List.isEmpty_cons, Bool.false_eq_true, if_false]
        omega
    | gt =>
      obtain ⟨hlower, hupper⟩ := parts_of_gt hcmp rest
      obtain ⟨s, s', h₁, h₂, h₃, h₄, h₅⟩ := ih hxs' (fun a ha => habs a (List.mem_cons_of_mem y ha))
        (done ++ [y]) (total + (bytes y).length)
      rw [hlen] at h₁
      refine ⟨s, s', h₁, h₂, ?_, ?_, ?_⟩
      · rw [h₃, place, place, hlower, hupper]
        simp
      · rw [h₄, place, place, hlower, hupper]
        simp
      · rw [h₅, countedBytes, countedBytes, hupper, List.map_cons, bytesOf_cons]
        omega

end Collect

/-! ## The split index -/

/-- The longest prefix whose bytes are at most `half`. -/
structure SplitAt (records : List Bytes) (half k : ℕ) : Prop where
  le : k ≤ records.length
  low : bytesOf (records.take k) ≤ half
  high : k < records.length → half < bytesOf (records.take (k + 1))

theorem bytesOf_take_le (records : List Bytes) {i j : ℕ} (h : i ≤ j) :
    bytesOf (records.take i) ≤ bytesOf (records.take j) := by
  obtain ⟨m, rfl⟩ := Nat.exists_eq_add_of_le h
  rw [List.take_add, bytesOf_append]
  exact Nat.le_add_right ..

theorem SplitAt.unique {records : List Bytes} {half k k' : ℕ} (h : SplitAt records half k)
    (h' : SplitAt records half k') : k = k' := by
  have key : ∀ {a b : ℕ}, SplitAt records half a → SplitAt records half b → b ≤ a := by
    intro a b ha hb
    by_contra hlt
    have h₁ := ha.high (by have := hb.le; omega)
    have h₂ := bytesOf_take_le records (show a + 1 ≤ b by omega)
    have h₃ := hb.low
    omega
  exact Nat.le_antisymm (key h' h) (key h h')

theorem splitIndexLoop_spec {half cur : ℕ} (h : cur ≤ half) (records : List Bytes) (idx : ℕ) :
    ∃ k, splitIndexLoop half records cur idx = idx + k ∧ k ≤ records.length ∧
      cur + bytesOf (records.take k) ≤ half ∧
      (k < records.length → half < cur + bytesOf (records.take (k + 1))) := by
  induction records generalizing cur idx with
  | nil => exact ⟨0, rfl, le_rfl, h, fun hlt => absurd hlt (Nat.lt_irrefl 0)⟩
  | cons r records ih =>
    rw [splitIndexLoop]
    by_cases hr : cur + r.length > half
    · rw [if_pos hr]
      refine ⟨0, rfl, Nat.zero_le _, h, fun _ => ?_⟩
      rw [Nat.zero_add, List.take_succ_cons, List.take_zero, bytesOf_cons, bytesOf_nil]
      omega
    · rw [if_neg hr]
      obtain ⟨k, h₁, h₂, h₃, h₄⟩ := ih (Nat.not_lt.mp hr) (idx + 1)
      refine ⟨k + 1, by rw [h₁]; omega, Nat.succ_le_succ h₂, ?_, fun hk => ?_⟩
      · rw [List.take_succ_cons, bytesOf_cons]
        omega
      · have := h₄ (Nat.lt_of_succ_lt_succ hk)
        rw [List.take_succ_cons, bytesOf_cons]
        omega

/-- **The code's split index** is the length of that prefix. -/
theorem splitAt_findSplitIndexBySize (records : List Bytes) (total : ℕ) :
    SplitAt records (total / 2) (findSplitIndexBySize records total) := by
  obtain ⟨k, h₁, h₂, h₃, h₄⟩ := splitIndexLoop_spec (Nat.zero_le (total / 2)) records 0
  rw [Nat.zero_add] at h₁ h₃ h₄
  rw [findSplitIndexBySize, h₁]
  exact ⟨h₂, h₃, h₄⟩

end LeafNodeView

end RarmDb
