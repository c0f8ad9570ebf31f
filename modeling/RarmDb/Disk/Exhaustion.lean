import RarmDb.Disk.Indices
import RarmDb.Disk.Tables

/-!
# The last page index

Successive calls of `allocate_page` for a table whose file has any length at open. The counter is a
`u32` that wraps around, and the conversion of `next_index` to a `u32` never fails.

* `allocations`: the indices that successive calls return, `none` for a call that fails;
* `DetectsExhaustion`: no index is used twice, and the calls fail once none is left;
* `Ready`: the counter will give this index; **`allocations_eq`**: the indices of `k` calls;
* **`detectsExhaustion_iff`**: so it is as long as the counter does not reach the last index;
* `allocatePage_wraps`: a file with all pages but one.
-/

namespace RarmDb

/-- The indices that `k` successive calls of `allocate_page` return; a panic is the last call. -/
def allocations (tableId : UInt32) : ℕ → DiskTables → List (Option UInt32)
  | 0, _ => []
  | k + 1, m =>
    match m.allocatePage tableId with
    | .ret (.ok p, m) => some p.pageIndex :: allocations tableId k m
    | .ret (.error _, m) => none :: allocations tableId k m
    | .panic | .diverge => [none]

/-- The table has `pages` pages at open, and the calls gave these results: the indices are distinct,
none of them is in the file or `INVALID_PAGE_INDEX`, and a call fails if no other index is left. -/
structure DetectsExhaustion (pages : ℕ) (results : List (Option UInt32)) : Prop where
  distinct : results.reduceOption.Nodup
  new : ∀ i, some i ∈ results → pages ≤ i.toNat
  valid : some invalidPageIndex ∉ results
  exhausted : ∀ before result after, results = before ++ result :: after →
    (∀ i : UInt32, pages ≤ i.toNat → i ≠ invalidPageIndex → some i ∈ before) → result = none

namespace DiskTables

open DiskManager (nth nth_zero nth_succ)

variable {m : DiskTables} {t i : UInt32} {k : ℕ}

/-- The next call of `allocate_page` takes the index `i`. -/
def Ready (m : DiskTables) (t i : UInt32) : Prop :=
  m.fileHandles t ≠ none ∧ m.nextPageIds t = some i ∨
    m.fileHandles t = none ∧ m.nextPageIds t = none ∧
      ∃ file, m.files (tableFileName t) = some file ∧ i = UInt32.ofNat (file.len / pageSize)

theorem Ready.getFileHandle (h : m.Ready t i) :
    ∃ handle m', m.getFileHandle t = (.ok handle, m') ∧ m'.fileHandles t ≠ none ∧
      m'.nextPageIds t = some i := by
  unfold DiskTables.getFileHandle
  rcases h with ⟨hhandle, hnext⟩ | ⟨hhandle, hnext, file, hfile, rfl⟩
  · obtain ⟨handle, hsome⟩ := Option.ne_none_iff_exists'.mp hhandle
    rw [hsome]
    exact ⟨handle, m, rfl, hhandle, hnext⟩
  · simp only [hhandle, hfile, hnext]
    refine ⟨_, _, rfl, ?_, Function.update_self ..⟩
    simp only [Function.update_self]
    exact Option.some_ne_none _

theorem Ready.allocatePage (h : m.Ready t i) :
    ∃ m', m.allocatePage t = .ret (.ok ⟨t, i⟩, m') ∧ m'.Ready t (i + 1) := by
  obtain ⟨handle, m₁, hget, hhandle, hnext⟩ := h.getFileHandle
  let m₂ : DiskTables := { m₁ with nextPageIds := Function.update m₁.nextPageIds t (some (i + 1)) }
  have hcall : m.allocatePage t = .ret (.ok ⟨t, i⟩,
      m₂.writeAt handle (Buffer.const pageSize 0) (i.toNat * pageSize)) := by
    rw [DiskTables.allocatePage, hget]
    dsimp only
    rw [hnext, Exec.unwrap_some, Exec.ret_bind]
    rfl
  exact ⟨_, hcall, .inl ⟨hhandle, Function.update_self ..⟩⟩

/-- **The indices of `k` calls.** -/
theorem allocations_eq (h : m.Ready t i) :
    allocations t k m = (List.range k).map fun j => some (nth i j) := by
  induction k generalizing m i with
  | zero => rfl
  | succ k ih =>
    obtain ⟨m', hcall, hready⟩ := h.allocatePage
    rw [allocations, hcall, List.range_succ_eq_map, List.map_cons, List.map_map, nth_zero]
    dsimp only
    rw [ih hready]
    congr 1
    refine List.map_congr_left fun j _ => ?_
    show some (nth (i + 1) j) = some (nth i (j + 1))
    rw [← nth_succ, nth, nth, UInt32.add_assoc, UInt32.add_comm 1, ← UInt32.add_assoc]

end DiskTables

/-! ## The counter reaches the end -/

section Numbers

open DiskManager (nth nth_inj)

variable {i : UInt32} {j k pages : ℕ}

theorem toNat_nth (h : pages + j < 2 ^ 32) : (nth (UInt32.ofNat pages) j).toNat = pages + j := by
  rw [nth, ← UInt32.ofNat_add, UInt32.toNat_ofNat_of_lt' h]

theorem detectsExhaustion_of_le (h : pages + k ≤ 2 ^ 32 - 1) :
    DetectsExhaustion pages ((List.range k).map fun j => some (nth (UInt32.ofNat pages) j)) := by
  have hnat : ∀ j < k, (nth (UInt32.ofNat pages) j).toNat = pages + j := by
    intro j hj
    exact toNat_nth (by omega)
  have hmem : ∀ i, some i ∈ ((List.range k).map fun j => some (nth (UInt32.ofNat pages) j)) →
      ∃ j < k, i.toNat = pages + j := by
    intro i hi
    obtain ⟨j, hj, heq⟩ := List.mem_map.mp hi
    obtain rfl := Option.some.inj heq
    exact ⟨j, List.mem_range.mp hj, hnat j (List.mem_range.mp hj)⟩
  have hnodup : ((List.range k).map fun j => some (nth (UInt32.ofNat pages) j)).Nodup := by
    refine List.Nodup.map_on (fun a ha b hb hab => ?_) List.nodup_range
    rw [List.mem_range] at ha hb
    exact nth_inj (by omega) (by omega) (Option.some.inj hab)
  constructor
  case distinct =>
    change (List.filterMap id _).Nodup
    rw [List.filterMap_map]
    show ((List.range k).filterMap fun j => some (nth (UInt32.ofNat pages) j)).Nodup
    rw [List.filterMap_eq_map']
    exact List.Nodup.of_map some (by rwa [List.map_map])
  case new =>
    intro i hi
    obtain ⟨j, -, hij⟩ := hmem i hi
    omega
  case valid =>
    intro hi
    obtain ⟨j, hj, hij⟩ := hmem _ hi
    rw [show invalidPageIndex.toNat = 2 ^ 32 - 1 from rfl] at hij
    omega
  case exhausted =>
    intro before result after heq hall
    cases result with
    | none => rfl
    | some i =>
      have hi : some i ∈ before ++ some i :: after := by simp
      rw [← heq] at hi
      obtain ⟨j, hj, hij⟩ := hmem i hi
      have hused : some i ∈ before := by
        refine hall i (by omega) fun hinvalid => ?_
        rw [hinvalid, show invalidPageIndex.toNat = 2 ^ 32 - 1 from rfl] at hij
        omega
      rw [heq] at hnodup
      exact absurd rfl ((List.nodup_append.mp hnodup).2.2 _ hused _ List.mem_cons_self)

theorem le_of_detectsExhaustion (hk : k ≠ 0)
    (h : DetectsExhaustion pages ((List.range k).map fun j => some (nth (UInt32.ofNat pages) j))) :
    pages + k ≤ 2 ^ 32 - 1 := by
  have hmem : ∀ j < k, some (nth (UInt32.ofNat pages) j) ∈
      (List.range k).map fun j => some (nth (UInt32.ofNat pages) j) := by
    intro j hj
    exact List.mem_map_of_mem (List.mem_range.mpr hj)
  have hfirst := h.new _ (hmem 0 (Nat.pos_of_ne_zero hk))
  have hbound := (nth (UInt32.ofNat pages) 0).toNat_lt
  by_contra hlt
  -- the call that is given the last index
  have hlast : nth (UInt32.ofNat pages) (2 ^ 32 - 1 - pages) = invalidPageIndex := by
    apply UInt32.toNat_inj.mp
    rw [toNat_nth (by omega)]
    show pages + (2 ^ 32 - 1 - pages) = 2 ^ 32 - 1
    omega
  exact h.valid (hlast ▸ hmem _ (by omega))

end Numbers

/-- **Exhaustion is detected exactly as long as it does not occur**: if there is a call, the pages
of the file and the calls are at most `2 ^ 32 - 1`. -/
theorem detectsExhaustion_iff {files : String → Option TableFile} {t : UInt32} {file : TableFile}
    (hfile : files (tableFileName t) = some file) (k : ℕ) :
    DetectsExhaustion (file.len / pageSize) (allocations t k (.new files)) ↔
      k = 0 ∨ file.len / pageSize + k ≤ 2 ^ 32 - 1 := by
  have hready : (DiskTables.new files).Ready t (UInt32.ofNat (file.len / pageSize)) :=
    .inr ⟨rfl, rfl, file, hfile, rfl⟩
  rw [DiskTables.allocations_eq hready]
  refine ⟨fun h => or_iff_not_imp_left.mpr fun hk => le_of_detectsExhaustion hk h, ?_⟩
  rintro (rfl | h)
  · exact ⟨List.nodup_nil, nofun, nofun, fun before result after heq _ => by simp at heq⟩
  · exact detectsExhaustion_of_le h

/-- A file with three pages. -/
def shortFile : TableFile := ⟨3 * pageSize, fun _ => 1⟩

theorem detectsExhaustion_iff_short :
    DetectsExhaustion (shortFile.len / pageSize) (allocations 7 5 (.new fun _ => some shortFile)) :=
  (detectsExhaustion_iff (rfl : (fun _ => some shortFile) (tableFileName 7) = some shortFile) 5).mpr
    (.inr (by decide))

/-- A file with all pages but one, which would have the index `INVALID_PAGE_INDEX`. -/
def crowdedFile : TableFile := ⟨(2 ^ 32 - 1) * pageSize, fun _ => 1⟩

/-- The first call returns `INVALID_PAGE_INDEX`, the second one the index `0` of the first page of the
file, which it has filled with zeros. -/
theorem allocatePage_wraps :
    allocations 7 2 (.new fun _ => some crowdedFile) = [some invalidPageIndex, some 0] ∧
      ¬ DetectsExhaustion (crowdedFile.len / pageSize)
        (allocations 7 2 (.new fun _ => some crowdedFile)) := by
  have hcalls : allocations 7 2 (.new fun _ => some crowdedFile) = [some invalidPageIndex, some 0] := by
    rw [DiskTables.allocations_eq (.inr ⟨rfl, rfl, crowdedFile, rfl, rfl⟩)]
    decide
  refine ⟨hcalls, fun h => h.valid ?_⟩
  rw [hcalls]
  exact List.mem_cons_self

end RarmDb
