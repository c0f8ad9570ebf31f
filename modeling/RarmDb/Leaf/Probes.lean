import RarmDb.Lib.Bisect
import RarmDb.Leaf.Search

/-!
# Searching any page

`find_key` on a page of any bytes: its keys need not be sorted, nor be readable.

* `keyAt`, `sideAt`: the key of a slot, and how the target compares with it;
* `findKeyLoop_eq`: `find_key` is a binary search over the slots;
* **`findKey_anywhere`**: what it does on any page.
-/

namespace RarmDb

open RecordSerializer

namespace LeafNodeView

variable {D : Type} [RustDecimal D]

/-- The key of a slot, as `find_key` reads it. -/
def keyAt (p : Page) (td : TableDefinition) (i : ℕ) : Exec (Key D) := do
  let record ← p.getRecord i
  let midPointData ← Exec.unwrap record
  let result ← deserializePrimaryKey td midPointData
  Exec.unwrapResult result

/-- How the key that is looked for compares with the one of a slot. -/
def sideAt (p : Page) (key : Key D) (td : TableDefinition) (i : ℕ) : Exec Ordering :=
  key.cmp <$> keyAt p td i

theorem sideAt_eq_ret {p : Page} {key : Key D} {td : TableDefinition} {i : ℕ} {side : Ordering} :
    sideAt p key td i = .ret side ↔ ∃ k, keyAt p td i = .ret k ∧ key.cmp k = side := by
  rw [sideAt, map_eq_pure_bind, Exec.bind_eq_ret]
  simp only [Exec.pure_eq, Exec.ret.injEq]

variable [DecimalOrder D] {p : Page} {key : Key D} {td : TableDefinition}

/-- `find_key` is a binary search: its third comparison never fails. -/
theorem findKeyLoop_eq (p : Page) (key : Key D) (td : TableDefinition) (low high : ℕ) :
    findKeyLoop p key td low high = bisect (sideAt p key td) low high := by
  induction low, high using probes.induct with
  | case1 low high hlt right left =>
    rw [bisect_turn hlt rfl, findKeyLoop, dif_pos hlt]
    dsimp only
    rw [right, left, sideAt, keyAt, map_eq_pure_bind]
    simp only [bind_assoc, Exec.pure_eq, Exec.ret_bind]
    congr 1; funext record
    congr 1; funext midPointData
    congr 1; funext result
    congr 1; funext midPointKey
    by_cases heq : (key == midPointKey) = true
    · rw [if_pos heq, Key.beq_iff_cmp.mp heq]
    · have hne := mt Key.beq_iff_cmp.mpr heq
      rw [if_neg heq]
      cases hcmp : key.cmp midPointKey with
      | eq => exact absurd hcmp hne
      | gt => rw [if_pos rfl]
      | lt => rw [if_neg (show ¬ Ordering.lt = .gt by decide), if_pos rfl]
  | case2 low high hle => rw [bisect_done hle, findKeyLoop, dif_neg hle, Exec.pure_eq]

/-- The slots that `find_key` reads. -/
def slotsRead (p : Page) (key : Key D) (td : TableDefinition) : List ℕ :=
  probes (sideAt p key td) 0 p.itemCount

theorem findKey_eq (p : Page) (key : Key D) (td : TableDefinition) :
    findKey p key td = bisect (sideAt p key td) 0 p.itemCount := by
  rw [findKey, Page.getItemCount_eq, Exec.ret_bind, findKeyLoop_eq]

/-- **`find_key` on any page.** It reads as many slots of the page as their number has binary digits at
most, and depends on no other; it returns if their keys can be read. The slot that it finds has the key,
and a place that it finds is behind a lesser key and before a greater one, or at an end of the page. -/
theorem findKey_anywhere (p : Page) (key : Key D) (td : TableDefinition) :
    ((slotsRead p key td).length ≤ Nat.size p.itemCount ∧ ∀ i ∈ slotsRead p key td, i < p.itemCount) ∧
      (∀ p' : Page, p'.itemCount = p.itemCount →
        (∀ i ∈ slotsRead p key td, keyAt (D := D) p' td i = keyAt p td i) →
        findKey p' key td = findKey p key td) ∧
      ((∃ result, findKey p key td = .ret result) ↔
        ∀ i ∈ slotsRead p key td, ∃ k : Key D, keyAt p td i = .ret k) ∧
      (∀ i, findKey p key td = .ret (.ok i) →
        i < p.itemCount ∧ ∃ k : Key D, keyAt p td i = .ret k ∧ (key == k) = true) ∧
      ∀ i, findKey p key td = .ret (.error i) → i ≤ p.itemCount ∧
        (0 < i → ∃ k : Key D, keyAt p td (i - 1) = .ret k ∧ k.cmp key = .lt) ∧
        (i < p.itemCount → ∃ k : Key D, keyAt p td i = .ret k ∧ k.cmp key = .gt) := by
  rw [findKey_eq]
  refine ⟨⟨length_probes_le _ 0 _, fun i hi => (mem_probes hi).2⟩, fun p' hcount hkeys => ?_, ?_,
    fun i hi => ?_, fun i hi => ?_⟩
  · rw [findKey_eq, hcount]
    refine bisect_congr fun i hi => ?_
    rw [sideAt, sideAt, hkeys i hi]
  · rw [bisect_returns_iff]
    refine forall₂_congr fun i _ => ?_
    simp only [sideAt_eq_ret]
    exact ⟨fun ⟨_, k, hk, _⟩ => ⟨k, hk⟩, fun ⟨k, hk⟩ => ⟨_, k, hk, rfl⟩⟩
  · obtain ⟨hmem, hside⟩ := bisect_ok hi
    obtain ⟨k, hk, hcmp⟩ := sideAt_eq_ret.mp hside
    exact ⟨(mem_probes hmem).2, k, hk, Key.beq_iff_cmp.mpr hcmp⟩
  · obtain ⟨⟨-, hle⟩, hbefore, hat⟩ := bisect_error hi (Nat.zero_le _)
    refine ⟨hle, fun hpos => ?_, fun hlt => ?_⟩
    · obtain ⟨k, hk, hcmp⟩ := sideAt_eq_ret.mp (hbefore hpos).2
      exact ⟨k, hk, Std.OrientedCmp.lt_of_gt hcmp⟩
    · obtain ⟨k, hk, hcmp⟩ := sideAt_eq_ret.mp (hat hlt).2
      exact ⟨k, hk, Std.OrientedCmp.gt_of_lt hcmp⟩

/-- On a page of four products a search for another one reads three slots at most. It ends behind a lesser key and
before a greater one. -/
theorem findKey_anywhere_products :
    findKey (productsPage [2, 5, 9, 12] 0) ([.int 7] : Key Decimal96) productTable = .ret (.error 2) ∧
      (slotsRead (productsPage [2, 5, 9, 12] 0) ([.int 7] : Key Decimal96) productTable).length ≤ 3 ∧
      (∃ k : Key Decimal96, keyAt (productsPage [2, 5, 9, 12] 0) productTable 1 = .ret k ∧
        k.cmp [.int 7] = .lt) ∧
      ∃ k : Key Decimal96, keyAt (productsPage [2, 5, 9, 12] 0) productTable 2 = .ret k ∧
        k.cmp [.int 7] = .gt := by
  have hrun : findKey (productsPage [2, 5, 9, 12] 0) ([.int 7] : Key Decimal96) productTable =
      .ret (.error 2) := by decide +kernel
  obtain ⟨⟨hfew, -⟩, -, -, -, hplace⟩ :=
    findKey_anywhere (productsPage [2, 5, 9, 12] 0) ([.int 7] : Key Decimal96) productTable
  have hcount : (productsPage [2, 5, 9, 12] 0).itemCount = 4 := fourProducts_keysAre.count
  rw [hcount] at hfew hplace
  obtain ⟨-, hbefore, hat⟩ := hplace 2 hrun
  exact ⟨hrun, hfew.trans (by decide), hbefore (by decide), hat (by decide)⟩

end LeafNodeView

end RarmDb
