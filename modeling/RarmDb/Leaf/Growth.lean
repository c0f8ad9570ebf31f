import Mathlib.Tactic.Linarith
import RarmDb.Leaf.Scan

/-!
# A leaf level that grows

`split_and_insert` may fail, and then it loses records. It does not when the records are small.

* `Small`: bounds on the length of the records; `Sized`: a record within them;
* `splitAt_fits`: records within such bounds that overflow a page are cut into two parts that fit;
* **`level_accepts`**: in every reachable state of small records a new one is stored.
-/

namespace RarmDb

open RecordSerializer SortedMap Page LeafNodeView

variable {D : Type} [RustDecimal D]

/-! ## Cutting small records -/

/-- Records of `low` to `high` bytes are small. -/
def Small (low high : ℕ) : Prop :=
  0 < low ∧ (low + 4) * (4 * high + 5) + low * (high + 4) ≤ 8160 * low

instance (low high : ℕ) : Decidable (Small low high) := inferInstanceAs (Decidable (_ ∧ _))

example : Small 1 387 := by decide

/-- The bytes of the record are within the bounds. -/
def Sized (low high : ℕ) (r : Record D) : Prop := low ≤ (encode r).length ∧ (encode r).length ≤ high

variable {low high : ℕ} {records : List Bytes}

theorem mul_length_le_bytesOf (h : ∀ r ∈ records, low ≤ r.length) :
    low * records.length ≤ bytesOf records := by
  induction records with
  | nil => exact Nat.zero_le _
  | cons r records ih =>
    have hr := h r List.mem_cons_self
    have hrest := ih fun r hr => h r (List.mem_cons_of_mem _ hr)
    rw [List.length_cons, Nat.mul_succ, bytesOf_cons]
    omega

theorem bytesOf_take_add_drop (records : List Bytes) (k : ℕ) :
    bytesOf (records.take k) + bytesOf (records.drop k) = bytesOf records := by
  rw [← bytesOf_append, List.take_append_drop]

theorem bytesOf_take_succ_le (h : ∀ r ∈ records, r.length ≤ high) (k : ℕ) :
    bytesOf (records.take (k + 1)) ≤ bytesOf (records.take k) + high := by
  rcases Nat.lt_or_ge k records.length with hk | hk
  · have hr := h _ (List.getElem_mem hk)
    rw [List.take_succ_eq_append_getElem hk, bytesOf_append, bytesOf_cons, bytesOf_nil]
    omega
  · rw [List.take_of_length_le hk, List.take_of_length_le (by omega)]
    omega

/-- **Small records that overflow a page are cut into two parts that fit.** Here `total` is the number of
bytes that the cut is computed from, which may leave one record out. -/
theorem splitAt_fits {total k : ℕ} (hsmall : Small low high) (hcut : SplitAt records (total / 2) k)
    (hhigh : ∀ r ∈ records, r.length ≤ high) (htotal : total ≤ bytesOf records)
    (hleast : bytesOf records ≤ total + high) (hcount : low * records.length ≤ total + low)
    (hroom : bytesOf records + 4 * records.length ≤ 8160 + (high + 4)) :
    FitsIn (records.take k) 8160 ∧ FitsIn (records.drop k) 8160 := by
  obtain ⟨hpos, hbound⟩ := hsmall
  have hle := hcut.le
  have hlow := hcut.low
  have hparts := bytesOf_take_add_drop records k
  rw [FitsIn, FitsIn, List.length_take, List.length_drop, Nat.min_eq_left hle]
  rcases Nat.lt_or_ge (4 * high + 5) total with hlarge | hfew
  · -- Each part has the bytes of one record with its slot at least.
    have hk : k < records.length := by
      by_contra hk
      rw [List.take_of_length_le (by omega)] at hlow
      omega
    have hnext := hcut.high hk
    have hstep := bytesOf_take_succ_le hhigh k
    omega
  · -- All records fit one page.
    have hall : low * (bytesOf records + 4 * records.length) ≤ low * 8160 := by
      have h₁ : low * bytesOf records ≤ low * (total + high) := Nat.mul_le_mul_left low hleast
      have h₂ : (low + 4) * total ≤ (low + 4) * (4 * high + 5) := Nat.mul_le_mul_left _ hfew
      linarith only [h₁, h₂, hcount, hbound]
    have hfit := Nat.le_of_mul_le_mul_left hall hpos
    omega

/-! ## Storing a new record -/

variable {td : TableDefinition} {pk : List String} {s : Store} {first x : UInt32}
  {leaf right : LeafNodeView} {nodes : List (UInt32 × List (Record D))} {rs : List (Record D)}
  {record : Record D} {m : RecordMap D}

/-- **A split of small records** has two parts that fit. -/
theorem SplitInput.splitFits [DecimalOrder D] [DecimalCodec D] (h : SplitInput td pk rs leaf right record)
    (hsmall : Small low high) (hsized : ∀ r ∈ rs, Sized low high r) (hnew : Sized low high record) :
    SplitFits td pk rs record := by
  obtain ⟨k, hcut, -⟩ := h.run_eq none
  have hbytes : bytesOf ((withNew td pk rs record).map encode) =
      bytesOf (rs.map encode) + (encode record).length := bytesOf_place encode h.sorted h.absent
  have hold : low * (rs.map encode).length ≤ bytesOf (rs.map encode) :=
    mul_length_le_bytesOf (List.forall_mem_map.mpr fun r hr => (hsized r hr).1)
  have hroom : bytesOf (rs.map encode) + 4 * rs.length ≤ 8160 := by
    have hwf := h.holds.wf
    have htotal := hwf.total_le
    rw [← sum_length_recordsOf, h.holds.recordsOf] at htotal
    have hheap := hwf.heap_le
    have hslots := hwf.slots_le
    rw [← h.holds.count, bytesOf]
    omega
  have hall : ∀ bytes ∈ (withNew td pk rs record).map encode, bytes.length ≤ high := by
    rw [List.forall_mem_map]
    intro r hr
    rcases List.mem_append.mp hr with hr | hr
    · exact (hsized r (List.mem_of_mem_filter hr)).2
    · rcases List.mem_cons.mp hr with rfl | hr
      · exact hnew.2
      · exact (hsized r (List.mem_of_mem_filter hr)).2
  have hcount : ((withNew td pk rs record).map encode).length = rs.length + 1 := by
    rw [List.length_map, length_withNew h.sorted h.absent]
  rw [List.length_map] at hold
  refine ⟨k, hcut, splitAt_fits hsmall hcut hall (splitTotal_le h.sorted h.absent) ?_ ?_ ?_⟩
  · rw [hbytes, splitTotal_eq]
    have := hnew.2
    omega
  · rw [hcount, splitTotal_eq, Nat.mul_succ]
    omega
  · rw [hbytes, hcount]
    have := hnew.2
    omega

/-- **A leaf level of small records accepts every new one.** In every state that insertions, updates,
splits and merges reach, the key of a new record belongs to a leaf; there `insert_record` stores the record
or finds the page full, and `split_and_insert` with any unused empty page stores it. -/
theorem level_accepts [DecimalOrder D] [DecimalCodec D] (td : TableDefinition) (pk : List String)
    (hk : td.KeyInOrder pk) (pageId : PageId) (parent : Option UInt64)
    (hvalid : pageId.pageIndex ≠ invalidPageIndex) (low high : ℕ) (hsmall : Small low high)
    (m : RecordMap D) (s : Store)
    (hrun : LevelRun td pk pageId.pageIndex (Store.initial pageId parent) m s)
    (hsized : ∀ key r, m key = some r → Sized low high r) (record : Record D)
    (hr : GoodRecord td pk record) (hnew : Sized low high record)
    (habs : m (keyOf td pk record) = none) :
    (∃ x, Belongs td s pageId.pageIndex x (keyOf td pk record)) ∧
      ∀ x, Belongs td s pageId.pageIndex x (keyOf td pk record) → ∃ leaf, s x = some leaf ∧
        ((∃ i leaf', leaf.insertRecord record td = .ret (.ok i, leaf')) ∨
          leaf.insertRecord record td = .ret (.error .pageFull, leaf)) ∧
        ∀ right : LeafNodeView, s right.pageId.pageIndex = none →
          right.pageId.pageIndex ≠ invalidPageIndex → EmptyPage right.pageView →
          ∃ s', ChainStep td s (.split x record right) s' := by
  obtain ⟨nodes, h⟩ := hrun.inv hk hvalid (levelInv_initial td pk pageId hvalid parent)
  refine ⟨h.exists_belongs hk.keyed hvalid habs, fun x hb => ?_⟩
  have hx : (s x).isSome := by
    obtain ⟨before, es, after, hscan, -⟩ := hb
    exact hscan.isSome (List.mem_append_right before List.mem_cons_self)
  obtain ⟨leaf, hx⟩ := Option.isSome_iff_exists.mp hx
  obtain ⟨front, rs, back, rfl, -, hholds, -⟩ := h.split_at hx
  obtain ⟨-, hmiss, -⟩ := h.of_belongs hk.keyed hvalid hb rfl
  have hleaf := h.leafInv hholds
  refine ⟨leaf, hx, ?_, fun right hfresh hindex hempty => ?_⟩
  · obtain ⟨out, leaf', -, m', hout, ⟨key, hkey, hstep⟩, -, -⟩ := insertRecord_spec hleaf hk hr
    cases hkey.symm.trans (Record.getPrimaryKey_eq hk hr.wellTyped.length_eq)
    dsimp only at hstep
    have hnone : ¬ (find Key.cmp (rs.map (entryOf td pk)) (keyOf td pk record)).isSome = true := by
      rw [find_eq_none.mpr (List.forall_mem_map.mpr hmiss)]
      exact Bool.false_ne_true
    rw [LeafOp.record, if_neg hnone] at hstep
    rcases hstep with ⟨i, rfl, -⟩ | ⟨rfl, hsame⟩
    · exact .inl ⟨i, leaf', hout⟩
    · cases hsame
      exact .inr hout
  · have hinput : SplitInput td pk rs leaf right record :=
      ⟨hk, hholds, map_fst_entryOf rs ▸ hleaf.represents.sorted, hr, hmiss, hempty⟩
    have hfits := hinput.splitFits hsmall
      (fun r hr => hsized _ r (h.eq_some (by simp [hr]))) hnew
    have hbytes : (encode record).length ≠ 0 := Nat.ne_of_gt (hsmall.1.trans_le hnew.1)
    obtain ⟨k, key, leaf', right', -, -, hsplit, -⟩ := hinput.distributes hfits hbytes
      (s.leafAt (toIndex (u32At leaf.pageView 16)))
    exact ⟨_, .split hx hfresh hindex hempty (getNextLeafIndex_eq leaf) hsplit⟩

theorem sized_of_short {m : RecordMap Decimal96} (h : ShortProducts m) {key : Key Decimal96} {r : Record Decimal96}
    (hm : m key = some r) : Sized 34 1489 r := by
  obtain ⟨id, notes, hnotes, rfl⟩ := h key r hm
  rw [Sized, length_encode_product]
  omega

/-- Another product goes to one of the two leaves of products. -/
theorem level_accepts_products :
    ∃ (m : RecordMap Decimal96) (s : Store), LevelRun productTable ["id"] 0 (Store.initial ⟨1, 0⟩ none) m s ∧
      TwoLeaves s ∧ (∃ x, Belongs productTable s 0 x (keyOf productTable ["id"] (product 25 []))) ∧
        ∀ x, Belongs productTable s 0 x (keyOf productTable ["id"] (product 25 [])) → ∃ leaf, s x = some leaf ∧
          ((∃ i leaf', leaf.insertRecord (product 25 []) productTable = .ret (.ok i, leaf')) ∨
            leaf.insertRecord (product 25 []) productTable = .ret (.error .pageFull, leaf)) ∧
          ∀ right : LeafNodeView, s right.pageId.pageIndex = none →
            right.pageId.pageIndex ≠ invalidPageIndex → EmptyPage right.pageView →
            ∃ s', ChainStep productTable s (.split x (product 25 []) right) s' := by
  obtain ⟨m, s, hrun, hleaves, hshort, -, habs⟩ := grown_level
  exact ⟨m, s, hrun, hleaves, level_accepts productTable ["id"] productTable_keyInOrder ⟨1, 0⟩ none (by decide)
    34 1489 (by decide) m s hrun (fun _ _ => sized_of_short hshort) _ (product_good 25 [])
    (by rw [Sized, length_encode_product]; decide) habs⟩

end RarmDb
