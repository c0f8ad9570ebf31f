import RarmDb.Leaf.Entries

/-!
# A split that fails

* `AtomicOnError`: when the split returns an error, all three pages are what they were;
* `SplitFits`: both parts of the sorted records fit an empty page;
* `SplitInput.distributes`: a split whose parts fit; **`SplitInput.parts_of_ok`**: a split that returns;
* `atomicOnError_of_splitFits`, `atomicOnError_of_blank`, `blank_of_atomicOnError`;
* **`splitAndInsert_atomic_iff`**: a split is atomic exactly in these cases;
* `crowded`: a leaf whose split loses two records.
-/

namespace RarmDb

open RecordSerializer SortedMap Page LeafNodeView

variable {D : Type} [RustDecimal D]

/-- Whenever the split returns an error, all three pages are what they were. -/
def AtomicOnError (td : TableDefinition) (leaf right : LeafNodeView) (orig : Option LeafNodeView)
    (r : Record D) : Prop :=
  ∀ e leaf' right' orig', splitAndInsert leaf r right orig td = .ret (.error e, leaf', right', orig') →
    leaf' = leaf ∧ right' = right ∧ orig' = orig

/-- The records in key order are cut after the longest prefix that is at most half of the total;
each part fits an empty page. -/
def SplitFits (td : TableDefinition) (pk : List String) (rs : List (Record D)) (r : Record D) : Prop :=
  CutFits ((withNew td pk rs r).map encode) (splitTotal td pk rs r / 2)

variable {td : TableDefinition} {pk : List String} {rs : List (Record D)} {r : Record D}
  {leaf right : LeafNodeView}

/-! ## The records in key order -/

theorem withNew_nil (td : TableDefinition) (pk : List String) (r : Record D) :
    withNew td pk [] r = [r] := rfl

theorem below_append_above [DecimalOrder D] (hs : Sorted Key.cmp (rs.map (keyOf td pk)))
    (habs : ∀ r' ∈ rs, (keyOf td pk r).cmp (keyOf td pk r') ≠ .eq) :
    below td pk rs r ++ above td pk rs r = rs := lower_append_upper hs habs

theorem length_withNew [DecimalOrder D] (hs : Sorted Key.cmp (rs.map (keyOf td pk)))
    (habs : ∀ r' ∈ rs, (keyOf td pk r).cmp (keyOf td pk r') ≠ .eq) :
    (withNew td pk rs r).length = rs.length + 1 := length_place hs habs

theorem splitTotal_le [DecimalOrder D] (hs : Sorted Key.cmp (rs.map (keyOf td pk)))
    (habs : ∀ r' ∈ rs, (keyOf td pk r).cmp (keyOf td pk r') ≠ .eq) :
    splitTotal td pk rs r ≤ bytesOf ((withNew td pk rs r).map encode) := countedBytes_le encode hs habs

theorem eq_nil_of_encode_nil [DecimalOrder D] (hk : td.Keyed pk) {a : Record D}
    (ha : WellTyped td.columns a) (h : (encode a).length = 0)
    (habs : ∀ r' ∈ rs, (keyOf td pk r).cmp (keyOf td pk r') ≠ .eq) : rs = [] := by
  obtain rfl := hk.eq_nil (columns_eq_nil ha h)
  exact List.eq_nil_iff_forall_not_mem.mpr fun r' hr' => habs r' hr' rfl

theorem encode_injective [DecimalCodec D] {columns : List ColumnDefinition} {a b : Record D}
    (ha : WellTyped columns a) (hb : WellTyped columns b) (hdata : ShortData a) (hdata' : ShortData b)
    (h : encode a = encode b) : a = b := by
  have h₁ := deserialize_encode ha hdata
  rw [h, deserialize_encode hb hdata'] at h₁
  injection h₁ with h₁
  injection h₁ with h₁
  exact h₁.symm

/-! ## Errors and what they leave behind -/

theorem SplitInput.withNew_good (h : SplitInput td pk rs leaf right r) {a : Record D}
    (ha : a ∈ withNew td pk rs r) : GoodRecord td pk a := by
  rcases List.mem_append.mp ha with ha | ha
  · exact h.holds.good a (List.mem_of_mem_filter ha)
  · rcases List.mem_cons.mp ha with rfl | ha
    · exact h.good
    · exact h.holds.good a (List.mem_of_mem_filter ha)

section Atomic

variable [DecimalOrder D] {orig : Option LeafNodeView}

namespace SplitInput

theorem length_records (h : SplitInput td pk rs leaf right r) :
    ((withNew td pk rs r).map encode).length = rs.length + 1 := by
  rw [List.length_map, length_withNew h.sorted h.absent]

/-- The separator key exists, or the records have no bytes and there is only the new one. -/
theorem key_or_nil (h : SplitInput td pk rs leaf right r) {k : ℕ}
    (hcut : SplitAt ((withNew td pk rs r).map encode) (splitTotal td pk rs r / 2) k) :
    (k ≤ rs.length ∧ ∃ key, ((withNew td pk rs r).map (keyOf td pk))[k]? = some key) ∨
      rs = [] ∧ (encode r).length = 0 ∧ k = 1 := by
  have hlen := h.length_records
  by_cases hle : k ≤ rs.length
  · refine .inl ⟨hle, _, List.getElem?_eq_getElem ?_⟩
    rw [List.length_map] at hlen ⊢
    omega
  · right
    have hk := hcut.le
    have hlow := hcut.low
    have htotal := splitTotal_le h.sorted h.absent
    rw [List.take_of_length_le (by omega)] at hlow
    have hzero : bytesOf ((withNew td pk rs r).map encode) = 0 := by omega
    have hnew : (encode r).length = 0 := by
      rw [withNew_eq, List.map_append, List.map_cons, bytesOf_append, bytesOf_cons] at hzero
      omega
    have hnil := eq_nil_of_encode_nil h.keyed.keyed h.good.wellTyped hnew h.absent
    have hrs : rs.length = 0 := List.length_eq_zero_iff.mpr hnil
    exact ⟨hnil, hnew, by omega⟩

variable [DecimalCodec D]

theorem run_eq (h : SplitInput td pk rs leaf right r) (orig : Option LeafNodeView) :
    ∃ k, SplitAt ((withNew td pk rs r).map encode) (splitTotal td pk rs r / 2) k ∧
      splitAndInsert leaf r right orig td =
        Exec.unwrap ((withNew td pk rs r).map (keyOf td pk))[k]? >>= fun key =>
          splitRewrite leaf right orig ((withNew td pk rs r).map encode) k rs.length key :=
  splitAndInsert_eq h.keyed h.holds h.sorted h.good h.absent h.right.count orig

/-- The pages after a split whose parts fit. Without a separator key the code panics. -/
theorem run_fits (h : SplitInput td pk rs leaf right r) (hfits : SplitFits td pk rs r)
    (orig : Option LeafNodeView) :
    (rs = [] ∧ (encode r).length = 0 ∧ splitAndInsert leaf r right orig td = .panic) ∨
      ∃ k key, k ≤ rs.length ∧ ((withNew td pk rs r).map (keyOf td pk))[k]? = some key ∧
        FitsIn (((withNew td pk rs r).map encode).take k) 8160 ∧
        FitsIn (((withNew td pk rs r).map encode).drop k) 8160 ∧
        splitAndInsert leaf r right orig td = .ret (.ok key,
          (leaf.cleared.appended (((withNew td pk rs r).map encode).take k)).withPointer 16
            right.pageId.pageIndex,
          ((right.appended (((withNew td pk rs r).map encode).drop k)).withPointer 16
            (u32At leaf.pageView 16)).withPointer 12 leaf.pageId.pageIndex,
          orig.map fun l => l.withPointer 12 right.pageId.pageIndex) := by
  obtain ⟨k, hcut, heq⟩ := h.run_eq orig
  obtain ⟨k', hcut', hleft, hdrop⟩ := hfits
  obtain rfl := hcut.unique hcut'
  have hlen := h.length_records
  have hk' := hlen ▸ hcut.le
  rw [heq]
  rcases h.key_or_nil hcut with ⟨hle, key, hkey⟩ | ⟨rfl, hzero, rfl⟩
  · refine .inr ⟨k, key, hle, hkey, hleft, hdrop, ?_⟩
    rw [hkey, Exec.unwrap_some, Exec.ret_bind, splitRewrite_fits h.right hlen hk' hleft hdrop]
  · exact .inl ⟨rfl, hzero, rfl⟩

omit [DecimalOrder D] [DecimalCodec D] in
theorem holds_parts (h : SplitInput td pk rs leaf right r) {k : ℕ}
    (hleft : FitsIn (((withNew td pk rs r).map encode).take k) 8160)
    (hdrop : FitsIn (((withNew td pk rs r).map encode).drop k) 8160) (u v w : UInt32) :
    Holds td pk ((leaf.cleared.appended (((withNew td pk rs r).map encode).take k)).withPointer 16
        u).pageView ((withNew td pk rs r).take k) ∧
      Holds td pk (((right.appended (((withNew td pk rs r).map encode).drop k)).withPointer 16
        v).withPointer 12 w).pageView ((withNew td pk rs r).drop k) := by
  have hleftRecords := recordsOf_cleared_appended leaf hleft
  have hrightRecords := recordsOf_appended_empty h.right hdrop
  rw [← (emptyPage_cleared leaf).room] at hleft
  rw [← h.right.room] at hdrop
  have hleftWF := appended_wf (emptyPage_cleared leaf).wf hleft
  have hrightWF := appended_wf h.right.wf hdrop
  refine ⟨⟨withPointer_wf hleftWF (by decide) _,
    fun a ha => h.withNew_good (List.mem_of_mem_take ha), ?_⟩,
    ⟨withPointer_wf (withPointer_wf hrightWF (by decide) _) (by decide) _,
    fun a ha => h.withNew_good (List.mem_of_mem_drop ha), ?_⟩⟩
  · rw [recordsOf_withPointer hleftWF (by decide), hleftRecords, List.map_take]
  · rw [recordsOf_withPointer (withPointer_wf hrightWF (by decide) _) (by decide),
      recordsOf_withPointer hrightWF (by decide), hrightRecords, List.map_drop]

/-- **Both parts fit**: the split distributes the records over the two pages. -/
theorem distributes (h : SplitInput td pk rs leaf right r) (hfits : SplitFits td pk rs r)
    (hbytes : (encode r).length ≠ 0) (orig : Option LeafNodeView) :
    ∃ k key leaf' right', k ≤ rs.length ∧
      ((withNew td pk rs r).map (keyOf td pk))[k]? = some key ∧
      splitAndInsert leaf r right orig td = .ret (.ok key, leaf', right',
        orig.map fun l => l.withPointer 12 right.pageId.pageIndex) ∧
      Holds td pk leaf'.pageView ((withNew td pk rs r).take k) ∧
      Holds td pk right'.pageView ((withNew td pk rs r).drop k) := by
  rcases h.run_fits hfits orig with ⟨-, hzero, -⟩ | ⟨k, key, hk, hkey, hleft, hdrop, heq⟩
  · exact absurd hzero hbytes
  · exact ⟨k, key, _, _, hk, hkey, heq, h.holds_parts hleft hdrop _ _ _⟩

/-- **A split that returns `Ok`** has put the records in key order on the two pages. -/
theorem parts_of_ok (h : SplitInput td pk rs leaf right r) {key' : Key D} {leaf' right' : LeafNodeView}
    {orig' : Option LeafNodeView}
    (hrun : splitAndInsert leaf r right orig td = .ret (.ok key', leaf', right', orig')) :
    ∃ k, Holds td pk leaf'.pageView ((withNew td pk rs r).take k) ∧
      Holds td pk right'.pageView ((withNew td pk rs r).drop k) := by
  obtain ⟨k, -, -, -, -, ⟨hwf, hleft⟩, hwf', hright⟩ := h.entries.of_ok hrun
  have hbytes : ∀ l : List (Record D), (l.map (newEntry td pk)).map Prod.snd = l.map encode :=
    fun l => List.map_map
  rw [inKeyOrder_map, ← List.map_take, hbytes] at hleft
  rw [inKeyOrder_map, ← List.map_drop, hbytes] at hright
  exact ⟨k, ⟨hwf, fun a ha => h.withNew_good (List.mem_of_mem_take ha), hleft⟩,
    ⟨hwf', fun a ha => h.withNew_good (List.mem_of_mem_drop ha), hright⟩⟩

theorem atomicOnError_of_splitFits (h : SplitInput td pk rs leaf right r)
    (hfits : SplitFits td pk rs r) (orig : Option LeafNodeView) :
    AtomicOnError td leaf right orig r := by
  intro e leaf' right' orig' hrun
  rcases h.run_fits hfits orig with ⟨-, -, heq⟩ | ⟨k, key, -, -, -, -, heq⟩
  · rw [heq] at hrun
    cases hrun
  · rw [heq] at hrun
    cases hrun

/-- **A blank leaf** is the same after it was initialized. -/
theorem atomicOnError_of_blank (h : SplitInput td pk rs leaf right r) {parent : Option UInt64}
    (hblank : leaf.pageView = blankPage .leafNode parent) (orig : Option LeafNodeView) :
    AtomicOnError td leaf right orig r := by
  intro e leaf' right' orig' hrun
  obtain ⟨k, hcut, heq⟩ := h.run_eq orig
  have hcount : rs.length = 0 := by
    rw [← h.holds.count, hblank, itemCount_blankPage]
  obtain rfl := List.length_eq_zero_iff.mp hcount
  have hcleared : leaf.cleared = leaf := by
    rw [cleared, hblank, blankPage_parentOf, ← hblank]
  rw [heq] at hrun
  rcases h.key_or_nil hcut with ⟨hk, key, hkey⟩ | ⟨-, -, rfl⟩
  · obtain rfl := Nat.le_zero.mp hk
    rw [hkey, Exec.unwrap_some, Exec.ret_bind, splitRewrite_left_fits (Nat.zero_le _), hcleared] at hrun
    by_cases hdrop : FitsIn (((withNew td pk [] r).map encode).drop 0) 8160
    · rw [splitFinish_ok _ _ _ _ h.right (sliceRecords_eq h.length_records (Nat.zero_le _)) hdrop] at hrun
      cases hrun
    · obtain ⟨j, hj, -, hfull⟩ := splitFinish_full (leaf.appended []) orig
        (toIndex (u32At leaf.pageView 16)) key h.right
        (sliceRecords_eq h.length_records (Nat.zero_le _)) hdrop
      obtain rfl : j = 0 := Nat.lt_one_iff.mp hj
      rw [List.take_zero] at hfull hrun
      rw [hfull] at hrun
      cases hrun
      exact ⟨rfl, rfl, rfl⟩
  · exact False.elim (by cases hrun)

theorem nil_of_take_eq (h : SplitInput td pk rs leaf right r)
    (hcut : SplitAt ((withNew td pk rs r).map encode) (splitTotal td pk rs r / 2) rs.length)
    (htake : ((withNew td pk rs r).map encode).take rs.length = rs.map encode) : rs = [] := by
  have hlow := hcut.low
  rw [htake] at hlow
  cases habove : above td pk rs r with
  | nil =>
    -- The new record is the last one and is not counted, so the old ones have no bytes.
    rw [splitTotal_eq, habove, List.isEmpty_nil, if_pos rfl, Nat.add_zero] at hlow
    by_contra hne
    obtain ⟨a, ha⟩ := List.exists_mem_of_ne_nil rs hne
    have hmem : (encode a).length ∈ (rs.map encode).map List.length :=
      List.mem_map_of_mem (List.mem_map_of_mem ha)
    have hle : (encode a).length ≤ bytesOf (rs.map encode) := List.le_sum_of_mem hmem
    exact hne (eq_nil_of_encode_nil h.keyed.keyed (h.holds.good a ha).wellTyped (by omega) h.absent)
  | cons b rest =>
    -- The new record is in the first part, so it is an old one.
    have hsplit := below_append_above h.sorted h.absent
    have hlt : (below td pk rs r).length < rs.length := by
      conv_rhs => rw [← hsplit, habove, List.length_append, List.length_cons]
      omega
    have hmem : encode r ∈ rs.map encode := by
      rw [← htake, withNew_eq, List.map_append, List.map_cons, List.mem_take_iff_getElem]
      refine ⟨(below td pk rs r).length, ?_, ?_⟩
      · rw [List.length_append, List.length_map, List.length_cons]
        omega
      · rw [List.getElem_append_right (by rw [List.length_map])]
        simp only [List.length_map, Nat.sub_self, List.getElem_cons_zero]
    obtain ⟨a, ha, heq⟩ := List.mem_map.mp hmem
    have hshort := h.holds.length_encode_lt ha
    have har : a = r := encode_injective (h.holds.good a ha).wellTyped h.good.wellTyped
      (shortData_of_encode hshort) (shortData_of_encode (heq ▸ hshort)) heq
    exact absurd Std.ReflCmp.compare_self (h.absent r (har ▸ ha))

/-- **A part does not fit**: an atomic split was applied to a blank leaf. -/
theorem blank_of_atomicOnError (h : SplitInput td pk rs leaf right r)
    (hatomic : AtomicOnError td leaf right orig r) (hfits : ¬ SplitFits td pk rs r) :
    ∃ parent, leaf.pageView = blankPage .leafNode parent := by
  obtain ⟨k, hcut, heq⟩ := h.run_eq orig
  have hlen := h.length_records
  have hrecords := h.holds.recordsOf
  rcases h.key_or_nil hcut with ⟨hk, key, hkey⟩ | ⟨rfl, hzero, rfl⟩
  · rw [hkey, Exec.unwrap_some, Exec.ret_bind] at heq
    by_cases hleft : FitsIn (((withNew td pk rs r).map encode).take k) 8160
    · have hdrop : ¬ FitsIn (((withNew td pk rs r).map encode).drop k) 8160 :=
        fun hdrop => hfits ⟨k, hcut, hleft, hdrop⟩
      obtain ⟨j, hj, hjfit, hfull⟩ := splitFinish_full
        (leaf.cleared.appended (((withNew td pk rs r).map encode).take k)) orig
        (toIndex (u32At leaf.pageView 16)) key h.right (sliceRecords_eq hlen (by omega)) hdrop
      obtain ⟨hleaf, -, -⟩ := hatomic _ _ _ _ (heq.trans ((splitRewrite_left_fits hleft).trans hfull))
      have hcut_eq := recordsOf_cleared_appended leaf hleft
      rw [hleaf, hrecords] at hcut_eq
      have hk' : k = rs.length := by
        have := congrArg List.length hcut_eq
        rw [List.length_map, List.length_take] at this
        omega
      subst hk'
      obtain rfl := h.nil_of_take_eq hcut hcut_eq.symm
      exact ⟨parentOf leaf.pageView, congrArg pageView hleaf.symm⟩
    · obtain ⟨j, hj, hjfit, hfull⟩ := splitRewrite_left_full leaf right orig rs.length key hleft
      obtain ⟨hleaf, -, -⟩ := hatomic _ _ _ _ (heq.trans hfull)
      have hcut_eq := recordsOf_cleared_appended leaf hjfit
      rw [hleaf, hrecords] at hcut_eq
      have := congrArg List.length hcut_eq
      rw [List.length_map, List.length_take] at this
      rw [List.length_take] at hj
      omega
  · refine absurd ⟨1, hcut, ?_, ?_⟩ hfits
    · simp [FitsIn, withNew_nil, List.length_eq_zero_iff.mp hzero]
    · simp [FitsIn, withNew_nil]

end SplitInput

/-- **When a split is atomic.** Whenever `split_and_insert` returns an error all three pages are what
they were, exactly if both parts of the sorted records fit an empty page or the leaf is blank. -/
theorem splitAndInsert_atomic_iff [DecimalCodec D] (td : TableDefinition) (pk : List String) (rs : List (Record D))
    (leaf right : LeafNodeView) (orig : Option LeafNodeView) (r : Record D)
    (h : SplitInput td pk rs leaf right r) :
    (∀ e leaf' right' orig',
      splitAndInsert leaf r right orig td = .ret (.error e, leaf', right', orig') →
        leaf' = leaf ∧ right' = right ∧ orig' = orig) ↔
      SplitFits td pk rs r ∨ ∃ parent, leaf.pageView = blankPage .leafNode parent := by
  constructor
  · intro hatomic
    by_cases hfits : SplitFits td pk rs r
    · exact .inl hfits
    · exact .inr (h.blank_of_atomicOnError hatomic hfits)
  · rintro (hfits | ⟨parent, hblank⟩)
    · exact h.atomicOnError_of_splitFits hfits orig
    · exact h.atomicOnError_of_blank hblank orig

end Atomic

/-! ## A leaf whose split loses records -/

/-- A leaf with these products. -/
def productLeaf (ids : List Int32) (n : ℕ) : LeafNodeView :=
  ⟨⟨1, 0⟩, productsPage ids n⟩

/-- A leaf with three products of 2700 bytes. -/
def crowded : LeafNodeView :=
  ⟨⟨1, 0⟩, appendPages (blankPage .leafNode none) ((products [1, 2, 3] 2666).map encode)⟩

/-- An empty leaf. -/
def emptyLeaf (pageIndex : UInt32) : LeafNodeView := ⟨⟨1, pageIndex⟩, blankPage .leafNode none⟩

/-- One more product, of 2800 bytes. -/
def bulky : Record Decimal96 := product 4 (List.replicate 2766 0)

theorem length_bulky : (encode bulky).length = 2800 := by
  rw [bulky, length_encode_product, List.length_replicate]

theorem productLeaf_input {ids : List Int32} {n : ℕ} {id : Int32} {notes : Bytes}
    (hfit : ids.length * (34 + n) + 4 * ids.length ≤ 8160)
    (hs : Sorted Key.cmp ((products ids n).map (keyOf productTable ["id"])))
    (habs : id ∉ ids) :
    SplitInput productTable ["id"] (products ids n) (productLeaf ids n) (emptyLeaf 1)
      (product id notes) where
  keyed := productTable_keyInOrder
  holds := productsPage_holds hfit
  sorted := hs
  good := product_good id _
  absent := by
    intro r hr heq
    obtain ⟨a, ha, rfl⟩ := List.mem_map.mp hr
    have hbeq : ([.int id] : Key Decimal96) == [.int a] := Key.beq_iff_cmp.mpr heq
    have hid : (id == a) = true := (Bool.and_eq_true_iff.mp hbeq).1
    exact habs (eq_of_beq hid ▸ ha)
  right := emptyPage_blankPage .leafNode none

theorem crowded_input :
    SplitInput productTable ["id"] (products [1, 2, 3] 2666) crowded (emptyLeaf 1) bulky := by
  refine productLeaf_input (by decide) ?_ (by decide)
  unfold Sorted
  decide

theorem splitAndInsert_atomic_iff_crowded :
    (∀ e leaf' right' orig',
      splitAndInsert crowded bulky (emptyLeaf 1) none productTable =
        .ret (.error e, leaf', right', orig') →
          leaf' = crowded ∧ right' = emptyLeaf 1 ∧ orig' = none) ↔
      SplitFits productTable ["id"] (products [1, 2, 3] 2666) bulky ∨
        ∃ parent, crowded.pageView = blankPage .leafNode parent :=
  splitAndInsert_atomic_iff productTable ["id"] (products [1, 2, 3] 2666) crowded (emptyLeaf 1) none
    bulky crowded_input

/-- The first part is one record, the other has 8212 bytes with its slots. -/
theorem splitAt_crowded : SplitAt ((products [1, 2, 3] 2666 ++ [bulky]).map encode) (8100 / 2) 1 where
  le := by decide
  low := by
    change bytesOf ((products [1] 2666).map encode) ≤ _
    rw [bytesOf_products]
    decide
  high _ := by
    change _ < bytesOf ((products [1, 2] 2666).map encode)
    rw [bytesOf_products]
    decide

theorem splitTotal_crowded :
    splitTotal productTable ["id"] (products [1, 2, 3] 2666) bulky = 8100 := by
  have habove : above productTable ["id"] (products [1, 2, 3] 2666) bulky = [] := rfl
  rw [splitTotal_eq, habove, bytesOf_products]
  rfl

/-- The page is full when the last product comes, and the leaf has lost two of its three. -/
theorem splitAndInsert_loses_products :
    SplitInput productTable ["id"] (products [1, 2, 3] 2666) crowded (emptyLeaf 1) bulky ∧
      crowded.pageView.recordsOf = (products [1, 2, 3] 2666).map encode ∧
      ∃ leaf' right', splitAndInsert crowded bulky (emptyLeaf 1) none productTable =
          .ret (.error .pageFull, leaf', right', none) ∧
        leaf'.pageView.recordsOf = (products [1] 2666).map encode ∧ leaf' ≠ crowded := by
  have hrecords := crowded_input.holds.recordsOf
  refine ⟨crowded_input, hrecords, ?_⟩
  obtain ⟨k, hcut, heq⟩ := crowded_input.run_eq none
  have hnew : withNew productTable ["id"] (products [1, 2, 3] 2666) bulky =
      products [1, 2, 3] 2666 ++ [bulky] := rfl
  rw [hnew, splitTotal_crowded] at hcut
  obtain rfl := hcut.unique splitAt_crowded
  have hkey : ((products [1, 2, 3] 2666 ++ [bulky]).map (keyOf productTable ["id"]))[1]? =
      some [.int 2] := rfl
  rw [hnew, hkey, Exec.unwrap_some, Exec.ret_bind] at heq
  have hleft : FitsIn (((products [1, 2, 3] 2666 ++ [bulky]).map encode).take 1) 8160 := by
    change FitsIn ((products [1] 2666).map encode) 8160
    rw [FitsIn, bytesOf_products, length_products]
    decide
  have hdrop : ¬ FitsIn (((products [1, 2, 3] 2666 ++ [bulky]).map encode).drop 1) 8160 := by
    change ¬ FitsIn ((products [2, 3] 2666).map encode ++ [encode bulky]) 8160
    rw [FitsIn, bytesOf_append, List.length_append, bytesOf_products, length_products, bytesOf_cons,
      length_bulky]
    decide
  obtain ⟨j, -, -, hfull⟩ := splitFinish_full
    (crowded.cleared.appended (((products [1, 2, 3] 2666 ++ [bulky]).map encode).take 1)) none
    (toIndex (u32At crowded.pageView 16)) [.int 2] crowded_input.right
    (sliceRecords_eq (n := (products [1, 2, 3] 2666).length) rfl (by decide)) hdrop
  have hlost := recordsOf_cleared_appended crowded hleft
  refine ⟨_, _, heq.trans ((splitRewrite_left_fits hleft).trans hfull), hlost, fun hsame => ?_⟩
  have hlength := congrArg List.length hlost
  rw [hsame, hrecords] at hlength
  cases hlength

end RarmDb
