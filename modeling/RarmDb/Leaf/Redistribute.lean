import RarmDb.Leaf.Atomic

/-!
# The pages after a split

The leaf is given by the keys that the code decodes and the bytes of its records.

* `IsLargest`: the new key is the largest one; `TwoPagesSuffice`: some cut leaves two parts that fit;
* **`splitAndInsert_redistributes`**: no record is lost, and the separator is the first key of the right
  page;
* **`splitAndInsert_ok_iff`**: when the split returns `Ok`;
* **`splitAndInsert_nonempty_iff`**, **`splitAndInsert_balanced_iff`**: when both pages have records,
  and when the split is balanced.
-/

namespace RarmDb

open RecordSerializer SortedMap Page LeafNodeView

variable {D : Type} [RustDecimal D]

/-- The new key is greater than every key of the leaf. -/
def IsLargest (es : List (Key D × Bytes)) (key : Key D) : Prop := ∀ e ∈ es, e.1.cmp key = .lt

/-- Some cut strictly inside leaves two parts that each fit an empty page. -/
def TwoPagesSuffice (records : List Bytes) : Prop :=
  ∃ k, 0 < k ∧ k < records.length ∧ FitsIn (records.take k) 8160 ∧ FitsIn (records.drop k) 8160

variable {td : TableDefinition} {pk : List String} {es : List (Key D × Bytes)}
  {leaf right leaf' right' : LeafNodeView} {orig orig' : Option LeafNodeView} {r : Record D}
  {sep : Key D}

/-- The bytes that the code counts: those of the old records, and of the new one unless its key is the
largest. -/
theorem SplitEntries.counted_eq [DecimalOrder D] (h : SplitEntries td pk es leaf right r) :
    (IsLargest es (keyOf td pk r) ∧ counted td pk es r = bytesOf (es.map Prod.snd)) ∨
      (¬ IsLargest es (keyOf td pk r) ∧
        counted td pk es r = bytesOf (es.map Prod.snd) + (encode r).length) := by
  have hcounted : counted td pk es r = bytesOf (es.map Prod.snd) +
      if (upper Key.cmp Prod.fst es (keyOf td pk r)).isEmpty then 0 else (encode r).length := rfl
  rw [hcounted]
  cases hupper : upper Key.cmp Prod.fst es (keyOf td pk r) with
  | nil =>
    refine .inl ⟨fun e he => ?_, rfl⟩
    have hold := lower_append_upper h.stores.sorted h.absent
    rw [hupper, List.append_nil] at hold
    rw [← hold] at he
    exact of_decide_eq_true (List.mem_filter.mp he).2
  | cons e rest =>
    refine .inr ⟨fun hlargest => ?_, rfl⟩
    have he : e ∈ upper Key.cmp Prod.fst es (keyOf td pk r) := hupper ▸ List.mem_cons_self
    obtain ⟨hmem, hlt⟩ := List.mem_filter.mp he
    have hlt' : (keyOf td pk r).cmp e.1 = .lt := of_decide_eq_true hlt
    rw [Std.OrientedCmp.gt_of_lt (hlargest e hmem)] at hlt'
    cases hlt'

theorem inKeyOrder_of_isLargest [DecimalOrder D] (h : IsLargest es (keyOf td pk r)) :
    inKeyOrder td pk es r = es ++ [newEntry td pk r] := by
  have hlower : lower Key.cmp Prod.fst es (keyOf td pk r) = es :=
    List.filter_eq_self.mpr fun e he => decide_eq_true (h e he)
  have hupper : upper Key.cmp Prod.fst es (keyOf td pk r) = [] := by
    refine List.filter_eq_nil_iff.mpr fun e he => ?_
    rw [Std.OrientedCmp.gt_of_lt (h e he)]
    decide
  change lower Key.cmp Prod.fst es (keyOf td pk r) ++ _ ::
    upper Key.cmp Prod.fst es (keyOf td pk r) = _
  rw [hlower, hupper]

theorem splitAt_iff_of_le {records : List Bytes} {half half' k : ℕ} (h : SplitAt records half k)
    (hk : k < records.length) (hle : half ≤ half') :
    SplitAt records half' k ↔
      ∀ j, ¬ (half < bytesOf (records.take j) ∧ bytesOf (records.take j) ≤ half') := by
  constructor
  · rintro h' j ⟨hlow, hhigh⟩
    have hj : k < j := by
      by_contra hj
      have hmono := bytesOf_take_le records (Nat.not_lt.mp hj)
      have := h.low
      omega
    have hmono := bytesOf_take_le records (show k + 1 ≤ j from hj)
    have := h'.high hk
    omega
  · intro hnone
    refine ⟨h.le, h.low.trans hle, fun _ => ?_⟩
    by_contra hge
    exact hnone (k + 1) ⟨h.high hk, Nat.not_lt.mp hge⟩

/-! ## Some splits -/

theorem between_input : SplitEntries productTable ["id"]
    ((products [1, 3] 0).map (newEntry productTable ["id"])) (productLeaf [1, 3] 0) (emptyLeaf 1)
    (product 2 []) := by
  refine (productLeaf_input (by decide) ?_ (by decide)).entries
  unfold Sorted
  decide

theorem between_run : ∃ sep leaf' right' orig',
    splitAndInsert (productLeaf [1, 3] 0) (product 2 []) (emptyLeaf 1) none productTable =
      .ret (.ok sep, leaf', right', orig') := by
  have hall : (inKeyOrder productTable ["id"] ((products [1, 3] 0).map (newEntry productTable ["id"]))
      (product 2 [])).map Prod.snd = (products [1, 2, 3] 0).map encode := rfl
  have hcounted : counted productTable ["id"]
      ((products [1, 3] 0).map (newEntry productTable ["id"])) (product 2 []) =
        bytesOf ((products [1, 3] 0).map encode) + (encode (product 2 [])).length := rfl
  rw [bytesOf_products, length_encode_product] at hcounted
  refine between_input.run_fits (k := 1) ?_ (by decide) ?_ ?_ none
  · rw [hall, hcounted]
    refine ⟨by decide, ?_, fun _ => ?_⟩
    · change bytesOf ((products [1] 0).map encode) ≤ _
      rw [bytesOf_products]
      decide
    · change _ < bytesOf ((products [1, 2] 0).map encode)
      rw [bytesOf_products]
      decide
  · rw [hall]
    change FitsIn ((products [1] 0).map encode) _
    rw [FitsIn, bytesOf_products, length_products]
    decide
  · rw [hall]
    change FitsIn ((products [2, 3] 0).map encode) _
    rw [FitsIn, bytesOf_products, length_products]
    decide

/-- The product with the largest id goes to a leaf with one other. -/
theorem ascending_input : SplitEntries productTable ["id"]
    ((products [1] 0).map (newEntry productTable ["id"])) (productLeaf [1] 0) (emptyLeaf 1)
    (product 2 []) := by
  refine (productLeaf_input (by decide) ?_ (by decide)).entries
  unfold Sorted
  decide

/-- Half of the first product's bytes are less than that product, so the left page gets nothing. -/
theorem ascending_cut :
    SplitAt ((products [1, 2] 0).map encode) (bytesOf ((products [1] 0).map encode) / 2) 0 := by
  refine ⟨Nat.zero_le _, Nat.zero_le _, fun _ => ?_⟩
  change _ < bytesOf ((products [1] 0).map encode)
  rw [bytesOf_products]
  decide

theorem ascending_run : ∃ sep leaf' right' orig',
    splitAndInsert (productLeaf [1] 0) (product 2 []) (emptyLeaf 1) none productTable =
      .ret (.ok sep, leaf', right', orig') ∧
    leaf'.pageView.recordsOf = [] ∧ right'.pageView.recordsOf = (products [1, 2] 0).map encode := by
  have hdrop : FitsIn ((products [1, 2] 0).map encode) 8160 := by
    rw [FitsIn, bytesOf_products, length_products]
    decide
  obtain ⟨sep, leaf', right', orig', hrun⟩ :=
    ascending_input.run_fits ascending_cut (Nat.succ_pos _) (Nat.zero_le _) hdrop none
  obtain ⟨k, hcut, -, -, -, ⟨-, hfirst⟩, -, hrest⟩ := ascending_input.of_ok hrun
  obtain rfl := hcut.unique ascending_cut
  exact ⟨sep, leaf', right', orig', hrun, hfirst, hrest⟩

/-- **A split redistributes without loss.** When `split_and_insert` returns `Ok`, the records of the left
page followed by those of the right page are the old ones with the new one at its sorted place; the
separator is the first key of the right page, and the keys of the pages are on either side of it. -/
theorem splitAndInsert_redistributes [DecimalOrder D] [DecimalCodec D] (td : TableDefinition)
    (pk : List String) (es : List (Key D × Bytes)) (leaf right : LeafNodeView)
    (orig : Option LeafNodeView) (r : Record D) (sep : Key D) (leaf' right' : LeafNodeView)
    (orig' : Option LeafNodeView) (h : SplitEntries td pk es leaf right r)
    (hrun : splitAndInsert leaf r right orig td = .ret (.ok sep, leaf', right', orig')) :
    ∃ below above first rest, es = below ++ above ∧
      (∀ e ∈ below, e.1.cmp (keyOf td pk r) = .lt) ∧ (∀ e ∈ above, (keyOf td pk r).cmp e.1 = .lt) ∧
      first ++ rest = below ++ (keyOf td pk r, encode r) :: above ∧
      StoresKeys td leaf'.pageView first ∧ StoresKeys td right'.pageView rest ∧
      (∀ e ∈ first, e.1.cmp sep = .lt) ∧ (∀ e ∈ rest, e.1.cmp sep ≠ .lt) ∧
      rest.head?.map Prod.fst = some sep := by
  obtain ⟨k, -, hsep, hleft, hdrop, ⟨hwf, hfirst⟩, hwf', hrest⟩ := h.of_ok hrun
  have hdecode := h.decode_inKeyOrder (h.length_new_lt hleft hdrop)
  have hsorted : Sorted Key.cmp ((inKeyOrder td pk es r).map Prod.fst) :=
    sorted_place h.stores.sorted
  obtain ⟨hlt, hge⟩ := h.parts_apart hsep
  refine ⟨lower Key.cmp Prod.fst es (keyOf td pk r), upper Key.cmp Prod.fst es (keyOf td pk r),
    (inKeyOrder td pk es r).take k, (inKeyOrder td pk es r).drop k,
    (lower_append_upper h.stores.sorted h.absent).symm, ?_, ?_, List.take_append_drop ..,
    ⟨hwf, hfirst, fun e he => hdecode e (List.mem_of_mem_take he), ?_⟩,
    ⟨hwf', hrest, fun e he => hdecode e (List.mem_of_mem_drop he), ?_⟩, hlt, hge, ?_⟩
  · exact fun e he => of_decide_eq_true (List.mem_filter.mp he).2
  · exact fun e he => of_decide_eq_true (List.mem_filter.mp he).2
  · exact hsorted.sublist ((List.take_sublist ..).map _)
  · exact hsorted.sublist ((List.drop_sublist ..).map _)
  · obtain ⟨e, rest, heq, he⟩ := SplitEntries.drop_eq hsep
    rw [heq, List.head?_cons, Option.map_some, he]

theorem splitAndInsert_redistributes_between : ∃ sep leaf' right' orig',
    splitAndInsert (productLeaf [1, 3] 0) (product 2 []) (emptyLeaf 1) none productTable =
      .ret (.ok sep, leaf', right', orig') ∧
    ∃ below above first rest,
      (products [1, 3] 0).map (newEntry productTable ["id"]) = below ++ above ∧
      (∀ e ∈ below, e.1.cmp (keyOf productTable ["id"] (product 2 [])) = .lt) ∧
      (∀ e ∈ above, (keyOf productTable ["id"] (product 2 [])).cmp e.1 = .lt) ∧
      first ++ rest =
        below ++ (keyOf productTable ["id"] (product 2 []), encode (product 2 [])) :: above ∧
      StoresKeys productTable leaf'.pageView first ∧ StoresKeys productTable right'.pageView rest ∧
      (∀ e ∈ first, e.1.cmp sep = .lt) ∧ (∀ e ∈ rest, e.1.cmp sep ≠ .lt) ∧
      rest.head?.map Prod.fst = some sep := by
  obtain ⟨sep, leaf', right', orig', hrun⟩ := between_run
  exact ⟨sep, leaf', right', orig', hrun, splitAndInsert_redistributes productTable ["id"] _ _ _ _ _
    sep leaf' right' orig' between_input hrun⟩

/-- **When a split returns `Ok`.** If the records fit two pages at all, `split_and_insert` returns `Ok`
exactly if they do when they are cut after the longest prefix that is at most half of the bytes that the
code counts. -/
theorem splitAndInsert_ok_iff [DecimalOrder D] (td : TableDefinition) (pk : List String)
    (es : List (Key D × Bytes)) (leaf right : LeafNodeView) (orig : Option LeafNodeView) (r : Record D)
    (h : SplitEntries td pk es leaf right r)
    (hfits : TwoPagesSuffice ((inKeyOrder td pk es r).map Prod.snd)) :
    (∃ sep leaf' right' orig', splitAndInsert leaf r right orig td =
        .ret (.ok sep, leaf', right', orig')) ↔
      CutFits ((inKeyOrder td pk es r).map Prod.snd) (counted td pk es r / 2) := by
  constructor
  · rintro ⟨sep, leaf', right', orig', hrun⟩
    obtain ⟨k, hcut, -, hleft, hdrop, -⟩ := h.of_ok hrun
    exact ⟨k, hcut, hleft, hdrop⟩
  · rintro ⟨k, hcut, hleft, hdrop⟩
    refine h.run_fits hcut (h.cut_lt ?_ hcut) hleft hdrop orig
    rintro rfl
    obtain ⟨j, hj, hj', -⟩ := hfits
    have hlen := h.length_inKeyOrder
    rw [List.length_nil] at hlen
    omega

theorem crowded_twoPages : TwoPagesSuffice ((inKeyOrder productTable ["id"]
    ((products [1, 2, 3] 2666).map (newEntry productTable ["id"])) bulky).map Prod.snd) := by
  refine ⟨2, by decide, by decide, ?_, ?_⟩
  · change FitsIn ((products [1, 2] 2666).map encode) _
    rw [FitsIn, bytesOf_products, length_products]
    decide
  · change FitsIn ((products [3] 2666).map encode ++ [encode bulky]) _
    rw [FitsIn, bytesOf_append, List.length_append, bytesOf_products, length_products, bytesOf_cons,
      length_bulky]
    decide

theorem splitAndInsert_ok_iff_crowded :
    (∃ sep leaf' right' orig', splitAndInsert crowded bulky (emptyLeaf 1) none productTable =
        .ret (.ok sep, leaf', right', orig')) ↔
      CutFits ((inKeyOrder productTable ["id"]
          ((products [1, 2, 3] 2666).map (newEntry productTable ["id"])) bulky).map Prod.snd)
        (counted productTable ["id"]
          ((products [1, 2, 3] 2666).map (newEntry productTable ["id"])) bulky / 2) :=
  splitAndInsert_ok_iff productTable ["id"] _ crowded (emptyLeaf 1) none bulky crowded_input.entries
    crowded_twoPages

/-- The last product is not counted, so the leaf keeps one product and the other three do not fit. -/
theorem splitAndInsert_full_though_fits :
    SplitEntries productTable ["id"] ((products [1, 2, 3] 2666).map (newEntry productTable ["id"]))
        crowded (emptyLeaf 1) bulky ∧
      TwoPagesSuffice ((inKeyOrder productTable ["id"]
        ((products [1, 2, 3] 2666).map (newEntry productTable ["id"])) bulky).map Prod.snd) ∧
      ∃ leaf' right', splitAndInsert crowded bulky (emptyLeaf 1) none productTable =
        .ret (.error .pageFull, leaf', right', none) := by
  refine ⟨crowded_input.entries, crowded_twoPages, ?_⟩
  obtain ⟨k, hcut, heq⟩ := crowded_input.entries.run_eq none
  have hall : (inKeyOrder productTable ["id"]
      ((products [1, 2, 3] 2666).map (newEntry productTable ["id"])) bulky).map Prod.snd =
        (products [1, 2, 3] 2666 ++ [bulky]).map encode := rfl
  have hcounted : counted productTable ["id"]
      ((products [1, 2, 3] 2666).map (newEntry productTable ["id"])) bulky = 8100 := by
    rw [counted_map, splitTotal_crowded]
  rw [hall, hcounted] at hcut
  obtain rfl := hcut.unique splitAt_crowded
  have hlen := crowded_input.entries.length_inKeyOrder
  rw [hall] at hlen
  have hkey : ((inKeyOrder productTable ["id"]
      ((products [1, 2, 3] 2666).map (newEntry productTable ["id"])) bulky).map Prod.fst)[1]? =
        some [.int 2] := rfl
  rw [hkey, Exec.unwrap_some, Exec.ret_bind, hall] at heq
  have hfits : ¬ (FitsIn (((products [1, 2, 3] 2666 ++ [bulky]).map encode).take 1) 8160 ∧
      FitsIn (((products [1, 2, 3] 2666 ++ [bulky]).map encode).drop 1) 8160) := by
    rintro ⟨-, hdrop⟩
    change FitsIn ((products [2, 3] 2666).map encode ++ [encode bulky]) 8160 at hdrop
    rw [FitsIn, bytesOf_append, List.length_append, bytesOf_products, length_products,
      bytesOf_cons, length_bulky] at hdrop
    exact absurd hdrop (by decide)
  obtain ⟨leaf', right', hfull⟩ := splitRewrite_full crowded none [.int 2] crowded_input.right hlen
    (Nat.succ_pos _) hfits
  exact ⟨leaf', right', heq.trans hfull⟩

/-- **When both pages have records.** After a split that returns `Ok` both pages hold a record exactly if
the first record in key order is at most half of the bytes that the code counts. -/
theorem splitAndInsert_nonempty_iff [DecimalOrder D] (td : TableDefinition) (pk : List String)
    (es : List (Key D × Bytes)) (leaf right : LeafNodeView) (orig : Option LeafNodeView) (r : Record D)
    (sep : Key D) (leaf' right' : LeafNodeView) (orig' : Option LeafNodeView)
    (h : SplitEntries td pk es leaf right r)
    (hrun : splitAndInsert leaf r right orig td = .ret (.ok sep, leaf', right', orig')) :
    (leaf'.pageView.recordsOf ≠ [] ∧ right'.pageView.recordsOf ≠ []) ↔
      ∀ bytes ∈ ((inKeyOrder td pk es r).map Prod.snd).head?,
        bytes.length ≤ counted td pk es r / 2 := by
  obtain ⟨k, hcut, hsep, -, -, ⟨-, hfirst⟩, -, hrest⟩ := h.of_ok hrun
  obtain ⟨e, rest, hdrop, -⟩ := SplitEntries.drop_eq hsep
  rw [hfirst, hrest, hdrop, List.map_cons]
  cases hall : inKeyOrder td pk es r with
  | nil =>
    rw [hall, List.drop_nil] at hdrop
    cases hdrop
  | cons a as =>
    rw [hall, List.map_cons] at hcut
    have hlow := hcut.low
    have hhigh := hcut.high
    cases k with
    | zero =>
      have hhalf := hhigh (Nat.succ_pos _)
      rw [Nat.zero_add, List.take_succ_cons, List.take_zero, bytesOf_cons, bytesOf_nil] at hhalf
      simp only [List.take_zero, List.map_nil, List.map_cons, List.head?_cons, Option.mem_some_iff,
        forall_eq', ne_eq, not_true_eq_false, false_and, false_iff]
      omega
    | succ k =>
      rw [List.take_succ_cons, bytesOf_cons] at hlow
      simp only [List.take_succ_cons, List.map_cons, List.head?_cons, Option.mem_some_iff,
        forall_eq', ne_eq, reduceCtorEq, not_false_eq_true, and_self, true_iff]
      omega

theorem splitAndInsert_nonempty_iff_between : ∃ sep leaf' right' orig',
    splitAndInsert (productLeaf [1, 3] 0) (product 2 []) (emptyLeaf 1) none productTable =
      .ret (.ok sep, leaf', right', orig') ∧
    ((leaf'.pageView.recordsOf ≠ [] ∧ right'.pageView.recordsOf ≠ []) ↔
      ∀ bytes ∈ ((inKeyOrder productTable ["id"]
          ((products [1, 3] 0).map (newEntry productTable ["id"])) (product 2 [])).map Prod.snd).head?,
        bytes.length ≤ counted productTable ["id"]
          ((products [1, 3] 0).map (newEntry productTable ["id"])) (product 2 []) / 2) := by
  obtain ⟨sep, leaf', right', orig', hrun⟩ := between_run
  exact ⟨sep, leaf', right', orig', hrun, splitAndInsert_nonempty_iff productTable ["id"] _ _ _ _ _
    sep leaf' right' orig' between_input hrun⟩

/-- A leaf with one product is left without records. -/
theorem splitAndInsert_empties_leaf :
    SplitEntries productTable ["id"] ((products [1] 0).map (newEntry productTable ["id"]))
        (productLeaf [1] 0) (emptyLeaf 1) (product 2 []) ∧
      ∃ sep leaf' right' orig',
        splitAndInsert (productLeaf [1] 0) (product 2 []) (emptyLeaf 1) none productTable =
          .ret (.ok sep, leaf', right', orig') ∧
        ¬ (leaf'.pageView.recordsOf ≠ [] ∧ right'.pageView.recordsOf ≠ []) := by
  obtain ⟨sep, leaf', right', orig', hrun, hfirst, -⟩ := ascending_run
  exact ⟨ascending_input, sep, leaf', right', orig', hrun, fun hne => hne.1 hfirst⟩

/-- **When a split is balanced.** After a split that returns `Ok` the left page has at most half of the
bytes of all records, and more than half with the first record of the right page, exactly if the new key
is not the largest, or no initial segment of the old records has more than half of their bytes and at
most half of the bytes with the new record. -/
theorem splitAndInsert_balanced_iff [DecimalOrder D] (td : TableDefinition) (pk : List String)
    (es : List (Key D × Bytes)) (leaf right : LeafNodeView) (orig : Option LeafNodeView) (r : Record D)
    (sep : Key D) (leaf' right' : LeafNodeView) (orig' : Option LeafNodeView)
    (h : SplitEntries td pk es leaf right r)
    (hrun : splitAndInsert leaf r right orig td = .ret (.ok sep, leaf', right', orig')) :
    (bytesOf leaf'.pageView.recordsOf ≤ (bytesOf (es.map Prod.snd) + (encode r).length) / 2 ∧
      ∃ bytes, right'.pageView.recordsOf.head? = some bytes ∧
        (bytesOf (es.map Prod.snd) + (encode r).length) / 2 <
          bytesOf leaf'.pageView.recordsOf + bytes.length) ↔
      ¬ IsLargest es (keyOf td pk r) ∨
        ∀ j, ¬ (bytesOf (es.map Prod.snd) / 2 < bytesOf ((es.map Prod.snd).take j) ∧
          bytesOf ((es.map Prod.snd).take j) ≤
            (bytesOf (es.map Prod.snd) + (encode r).length) / 2) := by
  obtain ⟨k, hcut, hsep, -, -, ⟨-, hfirst⟩, -, hrest⟩ := h.of_ok hrun
  obtain ⟨e, rest, hdrop, -⟩ := SplitEntries.drop_eq hsep
  have hk : k < ((inKeyOrder td pk es r).map Prod.snd).length := by
    have hlen := congrArg List.length hdrop
    rw [List.length_drop, List.length_cons] at hlen
    rw [List.length_map]
    omega
  have hnext : bytesOf (((inKeyOrder td pk es r).map Prod.snd).take (k + 1)) =
      bytesOf (((inKeyOrder td pk es r).map Prod.snd).take k) + e.2.length := by
    rw [List.take_add, ← List.map_drop, hdrop, bytesOf_append, List.map_cons, List.take_succ_cons,
      List.take_zero, bytesOf_cons, bytesOf_nil, Nat.add_zero]
  have hbalanced : (bytesOf leaf'.pageView.recordsOf ≤
        (bytesOf (es.map Prod.snd) + (encode r).length) / 2 ∧
      ∃ bytes, right'.pageView.recordsOf.head? = some bytes ∧
        (bytesOf (es.map Prod.snd) + (encode r).length) / 2 <
          bytesOf leaf'.pageView.recordsOf + bytes.length) ↔
      SplitAt ((inKeyOrder td pk es r).map Prod.snd)
        ((bytesOf (es.map Prod.snd) + (encode r).length) / 2) k := by
    rw [hfirst, hrest, hdrop, List.map_take, List.map_cons, List.head?_cons]
    constructor
    · rintro ⟨hlow, bytes, hbytes, hhigh⟩
      obtain rfl := Option.some.inj hbytes
      exact ⟨hk.le, hlow, fun _ => hnext ▸ hhigh⟩
    · intro hat
      exact ⟨hat.low, e.2, rfl, hnext ▸ hat.high hk⟩
  rw [hbalanced]
  rcases h.counted_eq with ⟨hlargest, hcounted⟩ | ⟨hlargest, hcounted⟩
  · rw [hcounted] at hcut
    rw [splitAt_iff_of_le hcut hk (by omega), inKeyOrder_of_isLargest hlargest, List.map_append]
    have hinitial : ∀ j, j ≤ es.length → (es.map Prod.snd ++ [newEntry td pk r].map Prod.snd).take j =
        (es.map Prod.snd).take j := fun j hj =>
      List.take_append_of_le_length (by rwa [List.length_map])
    constructor
    · intro hnone
      right
      intro j
      have hj := hnone (min j es.length)
      rw [hinitial _ (Nat.min_le_right ..)] at hj
      rwa [List.take_eq_take_min, List.length_map]
    · rintro hor j ⟨hlow, hhigh⟩
      rcases Nat.lt_or_ge es.length j with hj | hj
      · -- The whole list has more than half of its bytes.
        rw [List.take_of_length_le (by simp; omega), bytesOf_append, List.map_singleton, bytesOf_cons,
          bytesOf_nil, newEntry] at hhigh hlow
        dsimp only at hhigh hlow
        omega
      · rw [hinitial j hj] at hlow hhigh
        exact hor.resolve_left (not_not_intro hlargest) j ⟨hlow, hhigh⟩
  · rw [hcounted] at hcut
    exact iff_of_true hcut (.inl hlargest)

theorem splitAndInsert_balanced_iff_between : ∃ sep leaf' right' orig',
    splitAndInsert (productLeaf [1, 3] 0) (product 2 []) (emptyLeaf 1) none productTable =
      .ret (.ok sep, leaf', right', orig') ∧
    ((bytesOf leaf'.pageView.recordsOf ≤
        (bytesOf (((products [1, 3] 0).map (newEntry productTable ["id"])).map Prod.snd) +
          (encode (product 2 [])).length) / 2 ∧
      ∃ bytes, right'.pageView.recordsOf.head? = some bytes ∧
        (bytesOf (((products [1, 3] 0).map (newEntry productTable ["id"])).map Prod.snd) +
          (encode (product 2 [])).length) / 2 < bytesOf leaf'.pageView.recordsOf + bytes.length) ↔
      ¬ IsLargest ((products [1, 3] 0).map (newEntry productTable ["id"]))
          (keyOf productTable ["id"] (product 2 [])) ∨
        ∀ j, ¬ (bytesOf (((products [1, 3] 0).map (newEntry productTable ["id"])).map Prod.snd) / 2 <
            bytesOf ((((products [1, 3] 0).map (newEntry productTable ["id"])).map Prod.snd).take j) ∧
          bytesOf ((((products [1, 3] 0).map (newEntry productTable ["id"])).map Prod.snd).take j) ≤
            (bytesOf (((products [1, 3] 0).map (newEntry productTable ["id"])).map Prod.snd) +
              (encode (product 2 [])).length) / 2)) := by
  obtain ⟨sep, leaf', right', orig', hrun⟩ := between_run
  exact ⟨sep, leaf', right', orig', hrun, splitAndInsert_balanced_iff productTable ["id"] _ _ _ _ _
    sep leaf' right' orig' between_input hrun⟩

/-- Two products of one size are not divided: both go to the right page. -/
theorem splitAndInsert_unbalanced :
    SplitEntries productTable ["id"] ((products [1] 0).map (newEntry productTable ["id"]))
        (productLeaf [1] 0) (emptyLeaf 1) (product 2 []) ∧
      ∃ sep leaf' right' orig',
        splitAndInsert (productLeaf [1] 0) (product 2 []) (emptyLeaf 1) none productTable =
          .ret (.ok sep, leaf', right', orig') ∧
        ∀ bytes, right'.pageView.recordsOf.head? = some bytes →
          bytesOf leaf'.pageView.recordsOf + bytes.length ≤
            (bytesOf ((products [1] 0).map encode) + (encode (product 2 [])).length) / 2 := by
  obtain ⟨sep, leaf', right', orig', hrun, hfirst, hrest⟩ := ascending_run
  refine ⟨ascending_input, sep, leaf', right', orig', hrun, fun bytes hbytes => ?_⟩
  have hhead : ((products [1, 2] 0).map encode).head? = some (encode (product 1 [])) := rfl
  rw [hrest, hhead] at hbytes
  obtain rfl := Option.some.inj hbytes
  rw [hfirst, bytesOf_nil, bytesOf_products, length_encode_product, length_encode_product]
  decide

end RarmDb
