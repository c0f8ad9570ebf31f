import Mathlib.Algebra.Order.BigOperators.Group.List
import RarmDb.Lib.SortedMap
import RarmDb.Page.Ops
import RarmDb.Leaf.Append
import RarmDb.Record.RoundTrip

/-!
# Searching a leaf

* `KeysAre`: the keys of the records of a page;
* `findKey_spec`: on strictly increasing keys `find_key` ends, at the slot of the key or at the
  place where it belongs; **`findKey_correct`**: it is a correct binary search;
* `GoodRecord`, `Holds`: a page that holds the given well-typed records;
* `entries`: the keys and records of a leaf as the code decodes them; **`entries_eq`**.
-/

namespace RarmDb

open RecordSerializer SortedMap

variable {D : Type} [RustDecimal D]

namespace LeafNodeView

/-- The keys of the records of the page, slot by slot. -/
structure KeysAre (p : Page) (td : TableDefinition) (ks : List (Key D)) : Prop where
  count : p.itemCount = ks.length
  decode : ∀ i (h : i < ks.length), ∃ data, p.getRecord i = .ret (some data) ∧
    deserializePrimaryKey td data = .ret (.ok ks[i])

/-- What `find_key` returns: the slot of the key, or the slot at which to insert it. -/
def Found (ks : List (Key D)) (key : Key D) : Except ℕ ℕ → Prop
  | .ok i => ∃ h : i < ks.length, key.cmp ks[i] = .eq
  | .error i => Narrows Key.cmp ks key i i

section Search

variable [DecimalOrder D] {p : Page} {td : TableDefinition} {ks : List (Key D)} {key : Key D}

theorem findKeyLoop_spec (hk : KeysAre p td ks) (hs : Sorted Key.cmp ks) {low high : ℕ}
    (h : Narrows Key.cmp ks key low high) :
    ∃ result, findKeyLoop p key td low high = .ret result ∧ Found ks key result := by
  rw [findKeyLoop]
  by_cases hlt : low < high
  · have hmid : low + (high - low) / 2 < high := by omega
    have hlen : low + (high - low) / 2 < ks.length := hmid.trans_le h.high_le
    obtain ⟨data, hdata, hkey⟩ := hk.decode _ hlen
    rw [dif_pos hlt]
    dsimp only
    rw [hdata, Exec.ret_bind, Exec.unwrap_some, Exec.ret_bind, hkey, Exec.ret_bind,
      Exec.unwrapResult_ok, Exec.ret_bind]
    by_cases heq : (key == ks[low + (high - low) / 2]) = true
    · rw [if_pos heq]
      exact ⟨_, rfl, hlen, Key.beq_iff_cmp.mp heq⟩
    · rw [if_neg heq]
      have hne := mt Key.beq_iff_cmp.mpr heq
      cases hcmp : key.cmp ks[low + (high - low) / 2] with
      | eq => exact absurd hcmp hne
      | gt =>
        rw [if_pos rfl]
        exact findKeyLoop_spec hk hs (h.right hs hmid hlen (Std.OrientedCmp.lt_of_gt hcmp))
      | lt =>
        rw [if_neg (by decide), if_pos rfl]
        exact findKeyLoop_spec hk hs (h.left hs (Nat.le_add_right ..) hlen hcmp)
  · rw [dif_neg hlt]
    obtain rfl : low = high := Nat.le_antisymm h.le (Nat.not_lt.mp hlt)
    exact ⟨_, rfl, h⟩
termination_by high - low

/-- **`find_key` ends, and finds the key or its place.** -/
theorem findKey_spec (hk : KeysAre p td ks) (hs : Sorted Key.cmp ks) (key : Key D) :
    ∃ result, findKey p key td = .ret result ∧ Found ks key result := by
  obtain ⟨result, hrun, hfound⟩ := findKeyLoop_spec hk hs (narrows_all ks key)
  refine ⟨result, ?_, hfound⟩
  rw [findKey, Page.getItemCount_eq, Exec.ret_bind, hk.count, hrun]

theorem Found.ok_of_cmp_eq (hs : Sorted Key.cmp ks) {i : ℕ} (hi : i < ks.length)
    (heq : key.cmp ks[i] = .eq) {result : Except ℕ ℕ} (h : Found ks key result) : result = .ok i := by
  cases result with
  | ok j =>
    obtain ⟨hj, hfound⟩ := h
    have hij : Key.cmp ks[i] ks[j] = .eq := (Std.TransCmp.congr_left heq).symm.trans hfound
    rcases lt_trichotomy i j with hlt | rfl | hlt
    · rw [hs.lt hlt hj] at hij
      cases hij
    · rfl
    · rw [Std.OrientedCmp.gt_of_lt (hs.lt hlt hi)] at hij
      cases hij
  | error j =>
    have hn : Narrows Key.cmp ks key j j := h
    rcases Nat.lt_or_ge i j with hij | hji
    · have hbelow := hn.below i hi hij
      rw [Std.OrientedCmp.eq_symm heq] at hbelow
      cases hbelow
    · have habove := hn.above i hi hji
      rw [heq] at habove
      cases habove

theorem Found.eq_ok (hs : Sorted Key.cmp ks) {i : ℕ} (hi : i < ks.length) (hkey : ks[i] = key)
    {result : Except ℕ ℕ} (h : Found ks key result) : result = .ok i :=
  h.ok_of_cmp_eq hs hi (by subst hkey; exact Std.ReflCmp.compare_self)

/-- **`find_key` is a correct binary search**: it ends, finds the slot of a key that the page has, and
otherwise the place between the lesser and the greater keys. -/
theorem findKey_correct (hk : KeysAre p td ks) (hs : Sorted Key.cmp ks) (key : Key D) :
    (∃ result, findKey p key td = .ret result) ∧
      (∀ i, findKey p key td = .ret (.ok i) ↔ ∃ h : i < ks.length, (key == ks[i]) = true) ∧
      ∀ i, findKey p key td = .ret (.error i) → p.getItemCount = .ret ks.length ∧ i ≤ ks.length ∧
        (∀ j (h : j < ks.length), j < i → Key.cmp ks[j] key = .lt) ∧
        ∀ j (h : j < ks.length), i ≤ j → Key.cmp ks[j] key = .gt := by
  obtain ⟨result, hrun, hfound⟩ := findKey_spec hk hs key
  refine ⟨⟨result, hrun⟩, fun i => ⟨fun hok => ?_, fun ⟨hi, heq⟩ => ?_⟩, fun i herr => ?_⟩
  · rw [hrun] at hok
    cases hok
    obtain ⟨hi, heq⟩ := hfound
    exact ⟨hi, Key.beq_iff_cmp.mpr heq⟩
  · rw [hrun, hfound.ok_of_cmp_eq hs hi (Key.beq_iff_cmp.mp heq)]
  · rw [hrun] at herr
    cases herr
    have hn : Narrows Key.cmp ks key i i := hfound
    refine ⟨hk.count ▸ Page.getItemCount_eq p, hn.high_le, hn.below, fun j hj hij => ?_⟩
    exact Std.OrientedCmp.gt_of_lt (hn.above j hj hij)

end Search

/-! ## The records of a leaf -/

/-- One value per column, each admitted by its column, and no null in a key column. -/
structure GoodRecord (td : TableDefinition) (pk : List String) (record : Record D) : Prop where
  wellTyped : WellTyped td.columns record
  key : ∀ n ∈ pk, valueOf td.columns record n ≠ .null

/-- The page holds these records, slot by slot. -/
structure Holds (td : TableDefinition) (pk : List String) (p : Page) (rs : List (Record D)) :
    Prop where
  wf : p.WF
  good : ∀ r ∈ rs, GoodRecord td pk r
  recordsOf : p.recordsOf = rs.map encode

/-- The keys and records of a leaf, decoded slot by slot. -/
def entries (td : TableDefinition) (leaf : LeafNodeView) : Exec (List (Key D × Record D)) := do
  let itemCount ← leaf.getItemCount
  (List.range itemCount).mapM fun i => do
    let recordData ← leaf.pageView.getRecord i
    let bytes ← Exec.unwrap recordData
    let keyResult ← deserializePrimaryKey td bytes
    let key ← Exec.unwrapResult keyResult
    let result ← deserialize td.columns bytes
    let record ← Exec.unwrapResult result
    return (key, record)

omit [RustDecimal D] in
theorem shortData_of_variablePart {r : Record D} (h : (variablePart r).length < 2 ^ 31) :
    ShortData r := by
  intro v hv
  have h₁ : v.dataLength ≤ (variableBytes v).length := by
    cases v <;> simp [DataValue.dataLength, variableBytes]
  have h₂ : (variableBytes v).length ≤ (variablePart r).length := by
    rw [variablePart, List.length_flatMap]
    exact List.le_sum_of_mem (List.mem_map_of_mem hv)
  omega

theorem shortData_of_encode {r : Record D} (h : (encode r).length < 2 ^ 31) : ShortData r := by
  rw [encode, List.length_append] at h
  exact shortData_of_variablePart (by omega)

variable {td : TableDefinition} {pk : List String} {p : Page} {rs : List (Record D)}

omit [RustDecimal D] in
theorem GoodRecord.any_isNull {r : Record D} (h : GoodRecord td pk r) :
    (keyOf td pk r).any DataValue.isNull = false := by
  rw [keyOf, List.any_map, List.any_eq_false]
  intro n hn hnull
  exact h.key n hn (DataValue.isNull_iff.mp hnull)

namespace Holds

theorem count (h : Holds td pk p rs) : p.itemCount = rs.length := by
  rw [← Page.length_recordsOf, h.recordsOf, List.length_map]

theorem getRecord (h : Holds td pk p rs) {i : ℕ} (hi : i < rs.length) :
    p.getRecord i = .ret (some (encode rs[i])) := by
  refine Page.getRecord_of_recordsOf h.wf ?_
  rw [h.recordsOf, List.getElem?_map, List.getElem?_eq_getElem hi]
  rfl

theorem length_encode_lt (h : Holds td pk p rs) {r : Record D} (hr : r ∈ rs) :
    (encode r).length < 2 ^ 31 := by
  have hmem : (encode r).length ∈ p.recordsOf.map List.length := by
    rw [h.recordsOf, List.map_map]
    exact List.mem_map_of_mem hr
  have hle := List.le_sum_of_mem hmem
  have hsum := h.wf.total_le
  rw [Page.sum_length_recordsOf] at hle
  omega

theorem shortData (h : Holds td pk p rs) {r : Record D} (hr : r ∈ rs) : ShortData r :=
  shortData_of_encode (h.length_encode_lt hr)

variable [DecimalCodec D]

theorem deserializePrimaryKey_eq (h : Holds td pk p rs) (hk : td.Keyed pk) {r : Record D}
    (hr : r ∈ rs) : deserializePrimaryKey td (encode r) = .ret (.ok (keyOf td pk r)) := by
  rw [deserializePrimaryKey_encode hk (h.good r hr).wellTyped ((h.shortData hr).upToKey pk td.columns),
    (h.good r hr).any_isNull, if_neg Bool.false_ne_true]

theorem keysAre (h : Holds td pk p rs) (hk : td.Keyed pk) :
    KeysAre p td (rs.map (keyOf td pk)) where
  count := by rw [List.length_map, h.count]
  decode i hi := by
    rw [List.length_map] at hi
    refine ⟨_, h.getRecord hi, ?_⟩
    rw [List.getElem_map, h.deserializePrimaryKey_eq hk (List.getElem_mem hi)]

/-- **The entries of a leaf** are its records with their keys. -/
theorem entries_eq {leaf : LeafNodeView} (h : Holds td pk leaf.pageView rs) (hk : td.Keyed pk) :
    entries td leaf = .ret (rs.map (entryOf td pk)) := by
  have hread : ∀ i ∈ List.range rs.length, (do
      let recordData ← leaf.pageView.getRecord i
      let bytes ← Exec.unwrap recordData
      let keyResult ← deserializePrimaryKey td bytes
      let key ← Exec.unwrapResult keyResult
      let result ← deserialize td.columns bytes
      let record ← Exec.unwrapResult result
      return (key, record)) = Exec.ret ((rs.map (entryOf td pk)).getD i ([], [])) := by
    intro i hi
    have hi' := List.mem_range.mp hi
    have hr : rs[i] ∈ rs := List.getElem_mem hi'
    rw [h.getRecord hi', Exec.ret_bind, Exec.unwrap_some, Exec.ret_bind,
      h.deserializePrimaryKey_eq hk hr, Exec.ret_bind, Exec.unwrapResult_ok, Exec.ret_bind,
      deserialize_encode (h.good _ hr).wellTyped (h.shortData hr), Exec.ret_bind,
      Exec.unwrapResult_ok, Exec.ret_bind, Exec.pure_eq, List.getD_eq_getElem _ _ (by simpa using hi'),
      List.getElem_map]
    rfl
  rw [entries, getItemCount, Page.getPageHeaderU16Value_eq (by decide), Exec.ret_bind]
  change (List.range leaf.pageView.itemCount).mapM _ = _
  rw [h.count, Exec.mapM_ret hread]
  congr 1
  refine List.ext_getElem (by simp) fun i h₁ h₂ => ?_
  rw [List.getElem_map, List.getElem_range, List.getD_eq_getElem _ _ h₂]

end Holds

theorem product_good (id : Int32) (notes : Bytes) :
    GoodRecord productTable ["id"] (product id notes) where
  wellTyped := product_wellTyped id notes
  key n hn := by
    obtain rfl := List.mem_singleton.mp hn
    exact fun h => by cases h

end LeafNodeView

/-! ## Pages of products -/

open Page LeafNodeView

theorem length_encode_product (id : Int32) (notes : Bytes) :
    (encode (product id notes)).length = 34 + notes.length := by
  have hname : (asBytes "chair").length = 5 := rfl
  simp only [encode, product, fixedPart, variablePart, fixedBytes, variableBytes, List.flatMap_cons,
    List.flatMap_nil, List.length_append, List.length_nil, length_nullBitmap, length_leBytes,
    List.length_cons, Vector.length_toList, hname]
  omega

/-- Products with these ids and `n` bytes of notes. -/
def products (ids : List Int32) (n : ℕ) : List (Record Decimal96) :=
  ids.map fun id => product id (List.replicate n 0)

theorem bytesOf_products (ids : List Int32) (n : ℕ) :
    bytesOf ((products ids n).map encode) = ids.length * (34 + n) := by
  induction ids with
  | nil => rw [List.length_nil, Nat.zero_mul]; rfl
  | cons id ids ih =>
    rw [products, List.map_cons, List.map_cons, bytesOf_cons, length_encode_product,
      List.length_replicate, List.length_cons, Nat.succ_mul, Nat.add_comm, ← ih, products]

theorem length_products (ids : List Int32) (n : ℕ) :
    ((products ids n).map encode).length = ids.length := by
  rw [products, List.length_map, List.length_map]

/-- A page with these products. -/
def productsPage (ids : List Int32) (n : ℕ) : Page :=
  appendPages (blankPage .leafNode none) ((products ids n).map encode)

theorem productsPage_holds {ids : List Int32} {n : ℕ} (hfit : ids.length * (34 + n) + 4 * ids.length ≤ 8160) :
    Holds productTable ["id"] (productsPage ids n) (products ids n) := by
  have hroom : room (blankPage .leafNode none) = 8160 := by
    rw [room, heapEnd_blankPage, itemCount_blankPage]
  have hfit' : FitsIn ((products ids n).map encode) (room (blankPage .leafNode none)) := by
    rw [hroom, FitsIn, bytesOf_products, length_products]
    exact hfit
  obtain ⟨hwf, hrecords, -, -⟩ := appendPages_spec (blankPage_wf .leafNode none) hfit'
  refine ⟨hwf, fun r hr => ?_, ?_⟩
  · obtain ⟨id, -, rfl⟩ := List.mem_map.mp hr
    exact product_good id _
  · rw [productsPage, hrecords, recordsOf_blankPage, List.nil_append]

namespace LeafNodeView

/-- The keys of four products. -/
def fourKeys : List (Key Decimal96) := [[.int 2], [.int 5], [.int 9], [.int 12]]

theorem fourProducts_keysAre : KeysAre (productsPage [2, 5, 9, 12] 0) productTable fourKeys :=
  (productsPage_holds (by decide)).keysAre ⟨rfl, by decide, by decide, by decide⟩

/-- Of four products the third one is found, and another one belongs before it. -/
theorem findKey_correct_products :
    findKey (productsPage [2, 5, 9, 12] 0) ([.int 9] : Key Decimal96) productTable = .ret (.ok 2) ∧
      findKey (productsPage [2, 5, 9, 12] 0) ([.int 7] : Key Decimal96) productTable = .ret (.error 2) ∧
      (∀ j (h : j < 4), j < 2 → Key.cmp (fourKeys[j]) [.int 7] = .lt) ∧
      ∀ j (h : j < 4), 2 ≤ j → Key.cmp (fourKeys[j]) [.int 7] = .gt := by
  have hs : Sorted Key.cmp fourKeys := by
    unfold Sorted
    decide
  have hfind := findKey_correct fourProducts_keysAre hs
  refine ⟨((hfind [.int 9]).2.1 2).mpr ⟨by decide, by decide⟩, ?_⟩
  obtain ⟨⟨result, hrun⟩, hok, herr⟩ := hfind [.int 7]
  cases result with
  | ok i =>
    obtain ⟨hi, heq⟩ := (hok i).mp hrun
    have hnone : ∀ key ∈ fourKeys, (([.int 7] : Key Decimal96) == key) = false := by decide
    rw [hnone _ (List.getElem_mem hi)] at heq
    cases heq
  | error i =>
    obtain ⟨-, -, hbelow, habove⟩ := herr i hrun
    have hlow : 1 < i := by
      by_contra hle
      exact absurd (habove 1 (by decide) (by omega)) (by decide)
    have hhigh : i ≤ 2 := by
      by_contra hlt
      exact absurd (hbelow 2 (by decide) (by omega)) (by decide)
    obtain rfl : i = 2 := by omega
    exact ⟨hrun, hbelow, habove⟩

end LeafNodeView

end RarmDb
