import RarmDb.Leaf.Chain

/-!
# Scanning the leaves

* `Scan`: following `get_next_leaf_index` and decoding the leaves;
* `Belongs`: the leaf of the chain whose key range contains a key;
* `LevelOp`, `LevelStep`, `LevelRun`: insertions, updates, splits and merges that return `Ok`;
* `LevelInv`: the leaves are linked forwards, and their records stand for a map; `LevelInv.store`,
  `LevelInv.split`, `LevelInv.merge`, `LevelInv.exists_belongs`;
* `grown_level`: a run of products to a level with two leaves;
* **`scan_complete`**: in every reachable state a scan visits every leaf once, and finds the map.
-/

namespace RarmDb

open RecordSerializer SortedMap Page LeafNodeView

variable {D : Type} [RustDecimal D]

/-! ## Scans and runs -/

/-- Following `get_next_leaf_index` up to `None`: the visited leaves with the entries that the code
decodes from them. -/
inductive Scan (td : TableDefinition) (s : Store) :
    Option UInt32 → List (UInt32 × List (Key D × Record D)) → Prop
  | done : Scan td s none []
  | leaf {x : UInt32} {leaf : LeafNodeView} {next : Option UInt32} {es : List (Key D × Record D)}
      {pages : List (UInt32 × List (Key D × Record D))} (hx : s x = some leaf)
      (hnext : leaf.getNextLeafIndex = .ret next) (hentries : entries td leaf = .ret es)
      (rest : Scan td s next pages) : Scan td s (some x) ((x, es) :: pages)

/-- The leaf `x` is one whose key range contains the key, and does not have it: a scan meets lesser
keys before it and greater keys after it. -/
def Belongs (td : TableDefinition) (s : Store) (first x : UInt32) (key : Key D) : Prop :=
  ∃ before es after, Scan td s (some first) (before ++ (x, es) :: after) ∧
    (∀ e ∈ before.flatMap Prod.snd, e.1.cmp key = .lt) ∧ (∀ e ∈ es, key.cmp e.1 ≠ .eq) ∧
      ∀ e ∈ after.flatMap Prod.snd, key.cmp e.1 = .lt

/-- The operations on the leaf level. -/
inductive LevelOp (D : Type)
  | insertRecord (x : UInt32) (record : Record D)
  | updateRecord (x : UInt32) (record : Record D)
  | chain (op : ChainOp D)

/-- An operation that returns `Ok`. -/
inductive LevelStep (td : TableDefinition) : Store → LevelOp D → Store → Prop
  | insertRecord {s : Store} {x : UInt32} {record : Record D} {leaf leaf' : LeafNodeView} {i : ℕ}
      (hx : s x = some leaf) (hrun : leaf.insertRecord record td = .ret (.ok i, leaf')) :
      LevelStep td s (.insertRecord x record) (s.put leaf')
  | updateRecord {s : Store} {x : UInt32} {record : Record D} {leaf leaf' : LeafNodeView} {i : ℕ}
      (hx : s x = some leaf) (hrun : leaf.updateRecord record td = .ret (.ok i, leaf')) :
      LevelStep td s (.updateRecord x record) (s.put leaf')
  | chain {s s' : Store} {op : ChainOp D} (step : ChainStep td s op s') : LevelStep td s (.chain op) s'

/-- New records are well-typed and go to the leaf whose key range contains their key. -/
def LevelOp.Admitted (td : TableDefinition) (pk : List String) (first : UInt32) (s : Store) :
    LevelOp D → Prop
  | insertRecord x r => GoodRecord td pk r ∧ Belongs td s first x (keyOf td pk r)
  | updateRecord _ r => GoodRecord td pk r
  | chain (.split x r _) => GoodRecord td pk r ∧ Belongs td s first x (keyOf td pk r)
  | chain (.merge _) => True

/-- The records that were inserted, with their last values. -/
def LevelOp.assign (td : TableDefinition) (pk : List String) (m : RecordMap D) : LevelOp D → RecordMap D
  | insertRecord _ r => SortedMap.assign Key.cmp m (keyOf td pk r) r
  | updateRecord _ r => SortedMap.assign Key.cmp m (keyOf td pk r) r
  | chain (.split _ r _) => SortedMap.assign Key.cmp m (keyOf td pk r) r
  | chain (.merge _) => m

/-- A run from a store with the first leaf only: the records it inserted, and the last state. -/
inductive LevelRun (td : TableDefinition) (pk : List String) (first : UInt32) (s₀ : Store) :
    RecordMap D → Store → Prop
  | nil : LevelRun td pk first s₀ (fun _ => none) s₀
  | snoc {m : RecordMap D} {s s' : Store} {op : LevelOp D} (run : LevelRun td pk first s₀ m s)
      (hop : op.Admitted td pk first s) (step : LevelStep td s op s') :
      LevelRun td pk first s₀ (op.assign td pk m) s'

theorem Scan.unique {td : TableDefinition} {s : Store} {next : Option UInt32}
    {pages pages' : List (UInt32 × List (Key D × Record D))} (h : Scan td s next pages)
    (h' : Scan td s next pages') : pages = pages' := by
  induction h generalizing pages' with
  | done =>
    cases h'
    rfl
  | leaf hx hnext hentries rest ih =>
    cases h' with
    | leaf hx' hnext' hentries' rest' =>
      cases hx.symm.trans hx'
      cases hnext.symm.trans hnext'
      cases hentries.symm.trans hentries'
      rw [ih rest']

/-! ## The invariant -/

/-- The store has a leaf at `x`, which holds these records and points to `next`. -/
def IsLeaf (td : TableDefinition) (pk : List String) (s : Store) (x : UInt32) (rs : List (Record D))
    (next : UInt32) : Prop :=
  ∃ leaf, s x = some leaf ∧ leaf.pageId.pageIndex = x ∧ Holds td pk leaf.pageView rs ∧
    u32At leaf.pageView 16 = next

/-- The leaves are linked forwards from the first one, and their records stand for the map. -/
structure LevelInv (td : TableDefinition) (pk : List String) (s : Store) (first : UInt32)
    (nodes : List (UInt32 × List (Record D))) (m : RecordMap D) : Prop where
  segment : Segment (IsLeaf td pk s) nodes invalidPageIndex
  first_eq : firstOf nodes invalidPageIndex = first
  nodup : (nodes.map Prod.fst).Nodup
  valid : invalidPageIndex ∉ nodes.map Prod.fst
  mem : ∀ x, x ∈ nodes.map Prod.fst ↔ (s x).isSome
  represents : Represents Key.cmp ((nodes.flatMap Prod.snd).map (entryOf td pk)) m

variable {td : TableDefinition} {pk : List String} {s s' : Store} {first x y z i : UInt32}
  {leaf leaf' right right' : LeafNodeView} {nodes front back : List (UInt32 × List (Record D))}
  {rs rs' : List (Record D)} {record : Record D} {next : UInt32} {m : RecordMap D}

theorem IsLeaf.congr (h : IsLeaf td pk s z rs next) (hz : s' z = s z) : IsLeaf td pk s' z rs next := by
  obtain ⟨leaf, hleaf, h⟩ := h
  exact ⟨leaf, hz.trans hleaf, h⟩

theorem IsLeaf.put_of_ne (h : IsLeaf td pk s z rs next) (hz : z ≠ leaf.pageId.pageIndex) :
    IsLeaf td pk (s.put leaf) z rs next := h.congr (Store.put_of_ne hz)

theorem IsLeaf.putOption (h : IsLeaf td pk s z rs next) {orig : Option LeafNodeView}
    (horig : ∀ l ∈ orig, s l.pageId.pageIndex = some l) (v : UInt32) :
    IsLeaf td pk (s.putOption (orig.map fun l => l.withPointer 12 v)) z rs next := by
  cases orig with
  | none => exact h
  | some l =>
    change IsLeaf td pk (s.put (l.withPointer 12 v)) z rs next
    by_cases hz : z = (l.withPointer 12 v).pageId.pageIndex
    · subst hz
      obtain ⟨leaf, hleaf, hid, hholds, hnext⟩ := h
      obtain rfl : leaf = l := Option.some.inj (hleaf.symm.trans (horig l rfl))
      refine ⟨leaf.withPointer 12 v, Store.put_self .., hid, ⟨?_, hholds.good, ?_⟩, ?_⟩
      · exact withPointer_wf hholds.wf (by decide) v
      · rw [recordsOf_withPointer hholds.wf (by decide), hholds.recordsOf]
      · exact (u32At_setPointer_ne (by decide)).trans hnext
    · exact h.put_of_ne hz

theorem isSome_putOption {orig : Option LeafNodeView}
    (horig : ∀ l ∈ orig, s l.pageId.pageIndex = some l) (v : UInt32) (z : UInt32) :
    (s.putOption (orig.map fun l => l.withPointer 12 v) z).isSome = (s z).isSome := by
  cases orig with
  | none => rfl
  | some l =>
    change (s.put (l.withPointer 12 v) z).isSome = (s z).isSome
    by_cases hz : z = (l.withPointer 12 v).pageId.pageIndex
    · rw [hz, Store.put_self, withPointer, horig l rfl]
      rfl
    · rw [Store.put_of_ne hz]

theorem isSome_put (hx : s leaf.pageId.pageIndex = some right) (z : UInt32) :
    (s.put leaf z).isSome = (s z).isSome := by
  by_cases hz : z = leaf.pageId.pageIndex
  · rw [hz, Store.put_self, hx]
    rfl
  · rw [Store.put_of_ne hz]

/-- What a scan finds on a leaf. -/
def pageOf (td : TableDefinition) (pk : List String) (e : UInt32 × List (Record D)) :
    UInt32 × List (Key D × Record D) := (e.1, e.2.map (entryOf td pk))

omit [RustDecimal D] in
theorem flatMap_pageOf (nodes : List (UInt32 × List (Record D))) :
    (nodes.map (pageOf td pk)).flatMap Prod.snd = (nodes.flatMap Prod.snd).map (entryOf td pk) := by
  rw [List.flatMap_map, List.map_flatMap]
  rfl

omit [RustDecimal D] in
theorem map_fst_pageOf (nodes : List (UInt32 × List (Record D))) (td : TableDefinition)
    (pk : List String) :
    (nodes.map (pageOf td pk)).map Prod.fst = nodes.map Prod.fst := by
  rw [List.map_map]
  rfl

/-- **A scan of linked leaves** visits them in order. -/
theorem scan_of_segment [DecimalCodec D] (hk : td.Keyed pk)
    (h : Segment (IsLeaf td pk s) nodes invalidPageIndex) (hvalid : invalidPageIndex ∉ nodes.map Prod.fst) :
    Scan td s (toIndex (firstOf nodes invalidPageIndex)) (nodes.map (pageOf td pk)) := by
  induction nodes with
  | nil => exact Scan.done
  | cons e nodes ih =>
    obtain ⟨⟨leaf, hleaf, -, hholds, hnext⟩, hrest⟩ := h
    rw [List.map_cons, List.mem_cons, not_or] at hvalid
    have hindex : toIndex (firstOf (e :: nodes) invalidPageIndex) = some e.1 :=
      toIndex_eq_some.mpr ⟨rfl, Ne.symm hvalid.1⟩
    rw [hindex]
    refine Scan.leaf hleaf ?_ (hholds.entries_eq hk) (ih hrest hvalid.2)
    rw [getNextLeafIndex_eq, hnext]

theorem represents_withNew [DecimalOrder D] (h : Represents Key.cmp (rs.map (entryOf td pk)) m)
    (habs : ∀ r ∈ rs, (keyOf td pk record).cmp (keyOf td pk r) ≠ .eq) :
    Represents Key.cmp ((withNew td pk rs record).map (entryOf td pk))
      (assign Key.cmp m (keyOf td pk record) record) := by
  have hparts := below_append_above (map_fst_entryOf rs ▸ h.sorted) habs
  have hnew : withNew td pk rs record = rs.insertIdx (below td pk rs record).length record := by
    rw [withNew_eq, ← insertIdx_length, hparts]
  have hn : Narrows Key.cmp ((below td pk rs record ++ above td pk rs record).map (keyOf td pk))
      (keyOf td pk record) (below td pk rs record).length (below td pk rs record).length := by
    rw [List.map_append, ← List.length_map (keyOf td pk)]
    refine narrows_append (List.forall_mem_map.mpr fun r hr => ?_)
      (List.forall_mem_map.mpr fun r hr => ?_)
    · exact of_decide_eq_true (List.mem_filter.mp hr).2
    · exact of_decide_eq_true (List.mem_filter.mp hr).2
  rw [hparts, ← map_fst_entryOf] at hn
  rw [hnew, List.map_insertIdx]
  exact h.insertIdx hn record

theorem holds_merge {rs₂ : List (Record D)} {orig orig' : Option LeafNodeView}
    (hleaf : Holds td pk leaf.pageView rs) (hright : Holds td pk right.pageView rs₂)
    (hrun : leaf.merge right orig = .ret (.ok (), leaf', right', orig')) :
    Holds td pk leaf'.pageView (rs ++ rs₂) := by
  obtain ⟨hfit, rfl, -, -⟩ := merge_ok hright.wf hleaf.wf hrun
  refine ⟨withPointer_wf (appended_wf hleaf.wf hfit) (by decide) _, fun r hr => ?_, ?_⟩
  · exact (List.mem_append.mp hr).elim (hleaf.good r) (hright.good r)
  · rw [recordsOf_withPointer (appended_wf hleaf.wf hfit) (by decide), appended,
      (appendPages_spec hleaf.wf hfit).2.1, hleaf.recordsOf, hright.recordsOf, List.map_append]

namespace LevelInv

theorem split_at (h : LevelInv td pk s first nodes m) (hx : s x = some leaf) :
    ∃ front rs back, nodes = front ++ (x, rs) :: back ∧ leaf.pageId.pageIndex = x ∧
      Holds td pk leaf.pageView rs ∧ u32At leaf.pageView 16 = firstOf back invalidPageIndex := by
  have hmem := (h.mem x).mpr (Option.isSome_iff_exists.mpr ⟨leaf, hx⟩)
  obtain ⟨⟨_, rs⟩, he, rfl⟩ := List.mem_map.mp hmem
  obtain ⟨front, back, rfl⟩ := List.append_of_mem he
  obtain ⟨-, ⟨leaf', hleaf, hid, hholds, hnext⟩, -⟩ := segment_append.mp h.segment
  obtain rfl : leaf' = leaf := Option.some.inj (hleaf.symm.trans hx)
  exact ⟨front, rs, back, rfl, hid, hholds, hnext⟩

theorem leafAt_next (h : LevelInv td pk s first nodes m) (hnodes : nodes = front ++ back) :
    ∀ l ∈ s.leafAt (toIndex (firstOf back invalidPageIndex)),
      s l.pageId.pageIndex = some l ∧ l.pageId.pageIndex ∈ back.map Prod.fst := by
  subst hnodes
  intro l hl
  cases back with
  | nil => cases hl
  | cons e back =>
    have hvalid : e.1 ≠ invalidPageIndex := fun hne => h.valid (by simp [← hne])
    have hindex : toIndex (firstOf (e :: back) invalidPageIndex) = some e.1 :=
      toIndex_eq_some.mpr ⟨rfl, hvalid⟩
    rw [hindex] at hl
    obtain ⟨-, ⟨leaf, hleaf, hid, -⟩, -⟩ := segment_append.mp h.segment
    obtain rfl : leaf = l := Option.some.inj (hleaf.symm.trans hl)
    rw [hid]
    exact ⟨hleaf, List.mem_cons_self⟩

theorem scan [DecimalCodec D] (h : LevelInv td pk s first nodes m) (hk : td.Keyed pk)
    (hfirst : first ≠ invalidPageIndex) : Scan td s (some first) (nodes.map (pageOf td pk)) := by
  have hscan := scan_of_segment hk h.segment h.valid
  rwa [h.first_eq, toIndex_eq_some.mpr ⟨rfl, hfirst⟩] at hscan

theorem of_belongs [DecimalCodec D] (h : LevelInv td pk s first nodes m) (hk : td.Keyed pk)
    (hfirst : first ≠ invalidPageIndex) {key : Key D} (hb : Belongs td s first x key)
    (hnodes : nodes = front ++ (x, rs) :: back) :
    (∀ r ∈ front.flatMap Prod.snd, (keyOf td pk r).cmp key = .lt) ∧
      (∀ r ∈ rs, key.cmp (keyOf td pk r) ≠ .eq) ∧
        ∀ r ∈ back.flatMap Prod.snd, key.cmp (keyOf td pk r) = .lt := by
  obtain ⟨before, es, after, hscan, hbefore, habsent, hafter⟩ := hb
  have heq := (h.scan hk hfirst).unique hscan
  have hnodup := h.nodup
  subst hnodes
  have hfst := map_fst_pageOf (front ++ (x, rs) :: back) td pk
  rw [← hfst, List.map_append, List.map_append, List.nodup_append] at hnodup
  rw [List.map_append, List.map_cons] at heq
  have hfront : (x, es) ∉ front.map (pageOf td pk) := fun hm =>
    hnodup.2.2 x (List.mem_map_of_mem hm) x List.mem_cons_self rfl
  have hback : (x, es) ∉ back.map (pageOf td pk) := fun hm =>
    (List.nodup_cons.mp hnodup.2.1).1 (List.mem_map.mpr ⟨_, hm, rfl⟩)
  obtain ⟨rfl, hes, rfl⟩ := (List.append_cons_inj_of_notMem hfront hback).mp heq
  obtain rfl : rs.map (entryOf td pk) = es := congrArg Prod.snd hes
  rw [flatMap_pageOf, List.forall_mem_map] at hbefore hafter
  rw [List.forall_mem_map] at habsent
  exact ⟨hbefore, habsent, hafter⟩

theorem represents_parts (h : LevelInv td pk s first (front ++ (x, rs) :: back) m) :
    Represents Key.cmp ((front.flatMap Prod.snd).map (entryOf td pk) ++ rs.map (entryOf td pk) ++
      (back.flatMap Prod.snd).map (entryOf td pk)) m := by
  have hrep := h.represents
  rwa [List.flatMap_append, List.flatMap_cons, List.map_append, List.map_append,
    ← List.append_assoc] at hrep

theorem leafInv (h : LevelInv td pk s first (front ++ (x, rs) :: back) m)
    (hholds : Holds td pk leaf.pageView rs) :
    LeafInv td pk leaf rs (find Key.cmp (rs.map (entryOf td pk))) := by
  obtain ⟨hsorted, -, -⟩ := sorted_append.mp h.represents_parts.sorted
  exact ⟨hholds, (sorted_append.mp hsorted).2.1, fun _ => rfl⟩

theorem ne_of_mem (h : LevelInv td pk s first nodes m) (hnodes : nodes = front ++ (x, rs) :: back) :
    ∀ e ∈ front ++ back, e.1 ≠ x := by
  have hnodup := h.nodup
  subst hnodes
  rw [List.map_append, List.map_cons] at hnodup
  obtain ⟨-, hback, hfront⟩ := List.nodup_append.mp hnodup
  intro e he
  rcases List.mem_append.mp he with he | he
  · exact hfront e.1 (List.mem_map_of_mem he) x List.mem_cons_self
  · rintro rfl
    exact (List.nodup_cons.mp hback).1 (List.mem_map.mpr ⟨e, he, rfl⟩)

variable [DecimalOrder D]

/-- **New records on one leaf.** -/
theorem store (h : LevelInv td pk s first (front ++ (x, rs) :: back) m) (hx : s x = some leaf)
    (hinv : LeafInv td pk leaf' rs' (assign Key.cmp (find Key.cmp (rs.map (entryOf td pk)))
      (keyOf td pk record) record))
    (hpage : SamePage leaf leaf')
    (hfront : ∀ r ∈ front.flatMap Prod.snd, (keyOf td pk r).cmp (keyOf td pk record) = .lt)
    (hback : ∀ r ∈ back.flatMap Prod.snd, (keyOf td pk record).cmp (keyOf td pk r) = .lt) :
    LevelInv td pk (s.put leaf') first (front ++ (x, rs') :: back)
      (assign Key.cmp m (keyOf td pk record) record) := by
  obtain ⟨-, ⟨leaf₀, hleaf, hid, -⟩, -⟩ := segment_append.mp h.segment
  obtain rfl : leaf₀ = leaf := Option.some.inj (hleaf.symm.trans hx)
  have hid' : leaf'.pageId.pageIndex = x := by rw [hpage.pageId, hid]
  have hids : (front ++ (x, rs') :: back).map Prod.fst = (front ++ (x, rs) :: back).map Prod.fst := by
    rw [List.map_append, List.map_append, List.map_cons, List.map_cons]
  constructor
  case segment =>
    refine h.segment.replace (fun e he n hn => hn.put_of_ne (hid' ▸ h.ne_of_mem rfl e he)) ?_
    rintro n ⟨leaf₁, hleaf₁, -, -, hnext⟩
    obtain rfl : leaf₁ = leaf₀ := Option.some.inj (hleaf₁.symm.trans hleaf)
    refine ⟨leaf', ?_, hid', hinv.holds, (hpage.header.u32At (by decide)).trans hnext⟩
    rw [← hid', Store.put_self]
  case first_eq =>
    rw [← h.first_eq, firstOf, firstOf, hids]
  case nodup => exact hids ▸ h.nodup
  case valid => exact hids ▸ h.valid
  case mem =>
    intro z
    rw [hids, h.mem, isSome_put (by rw [hid']; exact hx)]
  case represents =>
    rw [List.flatMap_append, List.flatMap_cons, List.map_append, List.map_append, ← List.append_assoc]
    refine h.represents_parts.replace hinv.represents ?_ ?_
    · exact List.forall_mem_map.mpr hfront
    · exact List.forall_mem_map.mpr hback

variable [DecimalCodec D]

/-- **Inserting a record.** -/
theorem insertRecord (h : LevelInv td pk s first nodes m) (hk : td.KeyInOrder pk)
    (hfirst : first ≠ invalidPageIndex) (hr : GoodRecord td pk record)
    (hb : Belongs td s first x (keyOf td pk record)) (hx : s x = some leaf) {j : ℕ}
    (hrun : leaf.insertRecord record td = .ret (.ok j, leaf')) :
    ∃ nodes', LevelInv td pk (s.put leaf') first nodes' (assign Key.cmp m (keyOf td pk record) record) := by
  obtain ⟨front, rs, back, rfl, -, hholds, -⟩ := h.split_at hx
  obtain ⟨hfront, -, hback⟩ := h.of_belongs hk.keyed hfirst hb rfl
  obtain ⟨out, leaf₁, rs', m', hrun', ⟨key, hkey, hstep⟩, hinv, hpage⟩ :=
    insertRecord_spec (h.leafInv hholds) hk hr
  cases hrun.symm.trans hrun'
  cases hkey.symm.trans (Record.getPrimaryKey_eq hk hr.wellTyped.length_eq)
  dsimp only at hstep
  split_ifs at hstep
  · cases hstep.1
  · rcases hstep with ⟨_, -, hm, -⟩ | ⟨herror, -⟩
    · dsimp only at hm
      subst hm
      exact ⟨_, h.store hx hinv hpage hfront hback⟩
    · cases herror

/-- **Updating a record.** -/
theorem updateRecord (h : LevelInv td pk s first nodes m) (hk : td.KeyInOrder pk)
    (hr : GoodRecord td pk record) (hx : s x = some leaf) {j : ℕ}
    (hrun : leaf.updateRecord record td = .ret (.ok j, leaf')) :
    ∃ nodes', LevelInv td pk (s.put leaf') first nodes' (assign Key.cmp m (keyOf td pk record) record) := by
  obtain ⟨front, rs, back, rfl, -, hholds, -⟩ := h.split_at hx
  obtain ⟨out, leaf₁, rs', m', hrun', ⟨key, hkey, hstep⟩, hinv, hpage⟩ :=
    updateRecord_spec (h.leafInv hholds) hk hr
  cases hrun.symm.trans hrun'
  cases hkey.symm.trans (Record.getPrimaryKey_eq hk hr.wellTyped.length_eq)
  dsimp only at hstep
  split_ifs at hstep with hnone
  · cases hstep.1
  · rcases hstep with ⟨_, -, hm, -⟩ | ⟨herror, -⟩
    · dsimp only at hm
      subst hm
      rw [Option.isNone_iff_eq_none, find_eq_none, List.forall_mem_map] at hnone
      push Not at hnone
      obtain ⟨r, hr, heq⟩ := hnone
      have heq : (keyOf td pk record).cmp (keyOf td pk r) = .eq := heq
      obtain ⟨hsorted, -, hlt⟩ := sorted_append.mp h.represents_parts.sorted
      obtain ⟨-, -, hlt'⟩ := sorted_append.mp hsorted
      refine ⟨_, h.store hx hinv hpage (fun a ha => ?_) fun a ha => ?_⟩
      · rw [Std.TransCmp.congr_right heq]
        exact hlt' _ (List.mem_map_of_mem ha) _ (List.mem_map_of_mem hr)
      · rw [Std.TransCmp.congr_left heq]
        exact hlt _ (List.mem_append_right _ (List.mem_map_of_mem hr)) _ (List.mem_map_of_mem ha)
    · cases herror

/-- **Splitting a leaf.** -/
theorem split (h : LevelInv td pk s first nodes m) (hk : td.KeyInOrder pk)
    (hfirst : first ≠ invalidPageIndex) (hr : GoodRecord td pk record)
    (hb : Belongs td s first x (keyOf td pk record)) (hx : s x = some leaf)
    (hfresh : s right.pageId.pageIndex = none) (hvalid : right.pageId.pageIndex ≠ invalidPageIndex)
    (hempty : EmptyPage right.pageView) {key : Key D} {orig' : Option LeafNodeView}
    (hrun : leaf.splitAndInsert record right (s.leafAt (toIndex (u32At leaf.pageView 16))) td =
      .ret (.ok key, leaf', right', orig')) :
    ∃ nodes', LevelInv td pk (((s.put leaf').put right').putOption orig') first nodes'
      (assign Key.cmp m (keyOf td pk record) record) := by
  obtain ⟨front, rs, back, rfl, hid, hholds, hnext⟩ := h.split_at hx
  obtain ⟨hfront, habs, hback⟩ := h.of_belongs hk.keyed hfirst hb rfl
  have hleaf := h.leafInv hholds
  have hinput : SplitInput td pk rs leaf right record :=
    ⟨hk, hholds, map_fst_entryOf rs ▸ hleaf.represents.sorted, hr, habs, hempty⟩
  obtain ⟨k, hleft, hright⟩ := hinput.parts_of_ok hrun
  obtain ⟨hdone, rfl⟩ := splitAndInsert_done hempty hrun
  have hleafId : leaf'.pageId.pageIndex = x := by rw [hdone.leafId, hid]
  have hrightId : right'.pageId.pageIndex = right.pageId.pageIndex := by rw [hdone.rightId]
  have hrightNext := hdone.rightNext
  have hleafNext := hdone.leafNext
  generalize right.pageId.pageIndex = i at *
  have hfresh' : i ∉ (front ++ (x, rs) :: back).map Prod.fst := by
    rw [h.mem, hfresh]
    exact Bool.false_ne_true
  have hne : ∀ e ∈ front ++ (x, rs) :: back, e.1 ≠ i := by
    rintro e he rfl
    exact hfresh' (List.mem_map_of_mem he)
  have hxi : x ≠ i := hne (x, rs) (by simp)
  -- The two pages are written first, then the previous index of the next leaf.
  have hkeep : ∀ z, z ≠ x → z ≠ i → (s.put leaf').put right' z = s z := fun z hz hz' => by
    rw [Store.put_of_ne (hrightId ▸ hz'), Store.put_of_ne (hleafId ▸ hz)]
  have hsx : (s.put leaf').put right' x = some leaf' := by
    rw [Store.put_of_ne (hrightId ▸ hxi), ← hleafId, Store.put_self]
  have hsi : (s.put leaf').put right' i = some right' := by
    rw [← hrightId, Store.put_self]
  have horig : ∀ l ∈ s.leafAt (toIndex (u32At leaf.pageView 16)),
      (s.put leaf').put right' l.pageId.pageIndex = some l := by
    rw [hnext]
    intro l hl
    obtain ⟨hl, hmem⟩ := h.leafAt_next (List.append_cons front (x, rs) _) l hl
    obtain ⟨e, he, hel⟩ := List.mem_map.mp hmem
    rw [hkeep _ (hel ▸ h.ne_of_mem rfl e (by simp [he])) (hel ▸ hne e (by simp [he])), hl]
  refine ⟨front ++ (x, (withNew td pk rs record).take k) :: (i, (withNew td pk rs record).drop k) :: back,
    ?_⟩
  constructor
  case segment =>
    refine h.segment.insertAfter (fun e he n hn => ?_) fun n hn => ⟨?_, ?_⟩
    · refine (hn.congr (hkeep _ (h.ne_of_mem rfl e he) (hne e ?_))).putOption horig _
      rcases List.mem_append.mp he with he | he <;> simp [he]
    · exact IsLeaf.putOption ⟨leaf', hsx, hleafId, hleft, hleafNext⟩ horig _
    · obtain ⟨leaf₁, hleaf₁, -, -, hn⟩ := hn
      obtain rfl : leaf₁ = leaf := Option.some.inj (hleaf₁.symm.trans hx)
      exact IsLeaf.putOption ⟨right', hsi, hrightId, hright, hrightNext.trans hn⟩ horig _
  case first_eq => rw [← h.first_eq, firstOf_append_cons, firstOf_append_cons front back]; cases front <;> rfl
  case nodup =>
    have hperm : (front.map Prod.fst ++ x :: i :: back.map Prod.fst).Perm
        (i :: (front ++ (x, rs) :: back).map Prod.fst) := by
      rw [List.map_append, List.map_cons]
      refine (List.Perm.append_left _ (List.Perm.swap i x _)).trans ?_
      exact List.perm_middle
    rw [List.map_append, List.map_cons, List.map_cons]
    exact hperm.nodup_iff.mpr (List.nodup_cons.mpr ⟨hfresh', h.nodup⟩)
  case valid =>
    have hold := h.valid
    rw [List.map_append, List.map_cons, List.mem_append, List.mem_cons] at hold ⊢
    rw [List.map_cons, List.mem_cons]
    rintro (hm | hm | hm | hm)
    · exact hold (.inl hm)
    · exact hold (.inr (.inl hm))
    · exact hvalid hm.symm
    · exact hold (.inr (.inr hm))
  case mem =>
    intro z
    rw [isSome_putOption horig]
    by_cases hzi : z = i
    · rw [hzi, hsi]
      exact ⟨fun _ => rfl, fun _ => by simp⟩
    · have hold : (s z).isSome = ((s.put leaf').put right' z).isSome := by
        by_cases hzx : z = x
        · rw [hzx, hsx, hx]
          rfl
        · rw [hkeep z hzx hzi]
      rw [← hold, ← h.mem]
      simp only [List.map_append, List.map_cons, List.mem_append, List.mem_cons, hzi, false_or]
  case represents =>
    rw [List.flatMap_append, List.flatMap_cons, List.flatMap_cons, ← List.append_assoc (List.take ..),
      List.take_append_drop, List.map_append, List.map_append, ← List.append_assoc]
    refine h.represents_parts.replace (represents_withNew hleaf.represents habs) ?_ ?_
    · exact List.forall_mem_map.mpr hfront
    · exact List.forall_mem_map.mpr hback

omit [DecimalOrder D] [DecimalCodec D] in
/-- **Merging a leaf with its next one.** -/
theorem merge (h : LevelInv td pk s first nodes m) (hx : s x = some leaf) (hy : s y = some right)
    (hnext : u32At leaf.pageView 16 = y) (hvalid : y ≠ invalidPageIndex) {next' : Option LeafNodeView}
    (hrun : leaf.merge right (s.leafAt (toIndex (u32At right.pageView 16))) =
      .ret (.ok (), leaf', right', next')) :
    ∃ nodes', LevelInv td pk (((s.put leaf').remove y).putOption next') first nodes' m := by
  obtain ⟨front, rs, back, rfl, hid, hholds, hn⟩ := h.split_at hx
  obtain ⟨rs₂, back, rfl⟩ : ∃ rs₂ back', back = (y, rs₂) :: back' := by
    cases back with
    | nil => exact absurd (hnext.symm.trans hn) hvalid
    | cons e back => exact ⟨e.2, back, by rw [← hnext, hn]; rfl⟩
  obtain ⟨-, -, ⟨right₁, hright₁, -, hright, hrightNext⟩, -⟩ := segment_append.mp h.segment
  obtain rfl : right₁ = right := Option.some.inj (hright₁.symm.trans hy)
  have hmerged := holds_merge hholds hright hrun
  obtain ⟨hdone, rfl⟩ := merge_done hright.wf hholds.wf hrun
  have hleafId : leaf'.pageId.pageIndex = x := by rw [hdone.leafId, hid]
  have hsub : ((front ++ (x, rs ++ rs₂) :: back).map Prod.fst).Sublist
      ((front ++ (x, rs) :: (y, rs₂) :: back).map Prod.fst) := by
    rw [List.map_append, List.map_append, List.map_cons, List.map_cons, List.map_cons]
    exact (List.Sublist.refl _).append ((List.sublist_cons_self y _).cons_cons x)
  have hnex := h.ne_of_mem rfl
  have hney := h.ne_of_mem (List.append_assoc front [(x, rs)] ((y, rs₂) :: back)).symm
  have hxy : x ≠ y := hney (x, rs) (by simp)
  have hkeep : ∀ z, z ≠ x → z ≠ y → (s.put leaf').remove y z = s z := fun z hz hz' => by
    rw [Store.remove_of_ne hz', Store.put_of_ne (hleafId ▸ hz)]
  have hsx : (s.put leaf').remove y x = some leaf' := by
    rw [Store.remove_of_ne hxy, ← hleafId, Store.put_self]
  have hsy : (s.put leaf').remove y y = none := Store.remove_self ..
  have horig : ∀ l ∈ s.leafAt (toIndex (u32At right₁.pageView 16)),
      (s.put leaf').remove y l.pageId.pageIndex = some l := by
    rw [hrightNext]
    intro l hl
    obtain ⟨hl, hmem⟩ := h.leafAt_next (List.append_assoc front [(x, rs), (y, rs₂)] _).symm l hl
    obtain ⟨e, he, hel⟩ := List.mem_map.mp hmem
    rw [hkeep _ (hel ▸ hnex e (by simp [he])) (hel ▸ hney e (by simp [he])), hl]
  refine ⟨front ++ (x, rs ++ rs₂) :: back, ?_⟩
  constructor
  case segment =>
    refine h.segment.removeAfter (fun e he n hn => ?_) fun n hn => ?_
    · refine (hn.congr (hkeep _ (hnex e ?_) (hney e ?_))).putOption horig _
      all_goals rcases List.mem_append.mp he with he | he <;> simp [he]
    · obtain ⟨leaf₁, hleaf₁, -, -, hn⟩ := hn
      obtain rfl : leaf₁ = right₁ := Option.some.inj (hleaf₁.symm.trans hy)
      exact IsLeaf.putOption ⟨leaf', hsx, hleafId, hmerged, hdone.leafNext.trans hn⟩ horig _
  case first_eq => rw [← h.first_eq]; cases front <;> rfl
  case nodup => exact h.nodup.sublist hsub
  case valid => exact fun hm => h.valid (hsub.subset hm)
  case mem =>
    intro z
    rw [isSome_putOption horig]
    by_cases hzy : z = y
    · rw [hzy, hsy]
      refine ⟨fun hm => ?_, fun hm => by cases hm⟩
      obtain ⟨e, he, hey⟩ := List.mem_map.mp hm
      refine absurd hey ?_
      rcases List.mem_append.mp he with he | he
      · exact hney e (by simp [he])
      · rcases List.mem_cons.mp he with rfl | he
        · exact hxy
        · exact hney e (by simp [he])
    · have hold : (s z).isSome = ((s.put leaf').remove y z).isSome := by
        by_cases hzx : z = x
        · rw [hzx, hsx, hx]
          rfl
        · rw [hkeep z hzx hzy]
      rw [← hold, ← h.mem]
      simp only [List.map_append, List.map_cons, List.mem_append, List.mem_cons, hzy, false_or]
  case represents =>
    have hrep := h.represents
    rw [List.flatMap_append, List.flatMap_cons, List.flatMap_cons] at hrep
    rwa [List.flatMap_append, List.flatMap_cons, List.append_assoc rs]

/-- **One step.** -/
theorem step (h : LevelInv td pk s first nodes m) (hk : td.KeyInOrder pk)
    (hfirst : first ≠ invalidPageIndex) {op : LevelOp D} (hop : op.Admitted td pk first s)
    (hstep : LevelStep td s op s') : ∃ nodes', LevelInv td pk s' first nodes' (op.assign td pk m) := by
  cases hstep with
  | insertRecord hx hrun => exact h.insertRecord hk hfirst hop.1 hop.2 hx hrun
  | updateRecord hx hrun => exact h.updateRecord hk hop hx hrun
  | chain hstep =>
    cases hstep with
    | split hx hfresh hvalid hempty hnext hrun =>
      rw [getNextLeafIndex_eq] at hnext
      cases hnext
      exact h.split hk hfirst hop.1 hop.2 hx hfresh hvalid hempty hrun
    | merge hx hnext hy hnext' hrun =>
      rw [getNextLeafIndex_eq] at hnext hnext'
      obtain ⟨hy', hvalid⟩ := toIndex_eq_some.mp (Exec.ret.inj hnext)
      cases hnext'
      exact h.merge hx hy hy' (hy' ▸ hvalid) hrun

end LevelInv

/-! ## Where a new key belongs -/

theorem Scan.isSome {next : Option UInt32} {pages : List (UInt32 × List (Key D × Record D))}
    (h : Scan td s next pages) {e : UInt32 × List (Key D × Record D)} (he : e ∈ pages) : (s e.1).isSome := by
  induction h with
  | done => exact absurd he List.not_mem_nil
  | leaf hx _ _ _ ih =>
    rcases List.mem_cons.mp he with rfl | he
    · rw [hx]
      rfl
    · exact ih he

/-- Sorted records on pages: a key that none of them has belongs to one of the pages. -/
theorem exists_page [DecimalOrder D] {key : Key D} (hne : nodes ≠ [])
    (hsorted : Sorted Key.cmp ((nodes.flatMap Prod.snd).map (keyOf td pk)))
    (habs : ∀ r ∈ nodes.flatMap Prod.snd, key.cmp (keyOf td pk r) ≠ .eq) :
    ∃ front x rs back, nodes = front ++ (x, rs) :: back ∧
      (∀ r ∈ front.flatMap Prod.snd, (keyOf td pk r).cmp key = .lt) ∧
        ∀ r ∈ back.flatMap Prod.snd, key.cmp (keyOf td pk r) = .lt := by
  induction nodes with
  | nil => exact absurd rfl hne
  | cons e nodes ih =>
    rw [List.flatMap_cons] at hsorted habs
    rw [List.map_append] at hsorted
    obtain ⟨-, hrest, hlt⟩ := List.pairwise_append.mp hsorted
    by_cases hless : ∃ r ∈ nodes.flatMap Prod.snd, (keyOf td pk r).cmp key = .lt
    · -- A later page has a lesser key, so the keys of this page are lesser too.
      obtain ⟨r, hr, hrkey⟩ := hless
      have hnodes : nodes ≠ [] := by
        rintro rfl
        exact absurd hr List.not_mem_nil
      obtain ⟨front, x, rs, back, rfl, hfront, hback⟩ :=
        ih hnodes hrest fun r hr => habs r (List.mem_append_right _ hr)
      refine ⟨e :: front, x, rs, back, rfl, fun r' hr' => ?_, hback⟩
      rw [List.flatMap_cons] at hr'
      rcases List.mem_append.mp hr' with hr' | hr'
      · exact Std.TransCmp.lt_trans (hlt _ (List.mem_map_of_mem hr') _ (List.mem_map_of_mem hr)) hrkey
      · exact hfront r' hr'
    · refine ⟨[], e.1, e.2, nodes, rfl, fun r hr => absurd hr List.not_mem_nil, fun r hr => ?_⟩
      have hne := habs r (List.mem_append_right _ hr)
      cases hcmp : key.cmp (keyOf td pk r) with
      | lt => rfl
      | eq => exact absurd hcmp hne
      | gt => exact absurd ⟨r, hr, Std.OrientedCmp.lt_of_gt hcmp⟩ hless

namespace LevelInv

theorem eq_some [DecimalOrder D] (h : LevelInv td pk s first nodes m) {r : Record D}
    (hr : r ∈ nodes.flatMap Prod.snd) : m (keyOf td pk r) = some r := by
  obtain ⟨i, hi, heq⟩ := List.mem_iff_getElem.mp (List.mem_map_of_mem (f := entryOf td pk) hr)
  have hsome := h.represents.eq_some hi (k := keyOf td pk r)
    (by rw [heq]; exact Std.ReflCmp.compare_self)
  rw [hsome, heq]
  rfl

theorem absent [DecimalOrder D] (h : LevelInv td pk s first nodes m) {key : Key D} (hm : m key = none) :
    ∀ r ∈ nodes.flatMap Prod.snd, key.cmp (keyOf td pk r) ≠ .eq := by
  rw [← h.represents.find_eq, find_eq_none, List.forall_mem_map] at hm
  exact hm

/-- **Every new key belongs to a leaf.** -/
theorem exists_belongs [DecimalOrder D] [DecimalCodec D] (h : LevelInv td pk s first nodes m)
    (hk : td.Keyed pk) (hfirst : first ≠ invalidPageIndex) {key : Key D} (hm : m key = none) :
    ∃ x, Belongs td s first x key := by
  have hne : nodes ≠ [] := by
    rintro rfl
    exact hfirst h.first_eq.symm
  have habs := h.absent hm
  have hsorted := h.represents.sorted
  rw [map_fst_entryOf] at hsorted
  obtain ⟨front, x, rs, back, rfl, hfront, hback⟩ := exists_page hne hsorted habs
  refine ⟨x, front.map (pageOf td pk), rs.map (entryOf td pk), back.map (pageOf td pk), ?_, ?_, ?_, ?_⟩
  · have hscan := h.scan hk hfirst
    rwa [List.map_append, List.map_cons] at hscan
  · rw [flatMap_pageOf, List.forall_mem_map]
    exact hfront
  · rw [List.forall_mem_map]
    exact fun r hr => habs r (by simp [hr])
  · rw [flatMap_pageOf, List.forall_mem_map]
    exact hback

end LevelInv

/-! ## Runs -/

theorem levelInv_initial (td : TableDefinition) (pk : List String) (pageId : PageId)
    (hvalid : pageId.pageIndex ≠ invalidPageIndex) (parent : Option UInt64) :
    LevelInv td pk (Store.initial pageId parent) pageId.pageIndex [(pageId.pageIndex, ([] : List (Record D)))]
      fun _ => none := by
  have hself : Store.initial pageId parent pageId.pageIndex =
      some ⟨pageId, blankPage .leafNode parent⟩ := Store.put_self ..
  have hinv := (chainInv_initial pageId hvalid parent).mem
  exact ⟨⟨⟨_, hself, rfl, (leafInv_blank td pk pageId .leafNode parent).holds, u32At_blankPage_next ..⟩,
    trivial⟩, rfl, List.nodup_singleton _, fun hm => hvalid (List.mem_singleton.mp hm).symm, hinv,
    represents_nil⟩

variable [DecimalOrder D] [DecimalCodec D] {s₀ : Store}

/-- **The invariant of a run.** -/
theorem LevelRun.inv (hk : td.KeyInOrder pk) (hfirst : first ≠ invalidPageIndex)
    (h : LevelInv td pk s₀ first nodes (fun _ => none)) (hrun : LevelRun td pk first s₀ m s) :
    ∃ nodes', LevelInv td pk s first nodes' m := by
  induction hrun with
  | nil => exact ⟨nodes, h⟩
  | snoc run hop hstep ih =>
    obtain ⟨nodes', h'⟩ := ih
    exact h'.step hk hfirst hop hstep

/-! ## A level of products -/

/-- Insert products that are new into a leaf, and into the map. -/
def insertProducts : LeafNodeView × RecordMap Decimal96 → List Int32 → Option (LeafNodeView × RecordMap Decimal96)
  | s, [] => some s
  | (leaf, m), id :: ids =>
    match m [.int id], leaf.insertRecord (product id []) productTable with
    | none, .ret (.ok _, leaf') =>
      insertProducts (leaf', SortedMap.assign Key.cmp m [.int id] (product id [])) ids
    | _, _ => none

/-- Insert four products into a leaf, split it with a fifth one, and update one of those in the second leaf. -/
def grow : Option (LeafNodeView × LeafNodeView × RecordMap Decimal96) :=
  match insertProducts (emptyLeaf 0, fun _ => none) [10, 30, 50, 40] with
  | none => none
  | some (leaf, m) =>
    match m [.int 20], leaf.getNextLeafIndex, leaf.splitAndInsert (product 20 []) (emptyLeaf 1) none productTable with
    | none, .ret none, .ret (.ok _, left, right, _) =>
      match right.updateRecord (product 40 [7]) productTable with
      | .ret (.ok _, right') =>
        let m := SortedMap.assign Key.cmp m [.int 20] (product 20 [])
        some (left, right', SortedMap.assign Key.cmp m [.int 40] (product 40 [7]))
      | _ => none
    | _, _, _ => none

/-- All records are products with a byte of notes at most. -/
def ShortProducts (m : RecordMap Decimal96) : Prop :=
  ∀ key r, m key = some r → ∃ id notes, notes.length ≤ 1 ∧ r = product id notes

theorem ShortProducts.assign {m : RecordMap Decimal96} (h : ShortProducts m) (key : Key Decimal96) (id : Int32)
    {notes : Bytes} (hnotes : notes.length ≤ 1) : ShortProducts (SortedMap.assign Key.cmp m key (product id notes)) := by
  intro key' r hr
  unfold SortedMap.assign at hr
  split_ifs at hr
  · cases hr
    exact ⟨id, notes, hnotes, rfl⟩
  · exact h key' r hr

/-- The store has two leaves, with two and three records. -/
def TwoLeaves (s : Store) : Prop :=
  (∃ leaf, s 0 = some leaf ∧ leaf.pageView.itemCount = 2) ∧ ∃ leaf, s 1 = some leaf ∧ leaf.pageView.itemCount = 3

theorem TwoLeaves.isSome {s : Store} (h : TwoLeaves s) : (s 1).isSome := by
  obtain ⟨-, leaf, hleaf, -⟩ := h
  rw [hleaf]
  rfl

section Products

variable {leaf leaf' left right : LeafNodeView} {m : RecordMap Decimal96} {id : Int32} {ids : List Int32} {i : ℕ}

/-- The store with one leaf. -/
def Store.only (leaf : LeafNodeView) : Store := Store.put (fun _ => none) leaf

theorem belongs_only (hid : leaf.pageId.pageIndex = 0)
    (hrun : LevelRun productTable ["id"] 0 (Store.initial ⟨1, 0⟩ none) m (Store.only leaf)) (hnew : m [.int id] = none) :
    Belongs productTable (Store.only leaf) 0 0 (keyOf productTable ["id"] (product id [])) := by
  obtain ⟨nodes, hinv⟩ := hrun.inv productTable_keyInOrder (by decide)
    (levelInv_initial productTable ["id"] ⟨1, 0⟩ (by decide) none)
  obtain ⟨x, hb⟩ := hinv.exists_belongs productTable_keyInOrder.keyed (by decide) hnew
  have hsome : (Store.only leaf x).isSome := by
    obtain ⟨before, es, after, hscan, -⟩ := hb
    exact hscan.isSome (List.mem_append_right before List.mem_cons_self)
  obtain rfl : x = 0 := by
    by_contra hx
    rw [Store.only, Store.put_of_ne (hid ▸ hx)] at hsome
    cases hsome
  exact hb

theorem run_insertProduct (hid : leaf.pageId.pageIndex = 0)
    (hrun : LevelRun productTable ["id"] 0 (Store.initial ⟨1, 0⟩ none) m (Store.only leaf)) (hnew : m [.int id] = none)
    (hins : leaf.insertRecord (product id []) productTable = .ret (.ok i, leaf')) :
    leaf'.pageId.pageIndex = 0 ∧ LevelRun productTable ["id"] 0 (Store.initial ⟨1, 0⟩ none)
      (SortedMap.assign Key.cmp m [.int id] (product id [])) (Store.only leaf') := by
  have hx : Store.only leaf 0 = some leaf := hid ▸ Store.put_self ..
  obtain ⟨nodes, hinv⟩ := hrun.inv productTable_keyInOrder (by decide)
    (levelInv_initial productTable ["id"] ⟨1, 0⟩ (by decide) none)
  obtain ⟨front, rs, back, rfl, -, hholds, -⟩ := hinv.split_at hx
  obtain ⟨out, leaf₁, -, -, hins', -, -, hpage⟩ :=
    insertRecord_spec (hinv.leafInv hholds) productTable_keyInOrder (product_good id [])
  cases hins.symm.trans hins'
  have hid' : leaf'.pageId.pageIndex = leaf.pageId.pageIndex := congrArg PageId.pageIndex hpage.pageId
  have hadmitted : (LevelOp.insertRecord 0 (product id [])).Admitted productTable ["id"] 0 (Store.only leaf) :=
    ⟨product_good id [], belongs_only hid hrun hnew⟩
  have hnext := hrun.snoc hadmitted (.insertRecord hx hins)
  have hput : (Store.only leaf).put leaf' = Store.only leaf' := by
    unfold Store.only Store.put
    rw [hid', Function.update_idem]
  rw [hput] at hnext
  exact ⟨hid'.trans hid, hnext⟩

theorem run_insertProducts {s : LeafNodeView × RecordMap Decimal96} (hid : leaf.pageId.pageIndex = 0)
    (hrun : LevelRun productTable ["id"] 0 (Store.initial ⟨1, 0⟩ none) m (Store.only leaf)) (hshort : ShortProducts m)
    (h : insertProducts (leaf, m) ids = some s) :
    s.1.pageId.pageIndex = 0 ∧ LevelRun productTable ["id"] 0 (Store.initial ⟨1, 0⟩ none) s.2 (Store.only s.1) ∧
      ShortProducts s.2 := by
  induction ids generalizing leaf m with
  | nil =>
    cases h
    exact ⟨hid, hrun, hshort⟩
  | cons id ids ih =>
    unfold insertProducts at h
    split at h
    case h_1 hnew hins =>
      obtain ⟨hid', hrun'⟩ := run_insertProduct hid hrun hnew hins
      exact ih hid' hrun' (hshort.assign _ id (Nat.zero_le 1)) h
    case h_2 => cases h

/-- **A level with two leaves** is reached by four insertions, a split and an update. -/
theorem run_grow (h : grow = some (left, right, m)) :
    ∃ s, LevelRun productTable ["id"] 0 (Store.initial ⟨1, 0⟩ none) m s ∧ s 0 = some left ∧ s 1 = some right ∧
      ShortProducts m := by
  unfold grow at h
  split at h
  case h_1 => cases h
  case h_2 leaf m₀ hins =>
  split at h
  case h_2 => cases h
  case h_1 key left₀ right₀ orig hnew hnext hsplit =>
  split at h
  case h_2 => cases h
  case h_1 i right₁ hupdate =>
  cases h
  obtain ⟨hid, hrun, hshort⟩ := run_insertProducts rfl .nil nofun hins
  have hx : Store.only leaf 0 = some leaf := hid ▸ Store.put_self ..
  have hblank : EmptyPage (emptyLeaf 1).pageView := emptyPage_blankPage .leafNode none
  have hfresh : Store.only leaf 1 = none := Store.put_of_ne (by rw [hid]; decide)
  obtain ⟨hdone, rfl⟩ := splitAndInsert_done hblank hsplit
  have hleft : left.pageId.pageIndex = 0 := by rw [hdone.leafId, hid]
  have hright : right₀.pageId.pageIndex = 1 := by
    rw [hdone.rightId]
    rfl
  -- The split.
  have hsplitted : (LevelOp.chain (.split 0 (product 20 []) (emptyLeaf 1))).Admitted productTable ["id"] 0
      (Store.only leaf) := ⟨product_good 20 [], belongs_only hid hrun hnew⟩
  have hrun₁ := hrun.snoc hsplitted (.chain (.split hx hfresh (by decide) hblank hnext hsplit))
  -- The update.
  have hx₁ : (((Store.only leaf).put left).put right₀) 1 = some right₀ := hright ▸ Store.put_self ..
  have hupdated : (LevelOp.updateRecord 1 (product 40 [7])).Admitted productTable ["id"] 0
      (((Store.only leaf).put left).put right₀) := product_good 40 [7]
  have hid₁ : right.pageId.pageIndex = 1 := by
    obtain ⟨nodes, hinv⟩ := hrun₁.inv productTable_keyInOrder (by decide)
      (levelInv_initial productTable ["id"] ⟨1, 0⟩ (by decide) none)
    obtain ⟨front, rs, back, rfl, -, hholds, -⟩ := hinv.split_at hx₁
    obtain ⟨out, leaf₁, -, -, hupdate', -, -, hpage⟩ :=
      updateRecord_spec (hinv.leafInv hholds) productTable_keyInOrder (product_good 40 [7])
    cases hupdate.symm.trans hupdate'
    rw [hpage.pageId, hright]
  refine ⟨(((Store.only leaf).put left).put right₀).put right, hrun₁.snoc hupdated (.updateRecord hx₁ hupdate), ?_,
    hid₁ ▸ Store.put_self .., (hshort.assign _ 20 (by decide)).assign _ 40 (by decide)⟩
  rw [Store.put_of_ne (by rw [hid₁]; decide), Store.put_of_ne (by rw [hright]; decide), ← hleft, Store.put_self]

end Products

/-- A level of products with two leaves, where one key is taken and another one is free. -/
theorem grown_level :
    ∃ (m : RecordMap Decimal96) (s : Store), LevelRun productTable ["id"] 0 (Store.initial ⟨1, 0⟩ none) m s ∧
      TwoLeaves s ∧ ShortProducts m ∧ m [.int 40] = some (product 40 [7]) ∧ m [.int 25] = none := by
  have hgrow : grow.any (fun (left, right, m) => left.pageView.itemCount = 2 ∧ right.pageView.itemCount = 3 ∧
      m [.int 40] = some (product 40 [7]) ∧ m [.int 25] = none) = true := by decide +kernel
  obtain ⟨⟨left, right, m⟩, hsome, hfacts⟩ := (Option.any_eq_true ..).mp hgrow
  obtain ⟨hleft, hright, htaken, hfree⟩ := of_decide_eq_true hfacts
  obtain ⟨s, hrun, hx, hy, hshort⟩ := run_grow hsome
  exact ⟨m, s, hrun, ⟨⟨left, hx, hleft⟩, right, hy, hright⟩, hshort, htaken, hfree⟩

/-- **A forward scan loses and reorders nothing.** After any insertions, updates, splits and merges that
returned `Ok`, following `get_next_leaf_index` from the first leaf ends, visits every leaf once, and the
entries decoded on the way have strictly increasing keys and are those that were inserted, with their
last values. -/
theorem scan_complete (td : TableDefinition) (pk : List String) (hk : td.KeyInOrder pk) (pageId : PageId)
    (parent : Option UInt64) (hvalid : pageId.pageIndex ≠ invalidPageIndex) (m : RecordMap D) (s : Store)
    (hrun : LevelRun td pk pageId.pageIndex (Store.initial pageId parent) m s) :
    ∃ pages, Scan td s (some pageId.pageIndex) pages ∧ (pages.map Prod.fst).Nodup ∧
      (∀ x, x ∈ pages.map Prod.fst ↔ (s x).isSome) ∧ Represents Key.cmp (pages.flatMap Prod.snd) m := by
  obtain ⟨nodes, h⟩ := hrun.inv hk hvalid (levelInv_initial td pk pageId hvalid parent)
  refine ⟨nodes.map (pageOf td pk), h.scan hk.keyed hvalid, ?_, ?_, ?_⟩
  · rw [map_fst_pageOf]
    exact h.nodup
  · rw [map_fst_pageOf]
    exact h.mem
  · rw [flatMap_pageOf]
    exact h.represents

theorem scan_complete_products :
    ∃ (m : RecordMap Decimal96) (s : Store), LevelRun productTable ["id"] 0 (Store.initial ⟨1, 0⟩ none) m s ∧
      TwoLeaves s ∧ m [.int 40] = some (product 40 [7]) ∧
        ∃ pages, Scan productTable s (some 0) pages ∧ (pages.map Prod.fst).Nodup ∧
          (∀ x, x ∈ pages.map Prod.fst ↔ (s x).isSome) ∧
            Represents Key.cmp (pages.flatMap Prod.snd) m := by
  obtain ⟨m, s, hrun, hleaves, -, hm, -⟩ := grown_level
  exact ⟨m, s, hrun, hleaves, hm, scan_complete productTable ["id"] productTable_keyInOrder ⟨1, 0⟩ none (by decide)
    m s hrun⟩

end RarmDb
