import RarmDb.Data.Schema
import RarmDb.Data.Value

/-!
# Keys and records

* `Key`, `Key.cmp`; `Record`, `Record.getPrimaryKey`;
* `valueOf`, `keyOf`: the value of a named column, and the values of the key columns;
* `KeyInOrder`: the primary key lists columns in column order;
* **`getPrimaryKey_eq`**: then `get_primary_key` is the list of key values.
-/

namespace RarmDb

open Std (TransCmp LawfulBEqCmp)

variable {D : Type}

/-- `Key`. -/
abbrev Key (D : Type) : Type := List (DataValue D)

/-- The derived `Ord` of `Key`: lexicographic. -/
def Key.cmp [RustDecimal D] (a b : Key D) : Ordering := List.compareLex DataValue.cmp a b

instance [RustDecimal D] [DecimalOrder D] : TransCmp (Key.cmp (D := D)) :=
  inferInstanceAs (TransCmp (List.compareLex DataValue.cmp))

theorem Key.beq_iff_cmp [RustDecimal D] [DecimalOrder D] {a b : Key D} :
    (a == b) = true ↔ Key.cmp a b = .eq := by
  have h : List.compareLex DataValue.cmp a b = .eq ↔ (a == b) = true :=
    LawfulBEqCmp.compare_eq_iff_beq
  exact h.symm

/-- `Record`. -/
abbrev Record (D : Type) : Type := List (DataValue D)

namespace Record

/-- `Vec::insert`. -/
def vecInsert {α : Type} (l : List α) (index : ℕ) (a : α) : Exec (List α) :=
  if index ≤ l.length then .ret (l.insertIdx index a) else .panic

/-- The map from column names to their positions; a name listed twice has its last position. -/
def pkReverseLookup (pkCols : List String) (name : String) : Option ℕ :=
  (pkCols.zipIdx.reverse.find? fun ci => ci.1 = name).map Prod.snd

/-- The loop of `get_primary_key`, over the columns and values still to come. -/
def getPrimaryKeyLoop (pkCols : List String) :
    List ColumnDefinition → List (DataValue D) → Key D → Exec (Key D)
  | [], _, keyValues => .ret keyValues
  | col :: cols, values, keyValues =>
    if pkCols.contains col.name then do
      let keyColIndex ← Exec.unwrap (pkReverseLookup pkCols col.name)
      let value ← Exec.unwrap values.head?
      let keyValues ← vecInsert keyValues keyColIndex value
      getPrimaryKeyLoop pkCols cols values.tail keyValues
    else getPrimaryKeyLoop pkCols cols values.tail keyValues

/-- `get_primary_key`. -/
def getPrimaryKey (record : Record D) (td : TableDefinition) : Exec (Key D) := do
  let constraint ← Exec.unwrap td.getPrimaryKey
  match constraint.colNames with
  | some pkCols => getPrimaryKeyLoop pkCols td.columns record []
  | none => return []

end Record

/-! ## The values of the key columns -/

/-- The value of the column named `n`. -/
def valueOf (cols : List ColumnDefinition) (values : List (DataValue D)) (n : String) :
    DataValue D :=
  match cols, values with
  | col :: cols, v :: values => if col.name = n then v else valueOf cols values n
  | _, _ => .null

/-- The values of the columns that `pk` names. -/
def keyOf (td : TableDefinition) (pk : List String) (record : Record D) : Key D :=
  pk.map (valueOf td.columns record)

/-- A record with its key. -/
def entryOf (td : TableDefinition) (pk : List String) (r : Record D) : Key D × Record D :=
  (keyOf td pk r, r)

theorem map_fst_entryOf {td : TableDefinition} {pk : List String} (rs : List (Record D)) :
    (rs.map (entryOf td pk)).map Prod.fst = rs.map (keyOf td pk) := by
  rw [List.map_map]
  rfl

/-- The primary key of the table lists columns in column order, and column names are distinct. -/
structure TableDefinition.KeyInOrder (td : TableDefinition) (pk : List String) : Prop where
  getPrimaryKey_eq : td.getPrimaryKey = some (.primaryKey pk)
  names : td.colNames.Nodup
  inOrder : pk.Sublist td.colNames

theorem TableDefinition.KeyInOrder.keyed {td : TableDefinition} {pk : List String}
    (h : td.KeyInOrder pk) : td.Keyed pk :=
  ⟨h.getPrimaryKey_eq, h.names, h.names.sublist h.inOrder, fun _ hn => h.inOrder.subset hn⟩

namespace Record

theorem vecInsert_length {α : Type} (l : List α) (a : α) :
    vecInsert l l.length a = .ret (l ++ [a]) := by
  rw [vecInsert, if_pos le_rfl, List.insertIdx_length_self]

theorem pkReverseLookup_append {done rest : List String} {n : String} (h : n ∉ rest) :
    pkReverseLookup (done ++ n :: rest) n = some done.length := by
  have hrest : (rest.zipIdx (done.length + 1)).reverse.find? (fun ci => ci.1 = n) = none := by
    rw [List.find?_eq_none]
    rintro ⟨m, i⟩ hm
    have hmem : m ∈ rest := by
      rw [List.mem_reverse] at hm
      exact (List.mem_zipIdx hm).2.2 ▸ List.getElem_mem _
    simp only [decide_eq_true_eq]
    rintro rfl
    exact h hmem
  rw [pkReverseLookup, List.zipIdx_append, List.zipIdx_cons, List.reverse_append,
    List.reverse_cons, List.append_assoc, List.find?_append, Nat.zero_add, hrest, Option.none_or,
    List.singleton_append, List.find?_cons_of_pos (by simp)]
  rfl

/-- The loop appends the values of the key columns still to come. -/
theorem getPrimaryKeyLoop_eq {pk done todo : List String} (hpk : pk = done ++ todo)
    (hnd : pk.Nodup) {cols : List ColumnDefinition} {values : List (DataValue D)}
    (hlen : values.length = cols.length) (hnames : (cols.map ColumnDefinition.name).Nodup)
    (hdone : ∀ c ∈ cols, c.name ∉ done) (htodo : todo.Sublist (cols.map ColumnDefinition.name))
    {keyValues : Key D} (hkv : keyValues.length = done.length) :
    getPrimaryKeyLoop pk cols values keyValues =
      .ret (keyValues ++ todo.map (valueOf cols values)) := by
  induction cols generalizing done todo values keyValues with
  | nil =>
    rw [List.map_nil, List.sublist_nil] at htodo
    rw [htodo, getPrimaryKeyLoop, List.map_nil, List.append_nil]
  | cons col cols ih =>
    obtain ⟨v, values, rfl⟩ : ∃ v vs, values = v :: vs := by
      cases values with
      | nil => cases hlen
      | cons v vs => exact ⟨v, vs, rfl⟩
    rw [List.map_cons] at hnames htodo
    obtain ⟨hfresh, hnames⟩ := List.nodup_cons.mp hnames
    have hlen' : values.length = cols.length := by simpa using hlen
    have hdone' : ∀ c ∈ cols, c.name ∉ done := fun c hc => hdone c (List.mem_cons_of_mem col hc)
    -- The values of the later columns do not depend on this one.
    have hskip : ∀ t : List String, t.Sublist (cols.map ColumnDefinition.name) →
        t.map (valueOf (col :: cols) (v :: values)) = t.map (valueOf cols values) := by
      intro t ht
      refine List.map_congr_left fun n hn => ?_
      rw [valueOf, if_neg]
      rintro rfl
      exact hfresh (ht.subset hn)
    rw [getPrimaryKeyLoop]
    by_cases hcol : col.name ∈ todo
    · obtain ⟨rest, rfl, hrest⟩ : ∃ rest, todo = col.name :: rest ∧
          rest.Sublist (cols.map ColumnDefinition.name) := by
        cases htodo with
        | cons _ h => exact absurd (h.subset hcol) hfresh
        | cons_cons _ h => exact ⟨_, rfl, h⟩
      have hpk' : pk = (done ++ [col.name]) ++ rest := by
        rw [hpk, List.append_assoc, List.singleton_append]
      have hnot : col.name ∉ rest := by
        rw [hpk] at hnd
        exact (List.nodup_cons.mp (List.nodup_append.mp hnd).2.1).1
      rw [if_pos (by simp [hpk]), hpk, pkReverseLookup_append hnot, ← hpk]
      simp only [Exec.unwrap_some, Exec.ret_bind, List.head?_cons, List.tail_cons]
      rw [← hkv, vecInsert_length, Exec.ret_bind,
        ih hpk' hlen' hnames ?_ hrest (by simp [hkv]),
        List.map_cons, hskip rest hrest, valueOf, if_pos rfl, List.append_assoc,
        List.singleton_append]
      intro c hc
      rw [List.mem_append, List.mem_singleton, not_or]
      refine ⟨hdone' c hc, ?_⟩
      rintro h
      exact hfresh (List.mem_map.mpr ⟨c, hc, h⟩)
    · have hnot : col.name ∉ pk := by
        rw [hpk, List.mem_append, not_or]
        exact ⟨hdone col List.mem_cons_self, hcol⟩
      have hrest : todo.Sublist (cols.map ColumnDefinition.name) := by
        cases htodo with
        | cons _ h => exact h
        | cons_cons _ h => exact absurd List.mem_cons_self hcol
      rw [if_neg (by simpa using hnot), List.tail_cons, ih hpk hlen' hnames hdone' hrest hkv,
        hskip todo hrest]

/-- **The loop panics unless the key is in column order**: it inserts at the position in the key, which
is past the end when an earlier key column is still to come. -/
theorem sublist_of_getPrimaryKeyLoop {pk done todo : List String} (hpk : pk = done ++ todo)
    (hnd : pk.Nodup) {cols : List ColumnDefinition} {values : List (DataValue D)}
    (hdone : ∀ n ∈ done, n ∉ cols.map ColumnDefinition.name)
    (htodo : ∀ n ∈ todo, n ∈ cols.map ColumnDefinition.name)
    (hnames : (cols.map ColumnDefinition.name).Nodup) {keyValues key : Key D}
    (hkv : keyValues.length = done.length)
    (h : getPrimaryKeyLoop pk cols values keyValues = .ret key) :
    todo.Sublist (cols.map ColumnDefinition.name) := by
  induction cols generalizing done todo values keyValues with
  | nil =>
    rw [List.eq_nil_iff_forall_not_mem.mpr fun n hn => List.not_mem_nil (htodo n hn)]
    exact List.nil_sublist _
  | cons col cols ih =>
    rw [List.map_cons] at hdone htodo hnames ⊢
    obtain ⟨hfresh, hnames⟩ := List.nodup_cons.mp hnames
    have hlater : ∀ n ∈ done, n ∉ cols.map ColumnDefinition.name := fun n hn hmem =>
      hdone n hn (List.mem_cons_of_mem _ hmem)
    rw [getPrimaryKeyLoop] at h
    by_cases hcol : col.name ∈ todo
    · obtain ⟨early, late, rfl⟩ := List.append_of_mem hcol
      have hpk' : pk = (done ++ early) ++ col.name :: late := by rw [hpk, List.append_assoc]
      have hsplit := List.nodup_append.mp (hpk' ▸ hnd)
      obtain ⟨hlate, -⟩ := List.nodup_cons.mp hsplit.2.1
      rw [if_pos (by simp [hpk]), hpk', pkReverseLookup_append hlate, ← hpk'] at h
      rw [Exec.unwrap_some, Exec.ret_bind] at h
      obtain ⟨value, -, h⟩ := Exec.bind_eq_ret.mp h
      obtain ⟨kv, hinsert, h⟩ := Exec.bind_eq_ret.mp h
      rw [vecInsert, List.length_append] at hinsert
      split_ifs at hinsert with hle
      -- The position is that of the next key column only when no key column comes before it.
      obtain rfl : early = [] := List.length_eq_zero_iff.mp (by omega)
      obtain rfl := Exec.ret.inj hinsert
      rw [List.nil_append] at hpk htodo ⊢
      have hpk'' : pk = (done ++ [col.name]) ++ late := by rw [hpk, List.append_assoc]; rfl
      refine (ih hpk'' ?_ ?_ hnames ?_ h).cons_cons _
      · intro n hn
        rcases List.mem_append.mp hn with hn | hn
        · exact hlater n hn
        · rwa [List.mem_singleton.mp hn]
      · intro n hn
        refine (List.mem_cons.mp (htodo n (List.mem_cons_of_mem _ hn))).resolve_left ?_
        rintro rfl
        exact hlate hn
      · rw [List.length_insertIdx, if_pos hle, hkv, List.length_append]
        rfl
    · have hnot : col.name ∉ pk := by
        rw [hpk, List.mem_append, not_or]
        exact ⟨fun hn => hdone _ hn List.mem_cons_self, hcol⟩
      rw [if_neg (by simpa using hnot)] at h
      refine (ih hpk hlater ?_ hnames hkv h).cons _
      intro n hn
      refine (List.mem_cons.mp (htodo n hn)).resolve_left ?_
      rintro rfl
      exact hcol hn

/-- **`get_primary_key` is the list of key values**, when the key is in column order. -/
theorem getPrimaryKey_eq {td : TableDefinition} {pk : List String} (h : td.KeyInOrder pk)
    {record : Record D} (hlen : record.length = td.columns.length) :
    record.getPrimaryKey td = .ret (keyOf td pk record) := by
  rw [getPrimaryKey, h.getPrimaryKey_eq, Exec.unwrap_some, Exec.ret_bind]
  exact getPrimaryKeyLoop_eq (List.nil_append pk).symm h.keyed.nodup hlen h.names
    (fun _ _ => List.not_mem_nil) h.inOrder rfl

/-- **`get_primary_key` panics** when the key is not in column order. -/
theorem keyInOrder_of_getPrimaryKey {td : TableDefinition} {pk : List String} (hk : td.Keyed pk)
    {record : Record D} {key : Key D} (h : record.getPrimaryKey td = .ret key) : td.KeyInOrder pk := by
  refine ⟨hk.getPrimaryKey_eq, hk.names, ?_⟩
  rw [getPrimaryKey, hk.getPrimaryKey_eq, Exec.unwrap_some, Exec.ret_bind] at h
  exact sublist_of_getPrimaryKeyLoop (List.nil_append pk).symm hk.nodup
    (fun _ hn => absurd hn List.not_mem_nil) hk.exist hk.names rfl h

end Record

end RarmDb
