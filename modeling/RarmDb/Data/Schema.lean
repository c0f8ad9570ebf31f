import Mathlib.Data.List.Nodup
import RarmDb.Lib.Exec

/-!
# Table definitions

The part of `rarmdb_schema_def` that the storage layer reads.

* `PrimitiveDataType`, `isFixedSize`, `getFixedSize`; `ColumnDefinition`, `isFixedType`;
* `Constraint`, `colNames`; `TableDefinition`, `getPrimaryKey`, `getPrimaryKeyColumns`;
* `Keyed`, **`getPrimaryKeyColumns_eq`**: the key columns of a table whose key names columns.
-/

namespace RarmDb

/-! ## Column types -/

/-- `PrimitiveDataType`. -/
inductive PrimitiveDataType
  | unknown
  | int
  | bigInt
  | varchar (maxLen : UInt16)
  | boolean
  | decimal (precision scale : UInt8)
  | dateTime
  | float
  | blob (maxLen : UInt32)
  deriving DecidableEq

namespace PrimitiveDataType

/-- `is_fixed_size`. -/
def isFixedSize : PrimitiveDataType → Bool
  | blob _ | varchar _ | unknown => false
  | _ => true

/-- `get_fixed_size`. -/
def getFixedSize : PrimitiveDataType → Option ℕ
  | int => some 4
  | bigInt => some 8
  | boolean => some 1
  | decimal _ _ => some 16
  | float => some 8
  | dateTime => some 8
  | _ => none

theorem isFixedSize_eq (t : PrimitiveDataType) : t.isFixedSize = t.getFixedSize.isSome := by
  cases t <;> rfl

end PrimitiveDataType

/-! ## Columns, constraints and tables -/

/-- `ColumnDefinition`. -/
structure ColumnDefinition where
  name : String
  dataType : PrimitiveDataType
  isNullable : Bool

/-- `is_fixed_type`, which also holds of a column of unknown type. -/
def ColumnDefinition.isFixedType (col : ColumnDefinition) : Bool :=
  match col.dataType with
  | .blob _ => false
  | .varchar _ => false
  | _ => true

/-- `Constraint`. -/
inductive Constraint
  | foreignKey
  | primaryKey (columnNames : List String)
  | uniqueKey (columnNames : List String)

/-- `col_names`. -/
def Constraint.colNames : Constraint → Option (List String)
  | primaryKey columnNames => some columnNames
  | uniqueKey columnNames => some columnNames
  | foreignKey => none

/-- `matches!(c, Constraint::PrimaryKey { .. })`. -/
def Constraint.isPrimaryKey : Constraint → Bool
  | primaryKey _ => true
  | _ => false

/-- `TableDefinition`. -/
structure TableDefinition where
  columns : List ColumnDefinition
  constraints : List Constraint

namespace TableDefinition

/-- `get_primary_key`. -/
def getPrimaryKey (td : TableDefinition) : Option Constraint :=
  td.constraints.find? Constraint.isPrimaryKey

/-- `get_primary_key_columns`. -/
def getPrimaryKeyColumns (td : TableDefinition) : Exec (Option (List ColumnDefinition)) :=
  match td.getPrimaryKey with
  | some (.primaryKey columnNames) => do
    let columnDefs ← columnNames.mapM fun colName =>
      Exec.unwrap (td.columns.find? fun c => c.name = colName)
    return some columnDefs
  | _ => return none

/-- The column names. -/
def colNames (td : TableDefinition) : List String := td.columns.map ColumnDefinition.name

/-- The primary key of the table lists distinct existing columns, and column names are distinct. -/
structure Keyed (td : TableDefinition) (pk : List String) : Prop where
  getPrimaryKey_eq : td.getPrimaryKey = some (.primaryKey pk)
  names : td.colNames.Nodup
  nodup : pk.Nodup
  exist : ∀ n ∈ pk, n ∈ td.colNames

variable {td : TableDefinition} {pk : List String}

/-- The column of the given name. -/
def column (td : TableDefinition) (n : String) : Option ColumnDefinition :=
  td.columns.find? fun c => c.name = n

theorem column_name {n : String} {c : ColumnDefinition} (h : td.column n = some c) : c.name = n := by
  simpa using List.find?_some h

theorem exists_column {n : String} (h : n ∈ td.colNames) : ∃ c, td.column n = some c := by
  obtain ⟨c, hc, rfl⟩ := List.mem_map.mp h
  exact Option.isSome_iff_exists.mp (List.find?_isSome.mpr ⟨c, hc, by simp⟩)

/-- The key columns of a table whose key names existing columns, in the key's order. -/
theorem getPrimaryKeyColumns_of_exist (hpk : td.getPrimaryKey = some (.primaryKey pk))
    (hexist : ∀ n ∈ pk, n ∈ td.colNames) :
    ∃ keyCols, td.getPrimaryKeyColumns = .ret (some keyCols) ∧
      keyCols.map ColumnDefinition.name = pk := by
  have hmap : ∀ ns : List String, (∀ n ∈ ns, ∃ c, td.column n = some c) →
      ∃ cs, (ns.mapM fun n => Exec.unwrap (td.column n)) = .ret cs ∧
        cs.map ColumnDefinition.name = ns := by
    intro ns
    induction ns with
    | nil => exact fun _ => ⟨[], rfl, rfl⟩
    | cons n ns ih =>
      intro hns
      obtain ⟨c, hc⟩ := hns n List.mem_cons_self
      obtain ⟨cs, hcs, hnames⟩ := ih fun m hm => hns m (List.mem_cons_of_mem n hm)
      refine ⟨c :: cs, ?_, by rw [List.map_cons, hnames, column_name hc]⟩
      rw [List.mapM_cons, hc, Exec.unwrap_some, Exec.ret_bind, hcs]
      rfl
  obtain ⟨cs, hcs, hnames⟩ := hmap pk fun n hn => exists_column (hexist n hn)
  refine ⟨cs, ?_, hnames⟩
  rw [getPrimaryKeyColumns, hpk]
  change ((pk.mapM fun n => Exec.unwrap (td.column n)) >>= fun cs => Exec.ret (some cs)) = _
  rw [hcs]
  rfl

/-- **The key columns of a keyed table**: one for each name of the key, in the key's order. -/
theorem getPrimaryKeyColumns_eq (h : td.Keyed pk) :
    ∃ keyCols, td.getPrimaryKeyColumns = .ret (some keyCols) ∧
      keyCols.map ColumnDefinition.name = pk :=
  getPrimaryKeyColumns_of_exist h.getPrimaryKey_eq h.exist

end TableDefinition

end RarmDb
