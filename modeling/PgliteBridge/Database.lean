import PgliteBridge.Keyed
import Mathlib.Logic.Function.Iterate

/-!
# Tables, sequences and the saved snapshot

What PostgreSQL keeps and how `SELECT *`, `TRUNCATE … RESTART IDENTITY CASCADE`, `INSERT … SELECT` and `setval` act on
it.  A partition and an inheritance child are tables of their own; `SELECT *` from a parent reads their rows too.
-/

namespace PgliteBridge.Postgres

structure QualifiedName where
  schema : String
  name : String
deriving DecidableEq, Repr

variable {ν : Type}

/-- A row by its column names. -/
abbrev Row (ν : Type) := List (String × ν)

/-- The default value stands for `NULL`. -/
def Row.value [Inhabited ν] (row : Row ν) (column : String) : ν := (row.lookup column).getD default

structure Column (ν : Type) where
  name : String
  /-- The expression of a stored generated column, over the other columns. -/
  generated : Option ((String → ν) → ν)
  /-- `GENERATED ALWAYS AS IDENTITY`. -/
  identityAlways : Bool

structure ForeignKey (ν : Type) where
  target : QualifiedName
  /-- Whether a row refers to one of the rows of the target. -/
  matched : Row ν → List (Row ν) → Bool

structure Table (ν : Type) where
  name : QualifiedName
  columns : List (Column ν)
  /-- The tables that this one is a partition or an inheritance child of, directly or not. -/
  ancestors : List QualifiedName
  /-- The partition that a row belongs to, when the table is partitioned. -/
  route : Option ((String → ν) → Option QualifiedName)
  foreignKeys : List (ForeignKey ν)
  /-- The unique, check and not-null constraints, on the rows of the table itself. -/
  accepts : List (Row ν) → Bool
  accepts_of_subperm : ∀ {rows rows' : List (Row ν)}, rows.Subperm rows' → accepts rows' = true → accepts rows = true
  temporary : Bool

structure Sequence where
  name : QualifiedName
  /-- The table of the column that owns it. -/
  owner : Option QualifiedName
  start : Int
  /-- `none` at a limit that ends the sequence. -/
  successor : Int → Option Int
  temporary : Bool

/-- A table `_snap_<i>`. -/
structure Copy (ν : Type) where
  columns : List String
  rows : List (Row ν)

/-- `_pglite_snapshot`, or the schema in which it is built. -/
structure SnapshotSchema (ν : Type) where
  copies : List (Nat × Copy ν)
  /-- `__tables`: the index of the copy and its source. -/
  tables : List (Nat × QualifiedName)
  /-- `__sequences`. -/
  sequences : List (QualifiedName × Int)

def SnapshotSchema.empty : SnapshotSchema ν := ⟨[], [], []⟩

structure Database (ν : Type) where
  tables : List (Table ν)
  sequences : List Sequence
  /-- The rows that a table stores itself. -/
  rows : QualifiedName → List (Row ν)
  /-- `pg_sequences.last_value`. -/
  lastValue : QualifiedName → Option Int
  snapshot : Option (SnapshotSchema ν)
  staging : Option (SnapshotSchema ν)

/-- What the next `nextval` returns. -/
def Sequence.nextValue (sequence : Sequence) : Option Int → Option Int
  | none => some sequence.start
  | some value => sequence.successor value

namespace Table

variable [Inhabited ν] (table : Table ν)

/-- The columns with `is_generated = 'NEVER'`. -/
def ordinary : List String := (table.columns.filter (·.generated.isNone)).map (·.name)

def columnNames : List String := table.columns.map (·.name)

/-- The values of the ordinary columns. -/
def base (values : String → ν) (column : String) : ν :=
  if table.ordinary.contains column then values column else default

/-- The row that is stored for the values: generated columns are computed. -/
def build (values : String → ν) : Row ν :=
  table.columns.map fun column =>
    (column.name, match column.generated with
      | none => values column.name
      | some expression => expression (table.base values))

/-- A row of a descendant as `SELECT *` gives it. -/
def project (row : Row ν) : Row ν := table.columnNames.map fun column => (column, row.value column)

end Table

structure Insert where
  target : QualifiedName
  /-- `none` for `INSERT INTO … SELECT *`. -/
  columns : Option (List String)
  overriding : Bool
  source : Nat
deriving DecidableEq

namespace Insert

variable [Inhabited ν]

/-- The columns that are assigned and the columns of the copy they are assigned from. -/
def assignments (insert : Insert) (table : Table ν) (copy : Copy ν) : List (String × String) :=
  match insert.columns with
  | none => table.columnNames.zip copy.columns
  | some columns => columns.map fun column => (column, column)

/-- The statement is not rejected for its columns: they exist, none of them is generated, an `ALWAYS` identity is
overridden. -/
def legal (insert : Insert) (table : Table ν) (copy : Copy ν) : Bool :=
  let assigned := insert.assignments table copy
  (insert.columns.isSome || decide (copy.columns.length ≤ table.columns.length)) &&
    assigned.all (fun pair => table.columnNames.contains pair.1 && copy.columns.contains pair.2) &&
    table.columns.all fun column => !(assigned.map Prod.fst).contains column.name ||
      (column.generated.isNone && (!column.identityAlways || insert.overriding))

/-- The values that a row of the copy supplies. -/
def supplied (insert : Insert) (table : Table ν) (copy : Copy ν) (row : Row ν) (column : String) : ν :=
  match (insert.assignments table copy).lookup column with
  | none => default
  | some source => row.value source

end Insert

namespace Database

variable (db : Database ν)

def find? (name : QualifiedName) : Option (Table ν) := db.tables.find? (·.name == name)

/-- `SYSTEM_SCHEMA_EXCLUSION` -/
def systemSchemaExclusion (name : QualifiedName) : Bool :=
  !(["pg_catalog", "information_schema", "_pglite_snapshot", "_pglite_snapshot_new"].contains name.schema)

/-- `USER_TABLES_WHERE` -/
def userTablesWhere (name : QualifiedName) : Bool :=
  systemSchemaExclusion name && !"_prisma".toList.isPrefixOf name.name.toList

/-- `pg_tables`, without system tables and tables of Prisma. -/
def userTables : List (Table ν) := db.tables.filter fun table => userTablesWhere table.name

/-- `pg_sequences`, without those in system schemas. -/
def userSequences : List Sequence := db.sequences.filter fun sequence => systemSchemaExclusion sequence.name

/-- The sequences with a `last_value`. -/
def advanced : List (QualifiedName × Int) :=
  db.userSequences.filterMap fun sequence => (db.lastValue sequence.name).map (sequence.name, ·)

/-- The other tables whose rows `SELECT * FROM` a table reads. -/
def descendants (name : QualifiedName) : List (Table ν) := db.tables.filter (·.ancestors.contains name)

/-- `SELECT * FROM table` -/
def select [Inhabited ν] (table : Table ν) : List (Row ν) :=
  db.rows table.name ++ (db.descendants table.name).flatMap fun child => (db.rows child.name).map table.project

/-! ### Truncation -/

/-- The tables among the names, their descendants and the tables that refer to them. -/
def cascade (names : List QualifiedName) : List QualifiedName :=
  (db.tables.filter fun table => names.contains table.name || table.ancestors.any names.contains ||
    table.foreignKeys.any fun key => names.contains key.target).map (·.name)

/-- All that `TRUNCATE … CASCADE` empties. -/
def truncated (names : List QualifiedName) : List QualifiedName := db.cascade^[db.tables.length] names

/-- The sequences that `RESTART IDENTITY` restarts. -/
def restarted (names : List QualifiedName) : List QualifiedName :=
  (db.sequences.filter fun sequence => sequence.owner.any (db.truncated names).contains).map (·.name)

def truncate (names : List QualifiedName) : Database ν :=
  { db with
    rows := fun name => if (db.truncated names).contains name then [] else db.rows name
    lastValue := fun name => if (db.restarted names).contains name then none else db.lastValue name }

/-! ### Sequences -/

def position (name : QualifiedName) (value : Int) : Database ν :=
  { db with lastValue := fun other => if other = name then some value else db.lastValue other }

def hasSequence (name : QualifiedName) : Bool := db.sequences.any (·.name == name)

/-! ### Inserts -/

/-- The table that stores a row inserted into `table`, and the row. -/
def place [Inhabited ν] (table : Table ν) (values : String → ν) : Option (QualifiedName × Row ν) := do
  let name ← match table.route with
    | none => some table.name
    | some route => route (table.base values)
  let destination ← db.find? name
  return (name, destination.build values)

def copy? (index : Nat) : Option (Copy ν) := db.snapshot.bind (·.copies.lookup index)

/-- The rows that an insert stores, each with its table. -/
def placements [Inhabited ν] (insert : Insert) : Option (List (QualifiedName × Row ν)) := do
  let table ← db.find? insert.target
  let copy ← db.copy? insert.source
  if insert.legal table copy then copy.rows.mapM fun row => db.place table (insert.supplied table copy row) else none

def addRow (placed : QualifiedName × Row ν) : Option (Database ν) := do
  let table ← db.find? placed.1
  let rows := db.rows placed.1 ++ [placed.2]
  if table.accepts rows then
    return { db with rows := fun name => if name = placed.1 then rows else db.rows name }
  else none

def foreignKeysHold : Bool :=
  db.tables.all fun table => table.foreignKeys.all fun key =>
    (db.rows table.name).all fun row => key.matched row (db.rows key.target)

/-- `checked` is false where foreign keys are off. -/
def insert [Inhabited ν] (checked : Bool) (statement : Insert) : Option (Database ν) := do
  let placed ← db.placements statement
  let filled ← placed.foldlM addRow db
  if !checked || filled.foreignKeysHold then return filled else none

/-! ### Temporary relations -/

def temporaryTable (name : QualifiedName) : Bool := db.tables.any fun table => table.name == name && table.temporary

def temporarySequence (name : QualifiedName) : Bool :=
  db.sequences.any fun sequence => sequence.name == name && sequence.temporary

/-- `DISCARD TEMP` -/
def discardTemp : Database ν :=
  { db with
    tables := db.tables.filter (!·.temporary)
    sequences := db.sequences.filter (!·.temporary)
    rows := fun name => if db.temporaryTable name then [] else db.rows name
    lastValue := fun name => if db.temporarySequence name then none else db.lastValue name }

/-! ### What PostgreSQL guarantees -/

/-- Names are unique, constraints hold, generated columns are up to date, and the rows of a partitioned table are in the
partitions they belong to. -/
structure Valid [Inhabited ν] : Prop where
  tableNames : (db.tables.map (·.name)).Nodup
  sequenceNames : (db.sequences.map (·.name)).Nodup
  columnNames : ∀ table ∈ db.tables, table.columnNames.Nodup
  stored : ∀ table ∈ db.tables, ∀ row ∈ db.rows table.name, table.build row.value = row
  accepted : ∀ table ∈ db.tables, table.accepts (db.rows table.name) = true
  proper : ∀ table ∈ db.tables, table.name ∉ table.ancestors
  empty : ∀ table ∈ db.tables, table.route.isSome = true → db.rows table.name = []
  /-- The columns of a partition are those of the table it is a part of. -/
  columns : ∀ parent ∈ db.tables, parent.route.isSome = true → ∀ child ∈ db.descendants parent.name,
    child.ordinary ⊆ parent.ordinary
  routed : ∀ parent ∈ db.tables, ∀ route, parent.route = some route → ∀ child ∈ db.descendants parent.name,
    ∀ row ∈ db.rows child.name, route (parent.base row.value) = some child.name

variable {db} {table : Table ν} {name : QualifiedName}

theorem find?_of_mem (h : (db.tables.map (·.name)).Nodup) (hmem : table ∈ db.tables) :
    db.find? table.name = some table :=
  Keyed.find?_of_mem h hmem

theorem mem_of_find? (h : db.find? name = some table) : table ∈ db.tables ∧ table.name = name :=
  ⟨List.mem_of_find?_eq_some h, by simpa using List.find?_some h⟩

theorem mem_descendants {child : Table ν} :
    child ∈ db.descendants name ↔ child ∈ db.tables ∧ name ∈ child.ancestors := by
  simp [descendants]

theorem mem_userTables : table ∈ db.userTables ↔ table ∈ db.tables ∧ userTablesWhere table.name = true := by
  simp [userTables]

end Database

/-! ### Rows -/

namespace Table

variable [Inhabited ν] {table : Table ν} {values values' : String → ν}

theorem base_congr (h : ∀ column ∈ table.ordinary, values column = values' column) :
    table.base values = table.base values' := by
  funext column
  unfold base
  by_cases hcolumn : column ∈ table.ordinary
  · simp [hcolumn, h column hcolumn]
  · simp [hcolumn]

/-- Only ordinary columns are stored from the values. -/
theorem build_congr (h : ∀ column ∈ table.ordinary, values column = values' column) :
    table.build values = table.build values' := by
  unfold build
  refine List.map_congr_left fun column hcolumn => ?_
  rw [base_congr h]
  cases hgenerated : column.generated with
  | some expression => rfl
  | none =>
    have hmem : column.name ∈ table.ordinary :=
      List.mem_map_of_mem (List.mem_filter.mpr ⟨hcolumn, by simp [hgenerated]⟩)
    simp only [h column.name hmem]

omit [Inhabited ν] in
theorem ordinary_subset : table.ordinary ⊆ table.columnNames := by
  intro column hcolumn
  obtain ⟨c, hc, rfl⟩ := List.mem_map.mp hcolumn
  exact List.mem_map_of_mem (List.mem_of_mem_filter hc)

theorem project_value {row : Row ν} {column : String} (h : column ∈ table.columnNames) :
    (table.project row).value column = row.value column := by
  have hlookup : (table.project row).lookup column = some (row.value column) := Keyed.lookup_graph h
  rw [Row.value, hlookup, Option.getD_some]

end Table

end PgliteBridge.Postgres
