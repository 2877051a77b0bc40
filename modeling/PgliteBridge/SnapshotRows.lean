import PgliteBridge.SnapshotCapture
import PgliteBridge.SnapshotRestore

/-!
# Which rows a restore stores, and where

The copy of a table holds the rows of its descendants too.  A restore stores those of a partition in the partition and
those of an inheritance child in the table itself (`restoredRows`).
-/

namespace PgliteBridge.SnapshotManager

open Postgres

variable {ν : Type} [Inhabited ν]

/-- A table for which the restore lists columns, or whose rows have no columns. -/
def Writable (table : Table ν) : Prop := table.columns = [] ∨ table.ordinary ≠ []

/-- The insert that the plan makes for a table. -/
def insertFor (table : Table ν) (source : Nat) : Insert :=
  ⟨table.name, stringAgg table.ordinary,
    (stringAgg table.ordinary).isSome && table.columns.any (·.identityAlways), source⟩

/-- The rows that the restore of a table stores, each with the table that stores it. -/
def restoredRows (db : Database ν) (table : Table ν) : List (QualifiedName × Row ν) :=
  (db.rows table.name).map (fun row => (table.name, row)) ++
    (db.descendants table.name).flatMap fun child => (db.rows child.name).map fun row =>
      if table.route.isSome then (child.name, row) else (table.name, table.build row.value)

omit [Inhabited ν] in
private theorem stringAgg_of_ne_nil {columns : List String} (h : columns ≠ []) : stringAgg columns = some columns := by
  cases columns with
  | nil => exact (h rfl).elim
  | cons column rest => rfl

omit [Inhabited ν] in
/-- The plan of a table that has not changed. -/
theorem planRow_of_find {database : Database ν} {snapshot : SnapshotSchema ν} {line : Nat × QualifiedName}
    {table : Table ν} {copy : Copy ν} (htable : database.find? line.2 = some table)
    (hcopy : snapshot.copies.lookup line.1 = some copy) (hcolumns : copy.columns = table.columnNames) :
    (planRow database snapshot line).valid = true ∧
      (planRow database snapshot line).insert = insertFor table line.1 := by
  have hname := (Database.mem_of_find? htable).2
  have hmissing : copy.columns.filter (fun column => !(table.columns.map (·.name)).contains column) = [] := by
    refine List.filter_eq_nil_iff.mpr fun column hcolumn => ?_
    rw [hcolumns] at hcolumn
    have hmem : (table.columns.map (·.name)).contains column = true := List.elem_eq_true_of_mem hcolumn
    rw [hmem]
    simp
  constructor
  · simp only [PlanRow.valid, planRow, htable, hcopy, Option.toList_some, List.flatMap_cons, List.flatMap_nil,
      List.append_nil, hmissing]
    rfl
  · simp only [PlanRow.insert, planRow, htable, hcopy, Option.toList_some, List.flatMap_cons, List.flatMap_nil,
      List.append_nil, insertFor, hname]
    rfl

/-! ### One insert -/

section Insert

variable {table : Table ν} {copy : Copy ν} {source : Nat}

omit [Inhabited ν] in
private theorem assignments_of_writable (h : Writable table) :
    (insertFor table source).assignments table copy = table.ordinary.map fun column => (column, column) := by
  by_cases hordinary : table.ordinary = []
  · have hnil : table.columnNames = [] := by
      rcases h with hnone | hne
      · rw [Table.columnNames, hnone, List.map_nil]
      · exact (hne hordinary).elim
    simp [insertFor, Insert.assignments, hordinary, stringAgg, hnil]
  · simp [insertFor, Insert.assignments, stringAgg_of_ne_nil hordinary]

omit [Inhabited ν] in
theorem legal_iff (hnames : table.columnNames.Nodup) (hcolumns : copy.columns = table.columnNames) :
    (insertFor table source).legal table copy = true ↔ Writable table := by
  constructor
  · intro hlegal
    by_cases hordinary : table.ordinary = []
    · refine Or.inl (List.eq_nil_iff_forall_not_mem.mpr fun column hcolumn => ?_)
      have hnone : (insertFor table source).columns = none := by simp [insertFor, hordinary, stringAgg]
      have hassigned : (insertFor table source).assignments table copy =
          table.columnNames.zip table.columnNames := by
        simp [Insert.assignments, hnone, hcolumns]
      have hfst : ((insertFor table source).assignments table copy).map Prod.fst = table.columnNames := by
        rw [hassigned]
        exact List.map_fst_zip (Nat.le_refl _)
      have hgenerated : column.generated.isNone = false := by
        cases hcase : column.generated with
        | some expression => rfl
        | none =>
          have hmem : column.name ∈ table.ordinary :=
            List.mem_map_of_mem (List.mem_filter.mpr ⟨hcolumn, by simp [hcase]⟩)
          rw [hordinary] at hmem
          cases hmem
      have hall := List.all_eq_true.mp (Bool.and_eq_true_iff.mp hlegal).2 column hcolumn
      rw [hfst, hgenerated] at hall
      have hcontains : table.columnNames.contains column.name = true :=
        List.elem_eq_true_of_mem (List.mem_map_of_mem hcolumn)
      rw [hcontains] at hall
      simp at hall
    · exact Or.inr hordinary
  · intro h
    have hassigned : (insertFor table source).assignments table copy =
        table.ordinary.map fun column => (column, column) := assignments_of_writable h
    have hfst : ((insertFor table source).assignments table copy).map Prod.fst = table.ordinary := by
      rw [hassigned, List.map_map]
      exact List.map_id _
    simp only [Insert.legal, Bool.and_eq_true]
    refine ⟨⟨?_, ?_⟩, ?_⟩
    · have hlength : copy.columns.length ≤ table.columns.length :=
        Nat.le_of_eq (by rw [hcolumns, Table.columnNames, List.length_map])
      simp [hlength]
    · rw [hassigned, List.all_eq_true]
      intro pair hpair
      obtain ⟨column, hcolumn, rfl⟩ := List.mem_map.mp hpair
      have hmem : column ∈ table.columnNames := Table.ordinary_subset hcolumn
      simp [hcolumns, hmem]
    · rw [hfst, List.all_eq_true]
      intro column hcolumn
      by_cases hmem : column.name ∈ table.ordinary
      · obtain ⟨other, hother, hsame⟩ := List.mem_map.mp hmem
        obtain ⟨hothermem, hgenerated⟩ := List.mem_filter.mp hother
        obtain rfl : other = column := List.inj_on_of_nodup_map hnames hothermem hcolumn hsame
        have hsome : stringAgg table.ordinary = some table.ordinary :=
          stringAgg_of_ne_nil (List.ne_nil_of_mem hmem)
        have hidentity : (!other.identityAlways || (insertFor table source).overriding) = true := by
          cases hcase : other.identityAlways with
          | false => rfl
          | true =>
            have hany : table.columns.any (·.identityAlways) = true := List.any_eq_true.mpr ⟨other, hcolumn, hcase⟩
            simp [insertFor, hsome, hany]
        rw [hgenerated, hidentity]
        simp
      · simp [hmem]

private theorem supplied_of_writable (h : Writable table) (row : Row ν)
    {column : String} (hcolumn : column ∈ table.ordinary) :
    (insertFor table source).supplied table copy row column = row.value column := by
  have hlookup : ((insertFor table source).assignments table copy).lookup column = some column := by
    rw [assignments_of_writable h]
    exact Keyed.lookup_graph (f := fun column => column) hcolumn
  simp only [Insert.supplied, hlookup]

end Insert

/-! ### The rows of one copy -/

section Placements

variable {db : Database ν} {table child : Table ν} {copy : Copy ν} {source : Nat} {row : Row ν}

/-- The values supplied for a row of the copy are those of the row behind it. -/
private theorem supplied_project (hwritable : Writable table) {column : String} (hcolumn : column ∈ table.ordinary) :
    (insertFor table source).supplied table copy (table.project row) column = row.value column :=
  (supplied_of_writable hwritable _ hcolumn).trans (Table.project_value (Table.ordinary_subset hcolumn))

private theorem place_plain (hroute : table.route = none) (hfind : db.find? table.name = some table)
    (values : String → ν) :
    db.place table values = some (table.name, table.build values) := by
  simp [Database.place, hroute, hfind]

/-- A row of a partition goes back to the partition. -/
private theorem place_partition (hvalid : db.Valid) (htable : table ∈ db.tables) (hroute : table.route.isSome = true)
    (hchild : child ∈ db.descendants table.name) (hrow : row ∈ db.rows child.name) {values : String → ν}
    (hvalues : ∀ column ∈ table.ordinary, values column = row.value column) :
    db.place table values = some (child.name, row) := by
  obtain ⟨route, hsome⟩ := Option.isSome_iff_exists.mp hroute
  have hmem := (Database.mem_descendants.mp hchild).1
  have hbase : route (table.base values) = some child.name := by
    rw [Table.base_congr hvalues]
    exact hvalid.routed table htable route hsome child hchild row hrow
  have hbuild : child.build values = row := by
    rw [Table.build_congr fun column hcolumn => hvalues column
      (hvalid.columns table htable hroute child hchild hcolumn)]
    exact hvalid.stored child hmem row hrow
  simp [Database.place, hsome, hbase, Database.find?_of_mem hvalid.tableNames hmem, hbuild]

private theorem mapM_place_own (hvalid : db.Valid) (htable : table ∈ db.tables) (hwritable : Writable table) :
    ((db.rows table.name).mapM fun row => db.place table ((insertFor table source).supplied table copy row)) =
      some ((db.rows table.name).map fun row => (table.name, row)) := by
  refine Keyed.mapM_eq_some fun row hrow => ?_
  have hroute : table.route = none := by
    cases hcase : table.route with
    | none => rfl
    | some route =>
      have hempty := hvalid.empty table htable (by rw [hcase]; rfl)
      rw [hempty] at hrow
      cases hrow
  rw [place_plain hroute (Database.find?_of_mem hvalid.tableNames htable),
    Table.build_congr fun column hcolumn => supplied_of_writable hwritable row hcolumn,
    hvalid.stored table htable row hrow]

private theorem mapM_place_child (hvalid : db.Valid) (htable : table ∈ db.tables) (hwritable : Writable table)
    (hchild : child ∈ db.descendants table.name) :
    (((db.rows child.name).map table.project).mapM fun row =>
        db.place table ((insertFor table source).supplied table copy row)) =
      some ((db.rows child.name).map fun row =>
        if table.route.isSome then (child.name, row) else (table.name, table.build row.value)) := by
  rw [List.mapM_map]
  refine Keyed.mapM_eq_some fun row hrow => ?_
  have hvalues : ∀ column ∈ table.ordinary,
      (insertFor table source).supplied table copy (table.project row) column = row.value column :=
    fun column hcolumn => supplied_project hwritable hcolumn
  change db.place table ((insertFor table source).supplied table copy (table.project row)) = _
  cases hroute : table.route with
  | none =>
    rw [place_plain hroute (Database.find?_of_mem hvalid.tableNames htable), Table.build_congr hvalues]
    rfl
  | some route =>
    rw [place_partition hvalid htable (by rw [hroute]; rfl) hchild hrow hvalues]
    rfl

/-- The insert of a captured table stores `restoredRows`, or is rejected. -/
theorem placements_insertFor (hvalid : db.Valid) (htable : table ∈ db.tables)
    (hcopy : db.copy? source = some ⟨table.columnNames, db.select table⟩) :
    db.placements (insertFor table source) =
      if (insertFor table source).legal table ⟨table.columnNames, db.select table⟩ then some (restoredRows db table)
      else none := by
  have hfind := Database.find?_of_mem hvalid.tableNames htable
  have htarget : (insertFor table source).target = table.name := rfl
  simp only [Database.placements, htarget, hfind, Option.bind_eq_bind, Option.bind_some]
  have hsource : (insertFor table source).source = source := rfl
  rw [hsource, hcopy, Option.bind_some]
  by_cases hlegal : (insertFor table source).legal table ⟨table.columnNames, db.select table⟩ = true
  · rw [if_pos hlegal, if_pos hlegal]
    have hwritable := (legal_iff (hvalid.columnNames table htable) rfl).mp hlegal
    rw [Database.select, List.mapM_append, mapM_place_own hvalid htable hwritable,
      Keyed.mapM_flatMap_eq_some fun child hchild => mapM_place_child hvalid htable hwritable hchild]
    rfl
  · rw [if_neg hlegal, if_neg hlegal]

end Placements

end PgliteBridge.SnapshotManager
