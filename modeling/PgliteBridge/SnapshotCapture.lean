import PgliteBridge.SnapshotManager

/-!
# What a snapshot holds

`snapshotDb` leaves the database as it was and puts a copy of the rows that `SELECT *` gives for every user table in the
snapshot, with the positions of the sequences that have been advanced (`snapshotDb_captures`).
-/

namespace PgliteBridge.SnapshotManager

open Commands Postgres

variable {ν : Type} [Inhabited ν]

def copyOf (database : Database ν) (name : QualifiedName) : Copy ν :=
  match database.find? name with
  | none => ⟨[], []⟩
  | some table => ⟨table.columnNames, database.select table⟩

/-- The snapshot of the tables in the order in which they are listed. -/
def captured (database : Database ν) (lines : List (QualifiedName × Nat)) (sequences : List (QualifiedName × Int)) :
    SnapshotSchema ν :=
  ⟨lines.map fun line => (line.2, copyOf database line.1), lines.map Prod.swap, sequences⟩

structure Captures (database : Database ν) (snapshot : SnapshotSchema ν) : Prop where
  tables : (snapshot.tables.map Prod.snd).Perm (database.userTables.map (·.name))
  copies : ∀ line ∈ snapshot.tables, snapshot.copies.lookup line.1 = some (copyOf database line.2)
  sequences : snapshot.sequences.Perm database.advanced

private theorem captures_captured {database : Database ν} {names : List QualifiedName}
    {sequences : List (QualifiedName × Int)}
    (hnames : names.Perm (database.userTables.map (·.name))) (hsequences : sequences.Perm database.advanced) :
    Captures database (captured database names.zipIdx sequences) := by
  refine ⟨?_, fun line hline => ?_, hsequences⟩
  · have htables : ((captured database names.zipIdx sequences).tables.map Prod.snd) = names := by
      simp [captured, Function.comp_def]
    rw [htables]
    exact hnames
  · obtain ⟨⟨name, i⟩, hmem, rfl⟩ := List.mem_map.mp hline
    refine Keyed.lookup_of_mem ?_ (List.mem_map.mpr ⟨(name, i), hmem, rfl⟩)
    have hkeys : ((captured database names.zipIdx sequences).copies.map Prod.fst) = List.range' 0 names.length := by
      simp [captured, Function.comp_def]
    rw [hkeys]
    exact List.nodup_range'

/-! ### The run of a capture -/

/-- Inside the transaction, with what has been built so far. -/
def building (s : Session ν) (staging : Option (SnapshotSchema ν)) : Session ν :=
  { s with
    database := { s.database with staging := staging }
    transaction := some ⟨{ s.database with staging := none }, [], none, false⟩ }

def afterSnapshot (s : Session ν) (snapshot : SnapshotSchema ν) : Session ν :=
  s.update ({ · with snapshot := some snapshot, staging := none })

section Build

variable {pg : Server} {s : Session ν} {failed : Failure → Session ν → Prop}

/-- A statement of the build that takes the staging schema from one state to the next. -/
private theorem sends_building {staging staging' : Option (SnapshotSchema ν)} {statement : Statement}
    (hpg : pg.Faultless)
    (h : (building s staging).performActive statement = some (building s staging')) :
    Sends (· = building s staging) (exec pg statement) (fun _ => (· = building s staging')) failed := by
  refine sends_exec_accepted hpg ?_
  rintro _ rfl
  exact ⟨_, (Session.perform_of_active rfl statement).trans h, rfl⟩

private theorem sends_copy_tables (hpg : pg.Faultless) (names : List QualifiedName)
    (hnames : ∀ name ∈ names, (s.database.find? name).isSome) :
    Sends (· = building s (some .empty))
      (names.zipIdx.forM fun (source, i) => do
        exec pg (.copyTable i source)
        exec pg (.listTable i source))
      (fun _ => (· = building s (some (captured s.database names.zipIdx [])))) failed := by
  refine sends_forM (fun done t => t = building s (some (captured s.database done []))) ?_
  rintro done ⟨source, i⟩ rest hlist
  have hsource : source ∈ names := by
    have hmem : (source, i) ∈ names.zipIdx := by rw [hlist]; simp
    exact (List.mem_zipIdx' hmem).2 ▸ List.getElem_mem _
  obtain ⟨table, htable⟩ := Option.isSome_iff_exists.mp (hnames source hsource)
  have hcopy : copyOf s.database source = ⟨table.columnNames, s.database.select table⟩ := by simp [copyOf, htable]
  refine sends_seq (· = building s (some
    ⟨(done ++ [(source, i)]).map fun line => (line.2, copyOf s.database line.1), done.map Prod.swap, []⟩)) ?_ ?_
  · refine sends_building hpg ?_
    have hfind : (building s (some (captured s.database done []))).database.find? source = some table := htable
    simp only [Session.performActive, hfind]
    simp [building, captured, Session.updateStaging, Session.update, hcopy, Database.select, Database.descendants]
  · refine sends_building hpg ?_
    simp [building, captured, Session.updateStaging, Session.update, Session.performActive]

private theorem sends_list_sequences (hpg : pg.Faultless) (lines : List (QualifiedName × Nat))
    (sequences : List (QualifiedName × Int)) :
    Sends (· = building s (some (captured s.database lines [])))
      (sequences.forM fun (name, value) => exec pg (.listSequence name value))
      (fun _ => (· = building s (some (captured s.database lines sequences)))) failed := by
  refine sends_forM (fun done t => t = building s (some (captured s.database lines done))) ?_
  rintro done ⟨name, value⟩ rest -
  refine sends_building hpg ?_
  simp [building, captured, Session.updateStaging, Session.update, Session.performActive]

/-- The snapshot as it stands just before `COMMIT`. -/
private theorem sends_buildSnapshot (hpg : pg.Faultless) (hnames : (s.database.tables.map (·.name)).Nodup) :
    Sends (· = building s none) (buildSnapshot pg)
      (fun _ t => ∃ snapshot, Captures s.database snapshot ∧
        t = { building s none with database := (afterSnapshot s snapshot).database }) failed := by
  unfold buildSnapshot
  refine sends_seq (· = building s (some .empty)) (sends_building hpg rfl) ?_
  refine sends_bind (fun names t => names.Perm (s.database.userTables.map (·.name)) ∧ t = building s (some .empty))
    ?_ fun names => sends_of_fact fun htables => ?_
  · refine sends_query_faultless hpg ?_ ?_
    · rintro _ rfl
      rfl
    · rintro _ names rfl hperm
      exact ⟨hperm, rfl⟩
  refine sends_seq (· = building s (some .empty)) (sends_building hpg rfl) ?_
  refine sends_seq _ (sends_copy_tables hpg names fun name hname => ?_) ?_
  · obtain ⟨table, htable, rfl⟩ := List.mem_map.mp (htables.mem_iff.mp hname)
    rw [Database.find?_of_mem hnames (Database.mem_userTables.mp htable).1]
    rfl
  refine sends_bind (fun sequences t => sequences.Perm s.database.advanced ∧
    t = building s (some (captured s.database names.zipIdx []))) ?_ fun sequences => sends_of_fact fun hsequences => ?_
  · refine sends_query_faultless hpg ?_ ?_
    · rintro _ rfl
      rfl
    · rintro _ sequences rfl hperm
      exact ⟨hperm, rfl⟩
  refine sends_seq (· = building s (some (captured s.database names.zipIdx []))) (sends_building hpg rfl) ?_
  refine sends_seq _ (sends_list_sequences hpg _ sequences) ?_
  refine sends_seq (· = (building s (some (captured s.database names.zipIdx sequences))).update
    ({ · with snapshot := none })) ?_ ?_
  · refine sends_exec_accepted hpg ?_
    rintro _ rfl
    exact ⟨_, rfl, rfl⟩
  · refine sends_exec_accepted hpg ?_
    rintro _ rfl
    exact ⟨_, rfl, _, captures_captured htables hsequences, rfl⟩

end Build

/-- A capture that meets no failure succeeds and changes nothing but the snapshot. -/
theorem snapshotDb_captures {pg : Server} {s : Session ν} (hpg : pg.Faultless) (hs : s.transaction = none)
    (hnames : (s.database.tables.map (·.name)).Nodup) :
    Sends (· = s) (snapshotDb pg)
      (fun _ t => ∃ snapshot, Captures s.database snapshot ∧ t = afterSnapshot s snapshot) fun _ _ => False := by
  obtain ⟨database, role, transaction⟩ := s
  obtain rfl : transaction = none := hs
  unfold snapshotDb
  refine sends_seq (· = ⟨{ database with staging := none }, role, none⟩) ?_ ?_
  · refine sends_exec_accepted hpg ?_
    rintro _ rfl
    exact ⟨_, rfl, rfl⟩
  refine sends_catch (fun _ _ => False) ?_ fun err => ?_
  · refine sends_seq (· = building ⟨database, role, none⟩ none) ?_ ?_
    · refine sends_exec_accepted hpg ?_
      rintro _ rfl
      exact ⟨_, rfl, rfl⟩
    refine sends_seq _ (sends_buildSnapshot hpg hnames) ?_
    refine sends_exec_accepted hpg ?_
    rintro _ ⟨snapshot, hsnapshot, rfl⟩
    exact ⟨_, rfl, snapshot, hsnapshot, rfl⟩
  · exact fun _ hfalse => hfalse.elim

end PgliteBridge.SnapshotManager
