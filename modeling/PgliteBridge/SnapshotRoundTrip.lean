import PgliteBridge.SnapshotRows

/-!
# The snapshot round trip

Capture and restore go through `SELECT *`, so a row is captured once for each user table that reads it.  After changes
of rows and positions, a reset brings back the captured state if and only if every row was captured once, no user table
has generated columns only, and the sequences that it does not restore have not been moved (`roundTrip_iff`).
-/

namespace PgliteBridge.SnapshotManager

open Commands Postgres

variable {ν : Type} [Inhabited ν]

/-- The user tables whose `SELECT *` reads the rows that a table stores. -/
def captors (db : Database ν) (table : Table ν) : List (Table ν) :=
  db.userTables.filter fun user => decide (user.name = table.name) || table.ancestors.contains user.name

/-- What statements other than DDL lead to, once no transaction is open. -/
def Dml (s t : Session ν) : Prop :=
  ∃ rows lastValue staging role, t = ⟨{ s.database with rows, lastValue, staging }, role, none⟩

/-- `resetDb` succeeds; the tables that user tables read hold the rows that they held, and the sequences go on as they
would have. -/
structure RoundTrips (saved : Database ν) (result : Except Failure Unit × Session ν) : Prop where
  ok : result.1 = .ok ()
  rows : ∀ table ∈ saved.tables, captors saved table ≠ [] →
    (result.2.database.rows table.name).Perm (saved.rows table.name)
  sequences : ∀ sequence ∈ saved.userSequences,
    sequence.nextValue (result.2.database.lastValue sequence.name) = sequence.nextValue (saved.lastValue sequence.name)

/-- A reset moves a sequence to where it was. -/
def Restarts (saved : Database ν) (sequence : Sequence) : Prop :=
  saved.userTables ≠ [] ∧ (saved.lastValue sequence.name ≠ none ∨
    sequence.name ∈ saved.restarted (saved.userTables.map (·.name)))

structure Faithful (saved later : Database ν) : Prop where
  /-- A row is captured once, from its own table or through a partitioned table. -/
  once : ∀ table ∈ saved.tables, saved.rows table.name ≠ [] → ∀ user ∈ captors saved table,
    (user.name = table.name ∨ user.route.isSome = true) ∧ ∀ other ∈ captors saved table, other.name = user.name
  writable : ∀ table ∈ saved.userTables, Writable table
  sequences : ∀ sequence ∈ saved.userSequences, Restarts saved sequence ∨
    sequence.nextValue (later.lastValue sequence.name) = sequence.nextValue (saved.lastValue sequence.name)

section Restored

variable {db : Database ν} {snapshot : SnapshotSchema ν} {table child user : Table ν}

omit [Inhabited ν] in
theorem mem_captors : user ∈ captors db table ↔
    user ∈ db.userTables ∧ (user.name = table.name ∨ user.name ∈ table.ancestors) := by
  simp [captors]

private theorem captures_line (hvalid : db.Valid) (hcaptures : Captures db snapshot) {line : Nat × QualifiedName}
    (hline : line ∈ snapshot.tables) : ∃ table ∈ db.userTables, db.find? line.2 = some table ∧
      snapshot.copies.lookup line.1 = some ⟨table.columnNames, db.select table⟩ := by
  have hname : line.2 ∈ db.userTables.map (·.name) := hcaptures.tables.mem_iff.mp (List.mem_map_of_mem hline)
  obtain ⟨table, htable, hsame⟩ := List.mem_map.mp hname
  have hfind : db.find? line.2 = some table :=
    hsame ▸ Database.find?_of_mem hvalid.tableNames (Database.mem_userTables.mp htable).1
  refine ⟨table, htable, hfind, ?_⟩
  rw [hcaptures.copies line hline, copyOf, hfind]

/-- What is placed for the lines of the snapshot. -/
private theorem placedAll_perm (hvalid : db.Valid) (hsnapshot : db.snapshot = some snapshot)
    (hcaptures : Captures db snapshot)
    (hwritable : ∀ table ∈ db.userTables, Writable table) :
    (db.placedAll (planned db)).Perm (db.userTables.flatMap (restoredRows db)) := by
  have hrows : planRows db = snapshot.tables.map (planRow db snapshot) := by simp [planRows, hsnapshot]
  let stored (name : QualifiedName) := ((db.find? name).toList).flatMap (restoredRows db)
  have hplaced : db.placedAll (planned db) = (snapshot.tables.map Prod.snd).flatMap stored := by
    rw [Database.placedAll, planned, hrows, List.map_map, List.flatMap_map, List.flatMap_map]
    refine List.flatMap_congr fun line hline => ?_
    obtain ⟨table, htable, hfind, hlookup⟩ := captures_line hvalid hcaptures hline
    have hmem := (Database.mem_userTables.mp htable).1
    have hcopy : db.copy? line.1 = some ⟨table.columnNames, db.select table⟩ := by
      rw [Database.copy?, hsnapshot]
      exact hlookup
    rw [Function.comp_apply, (planRow_of_find hfind hlookup rfl).2, placements_insertFor hvalid hmem hcopy,
      if_pos ((legal_iff (hvalid.columnNames table hmem) rfl).mpr (hwritable table htable))]
    simp [stored, hfind]
  have husers : (db.userTables.map (·.name)).flatMap stored = db.userTables.flatMap (restoredRows db) := by
    rw [List.flatMap_map]
    refine List.flatMap_congr fun table htable => ?_
    have hfind := Database.find?_of_mem hvalid.tableNames (Database.mem_userTables.mp htable).1
    simp [stored, hfind]
  rw [hplaced, ← husers]
  exact hcaptures.tables.flatMap_right stored

/-! ### The rows that one table gets from the restore of another -/

theorem eq_of_name (hvalid : db.Valid) {other : Table ν} (htable : table ∈ db.tables) (hother : other ∈ db.tables)
    (hname : other.name = table.name) : other = table :=
  List.inj_on_of_nodup_map hvalid.tableNames hother htable hname

private theorem rowsFor_restoredRows {name : QualifiedName} : rowsFor name (restoredRows db user) =
    rowsFor name ((db.rows user.name).map fun row => (user.name, row)) ++
      (db.descendants user.name).flatMap fun child => rowsFor name ((db.rows child.name).map fun row =>
        if user.route.isSome then (child.name, row) else (user.name, user.build row.value)) := by
  rw [restoredRows, rowsFor_append, rowsFor_flatMap]

/-- The table itself. -/
private theorem rowsFor_plain (hroute : user.route = none) : rowsFor user.name (restoredRows db user) =
    db.rows user.name ++ (db.descendants user.name).flatMap fun child =>
      (db.rows child.name).map fun row => user.build row.value := by
  have hown : rowsFor user.name ((db.rows user.name).map fun row => (user.name, row)) = db.rows user.name := by
    rw [rowsFor_map, List.map_id']
  rw [rowsFor_restoredRows, hown]
  simp only [hroute, Option.isSome_none, Bool.false_eq_true, if_false, rowsFor_map]

private theorem rowsFor_plain_ne {name : QualifiedName} (hroute : user.route = none) (hname : user.name ≠ name) :
    rowsFor name (restoredRows db user) = [] := by
  rw [rowsFor_restoredRows, rowsFor_map_ne hname, List.nil_append]
  refine List.flatMap_eq_nil_iff.mpr fun child _ => ?_
  simp only [hroute, Option.isSome_none, Bool.false_eq_true, if_false, rowsFor_map_ne hname]

/-- A partition gets its own rows from the table it is a part of. -/
private theorem rowsFor_partition (hvalid : db.Valid) (htable : table ∈ db.tables)
    (hroute : user.route.isSome = true) (hancestor : user.name ∈ table.ancestors) :
    rowsFor table.name (restoredRows db user) = db.rows table.name := by
  have hne : user.name ≠ table.name := fun he => hvalid.proper table htable (he ▸ hancestor)
  rw [rowsFor_restoredRows, rowsFor_map_ne hne, List.nil_append]
  simp only [hroute, if_true]
  have hdescendant : table ∈ db.descendants user.name := Database.mem_descendants.mpr ⟨htable, hancestor⟩
  have hnames : ((db.descendants user.name).map (·.name)).Nodup :=
    hvalid.tableNames.sublist (List.filter_sublist.map _)
  rw [Keyed.flatMap_eq_of_unique hnames hdescendant fun child _ hother => rowsFor_map_ne hother, rowsFor_map,
    List.map_id']

/-- A partitioned table stores nothing itself. -/
private theorem rowsFor_partitioned (hvalid : db.Valid) (htable : table ∈ db.tables) (huser : user ∈ db.tables)
    (hroute : user.route.isSome = true) (hancestor : user.name ∉ table.ancestors) :
    rowsFor table.name (restoredRows db user) = [] := by
  rw [rowsFor_restoredRows, hvalid.empty user huser hroute]
  simp only [hroute, if_true]
  refine List.flatMap_eq_nil_iff.mpr fun child hchild => rowsFor_map_ne fun hname => hancestor ?_
  obtain ⟨hmem, hparent⟩ := Database.mem_descendants.mp hchild
  exact eq_of_name hvalid htable hmem hname ▸ hparent

/-- A restored row is read by the table it is restored from. -/
theorem captor_of_placed (huser : user ∈ db.userTables) {name : QualifiedName}
    (hname : name ∈ (restoredRows db user).map Prod.fst) :
    ∃ table ∈ db.tables, table.name = name ∧ user ∈ captors db table := by
  have hmem := (Database.mem_userTables.mp huser).1
  have hself : ∃ table ∈ db.tables, table.name = user.name ∧ user ∈ captors db table :=
    ⟨user, hmem, rfl, mem_captors.mpr ⟨huser, Or.inl rfl⟩⟩
  obtain ⟨entry, hentry, rfl⟩ := List.mem_map.mp hname
  rcases List.mem_append.mp hentry with hown | hchildren
  · obtain ⟨row, -, rfl⟩ := List.mem_map.mp hown
    exact hself
  · obtain ⟨child, hchild, hrow⟩ := List.mem_flatMap.mp hchildren
    obtain ⟨row, -, rfl⟩ := List.mem_map.mp hrow
    obtain ⟨hchildmem, hparent⟩ := Database.mem_descendants.mp hchild
    split
    · exact ⟨child, hchildmem, rfl, mem_captors.mpr ⟨huser, Or.inr hparent⟩⟩
    · exact hself

end Restored

/-! ### Rows that are captured once -/

section Once

variable {db later : Database ν} {table user : Table ν}

/-- No row of a descendant is added to a table that is not partitioned. -/
private theorem rowsFor_own (hvalid : db.Valid) (h : Faithful db later) (huser : user ∈ db.userTables)
    (hroute : user.route = none) : rowsFor user.name (restoredRows db user) = db.rows user.name := by
  have hchildren : (db.descendants user.name).flatMap (fun child =>
      (db.rows child.name).map fun row => user.build row.value) = [] := by
    refine List.flatMap_eq_nil_iff.mpr fun child hchild => List.map_eq_nil_iff.mpr ?_
    obtain ⟨hchildmem, hparent⟩ := Database.mem_descendants.mp hchild
    by_contra hrows
    have hcaptor : user ∈ captors db child := mem_captors.mpr ⟨huser, Or.inr hparent⟩
    rcases (h.once child hchildmem hrows user hcaptor).1 with hsame | hsome
    · exact hvalid.proper child hchildmem (hsame ▸ hparent)
    · rw [hroute] at hsome
      cases hsome
  rw [rowsFor_plain hroute, hchildren, List.append_nil]

private theorem rowsFor_captor (hvalid : db.Valid) (h : Faithful db later) (htable : table ∈ db.tables)
    (hrows : db.rows table.name ≠ []) (hcaptor : user ∈ captors db table) :
    rowsFor table.name (restoredRows db user) = db.rows table.name := by
  obtain ⟨huser, hreads⟩ := mem_captors.mp hcaptor
  have hmem := (Database.mem_userTables.mp huser).1
  cases hroute : user.route with
  | none =>
    have hname : user.name = table.name := by
      rcases (h.once table htable hrows user hcaptor).1 with hsame | hsome
      · exact hsame
      · rw [hroute] at hsome
        cases hsome
    rw [← hname]
    exact rowsFor_own hvalid h huser hroute
  | some route =>
    have hsome : user.route.isSome = true := by rw [hroute]; rfl
    rcases hreads with hname | hancestor
    · exact (hrows (hname ▸ hvalid.empty user hmem hsome)).elim
    · exact rowsFor_partition hvalid htable hsome hancestor

private theorem rowsFor_other (hvalid : db.Valid) (h : Faithful db later) (htable : table ∈ db.tables)
    (huser : user ∈ db.userTables) (hother : db.rows table.name = [] ∨ user ∉ captors db table) :
    rowsFor table.name (restoredRows db user) = [] := by
  have hmem := (Database.mem_userTables.mp huser).1
  cases hroute : user.route with
  | none =>
    by_cases hname : user.name = table.name
    · have hrows := hother.resolve_right fun hnot => hnot (mem_captors.mpr ⟨huser, Or.inl hname⟩)
      rw [← hname] at hrows ⊢
      exact (rowsFor_own hvalid h huser hroute).trans hrows
    · exact rowsFor_plain_ne hroute hname
  | some route =>
    have hsome : user.route.isSome = true := by rw [hroute]; rfl
    by_cases hancestor : user.name ∈ table.ancestors
    · have hrows := hother.resolve_right fun hnot => hnot (mem_captors.mpr ⟨huser, Or.inr hancestor⟩)
      exact (rowsFor_partition hvalid htable hsome hancestor).trans hrows
    · exact rowsFor_partitioned hvalid htable hmem hsome hancestor

/-- Each row is put back where it was. -/
private theorem rowsFor_restored (hvalid : db.Valid) (h : Faithful db later) (htable : table ∈ db.tables)
    (hcaptors : captors db table ≠ []) :
    rowsFor table.name (db.userTables.flatMap (restoredRows db)) = db.rows table.name := by
  rw [rowsFor_flatMap]
  by_cases hrows : db.rows table.name = []
  · rw [hrows]
    exact List.flatMap_eq_nil_iff.mpr fun user huser => rowsFor_other hvalid h htable huser (Or.inl hrows)
  · obtain ⟨user, hcaptor⟩ := List.exists_mem_of_ne_nil _ hcaptors
    have hnames : (db.userTables.map (·.name)).Nodup := hvalid.tableNames.sublist (List.filter_sublist.map _)
    rw [Keyed.flatMap_eq_of_unique hnames (mem_captors.mp hcaptor).1, rowsFor_captor hvalid h htable hrows hcaptor]
    intro other hother hne
    refine rowsFor_other hvalid h htable hother (Or.inr fun hmem => hne ?_)
    exact (h.once table htable hrows user hcaptor).2 other hmem

end Once

/-! ### The reset behind changes of rows and positions -/

section Reset

variable {db : Database ν} {snapshot : SnapshotSchema ν} {rows : QualifiedName → List (Row ν)}
  {lastValue : QualifiedName → Option Int} {staging : Option (SnapshotSchema ν)} {table : Table ν}
  {inserts : List Insert} {sequences : List (QualifiedName × Int)}

theorem captures_insert (hvalid : db.Valid) (hsnapshot : db.snapshot = some snapshot) (hcaptures : Captures db snapshot)
    {insert : Insert} (hinsert : insert ∈ planned db) : ∃ table ∈ db.userTables, ∃ source,
      insert = insertFor table source ∧ db.copy? source = some ⟨table.columnNames, db.select table⟩ := by
  have hrows : planRows db = snapshot.tables.map (planRow db snapshot) := by simp [planRows, hsnapshot]
  rw [planned, hrows, List.map_map] at hinsert
  obtain ⟨line, hline, rfl⟩ := List.mem_map.mp hinsert
  obtain ⟨table, htable, hfind, hlookup⟩ := captures_line hvalid hcaptures hline
  refine ⟨table, htable, line.1, (planRow_of_find hfind hlookup rfl).2, ?_⟩
  rw [Database.copy?, hsnapshot]
  exact hlookup

theorem fits_of_captures (hvalid : db.Valid) (hsnapshot : db.snapshot = some snapshot)
    (hcaptures : Captures db snapshot) : Fits db := by
  have hrows : planRows db = snapshot.tables.map (planRow db snapshot) := by simp [planRows, hsnapshot]
  refine ⟨List.all_eq_true.mpr fun row hrow => ?_⟩
  rw [hrows] at hrow
  obtain ⟨line, hline, rfl⟩ := List.mem_map.mp hrow
  obtain ⟨table, -, hfind, hlookup⟩ := captures_line hvalid hcaptures hline
  exact (planRow_of_find hfind hlookup rfl).1

/-- Every captured table has an insert. -/
private theorem exists_insert (hvalid : db.Valid) (hsnapshot : db.snapshot = some snapshot)
    (hcaptures : Captures db snapshot)
    (htable : table ∈ db.userTables) : ∃ source, insertFor table source ∈ planned db ∧
      db.copy? source = some ⟨table.columnNames, db.select table⟩ := by
  have hname : table.name ∈ snapshot.tables.map Prod.snd :=
    hcaptures.tables.mem_iff.mpr (List.mem_map_of_mem htable)
  obtain ⟨line, hline, hsame⟩ := List.mem_map.mp hname
  obtain ⟨other, hother, hfind, hlookup⟩ := captures_line hvalid hcaptures hline
  have heq : other = table := by
    have hnames := (Database.mem_of_find? hfind).2.trans hsame
    exact eq_of_name hvalid (Database.mem_userTables.mp htable).1 (Database.mem_userTables.mp hother).1 hnames
  subst heq
  refine ⟨line.1, ?_, ?_⟩
  · have hrows : planRows db = snapshot.tables.map (planRow db snapshot) := by simp [planRows, hsnapshot]
    rw [planned, hrows, List.map_map]
    exact List.mem_map.mpr ⟨line, hline, (planRow_of_find hfind hlookup rfl).2⟩
  · rw [Database.copy?, hsnapshot]
    exact hlookup

omit [Inhabited ν] in
theorem mem_truncatedAll (htable : table ∈ db.tables) (hcaptors : captors db table ≠ []) :
    table.name ∈ db.truncated (db.userTables.map (·.name)) := by
  obtain ⟨user, hcaptor⟩ := List.exists_mem_of_ne_nil _ hcaptors
  obtain ⟨huser, hreads⟩ := mem_captors.mp hcaptor
  refine Database.mem_truncated htable ?_
  rcases hreads with hname | hancestor
  · exact Or.inl (hname ▸ List.mem_map_of_mem huser)
  · exact Or.inr ⟨user.name, hancestor, List.mem_map_of_mem huser⟩

theorem restorable_of_faithful {later : Database ν} (hvalid : db.Valid) (hsnapshot : db.snapshot = some snapshot)
    (hcaptures : Captures db snapshot) (h : Faithful db later) :
    Restorable ({ db with rows, lastValue, staging } : Database ν) := by
  refine ⟨⟨fun insert hinsert => ?_, fun name hname => ?_⟩, fun entry hentry => ?_⟩
  · obtain ⟨table, htable, source, rfl, hcopy⟩ := captures_insert hvalid hsnapshot hcaptures hinsert
    have hmem := (Database.mem_userTables.mp htable).1
    have hsome : (db.placements (insertFor table source)).isSome := by
      rw [placements_insertFor hvalid hmem hcopy,
        if_pos ((legal_iff (hvalid.columnNames table hmem) rfl).mpr (h.writable table htable))]
      rfl
    exact hsome
  · have hperm := placedAll_perm hvalid hsnapshot hcaptures h.writable
    have hplaced : name ∈ (db.placedAll (planned db)).map Prod.fst := hname
    obtain ⟨entry, hentry, rfl⟩ := List.mem_map.mp ((hperm.map Prod.fst).mem_iff.mp hplaced)
    obtain ⟨user, huser, hrow⟩ := List.mem_flatMap.mp hentry
    obtain ⟨table, htable, hsame, hcaptor⟩ := captor_of_placed huser (List.mem_map_of_mem hrow)
    have hcaptors := List.ne_nil_of_mem hcaptor
    refine ⟨table, hsame ▸ Database.find?_of_mem hvalid.tableNames htable, ?_⟩
    have htruncated : (truncatedAll { db with rows, lastValue, staging }).rows entry.1 = [] :=
      Database.truncate_rows (hsame ▸ mem_truncatedAll htable hcaptors)
    rw [htruncated, List.nil_append]
    have hrows : (rowsFor entry.1 (db.placedAll (planned db))).Perm (db.rows table.name) := by
      rw [← rowsFor_restored hvalid h htable hcaptors, hsame]
      exact rowsFor_perm hperm
    exact table.accepts_of_subperm hrows.subperm (hvalid.accepted table htable)
  · have hsaved : savedSequences ({ db with rows, lastValue, staging } : Database ν) = snapshot.sequences := by
      simp [savedSequences, hsnapshot]
    rw [hsaved] at hentry
    obtain ⟨sequence, hsequence, hmap⟩ := List.mem_filterMap.mp (hcaptures.sequences.mem_iff.mp hentry)
    obtain ⟨value, -, rfl⟩ := Option.map_eq_some_iff.mp hmap
    exact List.any_eq_true.mpr ⟨sequence, List.mem_of_mem_filter hsequence, by simp⟩

/-! ### Positions -/

theorem advanced_keys (hvalid : db.Valid) : (db.advanced.map Prod.fst).Nodup :=
  (hvalid.sequenceNames.sublist (List.filter_sublist.map _)).sublist Keyed.keys_filterMap

omit [Inhabited ν] in
theorem mem_advanced {sequence : Sequence} (hsequence : sequence ∈ db.userSequences) {value : Int} :
    (sequence.name, value) ∈ db.advanced ↔ db.lastValue sequence.name = some value := by
  constructor
  · intro hmem
    obtain ⟨other, hother, hmap⟩ := List.mem_filterMap.mp hmem
    obtain ⟨position, hposition, hpair⟩ := Option.map_eq_some_iff.mp hmap
    obtain ⟨hname, rfl⟩ := Prod.mk.inj hpair
    rw [← hname]
    exact hposition
  · intro hposition
    exact List.mem_filterMap.mpr ⟨sequence, hsequence, by rw [hposition]; rfl⟩

/-- Where a reset leaves a sequence. -/
private theorem afterReset_lastValue (hvalid : db.Valid) (hsequences : sequences.Perm db.advanced) {sequence : Sequence}
    (hsequence : sequence ∈ db.userSequences) :
    (afterReset { db with rows, lastValue, staging } inserts sequences).lastValue sequence.name =
      match db.lastValue sequence.name with
      | some value => some value
      | none =>
        if sequence.name ∈ db.restarted (db.userTables.map (·.name)) then none else lastValue sequence.name := by
  cases hposition : db.lastValue sequence.name with
  | some value =>
    have hkeys : (sequences.map Prod.fst).Nodup := (hsequences.map Prod.fst).nodup_iff.mpr (advanced_keys hvalid)
    exact afterReset_lastValue_of_mem hkeys (hsequences.mem_iff.mpr ((mem_advanced hsequence).mpr hposition))
  | none =>
    have hnot : sequence.name ∉ sequences.map Prod.fst := by
      intro hmem
      obtain ⟨entry, hentry, hname⟩ := List.mem_map.mp hmem
      have hadvanced : (sequence.name, entry.2) ∈ db.advanced := hname ▸ hsequences.mem_iff.mp hentry
      rw [(mem_advanced hsequence).mp hadvanced] at hposition
      cases hposition
    exact afterReset_lastValue_of_not_mem hnot

end Reset

/-! ### The round trip -/

section RoundTrip

variable {db : Database ν} {snapshot : SnapshotSchema ν} {table user : Table ν}

theorem valid_afterSnapshot {s : Session ν} (snapshot : SnapshotSchema ν) (h : s.database.Valid) :
    (afterSnapshot s snapshot).database.Valid :=
  ⟨h.tableNames, h.sequenceNames, h.columnNames, h.stored, h.accepted, h.proper, h.empty, h.columns, h.routed⟩

/-- No temporary relations. -/
def Permanent (db : Database ν) : Prop :=
  (∀ table ∈ db.tables, table.temporary = false) ∧ ∀ sequence ∈ db.sequences, sequence.temporary = false

omit [Inhabited ν] in
private theorem discardTemp_of_permanent (h : Permanent db) :
    db.discardTemp.rows = db.rows ∧ db.discardTemp.lastValue = db.lastValue := by
  have htables : ∀ name, db.temporaryTable name = false :=
    fun name => List.any_eq_false.mpr fun table htable => by simp [h.1 table htable]
  have hsequences : ∀ name, db.temporarySequence name = false :=
    fun name => List.any_eq_false.mpr fun sequence hsequence => by simp [h.2 sequence hsequence]
  constructor
  · funext name
    simp [Database.discardTemp, htables]
  · funext name
    simp [Database.discardTemp, hsequences]

omit [Inhabited ν] in
/-- The scrub leaves permanent relations alone. -/
private theorem scrubbed_contents {s : Session ν} (scrubSession : Bool)
    (h : scrubSession = true → Permanent s.database) :
    (scrubbed scrubSession s).database.rows = s.database.rows ∧
      (scrubbed scrubSession s).database.lastValue = s.database.lastValue := by
  cases scrubSession with
  | false => exact ⟨rfl, rfl⟩
  | true => exact discardTemp_of_permanent (h rfl)

/-- A table that captures rows of another table must be partitioned. -/
private theorem captor_of_rows (hcaptor : user ∈ captors db table)
    (htable : table ∈ db.tables) (hrows : db.rows table.name ≠ [])
    (hsame : ∀ user ∈ db.userTables,
      (rowsFor user.name (db.userTables.flatMap (restoredRows db))).length = (db.rows user.name).length) :
    user.name = table.name ∨ user.route.isSome = true := by
  obtain ⟨hmem, hreads⟩ := mem_captors.mp hcaptor
  by_contra hnot
  rw [not_or] at hnot
  have hroute : user.route = none := by simpa using hnot.2
  have hchild : table ∈ db.descendants user.name :=
    Database.mem_descendants.mpr ⟨htable, hreads.resolve_left hnot.1⟩
  -- the copy of the table holds the rows of the child too, and all of them are put into the table
  have hcopy : (db.rows user.name).length + (db.rows table.name).length ≤
      (rowsFor user.name (restoredRows db user)).length := by
    rw [rowsFor_plain hroute, List.length_append]
    have hle := Keyed.length_le_flatMap (f := fun child : Table ν =>
      (db.rows child.name).map fun row => user.build row.value) hchild
    rw [List.length_map] at hle
    omega
  have hall := Keyed.length_le_flatMap (f := fun other => rowsFor user.name (restoredRows db other)) hmem
  have hlength := hsame user hmem
  rw [rowsFor_flatMap] at hlength
  have hpositive := List.length_pos_of_ne_nil hrows
  omega

/-- Two tables that capture the rows of a third one put them back twice. -/
private theorem captor_unique (hvalid : db.Valid) (htable : table ∈ db.tables) (hrows : db.rows table.name ≠ [])
    (hsame : (rowsFor table.name (db.userTables.flatMap (restoredRows db))).length = (db.rows table.name).length)
    (hcaptors : ∀ user ∈ captors db table, user.name = table.name ∨ user.route.isSome = true) :
    ∀ user ∈ captors db table, ∀ other ∈ captors db table, other.name = user.name := by
  have hpart : ∀ user ∈ captors db table,
      (db.rows table.name).length ≤ (rowsFor table.name (restoredRows db user)).length := by
    intro user hcaptor
    obtain ⟨hmem, hreads⟩ := mem_captors.mp hcaptor
    cases hroute : user.route with
    | none =>
      have hname : user.name = table.name := by
        rcases hcaptors user hcaptor with hname | hsome
        · exact hname
        · rw [hroute] at hsome
          cases hsome
      rw [← hname, rowsFor_plain hroute, List.length_append]
      omega
    | some route =>
      have hsome : user.route.isSome = true := by rw [hroute]; rfl
      rcases hreads with hname | hancestor
      · exact (hrows (hname ▸ hvalid.empty user (Database.mem_userTables.mp hmem).1 hsome)).elim
      · exact Nat.le_of_eq (congrArg List.length (rowsFor_partition hvalid htable hsome hancestor)).symm
  intro user huser other hother
  by_contra hne
  have htwo := Keyed.length_add_length_le (f := fun user => rowsFor table.name (restoredRows db user))
    (mem_captors.mp huser).1 (mem_captors.mp hother).1 fun he => hne (he ▸ rfl)
  have hfirst := hpart user huser
  have hsecond := hpart other hother
  have hpositive := List.length_pos_of_ne_nil hrows
  rw [rowsFor_flatMap] at hsame
  omega

/-- A capture as its result. -/
theorem run_snapshotDb {pg : Server} (hpg : pg.Faultless) {s : Session ν} (hs : s.transaction = none)
    (hvalid : s.database.Valid) :
    ∃ snapshot, Captures s.database snapshot ∧ run (snapshotDb pg) s = (.ok (), afterSnapshot s snapshot) := by
  have hout := run_outcome (snapshotDb_captures hpg hs hvalid.tableNames)
  rcases hrun : run (snapshotDb pg) s with ⟨_ | _, t⟩
  · rw [hrun] at hout
    exact hout.elim
  · rw [hrun] at hout
    obtain ⟨snapshot, hcaptures, rfl⟩ := hout
    exact ⟨snapshot, hcaptures, rfl⟩

/-- What a reset leaves in the tables that user tables read and in the sequences. -/
private theorem resets_contents (hvalid : db.Valid) (hsnapshot : db.snapshot = some snapshot)
    (hcaptures : Captures db snapshot)
    {rows : QualifiedName → List (Row ν)} {lastValue : QualifiedName → Option Int}
    {staging : Option (SnapshotSchema ν)} {role : ReplicationRole} {scrubSession : Bool} {t : Session ν}
    (hpermanent : scrubSession = true → Permanent db) (htables : db.userTables ≠ [])
    (hwritable : ∀ table ∈ db.userTables, Writable table)
    (h : Resets ⟨{ db with rows, lastValue, staging }, role, none⟩ scrubSession t) :
    (∀ table ∈ db.tables, captors db table ≠ [] →
      (t.database.rows table.name).Perm (rowsFor table.name (db.userTables.flatMap (restoredRows db)))) ∧
    ∀ sequence ∈ db.userSequences, t.database.lastValue sequence.name = match db.lastValue sequence.name with
      | some value => some value
      | none => if sequence.name ∈ db.restarted (db.userTables.map (·.name)) then none
        else lastValue sequence.name := by
  obtain ⟨inserts, sequences, hinserts, hsequences, rfl⟩ := h.restored htables
  have hcontents := scrubbed_contents scrubSession (s := ⟨afterReset
    { db with rows, lastValue, staging } inserts sequences, role, none⟩) fun hscrub => by
      rw [afterReset, Database.positions_eq]
      exact hpermanent hscrub
  have hsaved : savedSequences ({ db with rows, lastValue, staging } : Database ν) = snapshot.sequences := by
    simp [savedSequences, hsnapshot]
  constructor
  · intro table htable hcaptors
    let later : Database ν := { db with rows, lastValue, staging }
    have htruncated : table.name ∈ later.truncated (later.userTables.map (·.name)) := mem_truncatedAll htable hcaptors
    rw [hcontents.1, afterReset_rows, if_pos htruncated, List.nil_append]
    have hplaced : (db.placedAll inserts).Perm (db.placedAll (planned db)) := hinserts.flatMap_right _
    exact rowsFor_perm (hplaced.trans (placedAll_perm hvalid hsnapshot hcaptures hwritable))
  · intro sequence hsequence
    rw [hcontents.2]
    exact afterReset_lastValue hvalid ((hsaved ▸ hsequences).trans hcaptures.sequences) hsequence

private theorem faithful_of_resets (hvalid : db.Valid) (hsnapshot : db.snapshot = some snapshot)
    (hcaptures : Captures db snapshot) {rows : QualifiedName → List (Row ν)}
    {lastValue : QualifiedName → Option Int} {staging : Option (SnapshotSchema ν)} {role : ReplicationRole}
    {scrubSession : Bool} {t : Session ν} (hpermanent : scrubSession = true → Permanent db)
    (h : Resets ⟨{ db with rows, lastValue, staging }, role, none⟩ scrubSession t)
    (hround : RoundTrips db (.ok (), t)) : Faithful db { db with rows, lastValue, staging } := by
  by_cases htables : db.userTables = []
  · have ht := h.untouched htables
    have hcontents := scrubbed_contents scrubSession
      (s := ⟨{ db with rows, lastValue, staging }, role, none⟩) hpermanent
    refine ⟨fun table _ _ user huser => ?_, fun table htable => ?_, fun sequence hsequence => Or.inr ?_⟩
    · have huserTable := (mem_captors.mp huser).1
      rw [htables] at huserTable
      cases huserTable
    · rw [htables] at htable
      cases htable
    · have hnext := hround.sequences sequence hsequence
      rw [show (t.database.lastValue) = lastValue from (congrArg (·.database.lastValue) ht).trans hcontents.2] at hnext
      exact hnext
  · have hwritable : ∀ table ∈ db.userTables, Writable table := by
      intro table htable
      obtain ⟨source, hplanned, hcopy⟩ := exists_insert hvalid hsnapshot hcaptures htable
      have hplaced : (db.placements (insertFor table source)).isSome := (h.restorable htables).rows.placed _ hplanned
      have hmem := (Database.mem_userTables.mp htable).1
      rw [placements_insertFor hvalid hmem hcopy] at hplaced
      by_cases hlegal : (insertFor table source).legal table ⟨table.columnNames, db.select table⟩ = true
      · exact (legal_iff (hvalid.columnNames table hmem) rfl).mp hlegal
      · rw [if_neg hlegal] at hplaced
        cases hplaced
    obtain ⟨hrows, hsequences⟩ := resets_contents hvalid hsnapshot hcaptures hpermanent htables hwritable h
    have hlength : ∀ table ∈ db.tables, captors db table ≠ [] →
        (rowsFor table.name (db.userTables.flatMap (restoredRows db))).length = (db.rows table.name).length :=
      fun table htable hcaptors =>
        ((hrows table htable hcaptors).symm.trans (hround.rows table htable hcaptors)).length_eq
    have hself : ∀ user ∈ db.userTables,
        (rowsFor user.name (db.userTables.flatMap (restoredRows db))).length = (db.rows user.name).length :=
      fun user huser => hlength user (Database.mem_userTables.mp huser).1
        (List.ne_nil_of_mem (mem_captors.mpr ⟨huser, Or.inl rfl⟩))
    refine ⟨fun table htable hne user huser => ?_, hwritable, fun sequence hsequence => ?_⟩
    · have hcaptors : ∀ user ∈ captors db table, user.name = table.name ∨ user.route.isSome = true :=
        fun user huser => captor_of_rows huser htable hne hself
      exact ⟨hcaptors user huser, captor_unique hvalid htable hne
        (hlength table htable (List.ne_nil_of_mem huser)) hcaptors user huser⟩
    · have hnext := hround.sequences sequence hsequence
      change sequence.nextValue (t.database.lastValue sequence.name) = _ at hnext
      rw [hsequences sequence hsequence] at hnext
      cases hposition : db.lastValue sequence.name with
      | some value => exact Or.inl ⟨htables, Or.inl (by rw [hposition]; exact Option.some_ne_none _)⟩
      | none =>
        rw [hposition] at hnext
        by_cases hrestarted : sequence.name ∈ db.restarted (db.userTables.map (·.name))
        · exact Or.inl ⟨htables, Or.inr hrestarted⟩
        · simp only [if_neg hrestarted] at hnext
          exact Or.inr hnext

private theorem roundTrips_of_faithful (hvalid : db.Valid) (hsnapshot : db.snapshot = some snapshot)
    (hcaptures : Captures db snapshot) {rows : QualifiedName → List (Row ν)}
    {lastValue : QualifiedName → Option Int} {staging : Option (SnapshotSchema ν)} {role : ReplicationRole}
    {scrubSession : Bool} {t : Session ν} (hpermanent : scrubSession = true → Permanent db)
    (h : Resets ⟨{ db with rows, lastValue, staging }, role, none⟩ scrubSession t)
    (hfaithful : Faithful db { db with rows, lastValue, staging }) : RoundTrips db (.ok (), t) := by
  by_cases htables : db.userTables = []
  · have ht := h.untouched htables
    have hcontents := scrubbed_contents scrubSession
      (s := ⟨{ db with rows, lastValue, staging }, role, none⟩) hpermanent
    refine ⟨rfl, fun table _ hcaptors => ?_, fun sequence hsequence => ?_⟩
    · obtain ⟨user, huser⟩ := List.exists_mem_of_ne_nil _ hcaptors
      have huserTable := (mem_captors.mp huser).1
      rw [htables] at huserTable
      cases huserTable
    · change sequence.nextValue (t.database.lastValue sequence.name) = _
      rw [show (t.database.lastValue) = lastValue from (congrArg (·.database.lastValue) ht).trans hcontents.2]
      exact (hfaithful.sequences sequence hsequence).resolve_left fun hrestarts => hrestarts.1 htables
  · obtain ⟨hrows, hsequences⟩ := resets_contents hvalid hsnapshot hcaptures hpermanent htables hfaithful.writable h
    refine ⟨rfl, fun table htable hcaptors => ?_, fun sequence hsequence => ?_⟩
    · rw [← rowsFor_restored hvalid hfaithful htable hcaptors]
      exact hrows table htable hcaptors
    · change sequence.nextValue (t.database.lastValue sequence.name) = _
      rw [hsequences sequence hsequence]
      cases hposition : db.lastValue sequence.name with
      | some value => rfl
      | none =>
        by_cases hrestarted : sequence.name ∈ db.restarted (db.userTables.map (·.name))
        · simp only [if_pos hrestarted]
        · simp only [if_neg hrestarted]
          rw [← hposition]
          refine (hfaithful.sequences sequence hsequence).resolve_left ?_
          rintro ⟨-, hadvanced | hmem⟩
          · exact hadvanced hposition
          · exact hrestarted hmem

/-- Behind changes of rows and positions, a reset brings the captured state back exactly if the capture is faithful. -/
theorem roundTrip_iff {pg pg' : Server} (hpg : pg.Faultless) (hpg' : pg'.Faultless) {s later : Session ν}
    (hs : s.transaction = none) (hvalid : s.database.Valid) (scrubSession : Bool)
    (hpermanent : scrubSession = true → Permanent s.database) (hlater : Dml (run (snapshotDb pg) s).2 later) :
    RoundTrips (run (snapshotDb pg) s).2.database (run (resetDb pg' scrubSession) later) ↔
      Faithful (run (snapshotDb pg) s).2.database later.database := by
  obtain ⟨snapshot, hcaptures, hrun⟩ := run_snapshotDb hpg hs hvalid
  rw [hrun] at hlater ⊢
  have hsaved := valid_afterSnapshot snapshot hvalid
  have hcopies : Captures (afterSnapshot s snapshot).database snapshot :=
    ⟨hcaptures.tables, hcaptures.copies, hcaptures.sequences⟩
  obtain ⟨rows, lastValue, staging, role, rfl⟩ := hlater
  have hout := run_outcome (resetDb_restores (s := ⟨{ (afterSnapshot s snapshot).database with
    rows := rows, lastValue := lastValue, staging := staging }, role, none⟩) hpg' scrubSession rfl hvalid.tableNames)
  rcases hresult : run (resetDb pg' scrubSession) (⟨{ (afterSnapshot s snapshot).database with
    rows := rows, lastValue := lastValue, staging := staging }, role, none⟩ : Session ν) with ⟨_ | _, t⟩
  · rw [hresult] at hout
    constructor
    · intro hround
      cases hround.ok
    · intro hfaithful
      rcases hout with hfits | ⟨-, hrestorable⟩
      · exact (hfits ⟨(fits_of_captures hsaved rfl hcopies).plan⟩).elim
      · exact (hrestorable (restorable_of_faithful hsaved rfl hcopies hfaithful)).elim
  · rw [hresult] at hout
    exact ⟨faithful_of_resets hsaved rfl hcopies hpermanent hout,
      roundTrips_of_faithful hsaved rfl hcopies hpermanent hout⟩

end RoundTrip

/-! ### Two databases -/

def publicName (name : String) : QualifiedName := ⟨"public", name⟩

/-- One table with an identity and a generated column, and the sequence of the identity. -/
def usersTable : Table Nat where
  name := publicName "users"
  columns := [⟨"id", none, true⟩, ⟨"double", some fun values => 2 * values "id", false⟩]
  ancestors := []
  route := none
  foreignKeys := []
  accepts := fun _ => true
  accepts_of_subperm := fun _ _ => rfl
  temporary := false

def usersSession : Session Nat where
  database :=
    { tables := [usersTable]
      sequences := [⟨publicName "users_id_seq", some (publicName "users"), 1, fun value => some (value + 1), false⟩]
      rows := fun name => if name = publicName "users" then [[("id", 1), ("double", 2)]] else []
      lastValue := fun name => if name = publicName "users_id_seq" then some 1 else none
      snapshot := none
      staging := none }
  role := .origin
  transaction := none

/-- Another row is inserted. -/
def usersLater : Session Nat :=
  { (run (snapshotDb Server.plain) usersSession).2 with
    database := { (run (snapshotDb Server.plain) usersSession).2.database with
      rows := fun name =>
        if name = publicName "users" then [[("id", 1), ("double", 2)], [("id", 2), ("double", 4)]] else []
      lastValue := fun name => if name = publicName "users_id_seq" then some 2 else none } }

theorem usersSession_valid : usersSession.database.Valid where
  tableNames := by decide
  sequenceNames := by decide
  columnNames := by simp [usersSession, usersTable, Table.columnNames]
  stored := by
    intro table htable row hrow
    obtain rfl := List.mem_singleton.mp htable
    obtain rfl := List.mem_singleton.mp hrow
    decide
  accepted := by simp [usersSession, usersTable]
  proper := by simp [usersSession, usersTable]
  empty := by simp [usersSession, usersTable]
  columns := by simp [usersSession, usersTable]
  routed := by simp [usersSession, usersTable]

theorem usersSession_faithful (later : Database Nat) :
    Faithful (run (snapshotDb Server.plain) usersSession).2.database later := by
  refine ⟨fun table htable _ user huser => ?_, fun table htable => ?_, fun sequence hsequence => ?_⟩
  · have hname : ∀ other ∈ captors (run (snapshotDb Server.plain) usersSession).2.database table,
        other.name = publicName "users" := by
      intro other hother
      have hmem := (Database.mem_userTables.mp (mem_captors.mp hother).1).1
      obtain rfl := List.mem_singleton.mp hmem
      rfl
    obtain rfl := List.mem_singleton.mp htable
    exact ⟨Or.inl (hname user huser), fun other hother => (hname other hother).trans (hname user huser).symm⟩
  · obtain rfl := List.mem_singleton.mp (Database.mem_userTables.mp htable).1
    exact Or.inr (by decide)
  · obtain rfl := List.mem_singleton.mp (List.mem_of_mem_filter hsequence)
    exact Or.inl ⟨List.ne_nil_of_mem (Database.mem_userTables.mpr ⟨List.mem_singleton.mpr rfl, by decide⟩),
      Or.inl (by decide)⟩

theorem usersSession_roundTrip :
    RoundTrips (run (snapshotDb Server.plain) usersSession).2.database
      (run (resetDb Server.plain true) usersLater) := by
  refine (roundTrip_iff Server.plain_faultless Server.plain_faultless rfl usersSession_valid true (fun _ => ?_) ?_).mpr
    (usersSession_faithful _)
  · exact ⟨by simp [usersSession, usersTable], by simp [usersSession]⟩
  · exact ⟨_, _, _, _, rfl⟩

/-- A partitioned table and its partition, which holds one row. -/
def eventsSession : Session Nat where
  database :=
    { tables :=
        [{ name := publicName "events", columns := [⟨"day", none, false⟩], ancestors := []
           route := some fun _ => some (publicName "events_1"), foreignKeys := [], accepts := fun _ => true
           accepts_of_subperm := fun _ _ => rfl, temporary := false },
         { name := publicName "events_1", columns := [⟨"day", none, false⟩], ancestors := [publicName "events"]
           route := none, foreignKeys := [], accepts := fun _ => true
           accepts_of_subperm := fun _ _ => rfl, temporary := false }]
      sequences := []
      rows := fun name => if name = publicName "events_1" then [[("day", 1)]] else []
      lastValue := fun _ => none
      snapshot := none
      staging := none }
  role := .origin
  transaction := none

private theorem eventsSession_valid : eventsSession.database.Valid where
  tableNames := by decide
  sequenceNames := by decide
  columnNames := by simp [eventsSession, Table.columnNames]
  stored := by
    intro table htable row hrow
    rcases List.mem_cons.mp htable with rfl | hpartition
    · cases hrow
    · obtain rfl := List.mem_singleton.mp hpartition
      obtain rfl := List.mem_singleton.mp hrow
      decide
  accepted := by simp [eventsSession]
  proper := by simp [eventsSession, publicName]
  empty := by simp [eventsSession, publicName]
  columns := by simp [eventsSession, Database.descendants, Table.ordinary]
  routed := by simp [eventsSession, Database.descendants]

/-- A reset right after the capture stores the row of the partition twice. -/
theorem eventsSession_doubled : eventsSession.database.Valid ∧
    Dml (run (snapshotDb Server.plain) eventsSession).2 (run (snapshotDb Server.plain) eventsSession).2 ∧
      ¬ RoundTrips (run (snapshotDb Server.plain) eventsSession).2.database
        (run (resetDb Server.plain true) (run (snapshotDb Server.plain) eventsSession).2) := by
  refine ⟨eventsSession_valid, ⟨_, _, _, _, rfl⟩, fun h => ?_⟩
  have hmem : eventsSession.database.tables[1] ∈ eventsSession.database.tables := List.getElem_mem _
  have hlength := (h.rows _ hmem (List.ne_nil_of_mem (mem_captors.mpr
    ⟨Database.mem_userTables.mpr ⟨hmem, by decide⟩, Or.inl rfl⟩))).length_eq
  revert hlength
  decide +kernel

end PgliteBridge.SnapshotManager
