import PgliteBridge.DatabaseContents
import PgliteBridge.SnapshotManager

/-!
# What a reset does

A reset that meets no failure succeeds if and only if the plan fits the catalog, the constraints accept the rows of the
snapshot and the sequences of the snapshot exist; `afterReset` is the database that it leaves (`resetDb_restores`).
-/

namespace PgliteBridge.SnapshotManager

open Commands Postgres

variable {ν : Type} [Inhabited ν]

/-! ### The plan -/

def PlanRow.valid (row : PlanRow) : Bool := row.tableExists && row.missingCols.isNone

def PlanRow.insert (row : PlanRow) : Insert :=
  ⟨row.source, row.cols, row.cols.isSome && row.needsOverriding, row.snapName⟩

private theorem planInsert_of_valid {row : PlanRow} (pg : Server) (h : row.valid = true) :
    planInsert pg row = .ok row.insert := by
  simp only [PlanRow.valid, Bool.and_eq_true, Option.isNone_iff_eq_none] at h
  simp [planInsert, PlanRow.insert, h.1, h.2]

private theorem planInsert_of_invalid {row : PlanRow} (pg : Server) (h : row.valid = false) :
    ∃ err, planInsert pg row = .error err := by
  unfold planInsert
  cases hexists : row.tableExists with
  | false => exact ⟨_, rfl⟩
  | true =>
    cases hmissing : row.missingCols with
    | none => simp [PlanRow.valid, hexists, hmissing] at h
    | some missing => exact ⟨_, rfl⟩

private theorem mapM_planInsert {rows : List PlanRow} (pg : Server) :
    (rows.all PlanRow.valid = true → rows.mapM (planInsert pg) = .ok (rows.map PlanRow.insert)) ∧
      (rows.all PlanRow.valid = false → ∃ err, rows.mapM (planInsert pg) = .error err) := by
  induction rows with
  | nil => exact ⟨fun _ => rfl, fun h => by simp at h⟩
  | cons row rest ih =>
    rw [List.mapM_cons, List.all_cons]
    cases hrow : row.valid with
    | false =>
      obtain ⟨err, herr⟩ := planInsert_of_invalid pg hrow
      refine ⟨fun h => by simp at h, fun _ => ⟨err, ?_⟩⟩
      rw [herr]
      rfl
    | true =>
      rw [planInsert_of_valid pg hrow, Bool.true_and]
      refine ⟨fun h => ?_, fun h => ?_⟩
      · rw [ih.1 h]
        rfl
      · obtain ⟨err, herr⟩ := ih.2 h
        refine ⟨err, ?_⟩
        rw [herr]
        rfl

/-- The inserts of the plan, in the order of the snapshot. -/
def planned (database : Database ν) : List Insert := (planRows database).map PlanRow.insert

/-! ### The outcome -/

def truncatedAll (database : Database ν) : Database ν := database.truncate (database.userTables.map (·.name))

/-- The database behind a reset. -/
def afterReset (database : Database ν) (inserts : List Insert) (sequences : List (QualifiedName × Int)) : Database ν :=
  ((truncatedAll database).withRows ((truncatedAll database).placedAll inserts)).positions sequences

section AfterReset

variable {database : Database ν} {inserts : List Insert} {sequences : List (QualifiedName × Int)} {name : QualifiedName}

theorem afterReset_rows : (afterReset database inserts sequences).rows name =
    (if name ∈ database.truncated (database.userTables.map (·.name)) then [] else database.rows name) ++
      rowsFor name (database.placedAll inserts) := by
  rw [afterReset, Database.positions_eq]
  change (if (database.truncated (database.userTables.map (·.name))).contains name then [] else database.rows name) ++
    rowsFor name (database.placedAll inserts) = _
  simp

theorem afterReset_lastValue_of_mem {value : Int} (hkeys : (sequences.map Prod.fst).Nodup)
    (h : (name, value) ∈ sequences) : (afterReset database inserts sequences).lastValue name = some value :=
  Database.positions_of_mem hkeys h

theorem afterReset_lastValue_of_not_mem (h : name ∉ sequences.map Prod.fst) :
    (afterReset database inserts sequences).lastValue name =
      if name ∈ database.restarted (database.userTables.map (·.name)) then none else database.lastValue name := by
  rw [afterReset, Database.positions_of_not_mem h]
  change (if (database.restarted (database.userTables.map (·.name))).contains name then none
    else database.lastValue name) = _
  simp

end AfterReset

/-- The catalog has all that the snapshot names. -/
structure Fits (database : Database ν) : Prop where
  plan : (planRows database).all PlanRow.valid = true

/-- The rows and the positions of the snapshot can be put back. -/
structure Restorable (database : Database ν) : Prop where
  rows : (truncatedAll database).AdmitsAll (planned database)
  sequences : ∀ entry ∈ savedSequences database, database.hasSequence entry.1 = true

def scrubbed (scrubSession : Bool) (s : Session ν) : Session ν :=
  if scrubSession then { s.update (·.discardTemp) with role := .origin } else s

structure Resets (s : Session ν) (scrubSession : Bool) (t : Session ν) : Prop where
  fits : Fits s.database
  restorable : s.database.userTables ≠ [] → Restorable s.database
  untouched : s.database.userTables = [] → t = scrubbed scrubSession s
  restored : s.database.userTables ≠ [] → ∃ inserts sequences, inserts.Perm (planned s.database) ∧
    sequences.Perm (savedSequences s.database) ∧
    t = scrubbed scrubSession { s with database := afterReset s.database inserts sequences }

def Refused (s : Session ν) : Prop :=
  ¬ Fits s.database ∨ (s.database.userTables ≠ [] ∧ ¬ Restorable s.database)

/-! ### Where a reset may be cut -/

/-- The `setval`s that outlive a rollback. -/
def kept (database : Database ν) (done : List (QualifiedName × Int)) : List (QualifiedName × Int) :=
  done.filter fun entry => !(database.restarted (database.userTables.map (·.name))).contains entry.1

/-- Inside the transaction of a reset, behind `TRUNCATE` and the `setval`s that are done. -/
def restoring (s : Session ν) (database : Database ν) (done : List (QualifiedName × Int)) : Session ν :=
  ⟨database, s.role, some ⟨s.database.positions (kept s.database done),
    s.database.restarted (s.database.userTables.map (·.name)), some .replica, false⟩⟩

/-- What is left when the transaction is rolled back. -/
def cut (s : Session ν) (done : List (QualifiedName × Int)) : Session ν :=
  ⟨s.database.positions (kept s.database done), s.role, none⟩

/-- No statement but `COMMIT` fails by itself. -/
def NoFault (pg : Server) : Prop := ∀ sent statement, statement ≠ .commit → pg.fault sent statement = false

/-- The transaction ends behind the `setval`s that are done. -/
structure Cut (pg : Server) (s : Session ν) (done : List (QualifiedName × Int)) (t : Session ν) : Prop where
  rollback : t.rollback = cut s done
  reached : done ≠ [] → (truncatedAll s.database).AdmitsAll (planned s.database)
  exist : ∀ entry ∈ done, entry ∈ savedSequences s.database ∧ s.database.hasSequence entry.1 = true
  reason : NoFault pg → ¬ (truncatedAll s.database).AdmitsAll (planned s.database) ∨ ∃ sent entry rest,
    pg.order sent (savedSequences s.database) = done ++ entry :: rest ∧ s.database.hasSequence entry.1 = false

/-- The call is rejected behind the `setval`s that are done. -/
structure Rejected (pg : Server) (s : Session ν) (done : List (QualifiedName × Int)) : Prop where
  reached : done ≠ [] → s.database.userTables ≠ [] ∧ Fits s.database ∧
    (truncatedAll s.database).AdmitsAll (planned s.database)
  exist : ∀ entry ∈ done, entry ∈ savedSequences s.database ∧ s.database.hasSequence entry.1 = true
  reason : NoFault pg → ¬ Fits s.database ∨ (s.database.userTables ≠ [] ∧
    (¬ (truncatedAll s.database).AdmitsAll (planned s.database) ∨
      (∃ sent entry rest, pg.order sent (savedSequences s.database) = done ++ entry :: rest ∧
        s.database.hasSequence entry.1 = false) ∨
      ∃ sent sent', pg.fault sent .commit = true ∧ done = pg.order sent' (savedSequences s.database)))

section Run

variable {pg : Server} {s : Session ν}

omit [Inhabited ν] in
private theorem rollback_restoring {database : Database ν} {done : List (QualifiedName × Int)} (statement : Statement) :
    ((restoring s database done).fail statement).rollback = cut s done := by
  cases statement <;> rfl

omit [Inhabited ν] in
theorem cut_nil (hs : s.transaction = none) : cut s [] = s := by
  obtain ⟨database, role, transaction⟩ := s
  obtain rfl : transaction = none := hs
  rfl

omit [Inhabited ν] in
theorem fail_idle (hs : s.transaction = none) (statement : Statement) : s.fail statement = s := by
  obtain ⟨database, role, transaction⟩ := s
  obtain rfl : transaction = none := hs
  cases statement <;> rfl

omit [Inhabited ν] in
theorem rollback_idle (hs : s.transaction = none) : s.rollback = s := by
  obtain ⟨database, role, transaction⟩ := s
  obtain rfl : transaction = none := hs
  rfl

omit [Inhabited ν] in
theorem active_idle (hs : s.transaction = none) : s.aborted = false := by simp [Session.aborted, hs]

private theorem sends_restorePlan (hs : s.transaction = none) :
    Sends (· = s) (restorePlan pg)
      (fun inserts t => (Fits s.database ∧ inserts.Perm (planned s.database)) ∧ t = s)
      fun _ t => t = s ∧ (NoFault pg → ¬ Fits s.database) := by
  refine sends_bind (fun rows t => rows.Perm (planRows s.database) ∧ t = s) ?_ fun rows => sends_of_fact fun hrows => ?_
  · refine sends_query ?_ ?_
    · rintro _ sent rfl
      exact ⟨pg.order_perm _ _, rfl⟩
    · rintro s sent rfl hcases
      refine ⟨fail_idle hs _, fun hpg => ?_⟩
      rw [hpg sent .select (by simp), active_idle hs] at hcases
      simp at hcases
  have hall : rows.all PlanRow.valid = (planRows s.database).all PlanRow.valid := by
    rw [Bool.eq_iff_iff, List.all_eq_true, List.all_eq_true]
    exact forall_congr' fun row => by rw [hrows.mem_iff]
  cases hvalid : rows.all PlanRow.valid with
  | true =>
    rw [(mapM_planInsert pg).1 hvalid]
    refine sends_pure ?_
    rintro _ rfl
    exact ⟨⟨⟨hall ▸ hvalid⟩, hrows.map _⟩, rfl⟩
  | false =>
    obtain ⟨err, herr⟩ := (mapM_planInsert pg).2 hvalid
    rw [herr]
    refine sends_throw ?_
    rintro _ rfl
    refine ⟨rfl, fun _ hfits => ?_⟩
    rw [hall, hfits.plan] at hvalid
    cases hvalid

/-- The inserts either all go through or the transaction is cut before the first `setval`. -/
private theorem sends_inserts {inserts : List Insert} (hperm : inserts.Perm (planned s.database)) :
    Sends (· = restoring s (truncatedAll s.database) []) (inserts.forM fun insert => exec pg (.insert insert))
      (fun _ t => (truncatedAll s.database).AdmitsAll inserts ∧
        t = restoring s ((truncatedAll s.database).withRows ((truncatedAll s.database).placedAll inserts)) [])
      fun _ t => Cut pg s [] t := by
  let fill (done : List Insert) := done.foldlM (fun db insert => Database.insert db false insert)
    (truncatedAll s.database)
  have hloop : Sends (fun t => ∃ filled, fill [] = some filled ∧ t = restoring s filled [])
      (inserts.forM fun insert => exec pg (.insert insert))
      (fun _ t => ∃ filled, fill inserts = some filled ∧ t = restoring s filled []) fun _ t => Cut pg s [] t := by
    refine sends_forM (fun done t => ∃ filled, fill done = some filled ∧ t = restoring s filled [])
      fun done insert rest hlist => ?_
    have hfold : ∀ filled, fill done = some filled → fill (done ++ [insert]) = Database.insert filled false insert := by
      intro filled hfilled
      have happend : fill (done ++ [insert]) = (fill done).bind fun filled =>
          [insert].foldlM (fun db insert => Database.insert db false insert) filled := List.foldlM_append
      rw [happend, hfilled]
      cases hinsert : Database.insert filled false insert <;> simp [hinsert]
    have hperform : ∀ filled, (restoring s filled []).perform (.insert insert) =
        (filled.insert false insert).map fun database => restoring s database [] := fun _ => rfl
    refine sends_exec ?_ ?_
    · rintro _ u sent ⟨filled, hfilled, rfl⟩ - hdone
      rw [hperform] at hdone
      obtain ⟨database, hdatabase, rfl⟩ := Option.map_eq_some_iff.mp hdone
      exact ⟨database, (hfold filled hfilled).trans hdatabase, rfl⟩
    · rintro _ sent ⟨filled, hfilled, rfl⟩ hcases
      refine ⟨rollback_restoring _, fun h => (h rfl).elim, fun _ hmem => (by cases hmem), fun hpg => ?_⟩
      rw [hpg sent _ (by simp), hperform, Option.map_eq_none_iff] at hcases
      have hrejected : filled.insert false insert = none := hcases.resolve_left (by simp)
      refine Or.inl fun hadmits => ?_
      have hall : fill inserts = some _ := Database.insertAll_eq_some.mpr ⟨hadmits.perm hperm.symm, rfl⟩
      have happend : fill inserts = (fill (done ++ [insert])).bind fun filled =>
          rest.foldlM (fun db insert => Database.insert db false insert) filled := by
        rw [hlist, List.append_cons]
        exact List.foldlM_append
      rw [happend, (hfold filled hfilled).trans hrejected] at hall
      cases hall
  refine hloop.mono (fun t ht => ⟨_, rfl, ht⟩) ?_ fun _ _ => id
  rintro - t ⟨filled, hfilled, ht⟩
  obtain ⟨hadmits, rfl⟩ := Database.insertAll_eq_some.mp hfilled
  exact ⟨hadmits, ht⟩

omit [Inhabited ν] in
private theorem setval_restoring {database : Database ν} {done : List (QualifiedName × Int)} {name : QualifiedName}
    {value : Int} : (restoring s (database.positions done) done).setval name value =
      restoring s (database.positions (done ++ [(name, value)])) (done ++ [(name, value)]) := by
  have hpositions : ∀ db : Database ν, ∀ entries, db.positions (entries ++ [(name, value)]) =
      (db.positions entries).position name value := by
    intro db entries
    simp [Database.positions]
  rw [hpositions]
  by_cases hrestarted : (s.database.restarted (s.database.userTables.map (·.name))).contains name = true
  · have hkept : kept s.database (done ++ [(name, value)]) = kept s.database done := by
      rw [kept, List.filter_append, List.filter_cons_of_neg (by rw [hrestarted]; simp)]
      simp [kept]
    simp only [restoring, hkept, Session.setval, Session.update, Session.updateTransaction, Option.map_some,
      if_pos hrestarted]
  · have hkept : kept s.database (done ++ [(name, value)]) = kept s.database done ++ [(name, value)] := by
      rw [kept, List.filter_append, List.filter_cons_of_pos (by simpa using hrestarted)]
      simp [kept]
    simp only [restoring, hkept, hpositions, Session.setval, Session.update, Session.updateTransaction,
      Option.map_some, if_neg hrestarted]

private theorem sends_setvals (database : Database ν) (sent : Nat)
    (hsequences : database.sequences = s.database.sequences)
    (hadmits : (truncatedAll s.database).AdmitsAll (planned s.database)) :
    Sends (· = restoring s database [])
      ((pg.order sent (savedSequences s.database)).forM fun (name, value) => exec pg (.setval name value))
      (fun _ t => (∀ entry ∈ savedSequences s.database, s.database.hasSequence entry.1 = true) ∧
        t = restoring s (database.positions (pg.order sent (savedSequences s.database)))
          (pg.order sent (savedSequences s.database)))
      fun _ t => ∃ done, Cut pg s done t := by
  have hperm := pg.order_perm sent (savedSequences s.database)
  have hhas : ∀ name done, (database.positions done).hasSequence name = s.database.hasSequence name := by
    intro name done
    rw [Database.positions_eq]
    simp only [Database.hasSequence, hsequences]
  refine Sends.mono (sends_forM (fun done t => (∀ entry ∈ done, s.database.hasSequence entry.1 = true) ∧
    t = restoring s (database.positions done) done) ?_) (fun t ht => ⟨by simp, ht⟩) ?_ fun _ _ => id
  · rintro done ⟨name, value⟩ rest hlist
    have hperform : (restoring s (database.positions done) done).perform (.setval name value) =
        if s.database.hasSequence name then some ((restoring s (database.positions done) done).setval name value)
        else none := by
      rw [Session.perform_of_active rfl, ← hhas name done]
      rfl
    refine sends_exec ?_ ?_
    · rintro _ u sent' ⟨hdone, rfl⟩ - hsome
      rw [hperform] at hsome
      split at hsome
      · rename_i hname
        obtain rfl := Option.some.inj hsome
        refine ⟨fun entry hentry => ?_, setval_restoring⟩
        rcases List.mem_append.mp hentry with hmem | hmem
        · exact hdone entry hmem
        · rw [List.mem_singleton.mp hmem]
          exact hname
      · cases hsome
    · rintro _ sent' ⟨hdone, rfl⟩ hcases
      refine ⟨done, rollback_restoring _, fun _ => hadmits, fun entry hentry => ⟨?_, hdone entry hentry⟩,
        fun hpg => ?_⟩
      · exact hperm.mem_iff.mp (hlist ▸ List.mem_append_left _ hentry)
      · rw [hpg sent' _ (by simp), hperform] at hcases
        have hnone := hcases.resolve_left (by simp)
        split at hnone
        · cases hnone
        · rename_i hname
          exact Or.inr ⟨sent, (name, value), rest, hlist, by simpa using hname⟩
  · rintro - t ⟨hall, ht⟩
    exact ⟨fun entry hentry => hall entry (hperm.mem_iff.mpr hentry), ht⟩

/-- Between `BEGIN` and `COMMIT`. -/
private theorem sends_restore {tables : List QualifiedName} {inserts : List Insert} {hasSnapshot : Bool}
    (htables : tables.Perm (s.database.userTables.map (·.name))) (hnames : (s.database.tables.map (·.name)).Nodup)
    (hinserts : inserts.Perm (planned s.database)) (hsnapshot : hasSnapshot = s.database.snapshot.isSome) :
    Sends (· = { s with transaction := some ⟨s.database, [], none, false⟩ }) (restore pg tables inserts hasSnapshot)
      (fun _ t => ∃ sent, Restorable s.database ∧ t = restoring s
        (afterReset s.database inserts (pg.order sent (savedSequences s.database)))
        (pg.order sent (savedSequences s.database)))
      fun _ t => ∃ done, Cut pg s done t := by
  -- before `TRUNCATE` nothing outlives a rollback
  have hearly : ∀ (localRole : Option ReplicationRole) (statement : Statement) sent,
      pg.fault sent statement = true → statement ≠ .commit →
      Cut pg s [] ((⟨s.database, s.role, some ⟨s.database, [], localRole, false⟩⟩ : Session ν).fail statement) := by
    intro localRole statement sent hfault hstatement
    refine ⟨by cases statement <;> rfl, fun h => (h rfl).elim, fun _ hmem => (by cases hmem), fun hpg => ?_⟩
    rw [hpg sent statement hstatement] at hfault
    cases hfault
  unfold restore
  refine sends_seq (· = ⟨s.database, s.role, some ⟨s.database, [], some .replica, false⟩⟩) ?_ ?_
  · refine sends_exec ?_ ?_
    · rintro _ t sent rfl - hperform
      obtain rfl := Option.some.inj hperform
      rfl
    · rintro _ sent rfl hcases
      refine ⟨[], hearly none _ sent (hcases.resolve_right fun hnone => ?_) (by simp)⟩
      cases hnone
  have hall : (tables.all fun name => (s.database.find? name).isSome) = true := by
    rw [List.all_eq_true]
    intro name hname
    obtain ⟨table, htable, rfl⟩ := List.mem_map.mp (htables.mem_iff.mp hname)
    rw [Database.find?_of_mem hnames (Database.mem_userTables.mp htable).1]
    rfl
  have htruncate : (⟨s.database, s.role, some ⟨s.database, [], some .replica, false⟩⟩ : Session ν).perform
      (.truncate tables) = some (restoring s (truncatedAll s.database) []) := by
    refine (Session.perform_of_active rfl _).trans ((if_pos hall).trans ?_)
    rw [restoring, truncatedAll, ← Database.truncate_perm htables, ← Database.restarted_perm htables]
    rfl
  refine sends_seq (· = restoring s (truncatedAll s.database) []) ?_ ?_
  · refine sends_exec ?_ ?_
    · rintro _ t sent rfl - hperform
      rw [htruncate] at hperform
      exact (Option.some.inj hperform).symm
    · rintro _ sent rfl hcases
      rw [htruncate] at hcases
      exact ⟨[], hearly (some .replica) _ sent (hcases.resolve_right (by simp)) (by simp)⟩
  refine sends_seq _ ((sends_inserts hinserts).mono (fun _ => id) (fun _ _ => id) fun _ t ht => ⟨[], ht⟩)
    (sends_of_fact fun hadmits => ?_)
  cases hasSnapshot with
  | false =>
    have hnone : s.database.snapshot = none := by simpa using hsnapshot.symm
    have hsaved : savedSequences s.database = [] := by simp [savedSequences, hnone]
    have horder : pg.order 0 (savedSequences s.database) = [] := by
      rw [hsaved]
      exact List.perm_nil.mp (pg.order_perm 0 [])
    refine sends_pure ?_
    rintro _ rfl
    refine ⟨0, ⟨hadmits.perm hinserts, by simp [hsaved]⟩, ?_⟩
    rw [horder]
    rfl
  | true =>
    refine sends_bind (fun sequences t => (∃ sent, sequences = pg.order sent (savedSequences s.database)) ∧
      t = restoring s ((truncatedAll s.database).withRows ((truncatedAll s.database).placedAll inserts)) []) ?_
      fun sequences => sends_of_fact fun hsequences => ?_
    · refine sends_query ?_ ?_
      · rintro _ sent rfl
        exact ⟨⟨sent, rfl⟩, rfl⟩
      · rintro _ sent rfl hcases
        refine ⟨[], rollback_restoring _, fun h => (h rfl).elim, fun _ hmem => (by cases hmem), fun hpg => ?_⟩
        rw [hpg sent .select (by simp)] at hcases
        rcases hcases with hfault | haborted
        · cases hfault
        · cases haborted
    · obtain ⟨sent, rfl⟩ := hsequences
      refine (sends_setvals ((truncatedAll s.database).withRows ((truncatedAll s.database).placedAll inserts))
        sent rfl (hadmits.perm hinserts)).mono (fun _ => id) ?_ fun _ _ => id
      rintro - t ⟨hexist, ht⟩
      exact ⟨sent, ⟨hadmits.perm hinserts, hexist⟩, ht⟩

private theorem sends_scrub (hscrub : ∀ sent, pg.fault sent .scrub = false) (scrubSession : Bool)
    (hs : s.transaction = none)
    {failed : Failure → Session ν → Prop} :
    Sends (· = s) (if scrubSession then exec pg .scrub else pure ()) (fun _ t => t = scrubbed scrubSession s)
      failed := by
  cases scrubSession with
  | false => exact sends_pure fun t ht => ht
  | true =>
    refine sends_exec ?_ ?_
    · rintro s t sent rfl - hperform
      rw [Session.perform_of_active (active_idle hs)] at hperform
      exact (Option.some.inj hperform).symm
    · rintro s sent rfl hcases
      rw [hscrub, Session.perform_of_active (active_idle hs)] at hcases
      rcases hcases with hfault | hnone
      · cases hfault
      · cases hnone

/-- The transaction of a reset. -/
private theorem sends_transaction {tables : List QualifiedName} {inserts : List Insert} {hasSnapshot : Bool}
    (hs : s.transaction = none) (hnonempty : s.database.userTables ≠ []) (hfits : Fits s.database)
    (htables : tables.Perm (s.database.userTables.map (·.name))) (hnames : (s.database.tables.map (·.name)).Nodup)
    (hinserts : inserts.Perm (planned s.database)) (hsnapshot : hasSnapshot = s.database.snapshot.isSome) :
    Sends (· = s) (tryCatch (do
        exec pg .begin
        restore pg tables inserts hasSnapshot
        exec pg .commit) fun err => do
        rollback
        throw err)
      (fun _ t => (∃ sent, pg.fault sent .commit = false) ∧ Restorable s.database ∧ ∃ sequences,
        sequences.Perm (savedSequences s.database) ∧ t = { s with database := afterReset s.database inserts sequences })
      fun _ t => ∃ done, t = cut s done ∧ Rejected pg s done := by
  have hrejected : ∀ {done t}, Cut pg s done t → Rejected pg s done := by
    intro done t h
    refine ⟨fun hne => ⟨hnonempty, hfits, h.reached hne⟩, h.exist, fun hpg => Or.inr ⟨hnonempty, ?_⟩⟩
    exact (h.reason hpg).imp id fun hexists => Or.inl hexists
  refine sends_catch (fun _ t => ∃ done, t.rollback = cut s done ∧ Rejected pg s done) ?_ fun err => ?_
  · refine sends_seq (· = { s with transaction := some ⟨s.database, [], none, false⟩ }) ?_ ?_
    · have hbegin : s.perform .begin = some { s with transaction := some ⟨s.database, [], none, false⟩ } := by
        rw [Session.perform_of_active (active_idle hs)]
        simp only [Session.performActive, hs]
        rfl
      refine sends_exec ?_ ?_
      · rintro s t sent rfl - hperform
        rw [hbegin] at hperform
        exact (Option.some.inj hperform).symm
      · rintro s sent rfl hcases
        rw [hbegin] at hcases
        refine ⟨[], ?_, fun h => (h rfl).elim, fun _ hmem => (by cases hmem), fun hpg => ?_⟩
        · rw [fail_idle hs, rollback_idle hs, cut_nil hs]
        · rw [hpg sent .begin (by simp)] at hcases
          simp at hcases
    refine sends_seq _ ((sends_restore htables hnames hinserts hsnapshot).mono (fun _ => id) (fun _ _ => id)
      fun _ t ⟨done, hcut⟩ => ⟨done, hcut.rollback, hrejected hcut⟩) ?_
    refine sends_exec ?_ ?_
    · rintro _ t sent ⟨sent', hrestorable, rfl⟩ hfault hperform
      obtain rfl := Option.some.inj hperform
      refine ⟨⟨sent, hfault⟩, hrestorable, _, pg.order_perm sent' _, ?_⟩
      simp only [restoring, hs]
    · rintro _ sent ⟨sent', hrestorable, rfl⟩ hcases
      have hfault : pg.fault sent .commit = true := hcases.resolve_right fun hnone => (by cases hnone)
      refine ⟨pg.order sent' (savedSequences s.database), rollback_restoring _, fun _ =>
        ⟨hnonempty, hfits, hrestorable.rows⟩, fun entry hentry => ?_, fun _ => Or.inr ⟨hnonempty,
          Or.inr (Or.inr ⟨sent, sent', hfault, rfl⟩)⟩⟩
      have hmem := (pg.order_perm sent' _).mem_iff.mp hentry
      exact ⟨hmem, hrestorable.sequences entry hmem⟩
  · refine sends_seq (fun t => ∃ done, t = cut s done ∧ Rejected pg s done) ?_ (sends_throw fun _ h => h)
    exact sends_rollback fun _ h => h

/-- The outcome of a reset whose scrub does not fail. -/
theorem resetDb_outcome (hscrub : ∀ sent, pg.fault sent .scrub = false) (scrubSession : Bool)
    (hs : s.transaction = none) (hnames : (s.database.tables.map (·.name)).Nodup) :
    Sends (· = s) (resetDb pg scrubSession)
      (fun _ t => (s.database.userTables ≠ [] → ∃ sent, pg.fault sent .commit = false) ∧ Resets s scrubSession t)
      fun _ t => ∃ done, t = cut s done ∧ Rejected pg s done := by
  have hquery : ∀ sent, pg.fault sent .select = true ∨ s.aborted = true →
      ∃ done, s.fail .select = cut s done ∧ Rejected pg s done := by
    intro sent hcases
    refine ⟨[], by rw [fail_idle hs, cut_nil hs], fun h => (h rfl).elim, fun _ hmem => (by cases hmem), fun hpg => ?_⟩
    rw [hpg sent .select (by simp), active_idle hs] at hcases
    simp at hcases
  unfold resetDb snapshotSchemaExists getTables
  refine sends_bind (fun hasSnapshot t => hasSnapshot = s.database.snapshot.isSome ∧ t = s) ?_
    fun hasSnapshot => sends_of_fact fun hsnapshot => ?_
  · refine sends_bind (fun rows t => rows = [s.database.snapshot.isSome] ∧ t = s) ?_
      fun rows => sends_of_fact fun hrows => ?_
    · refine sends_query ?_ ?_
      · rintro _ sent rfl
        exact ⟨List.perm_singleton.mp (pg.order_perm _ _), rfl⟩
      · rintro _ sent rfl hcases
        exact hquery sent hcases
    · refine sends_pure ?_
      rintro s rfl
      subst hrows
      cases s.database.snapshot.isSome <;> exact ⟨rfl, rfl⟩
  refine sends_bind (fun tables t => tables.Perm (s.database.userTables.map (·.name)) ∧ t = s) ?_
    fun tables => sends_of_fact fun htables => ?_
  · refine sends_query ?_ ?_
    · rintro _ sent rfl
      exact ⟨pg.order_perm _ _, rfl⟩
    · rintro _ sent rfl hcases
      exact hquery sent hcases
  refine sends_bind (fun (inserts : List Postgres.Insert) t =>
    (Fits s.database ∧ inserts.Perm (planned s.database)) ∧ t = s) ?_ fun inserts => sends_of_fact fun hplan => ?_
  · cases hasSnapshot with
    | true =>
      refine (sends_restorePlan hs).mono (fun _ => id) (fun _ _ => id) ?_
      rintro - t ⟨rfl, hfits⟩
      exact ⟨[], (cut_nil hs).symm, fun h => (h rfl).elim, fun _ hmem => (by cases hmem), fun hpg => Or.inl (hfits hpg)⟩
    | false =>
      have hnone : s.database.snapshot = none := by simpa using hsnapshot.symm
      refine sends_pure fun t ht => ⟨⟨⟨?_⟩, ?_⟩, ht⟩
      · simp [planRows, hnone]
      · simp [planned, planRows, hnone]
  obtain ⟨hfits, hinserts⟩ := hplan
  have hempty : tables.isEmpty = true ↔ s.database.userTables = [] := by
    rw [List.isEmpty_iff, ← List.length_eq_zero_iff, htables.length_eq, List.length_map, List.length_eq_zero_iff]
  cases htablesEmpty : tables.isEmpty with
  | true =>
    have hnil := hempty.mp htablesEmpty
    refine sends_seq (· = s) (sends_pure fun t ht => ht) ((sends_scrub hscrub scrubSession hs).mono (fun _ => id) ?_
      fun _ _ => id)
    exact fun _ t ht => ⟨fun h => (h hnil).elim, hfits, fun h => (h hnil).elim, fun _ => ht, fun h => (h hnil).elim⟩
  | false =>
    have hnonempty : s.database.userTables ≠ [] := fun h => by rw [hempty.mpr h] at htablesEmpty; cases htablesEmpty
    refine sends_seq _ (sends_transaction hs hnonempty hfits htables hnames hinserts hsnapshot) ?_
    refine sends_of_fact fun hcommit => sends_of_fact fun hrestorable => sends_of_start fun t ht => ?_
    obtain ⟨sequences, hsequences, rfl⟩ := ht
    refine (sends_scrub (s := { s with database := afterReset s.database inserts sequences }) hscrub scrubSession
      hs).mono (fun _ => id) ?_ fun _ _ => id
    exact fun _ u hu => ⟨fun _ => hcommit, hfits, fun _ => hrestorable, fun h => (hnonempty h).elim, fun _ =>
      ⟨inserts, sequences, hinserts, hsequences, hu⟩⟩

/-- A reset that meets no failure. -/
theorem resetDb_restores (hpg : pg.Faultless) (scrubSession : Bool) (hs : s.transaction = none)
    (hnames : (s.database.tables.map (·.name)).Nodup) :
    Sends (· = s) (resetDb pg scrubSession) (fun _ t => Resets s scrubSession t) fun _ _ => Refused s := by
  refine (resetDb_outcome (fun sent => hpg sent _) scrubSession hs hnames).mono (fun _ => id) (fun _ _ h => h.2) ?_
  rintro - t ⟨done, -, h⟩
  rcases h.reason fun sent statement _ => hpg sent statement with hfits | ⟨htables, hadmits | hmissing | hcommit⟩
  · exact Or.inl hfits
  · exact Or.inr ⟨htables, fun hrestorable => hadmits hrestorable.rows⟩
  · obtain ⟨sent, entry, rest, horder, hnone⟩ := hmissing
    refine Or.inr ⟨htables, fun hrestorable => ?_⟩
    have hmem : entry ∈ savedSequences s.database :=
      (pg.order_perm sent _).mem_iff.mp (horder ▸ List.mem_append_right _ List.mem_cons_self)
    rw [hrestorable.sequences entry hmem] at hnone
    cases hnone
  · obtain ⟨sent, sent', hfault, -⟩ := hcommit
    rw [hpg sent .commit] at hfault
    cases hfault

end Run

end PgliteBridge.SnapshotManager
