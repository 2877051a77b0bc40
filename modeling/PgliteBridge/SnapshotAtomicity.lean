import PgliteBridge.SnapshotRoundTrip

/-!
# Rejected snapshot operations

A rejected `snapshotDb` leaves no trace.  A rejected `resetDb` leaves none if and only if no `setval` of the restore can
move a sequence that `TRUNCATE … RESTART IDENTITY` has not restarted (`atomic_iff`): those positions outlive the
rollback.
-/

namespace PgliteBridge.Postgres

open Commands

variable {ν : Type} {staging : Option (SnapshotSchema ν)}

/-! ### The staging schema -/

namespace Database

variable (db : Database ν)

def withStaging (staging : Option (SnapshotSchema ν)) : Database ν := { db with staging := staging }

variable {db}

private theorem addRow_withStaging (placed : QualifiedName × Row ν) :
    (db.withStaging staging).addRow placed = (db.addRow placed).map (·.withStaging staging) := by
  have hfind : (db.withStaging staging).find? placed.1 = db.find? placed.1 := rfl
  have hrows : (db.withStaging staging).rows = db.rows := rfl
  unfold addRow
  rw [hfind, hrows]
  cases db.find? placed.1 with
  | none => rfl
  | some table =>
    by_cases haccepts : table.accepts (db.rows placed.1 ++ [placed.2]) = true
    · simp only [Option.bind_eq_bind, Option.bind_some, haccepts, if_true]
      rfl
    · simp [haccepts]

private theorem foldlM_addRow_withStaging (placed : List (QualifiedName × Row ν)) :
    placed.foldlM addRow (db.withStaging staging) = (placed.foldlM addRow db).map (·.withStaging staging) := by
  induction placed generalizing db with
  | nil => rfl
  | cons entry rest ih =>
    rw [List.foldlM_cons, List.foldlM_cons, addRow_withStaging]
    cases db.addRow entry with
    | none => rfl
    | some mid => exact ih

private theorem insert_withStaging [Inhabited ν] (checked : Bool) (statement : Insert) :
    (db.withStaging staging).insert checked statement = (db.insert checked statement).map (·.withStaging staging) := by
  have hplacements : (db.withStaging staging).placements statement = db.placements statement := rfl
  unfold insert
  rw [hplacements]
  cases db.placements statement with
  | none => rfl
  | some placed =>
    simp only [Option.bind_eq_bind, Option.bind_some, foldlM_addRow_withStaging]
    cases placed.foldlM addRow db with
    | none => rfl
    | some filled =>
      have hhold : (filled.withStaging staging).foreignKeysHold = filled.foreignKeysHold := rfl
      simp only [Option.map_some, Option.bind_some, hhold]
      split
      · rfl
      · rfl

end Database

namespace Session

variable (s : Session ν)

/-- Also in what `ROLLBACK` brings back. -/
def withStaging (staging : Option (SnapshotSchema ν)) : Session ν :=
  { s with
    database := s.database.withStaging staging
    transaction := s.transaction.map fun transaction =>
      { transaction with saved := transaction.saved.withStaging staging } }

variable {s}

private theorem aborted_withStaging : (s.withStaging staging).aborted = s.aborted := by
  obtain ⟨database, role, _ | transaction⟩ := s <;> rfl

private theorem effectiveRole_withStaging : (s.withStaging staging).effectiveRole = s.effectiveRole := by
  obtain ⟨database, role, _ | transaction⟩ := s <;> rfl

private theorem rollback_withStaging : (s.withStaging staging).rollback = s.rollback.withStaging staging := by
  obtain ⟨database, role, _ | transaction⟩ := s <;> rfl

private theorem withStaging_withStaging {staging' : Option (SnapshotSchema ν)} :
    (s.withStaging staging).withStaging staging' = s.withStaging staging' := by
  obtain ⟨database, role, _ | transaction⟩ := s <;> rfl

private theorem fail_withStaging (statement : Statement) :
    (s.withStaging staging).fail statement = (s.fail statement).withStaging staging := by
  obtain ⟨database, role, _ | transaction⟩ := s <;> cases statement <;> rfl

end Session

def Statement.ignoresStaging : Statement → Bool
  | .begin | .commit | .setLocalReplica | .truncate _ | .insert _ | .setval _ _ | .scrub | .dropSnapshot
  | .select => true
  | _ => false

variable [Inhabited ν] {s : Session ν} {pg : Server} {statement : Statement}

private theorem performActive_withStaging (h : statement.ignoresStaging = true) :
    (s.withStaging staging).performActive statement = (s.performActive statement).map (·.withStaging staging) := by
  cases statement with
  | begin => obtain ⟨database, role, _ | transaction⟩ := s <;> rfl
  | commit => rfl
  | setLocalReplica => obtain ⟨database, role, _ | transaction⟩ := s <;> rfl
  | truncate tables =>
    have hfind : ∀ name, (s.withStaging staging).database.find? name = s.database.find? name := fun _ => rfl
    simp only [Session.performActive, hfind]
    split
    · obtain ⟨database, role, _ | transaction⟩ := s <;> rfl
    · rfl
  | insert statement =>
    simp only [Session.performActive, Session.effectiveRole_withStaging]
    change ((s.database.withStaging staging).insert _ statement).map _ = _
    rw [Database.insert_withStaging, Option.map_map, Option.map_map]
    rfl
  | setval name value =>
    have hhas : (s.withStaging staging).database.hasSequence name = s.database.hasSequence name := rfl
    simp only [Session.performActive, hhas]
    split
    · obtain ⟨database, role, _ | ⟨saved, restarted, localRole, aborted⟩⟩ := s
      · rfl
      · simp only [Session.setval, Session.withStaging, Session.update, Session.updateTransaction, Option.map_some]
        split <;> rfl
    · rfl
  | scrub => rfl
  | dropSnapshot => rfl
  | select => rfl
  | dropStaging | createStaging | createTables | copyTable _ _ | listTable _ _ | createSequences
  | listSequence _ _ | renameStaging => cases h

private theorem perform_withStaging (h : statement.ignoresStaging = true) :
    (s.withStaging staging).perform statement = (s.perform statement).map (·.withStaging staging) := by
  unfold Session.perform
  rw [Session.aborted_withStaging, Session.rollback_withStaging, performActive_withStaging h]
  split
  · split <;> rfl
  · rfl

namespace Link

def withStaging (staging : Option (SnapshotSchema ν)) (link : Link ν) : Link ν :=
  ⟨link.session.withStaging staging, link.sent⟩

end Link

private theorem attempt_withStaging (link : Link ν) (h : statement.ignoresStaging = true) :
    attempt pg statement (link.withStaging staging) = (attempt pg statement link).map (·.withStaging staging) := by
  unfold attempt
  simp only [Link.withStaging, perform_withStaging h]
  split <;> rfl

omit [Inhabited ν] in
private theorem fail_link_withStaging (staging : Option (SnapshotSchema ν)) (link : Link ν) (statement : Statement) :
    (⟨(link.withStaging staging).session.fail statement, link.sent + 1⟩ : Link ν) =
      Link.withStaging staging ⟨link.session.fail statement, link.sent + 1⟩ := by
  simp only [Link.withStaging, Session.fail_withStaging]

private theorem commutes_exec (h : statement.ignoresStaging = true) :
    Commutes (Link.withStaging staging) (exec pg statement) := by
  intro link
  have hfail := fail_link_withStaging staging link statement
  unfold exec
  rw [attempt_withStaging link h]
  cases attempt pg statement link with
  | none => exact Prod.ext rfl hfail
  | some session => rfl

private theorem commutes_query {β : Type} {rows : Database ν → List β}
    (h : ∀ db, rows (db.withStaging staging) = rows db) :
    Commutes (Link.withStaging staging) (query pg rows) := by
  intro link
  have hfail := fail_link_withStaging staging link .select
  unfold query
  rw [attempt_withStaging link rfl]
  cases attempt pg .select link with
  | none => exact Prod.ext rfl hfail
  | some session => exact Prod.ext (congrArg (fun rows => Except.ok (pg.order link.sent rows)) (h session.database)) rfl

omit [Inhabited ν] in
private theorem commutes_rollback : Commutes (Link.withStaging staging) (rollback) := by
  intro link
  exact Prod.ext rfl (by simp only [rollback, Link.withStaging, Session.rollback_withStaging])

end PgliteBridge.Postgres

namespace PgliteBridge.SnapshotManager

open Commands Postgres

variable {ν : Type} [Inhabited ν] {pg : Server} {s t : Session ν} {staging : Option (SnapshotSchema ν)}

/-! ### The next operations -/

private theorem commutes_resetDb (scrubSession : Bool) :
    Commutes (Link.withStaging staging) (resetDb pg scrubSession) := by
  have hplan : Commutes (Link.withStaging staging) (restorePlan pg) := by
    refine commutes_bind (commutes_query fun _ => rfl) fun rows => ?_
    split
    · exact commutes_pure _
    · exact commutes_throw _
  have hrestore : ∀ tables inserts hasSnapshot,
      Commutes (Link.withStaging staging) (restore pg tables inserts hasSnapshot) := by
    intro tables inserts hasSnapshot
    refine commutes_bind (commutes_exec rfl) fun _ => commutes_bind (commutes_exec rfl) fun _ =>
      commutes_bind (commutes_forM _ fun insert => commutes_exec rfl) fun _ => ?_
    split
    · exact commutes_bind (commutes_query fun _ => rfl) fun seqs => commutes_forM _ fun entry => commutes_exec rfl
    · exact commutes_pure _
  refine commutes_bind (commutes_bind (commutes_query fun _ => rfl) fun _ => commutes_pure _) fun hasSnapshot =>
    commutes_bind (commutes_query fun _ => rfl) fun tables => commutes_bind ?_ fun inserts =>
      commutes_bind ?_ fun _ => ?_
  · split
    · exact hplan
    · exact commutes_pure _
  · split
    · refine commutes_catch ?_ fun err => commutes_bind commutes_rollback fun _ => commutes_throw _
      exact commutes_bind (commutes_exec rfl) fun _ => commutes_bind (hrestore _ _ _) fun _ => commutes_exec rfl
    · exact commutes_pure _
  · split
    · exact commutes_exec rfl
    · exact commutes_pure _

/-- The session is in no transaction. -/
def Idle (s : Session ν) : Prop := s.transaction = none

/-- Equal but for the schema in which snapshots are built. -/
def SameButStaging (s t : Session ν) : Prop := ∃ staging, t = s.withStaging staging

omit [Inhabited ν] in
private theorem SameButStaging.refl (hs : Idle s) : SameButStaging s s := by
  obtain ⟨database, role, transaction⟩ := s
  obtain rfl : transaction = none := hs
  exact ⟨database.staging, rfl⟩

section Idle

variable {failed : Failure → Session ν → Prop}

/-- The statements that a session takes outside a transaction. -/
private theorem sends_exec_idle (pg : Server) {statement : Statement}
    (h : statement = .dropStaging ∨ statement = .dropSnapshot ∨ statement = .scrub) :
    Sends Idle (exec pg statement : Command (Link ν) Failure Unit) (fun _ => Idle) fun _ => Idle := by
  refine sends_exec (fun s t sent hs _ hperform => ?_) fun s sent hs _ => ?_
  · rw [Session.perform_of_active (active_idle hs)] at hperform
    rcases h with rfl | rfl | rfl
    · obtain rfl := Option.some.inj hperform
      exact hs
    · obtain rfl := Option.some.inj hperform
      exact hs
    · obtain rfl := Option.some.inj hperform
      exact hs
  · rw [fail_idle hs]
    exact hs

private theorem sends_query_idle {β : Type} (rows : Database ν → List β) :
    Sends Idle (query pg rows) (fun _ => Idle) fun _ => Idle := by
  refine sends_query (fun s sent hs => hs) fun s sent hs _ => ?_
  rw [fail_idle hs]
  exact hs

private theorem sends_commit : Sends (fun _ : Session ν => True) (exec pg .commit) (fun _ => Idle) fun _ _ => True := by
  refine sends_exec (fun s t sent _ _ hperform => ?_) fun _ _ _ _ => trivial
  unfold Session.perform at hperform
  split at hperform
  · obtain rfl := Option.some.inj hperform
    unfold Session.rollback
    split
    · assumption
    · rfl
  · obtain rfl := Option.some.inj hperform
    rfl

omit [Inhabited ν] in
private theorem idle_rollback : Idle s.rollback := by
  obtain ⟨database, role, _ | transaction⟩ := s <;> rfl

omit [Inhabited ν] in
private theorem sends_any {α : Type} {pre : Session ν → Prop} (c : Command (Link ν) Failure α) :
    Sends pre c (fun _ _ => True) fun _ _ => True := by
  intro link _
  rcases c link with ⟨_ | _, _⟩ <;> trivial

/-- A transaction ends with its `COMMIT` or with the `ROLLBACK` of the handler. -/
private theorem sends_transaction_idle (body cleanup : Command (Link ν) Failure Unit)
    (hcleanup : Sends Idle cleanup (fun _ => Idle) fun _ => Idle) :
    Sends Idle (tryCatch (do exec pg .begin; body; exec pg .commit) fun err => do rollback; cleanup; throw err)
      (fun _ => Idle) fun _ => Idle := by
  refine sends_catch (fun _ _ => True) ?_ fun err => ?_
  · exact sends_seq (fun _ => True) (sends_any _) (sends_seq (fun _ => True) (sends_any _) sends_commit)
  · exact sends_seq Idle (sends_rollback fun _ _ => idle_rollback) (sends_seq Idle hcleanup (sends_throw fun _ => id))

end Idle

/-- Every call ends outside a transaction. -/
private theorem sends_idle (pg : Server) (call : Call) :
    Sends Idle (call.operation pg : Command (Link ν) Failure Unit) (fun _ => Idle) fun _ => Idle := by
  cases call with
  | snapshotDb =>
    refine sends_seq Idle (sends_exec_idle pg (Or.inl rfl)) (sends_transaction_idle _ _ ?_)
    exact sends_catch (fun _ => Idle) (sends_exec_idle pg (Or.inl rfl)) fun _ => sends_pure fun _ => id
  | resetSnapshot => exact sends_seq Idle (sends_exec_idle pg (Or.inr (Or.inl rfl))) (sends_exec_idle pg (Or.inl rfl))
  | resetDb scrubSession =>
    refine sends_bind (fun _ => Idle) (sends_bind (fun _ => Idle) (sends_query_idle _) fun _ => sends_pure fun _ => id)
      fun hasSnapshot => sends_bind (fun _ => Idle) (sends_query_idle _) fun tables =>
      sends_bind (fun _ => Idle) ?_ fun inserts => sends_seq Idle ?_ ?_
    · split
      · refine sends_bind (fun _ => Idle) (sends_query_idle _) fun rows => ?_
        split
        · exact sends_pure fun _ => id
        · exact sends_throw fun _ => id
      · exact sends_pure fun _ => id
    · split
      · exact sends_transaction_idle _ (pure ()) (sends_pure fun _ => id)
      · exact sends_pure fun _ => id
    · split
      · exact sends_exec_idle pg (Or.inr (Or.inr rfl))
      · exact sends_pure fun _ => id

private theorem run_idle (pg : Server) (call : Call) (hs : Idle s) : Idle (run (call.operation pg) s).2 := by
  have hout := sends_idle pg call ⟨s, 0⟩ hs
  unfold run
  rcases hop : call.operation pg ⟨s, 0⟩ with ⟨_ | _, link⟩
  · rw [hop] at hout
    exact hout
  · rw [hop] at hout
    exact hout

/-- Outside a transaction, PostgreSQL does not reject `DROP SCHEMA IF EXISTS`. -/
private theorem exec_dropStaging (pg : Server) (hs : Idle s) (sent : Nat) : exec pg .dropStaging ⟨s, sent⟩ =
    if pg.fault sent .dropStaging then (.error .statement, ⟨s, sent + 1⟩)
    else (.ok (), ⟨s.withStaging none, sent + 1⟩) := by
  obtain ⟨database, role, transaction⟩ := s
  obtain rfl : transaction = none := hs
  have hperform : (⟨database, role, none⟩ : Session ν).perform .dropStaging =
      some ((⟨database, role, none⟩ : Session ν).withStaging none) := rfl
  unfold exec attempt
  cases hfault : pg.fault sent .dropStaging with
  | true => rfl
  | false =>
    simp only [hperform]
    rfl

omit [Inhabited ν] in
private theorem idle_withStaging (hs : Idle s) : Idle (s.withStaging staging) := by
  rw [Idle, Session.withStaging, hs]
  rfl

/-- `DROP SCHEMA IF EXISTS` of the staging schema makes both sessions equal. -/
private theorem exec_dropStaging_withStaging (pg : Server) (staging : Option (SnapshotSchema ν)) (hs : Idle s)
    (sent : Nat) :
    exec pg .dropStaging ⟨s.withStaging staging, sent⟩ = if pg.fault sent .dropStaging
      then (.error .statement, ⟨s.withStaging staging, sent + 1⟩) else (.ok (), ⟨s.withStaging none, sent + 1⟩) := by
  rw [exec_dropStaging pg (idle_withStaging hs), Session.withStaging_withStaging]

/-- Behind `DROP SCHEMA IF EXISTS` of the staging schema nothing is left of it, unless that statement is rejected. -/
private theorem dropStaging_bind_withStaging (tail : Unit → Command (Link ν) Failure Unit) (hs : Idle s) (sent : Nat) :
    (exec pg .dropStaging >>= tail) ⟨s.withStaging staging, sent⟩ = (exec pg .dropStaging >>= tail) ⟨s, sent⟩ ∨
      (exec pg .dropStaging >>= tail) ⟨s.withStaging staging, sent⟩ =
        (((exec pg .dropStaging >>= tail) ⟨s, sent⟩).1,
          ((exec pg .dropStaging >>= tail) ⟨s, sent⟩).2.withStaging staging) := by
  have hplain := exec_dropStaging pg hs sent
  have hstaging := exec_dropStaging_withStaging pg staging hs sent
  cases hfault : pg.fault sent .dropStaging with
  | true =>
    rw [hfault] at hplain hstaging
    rw [bind_of_error hplain, bind_of_error hstaging]
    exact Or.inr rfl
  | false =>
    rw [hfault] at hplain hstaging
    rw [bind_of_ok hplain, bind_of_ok hstaging]
    exact Or.inl rfl

/-- A call does not see what is left in the staging schema. -/
private theorem operation_withStaging (pg : Server) (staging : Option (SnapshotSchema ν)) (call : Call) (hs : Idle s) :
    call.operation pg ⟨s.withStaging staging, 0⟩ = call.operation pg ⟨s, 0⟩ ∨
      call.operation pg ⟨s.withStaging staging, 0⟩ =
        ((call.operation pg ⟨s, 0⟩).1, (call.operation pg ⟨s, 0⟩).2.withStaging staging) := by
  cases call with
  | snapshotDb => exact dropStaging_bind_withStaging _ hs 0
  | resetDb scrubSession => exact Or.inr (commutes_resetDb scrubSession ⟨s, 0⟩)
  | resetSnapshot =>
    have hframe : exec pg .dropSnapshot ⟨s.withStaging staging, 0⟩ = ((exec pg .dropSnapshot ⟨s, 0⟩).1,
        (exec pg .dropSnapshot ⟨s, 0⟩).2.withStaging staging) := commutes_exec rfl ⟨s, 0⟩
    have hidle := sends_exec_idle pg (Or.inr (Or.inl rfl) : Statement.dropSnapshot = .dropStaging ∨ _) ⟨s, 0⟩ hs
    rcases hdrop : exec pg .dropSnapshot ⟨s, 0⟩ with ⟨err | ⟨⟩, ⟨t, sent⟩⟩
    · rw [hdrop] at hframe
      simp only [Call.operation, resetSnapshot]
      rw [bind_of_error hdrop, bind_of_error hframe]
      exact Or.inr rfl
    · rw [hdrop] at hframe hidle
      simp only [Call.operation, resetSnapshot]
      rw [bind_of_ok hdrop, bind_of_ok hframe]
      simp only [Link.withStaging]
      rw [exec_dropStaging pg hidle, exec_dropStaging_withStaging pg staging hidle]
      split
      · exact Or.inr rfl
      · exact Or.inl rfl

private theorem run_withStaging (pg : Server) (staging : Option (SnapshotSchema ν)) (call : Call) (hs : Idle s) :
    (run (call.operation pg) (s.withStaging staging)).1 = (run (call.operation pg) s).1 ∧
      SameButStaging (run (call.operation pg) s).2 (run (call.operation pg) (s.withStaging staging)).2 := by
  have hidle : Idle (run (call.operation pg) s).2 := run_idle pg call hs
  unfold run at hidle ⊢
  rcases operation_withStaging pg staging call hs with hsame | hframe
  · rw [hsame]
    exact ⟨rfl, SameButStaging.refl hidle⟩
  · rw [hframe]
    exact ⟨rfl, staging, rfl⟩

private theorem serialize_withStaging (calls : List (Server × Call)) (staging : Option (SnapshotSchema ν))
    (hs : Idle s) :
    (serialize calls (s.withStaging staging)).1 = (serialize calls s).1 ∧
      SameButStaging (serialize calls s).2 (serialize calls (s.withStaging staging)).2 := by
  induction calls generalizing s staging with
  | nil => exact ⟨rfl, staging, rfl⟩
  | cons entry calls ih =>
    obtain ⟨pg, call⟩ := entry
    obtain ⟨hresult, staging', hsession⟩ := run_withStaging pg staging call hs
    obtain ⟨hresults, hsessions⟩ := ih staging' (run_idle pg call hs)
    simp only [serialize]
    rw [hsession, hresult, hresults]
    exact ⟨rfl, hsessions⟩

/-! ### A rejected capture -/

/-- Inside a transaction whose rollback gives a session back. -/
structure Within (s t : Session ν) : Prop where
  opened : t.transaction ≠ none
  rollback : t.rollback = s

/-- The statements that build a snapshot. -/
def builds : Statement → Bool
  | .dropSnapshot | .dropStaging | .createStaging | .createTables | .copyTable _ _ | .listTable _ _ | .createSequences
  | .listSequence _ _ | .renameStaging | .select => true
  | _ => false

omit [Inhabited ν] in
private theorem updateStaging_keeps {change : SnapshotSchema ν → SnapshotSchema ν}
    (h : s.updateStaging change = some t) :
    t.transaction = s.transaction ∧ t.role = s.role := by
  unfold Session.updateStaging at h
  cases hstaging : s.database.staging with
  | none => simp [hstaging] at h
  | some staging =>
    simp only [hstaging, Option.bind_eq_bind, Option.bind_some, Option.pure_def, Option.some.injEq] at h
    subst h
    exact ⟨rfl, rfl⟩

private theorem performActive_keeps {statement : Statement} (h : builds statement = true)
    (hperform : s.performActive statement = some t) : t.transaction = s.transaction ∧ t.role = s.role := by
  cases statement with
  | createTables => exact updateStaging_keeps hperform
  | createSequences => exact updateStaging_keeps hperform
  | listTable index source => exact updateStaging_keeps hperform
  | listSequence name value => exact updateStaging_keeps hperform
  | copyTable index source =>
    simp only [Session.performActive, Option.bind_eq_bind, Option.bind_eq_some_iff] at hperform
    obtain ⟨table, -, hstaging⟩ := hperform
    exact updateStaging_keeps hstaging
  | createStaging =>
    simp only [Session.performActive] at hperform
    split at hperform
    · cases hperform
    · obtain rfl := Option.some.inj hperform
      exact ⟨rfl, rfl⟩
  | renameStaging =>
    simp only [Session.performActive] at hperform
    split at hperform
    · cases hperform
    · obtain rfl := Option.some.inj hperform
      exact ⟨rfl, rfl⟩
  | dropSnapshot | dropStaging | select =>
    obtain rfl := Option.some.inj hperform
    exact ⟨rfl, rfl⟩
  | begin | commit | setLocalReplica | truncate _ | insert _ | setval _ _ | scrub => cases h

omit [Inhabited ν] in
private theorem Within.fail {statement : Statement} (h : Within s t) (hcommit : statement ≠ .commit) :
    Within s (t.fail statement) := by
  obtain ⟨database, role, _ | transaction⟩ := t
  · exact (h.opened rfl).elim
  · have hrollback := h.rollback
    cases statement with
    | commit => exact (hcommit rfl).elim
    | _ => exact ⟨by simp [Session.fail, Session.updateTransaction], hrollback⟩

private theorem sends_builds {statement : Statement} (h : builds statement = true) :
    Sends (Within s) (exec pg statement) (fun _ => Within s) fun _ => Within s := by
  have hcommit : statement ≠ .commit := by
    rintro rfl
    cases h
  refine sends_exec (fun t u sent ht _ hperform => ?_) fun t sent ht _ => ht.fail hcommit
  unfold Session.perform at hperform
  split at hperform
  · cases hperform
  · obtain ⟨htransaction, hrole⟩ := performActive_keeps h hperform
    refine ⟨fun hnone => ht.opened (htransaction ▸ hnone), ?_⟩
    have hrollback := ht.rollback
    rw [← hrollback]
    unfold Session.rollback
    rw [htransaction, hrole]
    split
    · exact (ht.opened (by assumption)).elim
    · rfl

private theorem sends_query_within {β : Type} (rows : Database ν → List β) :
    Sends (Within s) (query pg rows) (fun _ => Within s) fun _ => Within s :=
  sends_query (fun _ _ ht => ht) fun _ _ ht _ => ht.fail (by simp)

private theorem sends_buildSnapshot_within :
    Sends (Within s) (buildSnapshot pg) (fun _ => Within s) fun _ => Within s := by
  unfold buildSnapshot
  refine sends_seq _ (sends_builds rfl) ?_
  refine sends_bind (fun _ => Within s) (sends_query_within _) fun tables => ?_
  refine sends_seq _ (sends_builds rfl) ?_
  refine sends_seq (Within s) ?_ ?_
  · refine sends_forM (fun _ => Within s) fun done entry rest _ => ?_
    exact sends_seq _ (sends_builds rfl) (sends_builds rfl)
  refine sends_bind (fun _ => Within s) (sends_query_within _) fun seqs => ?_
  refine sends_seq _ (sends_builds rfl) ?_
  refine sends_seq (Within s) ?_ ?_
  · exact sends_forM (fun _ => Within s) fun done entry rest _ => sends_builds rfl
  exact sends_seq _ (sends_builds rfl) (sends_builds rfl)

/-- A rejected capture changes nothing but the staging schema. -/
private theorem snapshotDb_rejected (pg : Server) (hs : Idle s) :
    Sends (· = s) (snapshotDb pg) (fun _ _ => True) fun _ t => SameButStaging s t := by
  have hidle : Idle (s.withStaging none) := idle_withStaging hs
  have hdrop : ∀ {u : Session ν}, Idle u → u.perform .dropStaging = some (u.withStaging none) := by
    rintro ⟨database, role, transaction⟩ rfl
    rfl
  have hbegin : ∀ {u v : Session ν}, Idle u → u.perform .begin = some v → Within u v := by
    rintro ⟨database, role, transaction⟩ v rfl hperform
    obtain rfl := Option.some.inj hperform
    exact ⟨by simp, rfl⟩
  refine sends_seq (· = s.withStaging none) ?_ (sends_catch (fun _ t => t.rollback = s.withStaging none) ?_
    fun err => ?_)
  · refine sends_exec ?_ ?_
    · rintro _ t sent rfl - hperform
      rw [hdrop hs] at hperform
      exact (Option.some.inj hperform).symm
    · rintro _ sent rfl -
      rw [fail_idle hs]
      exact SameButStaging.refl hs
  · refine sends_seq (Within (s.withStaging none)) ?_ ?_
    · refine sends_exec ?_ ?_
      · rintro _ t sent rfl - hperform
        exact hbegin hidle hperform
      · rintro _ sent rfl -
        rw [fail_idle hidle, rollback_idle hidle]
    refine sends_seq (Within (s.withStaging none)) ?_ ?_
    · exact sends_buildSnapshot_within.mono (fun _ => id) (fun _ _ => id) fun _ _ h => h.rollback
    · refine sends_exec (fun _ _ _ _ _ _ => trivial) fun t sent ht _ => ?_
      have hrollback : (t.fail .commit).rollback = t.rollback := rollback_idle idle_rollback
      rw [hrollback]
      exact ht.rollback
  · refine sends_seq (· = s.withStaging none) (sends_rollback fun _ => id) ?_
    refine sends_seq (· = s.withStaging none) ?_ (sends_throw fun t ht => ⟨none, ht⟩)
    refine sends_catch (fun _ => (· = s.withStaging none)) ?_ fun _ => sends_pure fun _ => id
    refine sends_exec ?_ ?_
    · rintro _ t sent rfl - hperform
      rw [hdrop hidle, Session.withStaging_withStaging] at hperform
      exact (Option.some.inj hperform).symm
    · rintro _ sent rfl -
      exact fail_idle hidle _

/-! ### Atomic calls -/

/-- Tables, sequences, the saved snapshot and the role are as before, and later calls do what they would have done. -/
structure NoTrace (s t : Session ν) : Prop where
  session : t = { s with database := s.database.withStaging t.database.staging }
  next : ∀ calls : List (Server × Call),
    (serialize calls t).1 = (serialize calls s).1 ∧ SameButStaging (serialize calls s).2 (serialize calls t).2

/-- Wherever the call fails, it leaves no trace.  What comes behind `COMMIT` is not a part of it: the scrub is taken not
to fail. -/
def Atomic (call : Call) (s : Session ν) : Prop :=
  ∀ pg : Server, (∀ sent, pg.fault sent .scrub = false) → ∀ err, (run (call.operation pg) s).1 = .error err →
    NoTrace s (run (call.operation pg) s).2

/-- No `setval` that a reset reaches gives a sequence another position, unless `TRUNCATE` has restarted the sequence. -/
def Undisturbed (db : Database ν) : Call → Prop
  | .resetDb _ => db.userTables = [] ∨ ¬ Fits db ∨ ¬ (truncatedAll db).AdmitsAll (planned db) ∨
      ∀ entry ∈ savedSequences db, db.hasSequence entry.1 = true →
        entry.1 ∈ db.restarted (db.userTables.map (·.name)) ∨ db.lastValue entry.1 = some entry.2
  | _ => True

private theorem SameButStaging.noTrace (h : SameButStaging s t) (hs : Idle s) : NoTrace s t := by
  obtain ⟨staging, rfl⟩ := h
  refine ⟨?_, fun calls => serialize_withStaging calls staging hs⟩
  obtain ⟨database, role, transaction⟩ := s
  obtain rfl : transaction = none := hs
  rfl

omit [Inhabited ν] in
/-- Positions that sequences have anyway. -/
private theorem positions_same {db : Database ν} {sequences : List (QualifiedName × Int)}
    (h : ∀ entry ∈ sequences, db.lastValue entry.1 = some entry.2) : db.positions sequences = db := by
  induction sequences with
  | nil => rfl
  | cons entry rest ih =>
    have hentry : db.position entry.1 entry.2 = db := by
      unfold Database.position
      congr 1
      funext name
      split
      · rename_i hname
        rw [hname, h entry List.mem_cons_self]
      · rfl
    have hcons : db.positions (entry :: rest) = (db.position entry.1 entry.2).positions rest := rfl
    rw [hcons, hentry]
    exact ih fun other hother => h other (List.mem_cons_of_mem _ hother)

private theorem cut_of_undisturbed {scrubSession : Bool} {done : List (QualifiedName × Int)} (hs : Idle s)
    (h : Undisturbed s.database (.resetDb scrubSession)) (hdone : Rejected pg s done) : cut s done = s := by
  cases done with
  | nil => exact cut_nil hs
  | cons first rest =>
    obtain ⟨htables, hfits, hadmits⟩ := hdone.reached (by simp)
    have hpositions := ((h.resolve_left htables).resolve_left (not_not.mpr hfits)).resolve_left (not_not.mpr hadmits)
    have hsame : s.database.positions (kept s.database (first :: rest)) = s.database := by
      refine positions_same fun entry hentry => ?_
      obtain ⟨hmem, hkept⟩ := List.mem_filter.mp hentry
      obtain ⟨hsaved, hexists⟩ := hdone.exist entry hmem
      refine (hpositions entry hsaved hexists).resolve_left fun hrestarted => ?_
      rw [List.contains_iff_mem.mpr hrestarted] at hkept
      cases hkept
    rw [cut, hsame]
    obtain ⟨database, role, transaction⟩ := s
    obtain rfl : transaction = none := hs
    rfl

/-- A server that rejects every `COMMIT` and gives the rows of a query from the one at `first` on. -/
def rejectingCommit (first : Nat) : Server where
  fault _ statement := statement == .commit
  order _ _ rows := rows.drop first ++ rows.take first
  order_perm _ _ rows := List.perm_append_comm.trans (List.Perm.of_eq (List.take_append_drop first rows))
  quoteIdent := id

/-- A position that is done first outlives the rejected `COMMIT`. -/
private theorem resetDb_moves (scrubSession : Bool) {entry : QualifiedName × Int} (hs : Idle s)
    (hnames : (s.database.tables.map (·.name)).Nodup) (hkeys : ((savedSequences s.database).map Prod.fst).Nodup)
    (htables : s.database.userTables ≠ []) (hfits : Fits s.database)
    (hadmits : (truncatedAll s.database).AdmitsAll (planned s.database)) (hentry : entry ∈ savedSequences s.database)
    (hexists : s.database.hasSequence entry.1 = true)
    (hrestarted : entry.1 ∉ s.database.restarted (s.database.userTables.map (·.name))) :
    ∃ first err t, run (resetDb (rejectingCommit first) scrubSession) s = (.error err, t) ∧
      t.database.lastValue entry.1 = some entry.2 := by
  obtain ⟨before, behind, hsplit⟩ := List.append_of_mem hentry
  let pg := rejectingCommit before.length
  have horder : ∀ sent, pg.order sent (savedSequences s.database) = entry :: (behind ++ before) := by
    intro sent
    have hrotated : pg.order sent (savedSequences s.database) =
        (savedSequences s.database).drop before.length ++ (savedSequences s.database).take before.length := rfl
    rw [hrotated, hsplit]
    simp
  have hout := run_outcome
    (resetDb_outcome (fun _ => rfl : ∀ sent, pg.fault sent .scrub = false) scrubSession hs hnames)
  rcases hrun : run (resetDb pg scrubSession) s with ⟨err | _, t⟩
  · rw [hrun] at hout
    obtain ⟨done, rfl, hdone⟩ := hout
    refine ⟨before.length, err, cut s done, hrun, ?_⟩
    have hfault : NoFault pg := fun _ statement hstatement => beq_eq_false_iff_ne.mpr hstatement
    have hdoneOrder : entry ∈ done ∧ (done.map Prod.fst).Nodup := by
      have hall : ((entry :: (behind ++ before)).map Prod.fst).Nodup := by
        have hperm := (pg.order_perm 0 (savedSequences s.database)).map Prod.fst
        rw [horder 0] at hperm
        exact hperm.nodup_iff.mpr hkeys
      rcases (hdone.reason hfault).resolve_left (not_not.mpr hfits) with ⟨-, h | h | h⟩
      · exact (h hadmits).elim
      · obtain ⟨sent, missing, rest, hcut, hmissing⟩ := h
        rw [horder sent] at hcut
        cases done with
        | nil =>
          obtain ⟨rfl, -⟩ := List.cons.inj hcut
          rw [hexists] at hmissing
          cases hmissing
        | cons first others =>
          rw [hcut, List.map_append] at hall
          obtain ⟨rfl, -⟩ := List.cons.inj hcut
          exact ⟨List.mem_cons_self, hall.of_append_left⟩
      · obtain ⟨sent, sent', -, rfl⟩ := h
        rw [horder sent']
        exact ⟨List.mem_cons_self, hall⟩
    refine Database.positions_of_mem ?_ (List.mem_filter.mpr ⟨hdoneOrder.1, by simpa using hrestarted⟩)
    exact hdoneOrder.2.sublist (List.filter_sublist.map _)
  · rw [hrun] at hout
    obtain ⟨sent, hcommit⟩ := hout.1 htables
    cases hcommit

/-- A call is atomic exactly when no position outlives its rollback. -/
theorem atomic_iff (hs : s.transaction = none) (hnames : (s.database.tables.map (·.name)).Nodup)
    (hkeys : ((savedSequences s.database).map Prod.fst).Nodup) (call : Call) (hcall : call ≠ .resetSnapshot) :
    Atomic call s ↔ Undisturbed s.database call := by
  cases call with
  | resetSnapshot => exact (hcall rfl).elim
  | snapshotDb =>
    refine ⟨fun _ => trivial, fun _ pg _ err herr => ?_⟩
    have hout := run_outcome (snapshotDb_rejected pg hs)
    simp only [Call.operation] at herr ⊢
    rcases hrun : run (snapshotDb pg) s with ⟨_ | _, t⟩
    · rw [hrun] at hout
      exact SameButStaging.noTrace hout hs
    · rw [hrun] at herr
      cases herr
  | resetDb scrubSession =>
    constructor
    · intro hatomic
      by_contra hdisturbed
      simp only [Undisturbed, not_or, not_not, not_forall] at hdisturbed
      obtain ⟨htables, hfits, hadmits, entry, hentry, hexists, hrestarted, hposition⟩ := hdisturbed
      obtain ⟨first, err, t, hrun, hmoved⟩ :=
        resetDb_moves scrubSession hs hnames hkeys htables hfits hadmits hentry hexists hrestarted
      have htrace := hatomic (rejectingCommit first) (fun _ => rfl) err
      simp only [Call.operation] at htrace
      rw [hrun] at htrace
      have hsession : t = _ := (htrace rfl).session
      rw [hsession] at hmoved
      exact hposition hmoved
    · intro hundisturbed pg hscrub err herr
      have hout := run_outcome (resetDb_outcome hscrub scrubSession hs hnames)
      simp only [Call.operation] at herr ⊢
      rcases hrun : run (resetDb pg scrubSession) s with ⟨_ | _, t⟩
      · rw [hrun] at hout
        obtain ⟨done, ht, hdone⟩ := hout
        rw [cut_of_undisturbed hs hundisturbed hdone] at ht
        exact ht ▸ (SameButStaging.refl hs).noTrace hs
      · rw [hrun] at herr
        cases herr

theorem usersLater_atomic : Atomic (.resetDb true) usersLater := by
  refine (atomic_iff rfl (by decide +kernel) (by decide +kernel) _ (by decide)).mpr (Or.inr (Or.inr (Or.inr ?_)))
  have hrestarted : ∀ entry ∈ savedSequences usersLater.database,
      entry.1 ∈ usersLater.database.restarted (usersLater.database.userTables.map (·.name)) := by decide +kernel
  exact fun entry hentry _ => Or.inl (hrestarted entry hentry)

/-- A sequence that no column owns, captured at 5 and then moved to 9. -/
def counterSession : Session Nat :=
  let before : Session Nat :=
    { usersSession with
      database := { usersSession.database with
        sequences := [⟨publicName "counter", none, 1, fun value => some (value + 1), false⟩]
        lastValue := fun name => if name = publicName "counter" then some 5 else none } }
  { (run (snapshotDb Server.plain) before).2 with
    database := (run (snapshotDb Server.plain) before).2.database.position (publicName "counter") 9 }

/-- `COMMIT` is rejected, and the sequence is back at 5. -/
theorem counterSession_moved :
    (run (resetDb (rejectingCommit 0) true) counterSession).1 = .error .statement ∧
      counterSession.database.lastValue (publicName "counter") = some 9 ∧
      (run (resetDb (rejectingCommit 0) true) counterSession).2.database.lastValue (publicName "counter") = some 5 ∧
      ¬ Atomic (.resetDb true) counterSession := by
  have herror : (run (resetDb (rejectingCommit 0) true) counterSession).1 = .error .statement := by rfl
  have hbefore : counterSession.database.lastValue (publicName "counter") = some 9 := by decide +kernel
  have hbehind : (run (resetDb (rejectingCommit 0) true) counterSession).2.database.lastValue (publicName "counter") =
      some 5 := by decide +kernel
  refine ⟨herror, hbefore, hbehind, fun hatomic => ?_⟩
  have htrace := (hatomic (rejectingCommit 0) (fun _ => rfl) _ herror).session
  have hsame := congrArg (fun session => session.database.lastValue (publicName "counter")) htrace
  have hpositions : some (5 : Int) = some 9 := hbehind.symm.trans (hsame.trans hbefore)
  cases hpositions

end PgliteBridge.SnapshotManager
