import PgliteBridge.Commands
import PgliteBridge.Database

/-!
# A session and its transactions

The single session of a PGlite, and the statements that the snapshot operations send to it.  A statement that is
rejected changes nothing and aborts an open transaction; `ROLLBACK` brings back the database as `BEGIN` found it, save
the positions that `setval` gave to sequences the transaction had not restarted.
-/

namespace PgliteBridge.Postgres

open Commands

/-- `session_replication_role` -/
inductive ReplicationRole
  | origin | replica | «local»
deriving DecidableEq, Repr

structure Transaction (ν : Type) where
  /-- What `ROLLBACK` brings back. -/
  saved : Database ν
  restarted : List QualifiedName
  localRole : Option ReplicationRole
  aborted : Bool

structure Session (ν : Type) where
  database : Database ν
  role : ReplicationRole
  transaction : Option (Transaction ν)

inductive Statement
  | begin
  | commit
  /-- `SET LOCAL session_replication_role = replica` -/
  | setLocalReplica
  /-- `TRUNCATE TABLE … RESTART IDENTITY CASCADE` -/
  | truncate (tables : List QualifiedName)
  | insert (statement : Insert)
  /-- `SELECT setval(name, value)` -/
  | setval (name : QualifiedName) (value : Int)
  /-- `SESSION_SCRUB_SQL` -/
  | scrub
  /-- `DROP SCHEMA IF EXISTS … CASCADE`, of the snapshot and of the staging schema. -/
  | dropSnapshot | dropStaging
  | createStaging
  /-- `CREATE TABLE … .__tables` -/
  | createTables
  /-- `CREATE TABLE … ._snap_<i> AS SELECT * FROM …` -/
  | copyTable (index : Nat) (source : QualifiedName)
  /-- `INSERT INTO … .__tables` -/
  | listTable (index : Nat) (source : QualifiedName)
  /-- `CREATE TABLE … .__sequences` -/
  | createSequences
  /-- `INSERT INTO … .__sequences` -/
  | listSequence (name : QualifiedName) (value : Int)
  /-- `ALTER SCHEMA … RENAME TO …` -/
  | renameStaging
  /-- A query of the catalog or of the snapshot. -/
  | select
deriving DecidableEq

variable {ν : Type}

namespace Session

variable (s : Session ν)

def update (change : Database ν → Database ν) : Session ν := { s with database := change s.database }

/-- The role that triggers and foreign keys see. -/
def effectiveRole : ReplicationRole := (s.transaction.bind (·.localRole)).getD s.role

def updateTransaction (change : Transaction ν → Transaction ν) : Session ν :=
  { s with transaction := s.transaction.map change }

def aborted : Bool := s.transaction.any (·.aborted)

def rollback : Session ν :=
  match s.transaction with
  | none => s
  | some transaction => { s with database := transaction.saved, transaction := none }

/-- A rejected statement; a rejected `COMMIT` ends the transaction. -/
def fail : Statement → Session ν
  | .commit => s.rollback
  | _ => s.updateTransaction fun transaction => { transaction with aborted := true }

def truncate (tables : List QualifiedName) : Session ν :=
  (s.update (·.truncate tables)).updateTransaction fun transaction =>
    { transaction with restarted := transaction.restarted ++ s.database.restarted tables }

/-- `setval` outlives a rollback, unless the transaction has restarted the sequence. -/
def setval (name : QualifiedName) (value : Int) : Session ν :=
  (s.update (·.position name value)).updateTransaction fun transaction =>
    if transaction.restarted.contains name then transaction
    else { transaction with saved := transaction.saved.position name value }

/-- A change of the schema in which the snapshot is built. -/
def updateStaging (change : SnapshotSchema ν → SnapshotSchema ν) : Option (Session ν) := do
  let staging ← s.database.staging
  return s.update ({ · with staging := some (change staging) })

/-- A statement outside an aborted transaction; `none` when PostgreSQL rejects it. -/
def performActive [Inhabited ν] : Statement → Option (Session ν)
  | .begin => some (if s.transaction.isSome then s else { s with transaction := some ⟨s.database, [], none, false⟩ })
  | .commit => some { s with transaction := none }
  | .setLocalReplica => some (s.updateTransaction fun transaction => { transaction with localRole := some .replica })
  | .truncate tables => if tables.all fun name => (s.database.find? name).isSome then some (s.truncate tables) else none
  | .insert statement =>
    (s.database.insert (s.effectiveRole != .replica) statement).map fun database => { s with database }
  | .setval name value => if s.database.hasSequence name then some (s.setval name value) else none
  | .scrub => some { s.update (·.discardTemp) with role := .origin }
  | .dropSnapshot => some (s.update ({ · with snapshot := none }))
  | .dropStaging => some (s.update ({ · with staging := none }))
  | .createStaging =>
    if s.database.staging.isSome then none else some (s.update ({ · with staging := some .empty }))
  | .createTables | .createSequences => s.updateStaging id
  | .copyTable index source => do
    let table ← s.database.find? source
    let copy : Copy ν := ⟨table.columnNames, s.database.select table⟩
    s.updateStaging fun staging => { staging with copies := staging.copies ++ [(index, copy)] }
  | .listTable index source =>
    s.updateStaging fun staging => { staging with tables := staging.tables ++ [(index, source)] }
  | .listSequence name value =>
    s.updateStaging fun staging => { staging with sequences := staging.sequences ++ [(name, value)] }
  | .renameStaging =>
    if s.database.snapshot.isSome || s.database.staging.isNone then none
    else some (s.update fun database => { database with snapshot := database.staging, staging := none })
  | .select => some s

/-- An aborted transaction takes nothing but its end. -/
def perform [Inhabited ν] (statement : Statement) : Option (Session ν) :=
  if s.aborted then if statement = .commit then some s.rollback else none else s.performActive statement

theorem perform_of_active [Inhabited ν] {s : Session ν} (h : s.aborted = false) (statement : Statement) :
    s.perform statement = s.performActive statement := by
  simp [perform, h]

end Session

/-! ### Sending statements -/

structure PgBridgeError where
  code : String
  message : String
deriving DecidableEq, Repr

inductive Failure
  /-- PostgreSQL rejects a statement. -/
  | statement
  | bridge (error : PgBridgeError)
deriving DecidableEq, Repr

/-- What is left open: which statements fail, counted from the start of the call, the order of the rows of a query and
how names are quoted. -/
structure Server where
  fault : Nat → Statement → Bool
  order : Nat → {β : Type} → List β → List β
  order_perm : ∀ (sent : Nat) {β : Type} (rows : List β), (order sent rows).Perm rows
  quoteIdent : String → String

/-- Statements fail only when PostgreSQL rejects them. -/
def Server.Faultless (pg : Server) : Prop := ∀ sent statement, pg.fault sent statement = false

/-- Queries give rows in the order in which they are stored. -/
def Server.plain : Server := ⟨fun _ _ => false, fun _ _ rows => rows, fun _ _ _ => .refl _, id⟩

theorem Server.plain_faultless : Server.plain.Faultless := fun _ _ => rfl

/-- The session, with the number of statements sent to it. -/
structure Link (ν : Type) where
  session : Session ν
  sent : Nat

def attempt [Inhabited ν] (pg : Server) (statement : Statement) (link : Link ν) : Option (Session ν) :=
  if pg.fault link.sent statement then none else link.session.perform statement

/-- `pglite.exec` -/
def exec [Inhabited ν] (pg : Server) (statement : Statement) : Command (Link ν) Failure Unit := fun link =>
  match attempt pg statement link with
  | some session => (.ok (), ⟨session, link.sent + 1⟩)
  | none => (.error .statement, ⟨link.session.fail statement, link.sent + 1⟩)

/-- `pglite.query` -/
def query [Inhabited ν] {β : Type} (pg : Server) (rows : Database ν → List β) :
    Command (Link ν) Failure (List β) := fun link =>
  match attempt pg .select link with
  | some session => (.ok (pg.order link.sent (rows session.database)), ⟨session, link.sent + 1⟩)
  | none => (.error .statement, ⟨link.session.fail .select, link.sent + 1⟩)

/-- `ROLLBACK`, which does not fail. -/
def rollback : Command (Link ν) Failure Unit := fun link => (.ok (), ⟨link.session.rollback, link.sent + 1⟩)

/-! ### Rules -/

section Rules

variable [Inhabited ν] {pg : Server} {pre post : Session ν → Prop} {failed : Failure → Session ν → Prop}
  {statement : Statement}

/-- `Meets`, of the session. -/
def Sends {α : Type} (pre : Session ν → Prop) (c : Command (Link ν) Failure α) (post : α → Session ν → Prop)
    (failed : Failure → Session ν → Prop) : Prop :=
  Meets (fun link => pre link.session) c (fun a link => post a link.session) fun e link => failed e link.session

theorem sends_exec
    (hdone : ∀ s t sent, pre s → pg.fault sent statement = false → s.perform statement = some t → post t)
    (hfail : ∀ s sent, pre s → pg.fault sent statement = true ∨ s.perform statement = none →
      failed .statement (s.fail statement)) : Sends pre (exec pg statement) (fun _ => post) failed := by
  intro link hpre
  unfold exec attempt
  cases hfault : pg.fault link.sent statement with
  | true => exact hfail _ _ hpre (Or.inl hfault)
  | false =>
    cases hperform : link.session.perform statement with
    | none => exact hfail _ link.sent hpre (Or.inr hperform)
    | some t => exact hdone _ _ _ hpre hfault hperform

/-- A statement that PostgreSQL does not reject. -/
theorem sends_exec_accepted (hpg : pg.Faultless) (hdone : ∀ s, pre s → ∃ t, s.perform statement = some t ∧ post t) :
    Sends pre (exec pg statement) (fun _ => post) failed := by
  refine sends_exec (fun s t sent hs hfault hperform => ?_) (fun s sent hs hcases => ?_)
  · obtain ⟨t', ht', hpost⟩ := hdone s hs
    rw [ht'] at hperform
    cases hperform
    exact hpost
  · obtain ⟨t', ht', -⟩ := hdone s hs
    rcases hcases with hfault | hperform
    · rw [hpg sent statement] at hfault
      cases hfault
    · rw [ht'] at hperform
      cases hperform

theorem sends_query {β : Type} {rows : Database ν → List β} {post : List β → Session ν → Prop}
    (hdone : ∀ s sent, pre s → post (pg.order sent (rows s.database)) s)
    (hfail : ∀ s sent, pre s → pg.fault sent .select = true ∨ s.aborted = true → failed .statement (s.fail .select)) :
    Sends pre (query pg rows) post failed := by
  intro link hpre
  unfold query attempt
  cases hfault : pg.fault link.sent .select with
  | true => exact hfail _ _ hpre (Or.inl hfault)
  | false =>
    cases haborted : link.session.aborted with
    | true =>
      have hnone : link.session.perform .select = none := by simp [Session.perform, haborted]
      rw [hnone]
      exact hfail _ link.sent hpre (Or.inr haborted)
    | false =>
      have hsome : link.session.perform .select = some link.session := Session.perform_of_active haborted _
      rw [hsome]
      exact hdone _ _ hpre

theorem sends_query_faultless {β : Type} {rows : Database ν → List β} {post : List β → Session ν → Prop}
    (hpg : pg.Faultless) (haborted : ∀ s, pre s → s.aborted = false)
    (hdone : ∀ s result, pre s → result.Perm (rows s.database) → post result s) :
    Sends pre (query pg rows) post failed := by
  refine sends_query (fun s sent hs => hdone s _ hs (pg.order_perm _ _)) (fun s sent hs hcases => ?_)
  rcases hcases with hfault | hactive
  · rw [hpg sent .select] at hfault
    cases hfault
  · rw [haborted s hs] at hactive
    cases hactive

end Rules

section Sequencing

variable {α β : Type} {pre pre' : Session ν → Prop} {post post' : α → Session ν → Prop}
  {failed failed' : Failure → Session ν → Prop} {c : Command (Link ν) Failure α}

theorem sends_rollback {post : Session ν → Prop} (h : ∀ s, pre s → post s.rollback) :
    Sends pre rollback (fun _ => post) failed :=
  fun _ hpre => h _ hpre

theorem Sends.mono (h : Sends pre c post failed) (hpre : ∀ s, pre' s → pre s) (hpost : ∀ a s, post a s → post' a s)
    (hfailed : ∀ e s, failed e s → failed' e s) : Sends pre' c post' failed' :=
  Meets.mono h (fun link => hpre link.session) (fun a link => hpost a link.session) fun e link => hfailed e link.session

theorem sends_pure {a : α} (h : ∀ s, pre s → post a s) : Sends pre (pure a) post failed :=
  meets_pure fun link => h link.session

theorem sends_throw {e : Failure} (h : ∀ s, pre s → failed e s) :
    Sends pre (throw e : Command (Link ν) Failure α) post failed :=
  meets_throw fun link => h link.session

theorem sends_bind {d : Command (Link ν) Failure β} {f : β → Command (Link ν) Failure α}
    (mid : β → Session ν → Prop) (hd : Sends pre d mid failed) (hf : ∀ b, Sends (mid b) (f b) post failed) :
    Sends pre (d >>= f) post failed :=
  meets_bind hd hf

theorem sends_seq {d : Command (Link ν) Failure β} (mid : Session ν → Prop) (hd : Sends pre d (fun _ => mid) failed)
    (hc : Sends mid c post failed) : Sends pre (d >>= fun _ => c) post failed :=
  meets_seq hd hc

theorem sends_catch {handler : Failure → Command (Link ν) Failure α} (caught : Failure → Session ν → Prop)
    (hc : Sends pre c post caught) (hhandler : ∀ e, Sends (caught e) (handler e) post failed) :
    Sends pre (tryCatch c handler) post failed :=
  meets_catch hc hhandler

theorem sends_forM {f : β → Command (Link ν) Failure PUnit} {l : List β} (inv : List β → Session ν → Prop)
    (h : ∀ done b rest, l = done ++ b :: rest → Sends (inv done) (f b) (fun _ => inv (done ++ [b])) failed) :
    Sends (inv []) (l.forM f) (fun _ => inv l) failed :=
  meets_forM (fun done (link : Link ν) => inv done link.session) h

/-- A fact of the start that does not concern the session. -/
theorem sends_of_fact {p : Prop} (h : p → Sends pre c post failed) : Sends (fun s => p ∧ pre s) c post failed :=
  fun link hlink => h hlink.1 link hlink.2

theorem sends_of_start (h : ∀ s, pre s → Sends (· = s) c post failed) : Sends pre c post failed :=
  fun link hpre => h link.session hpre link rfl

end Sequencing

end PgliteBridge.Postgres
