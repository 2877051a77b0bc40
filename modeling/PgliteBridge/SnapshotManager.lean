import PgliteBridge.PostgresSession

/-!
# The snapshot manager

`snapshotDb`, `resetSnapshot` and `resetDb`, statement by statement, and the chain in which a manager runs them.
-/

namespace PgliteBridge.SnapshotManager

open Commands Postgres

variable {ν : Type} [Inhabited ν]

/-! ### Capture -/

/-- The statements between `BEGIN` and `COMMIT`. -/
def buildSnapshot (pg : Server) : Command (Link ν) Failure Unit := do
  exec pg .createStaging
  let tables ← query pg fun database => database.userTables.map (·.name)
  exec pg .createTables
  tables.zipIdx.forM fun (source, i) => do
    exec pg (.copyTable i source)
    exec pg (.listTable i source)
  let seqs ← query pg (·.advanced)
  exec pg .createSequences
  seqs.forM fun (name, value) => exec pg (.listSequence name value)
  exec pg .dropSnapshot
  exec pg .renameStaging

def snapshotDb (pg : Server) : Command (Link ν) Failure Unit := do
  exec pg .dropStaging
  tryCatch (do
    exec pg .begin
    buildSnapshot pg
    exec pg .commit) fun err => do
    rollback
    tryCatch (exec pg .dropStaging) fun _ => pure ()
    throw err

def resetSnapshot (pg : Server) : Command (Link ν) Failure Unit := do
  exec pg .dropSnapshot
  exec pg .dropStaging

/-! ### The restore plan -/

/-- A row of the plan's query. -/
structure PlanRow where
  snapName : Nat
  source : QualifiedName
  tableExists : Bool
  /-- `none` when the source has no ordinary column. -/
  cols : Option (List String)
  needsOverriding : Bool
  missingCols : Option (List String)

/-- `string_agg`, which gives `NULL` for no rows. -/
def stringAgg (columns : List String) : Option (List String) := if columns.isEmpty then none else some columns

def planRow (database : Database ν) (snapshot : SnapshotSchema ν) (line : Nat × QualifiedName) : PlanRow :=
  let live := (database.find? line.2).toList.flatMap (·.columns)
  let copied := (snapshot.copies.lookup line.1).toList.flatMap (·.columns)
  { snapName := line.1
    source := line.2
    tableExists := (database.find? line.2).isSome
    cols := stringAgg ((live.filter (·.generated.isNone)).map (·.name))
    needsOverriding := live.any (·.identityAlways)
    missingCols := stringAgg (copied.filter fun column => !(live.map (·.name)).contains column) }

def planRows (database : Database ν) : List PlanRow :=
  database.snapshot.toList.flatMap fun snapshot => snapshot.tables.map (planRow database snapshot)

def qualified (pg : Server) (name : QualifiedName) : String :=
  pg.quoteIdent name.schema ++ "." ++ pg.quoteIdent name.name

/-- The text says what is gone. -/
def snapshotInvalid (gone : String) : Failure :=
  .bridge ⟨"SNAPSHOT_INVALID",
    gone ++ " — the schema changed since snapshotDb(); re-run snapshotDb() after schema changes"⟩

def planInsert (pg : Server) (row : PlanRow) : Except Failure Insert :=
  if !row.tableExists then
    .error (snapshotInvalid ("Snapshot source table " ++ qualified pg row.source ++ " no longer exists"))
  else
    match row.missingCols with
    | some missing =>
      .error (snapshotInvalid ("Snapshot columns " ++ ", ".intercalate (missing.map pg.quoteIdent) ++ " of " ++
        qualified pg row.source ++ " no longer exist"))
    | none => .ok ⟨row.source, row.cols, row.cols.isSome && row.needsOverriding, row.snapName⟩

def restorePlan (pg : Server) : Command (Link ν) Failure (List Insert) := do
  let rows ← query pg planRows
  match rows.mapM (planInsert pg) with
  | .ok inserts => pure inserts
  | .error err => throw err

/-! ### Reset -/

def getTables (pg : Server) : Command (Link ν) Failure (List QualifiedName) :=
  query pg fun database => database.userTables.map (·.name)

def snapshotSchemaExists (pg : Server) : Command (Link ν) Failure Bool := do
  let rows ← query pg fun database => [database.snapshot.isSome]
  pure (rows.head? == some true)

/-- The lines of `__sequences`. -/
def savedSequences (database : Database ν) : List (QualifiedName × Int) :=
  database.snapshot.toList.flatMap (·.sequences)

/-- The statements between `BEGIN` and `COMMIT`. -/
def restore (pg : Server) (tables : List QualifiedName) (inserts : List Insert) (hasSnapshot : Bool) :
    Command (Link ν) Failure Unit := do
  exec pg .setLocalReplica
  exec pg (.truncate tables)
  inserts.forM fun insert => exec pg (.insert insert)
  if hasSnapshot then
    let seqs ← query pg savedSequences
    seqs.forM fun (name, value) => exec pg (.setval name value)

def resetDb (pg : Server) (scrubSession : Bool) : Command (Link ν) Failure Unit := do
  let hasSnapshot ← snapshotSchemaExists pg
  let tables ← getTables pg
  let inserts ← (if hasSnapshot then restorePlan pg else pure [])
  (if !tables.isEmpty then
    tryCatch (do
      exec pg .begin
      restore pg tables inserts hasSnapshot
      exec pg .commit) fun err => do
      rollback
      throw err
  else pure ())
  (if scrubSession then exec pg .scrub else pure ())

/-! ### The chain -/

inductive Call
  | snapshotDb
  | resetSnapshot
  | resetDb (scrubSession : Bool)
deriving DecidableEq, Repr

def Call.operation (pg : Server) : Call → Command (Link ν) Failure Unit
  | .snapshotDb => SnapshotManager.snapshotDb pg
  | .resetSnapshot => SnapshotManager.resetSnapshot pg
  | .resetDb scrubSession => SnapshotManager.resetDb pg scrubSession

/-- An operation on a session: its outcome and the session it leaves. -/
def run (op : Command (Link ν) Failure Unit) (s : Session ν) : Except Failure Unit × Session ν :=
  let result := op ⟨s, 0⟩
  (result.1, result.2.session)

omit [Inhabited ν] in
theorem run_outcome {op : Command (Link ν) Failure Unit} {s : Session ν} {post : Unit → Session ν → Prop}
    {failed : Failure → Session ν → Prop} (h : Sends (· = s) op post failed) : Outcome post failed (run op s) := by
  have hout := h ⟨s, 0⟩ rfl
  unfold run
  rcases hop : op ⟨s, 0⟩ with ⟨_ | _, link⟩
  · rw [hop] at hout
    exact hout
  · rw [hop] at hout
    exact hout

/-- `#serialize`: each call starts when the one before it has settled, whatever its outcome. -/
def serialize : List (Server × Call) → Session ν → List (Except Failure Unit) × Session ν
  | [], s => ([], s)
  | (pg, call) :: calls, s =>
    let first := run (call.operation pg) s
    let others := serialize calls first.2
    (first.1 :: others.1, others.2)

end PgliteBridge.SnapshotManager
