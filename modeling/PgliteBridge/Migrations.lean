import PgliteBridge.Commands
import Mathlib.Data.List.Nodup

/-!
# pushMigrations

The directory-based calls of `pushMigrations`: the listing of the directory, the checks of the `_prisma_migrations`
history, and the loop that starts, executes and finishes one migration after the other.  A call of the database may be
rejected, and the process may crash before it or in the middle of a script.

A script acts on the rest `δ` of the database, without the table `_prisma_migrations`.
-/

namespace PgliteBridge.Migrations

open Commands

/-! ### Errors -/

inductive PgBridgeErrorCode
  | migrationsUnavailable
  | migrationsHistoryInvalid
  | migrationsApplyFailed
deriving DecidableEq

def PgBridgeErrorCode.text : PgBridgeErrorCode → String
  | .migrationsUnavailable => "MIGRATIONS_UNAVAILABLE"
  | .migrationsHistoryInvalid => "MIGRATIONS_HISTORY_INVALID"
  | .migrationsApplyFailed => "MIGRATIONS_APPLY_FAILED"

def errorDocsPointer (code : PgBridgeErrorCode) : String :=
  "prisma-pglite-bridge/docs/troubleshooting.md#" ++ code.text.toLower

def withDocsTail (message pointer : String) : String :=
  message ++ (if '\n' ∈ message.toList then "\n" else " ") ++ "(docs: " ++ pointer ++ ")"

structure PgBridgeError where
  code : PgBridgeErrorCode
  message : String
deriving DecidableEq

def pgBridgeError (code : PgBridgeErrorCode) (message : String) : PgBridgeError :=
  ⟨code, withDocsTail message (errorDocsPointer code)⟩

inductive Failure (ε : Type)
  | bridge (error : PgBridgeError) (cause : Option ε)
  /-- The database rejects a statement. -/
  | database (error : ε)
  /-- The process ends; nothing catches that. -/
  | crashed
deriving DecidableEq

/-! ### The directory -/

structure MigrationFile where
  name : String
  sql : String
  checksum : String
deriving DecidableEq

/-- An entry of the directory, with its `migration.sql` if there is one. -/
structure Entry where
  name : String
  isDirectory : Bool
  migrationSql : Option String

structure Directory where
  entries : List Entry
  nodup : (entries.map Entry.name).Nodup

/-- The row of `_prisma_migrations`; `finished_at` and `rolled_back_at` matter as far as they are set. -/
structure HistoryRow where
  id : String
  migrationName : String
  checksum : String
  finished : Bool
  rolledBack : Bool
deriving DecidableEq

/-- `id` is the primary key. -/
structure Table where
  rows : List HistoryRow
  nodup : (rows.map HistoryRow.id).Nodup

structure Env (δ ε : Type) where
  /-- SHA-256 in lowercase hex. -/
  migrationChecksum : String → String
  /-- `localeCompare` does not put the second name first. -/
  localeCompare : String → String → Bool
  exec : String → δ → Except ε Unit × δ
  hasUserTables : δ → Bool
  describeTarget : String
  undefinedTable : ε
  uniqueViolation : ε
  valueTooLong : ε

variable {δ ε : Type}

def readEntry (env : Env δ ε) (entry : Entry) : Option MigrationFile :=
  entry.migrationSql.map fun sql => ⟨entry.name, sql, env.migrationChecksum sql⟩

def listMigrations (env : Env δ ε) : Option Directory → List MigrationFile
  | none => []
  | some directory =>
    ((directory.entries.filter Entry.isDirectory).mergeSort fun a b => env.localeCompare a.name b.name).filterMap
      (readEntry env)

/-- A directory-based call: its options, what `getMigrationsPath` answers and what is on the disk. -/
structure Call where
  migrationsPath : Option String
  configRoot : Option String
  discovered : Option String
  disk : String → Option Directory

/-- An empty string is no path. -/
def path (p : Option String) : Option String := p.filter (· ≠ "")

def unavailable (call : Call) : PgBridgeError :=
  pgBridgeError .migrationsUnavailable <|
    match path call.migrationsPath, path call.discovered, path call.configRoot with
    | some migrationsPath, _, _ =>
      "No migration.sql files found in " ++ migrationsPath ++ ". Run `prisma migrate dev` to generate migration files."
    | none, some migrationsPath, _ =>
      "No migration.sql files found in auto-discovered path " ++ migrationsPath ++
        ". Run `prisma migrate dev` to generate migration files, or pass pre-generated SQL via the `sql` option."
    | none, none, some configRoot =>
      "prisma.config.ts loaded from configRoot (" ++ configRoot ++ ") but no schema or migrations path could be " ++
        "resolved. Ensure your config specifies a schema path, or pass pre-generated SQL via the `sql` option."
    | none, none, none =>
      "No migration files found and no prisma.config.ts could be loaded. Run `prisma migrate dev` to generate them, " ++
        "or pass pre-generated SQL via the `sql` option."

/-- The directory that the call uses, with its listing. -/
def Call.source (env : Env δ ε) (call : Call) : String × List MigrationFile :=
  match (path call.migrationsPath).or (path call.discovered) with
  | some migrationsPath => (migrationsPath, listMigrations env (call.disk migrationsPath))
  | none => ("", [])

def resolveMigrations (env : Env δ ε) (call : Call) : Except PgBridgeError (String × List MigrationFile) :=
  if (call.source env).2.isEmpty then .error (unavailable call) else .ok (call.source env)

/-! ### The checks -/

/-- `sql.replaceAll('\r\n', '\n')` -/
def toLf : List Char → List Char
  | '\r' :: '\n' :: rest => '\n' :: toLf rest
  | c :: rest => c :: toLf rest
  | [] => []

/-- `sql.replace(/\r?\n/g, '\r\n')` -/
def toCrlf : List Char → List Char
  | '\r' :: '\n' :: rest => '\r' :: '\n' :: toCrlf rest
  | '\n' :: rest => '\r' :: '\n' :: toCrlf rest
  | c :: rest => c :: toCrlf rest
  | [] => []

def checksumMatches (env : Env δ ε) (stored sql : String) : Bool :=
  [sql, String.ofList (toLf sql.toList), String.ofList (toCrlf sql.toList)].any fun candidate =>
    env.migrationChecksum candidate = stored

def historyInvalid (detail : String) : PgBridgeError :=
  pgBridgeError .migrationsHistoryInvalid ("_prisma_migrations history is invalid: " ++ detail)

def HistoryRow.active (row : HistoryRow) : Bool := !row.rolledBack

/-- The first row whose name an earlier row has. -/
def firstRepeated : List String → List HistoryRow → Option HistoryRow
  | _, [] => none
  | seen, row :: rows => if row.migrationName ∈ seen then some row else firstRepeated (row.migrationName :: seen) rows

def fileOf (migrations : List MigrationFile) (row : HistoryRow) : Option MigrationFile :=
  migrations.find? fun m => m.name = row.migrationName

def modified (env : Env δ ε) (migrations : List MigrationFile) (row : HistoryRow) : Bool :=
  match fileOf migrations row with
  | some file => !checksumMatches env row.checksum file.sql
  | none => false

def validateHistory (env : Env δ ε) (rows : List HistoryRow) (migrations : List MigrationFile)
    (migrationsPath : String) : Except PgBridgeError Unit :=
  let active := rows.filter HistoryRow.active
  let failed := (active.filter fun row => !row.finished).map HistoryRow.migrationName
  if !failed.isEmpty then
    .error (historyInvalid ("migration " ++ ", ".intercalate failed ++
      " started but never finished. If its SQL is present in the database run `prisma migrate resolve --applied " ++
      "<name>`; otherwise `prisma migrate resolve --rolled-back <name>` (safe only for a script that did not " ++
      "partially apply)."))
  else
    match firstRepeated [] active with
    | some row =>
      .error (historyInvalid ("migration " ++ row.migrationName ++
        " has more than one active history row; repair with `prisma migrate resolve` or delete the extra rows."))
    | none =>
      let missing := (active.filter fun row => (fileOf migrations row).isNone).map HistoryRow.migrationName
      if !missing.isEmpty then
        .error (historyInvalid ("migration " ++ ", ".intercalate missing ++
          " is applied in the database but missing from " ++ migrationsPath ++
          ". Restore the directory or reset the database."))
      else
        match active.find? (modified env migrations) with
        | some row =>
          .error (historyInvalid ("migration " ++ row.migrationName ++ " was modified after it was applied. Restore " ++
            "the original migration.sql, or create a new migration for the change."))
        | none => .ok ()

def notBaselined : PgBridgeError :=
  historyInvalid ("the database schema is not empty but _prisma_migrations records no applied migration. " ++
    "Baseline it: run `prisma migrate resolve --applied <name>` for each migration (through " ++
    "a PGliteServer over this dataDir), or start from an empty dataDir.")

/-! ### The database -/

/-- What becomes of the next call of the database. -/
inductive Fault (δ ε : Type)
  | proceeds
  | rejected (error : ε)
  /-- The process ends before the call or, in a script, on the way, and leaves the database so. -/
  | crashed (onTheWay : Option δ)

inductive Event
  /-- The started row is inserted into these rows. -/
  | started (name id : String) (rows : List HistoryRow)
  /-- The script runs, to its end or not. -/
  | executed (name id : String)
  | finished (id : String)
  | rolledBack (id : String)
  | replaced (old new : String)

structure State (δ ε : Type) where
  /-- `none` where the table does not exist. -/
  history : Option Table
  user : δ
  faults : List (Fault δ ε)
  randomUUIDs : Nat → String
  drawn : Nat
  events : List Event

def State.rows (s : State δ ε) : List HistoryRow :=
  match s.history with
  | some table => table.rows
  | none => []

abbrev Op (δ ε α : Type) := Command (State δ ε) (Failure ε) α

/-- A call of the database. -/
def guarded {α : Type} (c : Op δ ε α) : Op δ ε α := fun s =>
  match s.faults with
  | [] => c s
  | .proceeds :: faults => c { s with faults := faults }
  | .rejected e :: faults => (.error (.database e), { s with faults := faults })
  | .crashed _ :: faults => (.error .crashed, { s with faults := faults })

def Table.empty : Table := ⟨[], .nil⟩

/-- `CREATE TABLE IF NOT EXISTS _prisma_migrations` -/
def createTable : Op δ ε Unit := guarded fun s => (.ok (), { s with history := some (s.history.getD .empty) })

def selectHistory (env : Env δ ε) : Op δ ε (List HistoryRow) := guarded fun s =>
  match s.history with
  | some table => (.ok table.rows, s)
  | none => (.error (.database env.undefinedTable), s)

def hasUserTables (env : Env δ ε) : Op δ ε Bool := guarded fun s => (.ok (env.hasUserTables s.user), s)

def randomUUID : Op δ ε String := fun s => (.ok (s.randomUUIDs s.drawn), { s with drawn := s.drawn + 1 })

def startedRow (id : String) (m : MigrationFile) : HistoryRow := ⟨id, m.name, m.checksum, false, false⟩

private theorem Table.nodup_insert {table : Table} {row : HistoryRow} (h : row.id ∉ table.rows.map HistoryRow.id) :
    ((table.rows ++ [row]).map HistoryRow.id).Nodup := by
  rw [List.map_append, List.nodup_append]
  refine ⟨table.nodup, List.nodup_singleton _, ?_⟩
  rintro a ha b hb rfl
  rw [List.map_singleton, List.mem_singleton] at hb
  exact h (hb ▸ ha)

/-- `INSERT INTO _prisma_migrations` -/
def insertStarted (env : Env δ ε) (id : String) (m : MigrationFile) : Op δ ε Unit := guarded fun s =>
  match s.history with
  | none => (.error (.database env.undefinedTable), s)
  | some table =>
    if 255 < m.name.length ∨ 64 < m.checksum.length then (.error (.database env.valueTooLong), s)
    else if h : (startedRow id m).id ∈ table.rows.map HistoryRow.id then (.error (.database env.uniqueViolation), s)
    else
      (.ok (), { s with
        history := some ⟨table.rows ++ [startedRow id m], table.nodup_insert h⟩
        events := s.events ++ [.started m.name id table.rows] })

/-- `pglite.exec(migration.sql)` -/
def execScript (env : Env δ ε) (id : String) (m : MigrationFile) : Op δ ε Unit := fun s =>
  let run (faults : List (Fault δ ε)) : Except (Failure ε) Unit × State δ ε :=
    match env.exec m.sql s.user with
    | (.ok (), user) => (.ok (), { s with faults := faults, user := user, events := s.events ++ [.executed m.name id] })
    | (.error e, user) =>
      (.error (.database e), { s with faults := faults, user := user, events := s.events ++ [.executed m.name id] })
  match s.faults with
  | [] => run []
  | .proceeds :: faults => run faults
  | .rejected e :: faults => (.error (.database e), { s with faults := faults })
  | .crashed none :: faults => (.error .crashed, { s with faults := faults })
  | .crashed (some user) :: faults =>
    (.error .crashed, { s with faults := faults, user := user, events := s.events ++ [.executed m.name id] })

def HistoryRow.finish (id : String) (row : HistoryRow) : HistoryRow :=
  if row.id = id then { row with finished := true } else row

private theorem map_id_eq {f : HistoryRow → HistoryRow} (hf : ∀ row, (f row).id = row.id) (rows : List HistoryRow) :
    (rows.map f).map HistoryRow.id = rows.map HistoryRow.id := by
  rw [List.map_map]
  exact List.map_congr_left fun row _ => hf row

theorem id_finish (id : String) (row : HistoryRow) : (row.finish id).id = row.id := by
  unfold HistoryRow.finish
  split
  · rfl
  · rfl

def Table.update (table : Table) (f : HistoryRow → HistoryRow) (hf : ∀ row, (f row).id = row.id) : Table :=
  ⟨table.rows.map f, by rw [map_id_eq hf]; exact table.nodup⟩

/-- `UPDATE _prisma_migrations SET finished_at = now(), applied_steps_count = 1 WHERE id = $1` -/
def markFinished (env : Env δ ε) (id : String) : Op δ ε Unit := guarded fun s =>
  match s.history with
  | none => (.error (.database env.undefinedTable), s)
  | some table =>
    (.ok (), { s with
      history := some (table.update (HistoryRow.finish id) (id_finish id))
      events := s.events ++ [.finished id] })

/-! ### pushMigrations -/

def applyFailed (env : Env δ ε) (m : MigrationFile) : PgBridgeError :=
  pgBridgeError .migrationsApplyFailed ("Failed to apply migration " ++ m.name ++ " to " ++ env.describeTarget ++
    ". Check the migration file; its started history row was kept so the next run reports it.")

/-- The `catch` around the script; it does not see the end of the process. -/
def rethrow (env : Env δ ε) (m : MigrationFile) : Failure ε → Op δ ε Unit
  | .crashed => throw .crashed
  | .database e => throw (.bridge (applyFailed env m) (some e))
  | .bridge _ cause => throw (.bridge (applyFailed env m) cause)

/-- One turn of the loop, for a migration that is not done. -/
def applyMigration (env : Env δ ε) (m : MigrationFile) : Op δ ε Unit := do
  let id ← randomUUID
  insertStarted env id m
  tryCatch (execScript env id m) (rethrow env m)
  markFinished env id

def applyPending (env : Env δ ε) (done : List String) :
    List MigrationFile → List String → List String → Op δ ε (List String × List String)
  | [], applied, skipped => pure (applied, skipped)
  | m :: migrations, applied, skipped =>
    if m.name ∈ done then applyPending env done migrations applied (skipped ++ [m.name])
    else do
      applyMigration env m
      applyPending env done migrations (applied ++ [m.name]) skipped

def refuse {α : Type} (error : PgBridgeError) : Op δ ε α := throw (.bridge error none)

/-- What `applyMigrations` does with the rows. -/
def applyAfter (env : Env δ ε) (migrationsPath : String) (migrations : List MigrationFile) (rows : List HistoryRow) :
    Op δ ε (List String × List String) :=
  match validateHistory env rows migrations migrationsPath with
  | .error error => refuse error
  | .ok () => applyPending env ((rows.filter HistoryRow.active).map HistoryRow.migrationName) migrations [] []

def applyMigrations (env : Env δ ε) (migrationsPath : String) (migrations : List MigrationFile) :
    Op δ ε (List String × List String) := do
  createTable
  let rows ← selectHistory env
  if rows.all HistoryRow.rolledBack then
    let populated ← hasUserTables env
    if populated then refuse notBaselined else applyAfter env migrationsPath migrations rows
  else applyAfter env migrationsPath migrations rows

def pushMigrations (env : Env δ ε) (call : Call) : Op δ ε (List String × List String) :=
  match resolveMigrations env call with
  | .error error => refuse error
  | .ok (migrationsPath, migrations) => applyMigrations env migrationsPath migrations

end PgliteBridge.Migrations
