import PgliteBridge.MigrationLedger

/-!
# One call of pushMigrations

A history is `Healthy` exactly if `validateHistory` accepts it.  A call keeps a healthy history healthy as far as it
gets; if a script fails, its started row is the only active row that is not finished.
-/

namespace PgliteBridge.Migrations

open Commands

variable {δ ε : Type}

/-- What the checks ask of the rows. -/
structure Healthy (env : Env δ ε) (migrations : List MigrationFile) (rows : List HistoryRow) : Prop where
  finished : ∀ row ∈ rows, row.active = true → row.finished = true
  unique : ((rows.filter HistoryRow.active).map HistoryRow.migrationName).Nodup
  listed : ∀ row ∈ rows, row.active = true → ∃ m ∈ migrations, m.name = row.migrationName
  unmodified : ∀ row ∈ rows, row.active = true → ∀ m ∈ migrations, m.name = row.migrationName →
    checksumMatches env row.checksum m.sql = true

/-- The names of the files are different, and their checksums are those of their texts. -/
structure Listing (env : Env δ ε) (migrations : List MigrationFile) : Prop where
  nodup : (migrations.map MigrationFile.name).Nodup
  checksum : ∀ m ∈ migrations, m.checksum = env.migrationChecksum m.sql

section Checks

variable {env : Env δ ε} {migrations : List MigrationFile} {rows : List HistoryRow} {migrationsPath : String}

private theorem names_readEntry (env : Env δ ε) (entries : List Entry) :
    ((entries.filterMap (readEntry env)).map MigrationFile.name).Sublist (entries.map Entry.name) := by
  induction entries with
  | nil => exact .slnil
  | cons entry entries ih =>
    cases hsql : entry.migrationSql with
    | none =>
      have hnone : readEntry env entry = none := by
        unfold readEntry
        rw [hsql]
        rfl
      rw [List.filterMap_cons_none hnone, List.map_cons]
      exact ih.cons _
    | some sql =>
      have hsome : readEntry env entry = some ⟨entry.name, sql, env.migrationChecksum sql⟩ := by
        unfold readEntry
        rw [hsql]
        rfl
      rw [List.filterMap_cons_some hsome, List.map_cons, List.map_cons]
      exact ih.cons_cons _

theorem listing_listMigrations (env : Env δ ε) (directory : Option Directory) :
    Listing env (listMigrations env directory) := by
  cases directory with
  | none => exact ⟨.nil, fun m hm => by cases hm⟩
  | some directory =>
    constructor
    · have hperm := (List.mergeSort_perm (directory.entries.filter Entry.isDirectory) fun a b =>
        env.localeCompare a.name b.name).map Entry.name
      have hsorted := hperm.nodup_iff.mpr (directory.nodup.sublist (List.filter_sublist.map Entry.name))
      exact hsorted.sublist (names_readEntry env _)
    · intro m hm
      obtain ⟨entry, _, hentry⟩ := List.mem_filterMap.mp hm
      obtain ⟨sql, _, rfl⟩ := Option.map_eq_some_iff.mp hentry
      rfl

private theorem fileOf_eq_some {row : HistoryRow} {file : MigrationFile} (h : fileOf migrations row = some file) :
    file ∈ migrations ∧ file.name = row.migrationName := by
  refine ⟨List.mem_of_find?_eq_some h, ?_⟩
  have hfound := List.find?_some h
  exact of_decide_eq_true hfound

private theorem fileOf_of_mem (hlisting : Listing env migrations) {row : HistoryRow} {m : MigrationFile}
    (hm : m ∈ migrations)
    (hname : m.name = row.migrationName) : fileOf migrations row = some m := by
  cases hfile : fileOf migrations row with
  | none =>
    have hnone := List.find?_eq_none.mp hfile m hm
    exact absurd (decide_eq_true hname) hnone
  | some file =>
    obtain ⟨hmem, hsame⟩ := fileOf_eq_some hfile
    exact congrArg some (List.inj_on_of_nodup_map hlisting.nodup hmem hm (hsame.trans hname.symm))

private theorem firstRepeated_eq_none {seen : List String} :
    firstRepeated seen rows = none ↔
      (rows.map HistoryRow.migrationName).Nodup ∧ ∀ row ∈ rows, row.migrationName ∉ seen := by
  induction rows generalizing seen with
  | nil => simp [firstRepeated]
  | cons row rows ih =>
    unfold firstRepeated
    by_cases hseen : row.migrationName ∈ seen
    · rw [if_pos hseen]
      simp [hseen]
    · rw [if_neg hseen, ih, List.map_cons, List.nodup_cons]
      constructor
      · rintro ⟨hnodup, hfresh⟩
        refine ⟨⟨fun hmem => ?_, hnodup⟩, fun other hother => ?_⟩
        · obtain ⟨other, hother, hname⟩ := List.mem_map.mp hmem
          exact hfresh other hother (hname ▸ List.mem_cons_self)
        · rcases List.mem_cons.mp hother with rfl | hrest
          · exact hseen
          · exact fun hmem => hfresh other hrest (List.mem_cons_of_mem _ hmem)
      · rintro ⟨⟨hrow, hnodup⟩, hfresh⟩
        refine ⟨hnodup, fun other hother hmem => ?_⟩
        rcases List.mem_cons.mp hmem with hname | hrest
        · exact hrow (hname ▸ List.mem_map_of_mem hother)
        · exact hfresh other (List.mem_cons_of_mem _ hother) hrest

private theorem isEmpty_map_filter {f : HistoryRow → String} {p : HistoryRow → Bool} :
    (((rows.filter HistoryRow.active).filter p).map f).isEmpty = true ↔
      ∀ row ∈ rows, row.active = true → p row = false := by
  rw [List.isEmpty_iff, List.map_eq_nil_iff, List.filter_eq_nil_iff]
  constructor
  · intro h row hmem hactive
    simpa using h row (List.mem_filter.mpr ⟨hmem, hactive⟩)
  · intro h row hmem
    obtain ⟨hrow, hactive⟩ := List.mem_filter.mp hmem
    simp [h row hrow hactive]

/-- The checks accept the healthy histories. -/
theorem validateHistory_eq_ok (hlisting : Listing env migrations) :
    validateHistory env rows migrations migrationsPath = .ok () ↔ Healthy env migrations rows := by
  unfold validateHistory
  constructor
  · intro h
    dsimp only at h
    split at h
    · cases h
    · rename_i hfailed
      split at h
      · cases h
      · rename_i hrepeated
        split at h
        · cases h
        · rename_i hmissing
          split at h
          · cases h
          · rename_i hmodified
            simp only [Bool.not_eq_true', Bool.not_eq_false] at hfailed hmissing
            have hfinished := isEmpty_map_filter.mp hfailed
            have hfiles := isEmpty_map_filter.mp hmissing
            refine ⟨fun row hmem hactive => ?_, (firstRepeated_eq_none.mp hrepeated).1, fun row hmem hactive => ?_,
              fun row hmem hactive m hm hname => ?_⟩
            · simpa using hfinished row hmem hactive
            · have hsome := hfiles row hmem hactive
              cases hfile : fileOf migrations row with
              | none =>
                rw [hfile] at hsome
                cases hsome
              | some file => exact ⟨file, fileOf_eq_some hfile⟩
            · have hsame := List.find?_eq_none.mp hmodified row (List.mem_filter.mpr ⟨hmem, hactive⟩)
              unfold modified at hsame
              rw [fileOf_of_mem hlisting hm hname] at hsame
              simpa using hsame
  · intro h
    have hfailed : (((rows.filter HistoryRow.active).filter fun row => !row.finished).map
        HistoryRow.migrationName).isEmpty = true :=
      isEmpty_map_filter.mpr fun row hmem hactive => by rw [h.finished row hmem hactive]; rfl
    have hrepeated : firstRepeated [] (rows.filter HistoryRow.active) = none :=
      firstRepeated_eq_none.mpr ⟨h.unique, fun _ _ => List.not_mem_nil⟩
    have hmissing : (((rows.filter HistoryRow.active).filter fun row => (fileOf migrations row).isNone).map
        HistoryRow.migrationName).isEmpty = true := by
      refine isEmpty_map_filter.mpr fun row hmem hactive => ?_
      obtain ⟨m, hm, hname⟩ := h.listed row hmem hactive
      rw [fileOf_of_mem hlisting hm hname]
      rfl
    have hmodified : (rows.filter HistoryRow.active).find? (modified env migrations) = none := by
      refine List.find?_eq_none.mpr fun row hmem => ?_
      obtain ⟨hrow, hactive⟩ := List.mem_filter.mp hmem
      obtain ⟨m, hm, hname⟩ := h.listed row hrow hactive
      unfold modified
      rw [fileOf_of_mem hlisting hm hname]
      simp [h.unmodified row hrow hactive m hm hname]
    dsimp only
    rw [hfailed, hrepeated, hmissing, hmodified]
    rfl

end Checks

/-! ### Rows that are added -/

section Rows

variable {env : Env δ ε} {migrations : List MigrationFile} {rows : List HistoryRow} {id name : String}
  {m : MigrationFile}

def finishedRow (id : String) (m : MigrationFile) : HistoryRow := ⟨id, m.name, m.checksum, true, false⟩

private theorem map_finish (h : id ∉ rows.map HistoryRow.id) (m : MigrationFile) :
    (rows ++ [startedRow id m]).map (HistoryRow.finish id) = rows ++ [finishedRow id m] := by
  have hsame : rows.map (HistoryRow.finish id) = rows := by
    refine (List.map_congr_left fun row hmem => ?_).trans (List.map_id rows)
    unfold HistoryRow.finish
    exact if_neg fun hid : row.id = id => h (hid ▸ List.mem_map_of_mem hmem)
  have hlast : (startedRow id m).finish id = finishedRow id m := if_pos rfl
  rw [List.map_append, hsame, List.map_singleton, hlast]

private theorem vacant_append {row : HistoryRow} (hactive : row.active = true) :
    Vacant (rows ++ [row]) name ↔ Vacant rows name ∧ name ≠ row.migrationName := by
  constructor
  · intro h
    refine ⟨fun other hmem => h other (List.mem_append_left _ hmem), fun hname => ?_⟩
    exact h row (List.mem_append_right _ List.mem_cons_self) hactive hname.symm
  · rintro ⟨h, hname⟩ other hmem hother
    rcases List.mem_append.mp hmem with hrows | hlast
    · exact h other hrows hother
    · rw [List.mem_singleton.mp hlast]
      exact hname.symm

theorem vacant_iff : Vacant rows name ↔ name ∉ (rows.filter HistoryRow.active).map HistoryRow.migrationName := by
  rw [List.mem_map, not_exists]
  constructor
  · rintro h row ⟨hmem, hname⟩
    obtain ⟨hrow, hactive⟩ := List.mem_filter.mp hmem
    exact h row hrow hactive hname
  · intro h row hmem hactive hname
    exact h row ⟨List.mem_filter.mpr ⟨hmem, hactive⟩, hname⟩

private theorem checksumMatches_self (env : Env δ ε) (sql : String) :
    checksumMatches env (env.migrationChecksum sql) sql = true := by
  unfold checksumMatches
  rw [List.any_cons, decide_eq_true rfl, Bool.true_or]

private theorem Healthy.append (h : Healthy env migrations rows) (hlisting : Listing env migrations)
    (hm : m ∈ migrations)
    (hvacant : Vacant rows m.name) (id : String) : Healthy env migrations (rows ++ [finishedRow id m]) where
  finished row hmem hactive := by
    rcases List.mem_append.mp hmem with hrows | hlast
    · exact h.finished row hrows hactive
    · rw [List.mem_singleton.mp hlast]
      rfl
  unique := by
    have hfilter : (rows ++ [finishedRow id m]).filter HistoryRow.active =
        rows.filter HistoryRow.active ++ [finishedRow id m] := List.filter_append ..
    rw [hfilter, List.map_append, List.nodup_append]
    refine ⟨h.unique, List.nodup_singleton _, ?_⟩
    rintro a ha b hb rfl
    have hname : a = m.name := List.mem_singleton.mp hb
    exact vacant_iff.mp hvacant (hname ▸ ha)
  listed row hmem hactive := by
    rcases List.mem_append.mp hmem with hrows | hlast
    · exact h.listed row hrows hactive
    · rw [List.mem_singleton.mp hlast]
      exact ⟨m, hm, rfl⟩
  unmodified row hmem hactive file hfile hname := by
    rcases List.mem_append.mp hmem with hrows | hlast
    · exact h.unmodified row hrows hactive file hfile hname
    · rw [List.mem_singleton.mp hlast] at hname ⊢
      have hsame : file = m := List.inj_on_of_nodup_map hlisting.nodup hfile hm hname
      rw [hsame]
      change checksumMatches env m.checksum m.sql = true
      rw [hlisting.checksum m hm]
      exact checksumMatches_self env m.sql

end Rows

/-! ### The loop -/

/-- The rows and the events in a call that began with the rows `start`. -/
structure Progress (env : Env δ ε) (migrations : List MigrationFile) (initial start : List HistoryRow)
    (done applied : List String) (rows : List HistoryRow) (events : List Event) : Prop where
  ledger : Ledger initial rows events
  healthy : Healthy env migrations rows
  vacant : ∀ name, Vacant rows name ↔ name ∉ done ∧ name ∉ applied
  kept : ∀ row ∈ start, row.id ∈ rows.map HistoryRow.id

/-- In between two turns. -/
def Between (env : Env δ ε) (migrations : List MigrationFile) (initial start : List HistoryRow)
    (done applied : List String) (s : State δ ε) : Prop :=
  ∃ table, s.history = some table ∧ Progress env migrations initial start done applied table.rows s.events

/-- In a turn, after the row of `m` is started and these events. -/
def Amid (env : Env δ ε) (migrations : List MigrationFile) (initial start : List HistoryRow)
    (done applied : List String) (id : String) (m : MigrationFile) (latest : List Event) (s : State δ ε) : Prop :=
  ∃ table rows events, s.history = some table ∧ table.rows = rows ++ [startedRow id m] ∧
    Progress env migrations initial start done applied rows events ∧ Vacant rows m.name ∧
    id ∉ rows.map HistoryRow.id ∧ s.events = events ++ [.started m.name id rows] ++ latest

/-- A script failed: its started row is left. -/
structure FailedIn (env : Env δ ε) (migrations : List MigrationFile) (start : List HistoryRow) (error : PgBridgeError)
    (rows : List HistoryRow) (m : MigrationFile) (id : String) : Prop where
  listed : m ∈ migrations
  error : error = applyFailed env m
  new : ∀ row ∈ start, row.id ≠ id
  rows : ∃ before, rows = before ++ [startedRow id m] ∧ Healthy env migrations before

/-- How a turn ends in an error. -/
def Failed (env : Env δ ε) (migrations : List MigrationFile) (initial start : List HistoryRow) (e : Failure ε)
    (s : State δ ε) : Prop :=
  Ledger initial s.rows s.events ∧
    ∀ error cause, e = .bridge error cause → ∃ m id, FailedIn env migrations start error s.rows m id

section Loop

variable {env : Env δ ε} {migrations : List MigrationFile} {initial start : List HistoryRow}
  {done applied skipped : List String} {m : MigrationFile} {id : String}

/-- A call of the database that does not come about. -/
private theorem meets_guarded {α : Type} {pre : State δ ε → Prop} {post : α → State δ ε → Prop}
    {failed : Failure ε → State δ ε → Prop} {c : Op δ ε α}
    (hfaults : ∀ s faults, pre s → pre { s with faults := faults })
    (hrefused : ∀ s e, pre s → (∀ error cause, e ≠ .bridge error cause) → failed e s) (hc : Meets pre c post failed) :
    Meets pre (guarded c) post failed := by
  intro s hs
  unfold guarded
  split
  · exact hc s hs
  · exact hc _ (hfaults s _ hs)
  · exact hrefused _ _ (hfaults s _ hs) (by simp)
  · exact hrefused _ _ (hfaults s _ hs) (by simp)

theorem rows_of_history {s : State δ ε} {table : Table} (h : s.history = some table) : s.rows = table.rows := by
  unfold State.rows
  rw [h]

/-- The failures that are not of a script. -/
private theorem Failed.of_ledger {s : State δ ε} {e : Failure ε} (h : Ledger initial s.rows s.events)
    (he : ∀ error cause, e ≠ .bridge error cause) : Failed env migrations initial start e s :=
  ⟨h, fun error cause hbridge => absurd hbridge (he error cause)⟩

theorem Between.ledger {s : State δ ε} (h : Between env migrations initial start done applied s) :
    Ledger initial s.rows s.events := by
  obtain ⟨table, htable, hprogress⟩ := h
  rw [rows_of_history htable]
  exact hprogress.ledger

private theorem meets_insertStarted (m : MigrationFile) (id : String) :
    Meets (fun s => Between env migrations initial start done applied s ∧ m.name ∉ done ∧ m.name ∉ applied)
      (insertStarted env id m) (fun _ => Amid env migrations initial start done applied id m [])
      (Failed env migrations initial start) := by
  refine meets_guarded (fun s faults h => h) (fun s e h he => .of_ledger h.1.ledger he) ?_
  rintro s ⟨hbetween, hnew⟩
  have hledger := hbetween.ledger
  obtain ⟨table, htable, hprogress⟩ := hbetween
  dsimp only
  rw [htable]
  dsimp only
  split
  · exact .of_ledger hledger (by simp)
  · split
    · exact .of_ledger hledger (by simp)
    · rename_i hid
      exact ⟨_, table.rows, s.events, rfl, rfl, hprogress, (hprogress.vacant m.name).mpr hnew, hid,
        (List.append_nil _).symm⟩

private theorem Amid.ledger {latest : List Event} {s : State δ ε}
    (h : Amid env migrations initial start done applied id m latest s)
    (hlatest : latest = [] ∨ latest = [.executed m.name id]) : Ledger initial s.rows s.events := by
  obtain ⟨table, rows, events, htable, hrows, hprogress, hvacant, _, hevents⟩ := h
  rw [rows_of_history htable, hrows, hevents]
  rcases hlatest with rfl | rfl
  · rw [List.append_nil]
    exact hprogress.ledger.started hvacant
  · exact hprogress.ledger.executed hvacant

private theorem Amid.failedIn {latest : List Event} {s : State δ ε}
    (h : Amid env migrations initial start done applied id m latest s) (hm : m ∈ migrations) :
    FailedIn env migrations start (applyFailed env m) s.rows m id := by
  obtain ⟨table, rows, events, htable, hrows, hprogress, _, hid, _⟩ := h
  refine ⟨hm, rfl, fun row hrow hsame => hid (hsame ▸ hprogress.kept row hrow), rows, ?_, hprogress.healthy⟩
  rw [rows_of_history htable, hrows]

private theorem meets_execScript (m : MigrationFile) (id : String) :
    Meets (Amid env migrations initial start done applied id m []) (execScript env id m)
      (fun _ => Amid env migrations initial start done applied id m [.executed m.name id])
      (fun e s => (∀ error cause, e ≠ .bridge error cause) ∧
        (Amid env migrations initial start done applied id m [] s ∨
          Amid env migrations initial start done applied id m [.executed m.name id] s)) := by
  intro s hs
  have hran : ∀ t : State δ ε, t.history = s.history → t.events = s.events ++ [.executed m.name id] →
      Amid env migrations initial start done applied id m [.executed m.name id] t := by
    obtain ⟨table, rows, events, htable, hrows, hprogress, hvacant, hid, hevents⟩ := hs
    intro t hthistory htevents
    refine ⟨table, rows, events, hthistory.trans htable, hrows, hprogress, hvacant, hid, ?_⟩
    rw [htevents, hevents, List.append_nil]
  unfold execScript
  rcases env.exec m.sql s.user with ⟨e | _, user⟩
  · dsimp only
    split
    · exact ⟨by simp, .inr (hran _ rfl rfl)⟩
    · exact ⟨by simp, .inr (hran _ rfl rfl)⟩
    · exact ⟨by simp, .inl hs⟩
    · exact ⟨by simp, .inl hs⟩
    · exact ⟨by simp, .inr (hran _ rfl rfl)⟩
  · dsimp only
    split
    · exact hran _ rfl rfl
    · exact hran _ rfl rfl
    · exact ⟨by simp, .inl hs⟩
    · exact ⟨by simp, .inl hs⟩
    · exact ⟨by simp, .inr (hran _ rfl rfl)⟩

private theorem meets_script (hm : m ∈ migrations) (id : String) :
    Meets (Amid env migrations initial start done applied id m []) (tryCatch (execScript env id m) (rethrow env m))
      (fun _ => Amid env migrations initial start done applied id m [.executed m.name id])
      (Failed env migrations initial start) := by
  refine meets_catch (meets_execScript m id) fun e => ?_
  rintro s ⟨hbridge, hs⟩
  have hledger : Ledger initial s.rows s.events := hs.elim (fun h => h.ledger (.inl rfl)) fun h => h.ledger (.inr rfl)
  have hfailed : FailedIn env migrations start (applyFailed env m) s.rows m id :=
    hs.elim (fun h => h.failedIn hm) fun h => h.failedIn hm
  cases e with
  | bridge error cause => exact absurd rfl (hbridge error cause)
  | crashed => exact .of_ledger hledger (by simp)
  | database e =>
    refine ⟨hledger, fun error cause he => ⟨m, id, ?_⟩⟩
    cases he
    exact hfailed

private theorem meets_markFinished (hlisting : Listing env migrations) (hm : m ∈ migrations) (id : String) :
    Meets (Amid env migrations initial start done applied id m [.executed m.name id]) (markFinished env id)
      (fun _ => Between env migrations initial start done (applied ++ [m.name]))
      (Failed env migrations initial start) := by
  refine meets_guarded (fun s faults h => h) (fun s e h he => .of_ledger (h.ledger (.inr rfl)) he) ?_
  intro s hs
  have hledger := hs.ledger (.inr rfl)
  obtain ⟨table, rows, events, htable, hrows, hprogress, hvacant, hid, hevents⟩ := hs
  rw [rows_of_history htable] at hledger
  dsimp only
  rw [htable]
  have hfinished : (table.update (HistoryRow.finish id) (id_finish id)).rows = rows ++ [finishedRow id m] := by
    change table.rows.map (HistoryRow.finish id) = _
    rw [hrows]
    exact map_finish hid m
  refine ⟨_, rfl, ?_⟩
  refine ⟨hledger.finished id, ?_, fun name => ?_, fun row hrow => ?_⟩
  · rw [hfinished]
    exact hprogress.healthy.append hlisting hm hvacant id
  · rw [hfinished, vacant_append rfl, hprogress.vacant name, List.mem_append, List.mem_singleton, not_or, and_assoc]
    rfl
  · rw [hfinished, List.map_append]
    exact List.mem_append_left _ (hprogress.kept row hrow)

private theorem meets_applyMigration (hlisting : Listing env migrations) (hm : m ∈ migrations) :
    Meets (fun s => Between env migrations initial start done applied s ∧ m.name ∉ done ∧ m.name ∉ applied)
      (applyMigration env m) (fun _ => Between env migrations initial start done (applied ++ [m.name]))
      (Failed env migrations initial start) := by
  have hdrawn : Meets (fun s => Between env migrations initial start done applied s ∧ m.name ∉ done ∧ m.name ∉ applied)
      randomUUID (fun _ s => Between env migrations initial start done applied s ∧ m.name ∉ done ∧ m.name ∉ applied)
      (Failed env migrations initial start) := fun s hs => hs
  refine meets_bind hdrawn fun id => ?_
  exact meets_seq (meets_insertStarted m id) (meets_seq (meets_script hm id) (meets_markFinished hlisting hm id))

/-- The loop applies what is not done, in the order of the directory. -/
private theorem meets_applyPending (hlisting : Listing env migrations) (pending : List MigrationFile)
    (applied skipped : List String) (hpending : ∀ m ∈ pending, m ∈ migrations)
    (hnodup : (pending.map MigrationFile.name).Nodup)
    (hnew : ∀ m ∈ pending, m.name ∉ applied) :
    Meets (Between env migrations initial start done applied) (applyPending env done pending applied skipped)
      (fun r s => r = (applied ++ (pending.map MigrationFile.name).filter (· ∉ done),
          skipped ++ (pending.map MigrationFile.name).filter (· ∈ done)) ∧
        Between env migrations initial start done
          (applied ++ (pending.map MigrationFile.name).filter (· ∉ done)) s)
      (Failed env migrations initial start) := by
  induction pending generalizing applied skipped with
  | nil =>
    refine meets_pure fun s hs => ?_
    simpa using hs
  | cons m pending ih =>
    rw [List.map_cons, List.nodup_cons] at hnodup
    have hrest : ∀ n ∈ pending, n ∈ migrations := fun n hn => hpending n (List.mem_cons_of_mem _ hn)
    unfold applyPending
    by_cases hdone : m.name ∈ done
    · rw [if_pos hdone]
      have hnext := ih applied (skipped ++ [m.name]) hrest hnodup.2 fun n hn => hnew n (List.mem_cons_of_mem _ hn)
      simpa [hdone] using hnext
    · rw [if_neg hdone]
      have hnext := ih (applied ++ [m.name]) skipped hrest hnodup.2 fun n hn hmem => ?_
      · have hturn : Meets (Between env migrations initial start done applied) (applyMigration env m)
            (fun _ => Between env migrations initial start done (applied ++ [m.name]))
            (Failed env migrations initial start) :=
          (meets_applyMigration hlisting (hpending m List.mem_cons_self)).mono
            (fun s hs => ⟨hs, hdone, hnew m List.mem_cons_self⟩) (fun _ _ h => h) fun _ _ h => h
        refine meets_seq hturn ?_
        simpa [hdone] using hnext
      · rcases List.mem_append.mp hmem with happlied | hlast
        · exact hnew n (List.mem_cons_of_mem _ hn) happlied
        · rw [List.mem_singleton] at hlast
          exact hnodup.1 (hlast ▸ List.mem_map_of_mem hn)

end Loop

/-! ### The call -/

/-- The history is as it was. -/
def Untouched (rows : List HistoryRow) (events : List Event) (s : State δ ε) : Prop := s.rows = rows ∧ s.events = events

/-- The call ends before it writes a row. -/
def Refused (rows : List HistoryRow) (events : List Event) (e : Failure ε) (s : State δ ε) : Prop :=
  Untouched rows events s ∧ ∀ error cause, e = .bridge error cause → error.code ≠ .migrationsApplyFailed

def activeNames (rows : List HistoryRow) : List String := (rows.filter HistoryRow.active).map HistoryRow.migrationName

/-- What a call does that gets to the loop. -/
def Succeeded (env : Env δ ε) (migrations : List MigrationFile) (initial start : List HistoryRow)
    (r : List String × List String) (s : State δ ε) : Prop :=
  let names := migrations.map MigrationFile.name
  r = (names.filter (· ∉ activeNames start), names.filter (· ∈ activeNames start)) ∧
    Between env migrations initial start (activeNames start) (names.filter (· ∉ activeNames start)) s

section Call

variable {env : Env δ ε} {migrations : List MigrationFile} {migrationsPath : String} {initial rows : List HistoryRow}
  {events : List Event}

/-- The errors of the checks. -/
private theorem code_of_validateHistory {error : PgBridgeError}
    (h : validateHistory env rows migrations migrationsPath = .error error) :
    error.code = .migrationsHistoryInvalid := by
  unfold validateHistory at h
  dsimp only at h
  split at h
  · cases h
    rfl
  · split at h
    · cases h
      rfl
    · split at h
      · cases h
        rfl
      · split at h
        · cases h
          rfl
        · cases h

private theorem meets_refuse {α : Type} {post : α → State δ ε → Prop} {error : PgBridgeError}
    (h : error.code ≠ .migrationsApplyFailed) :
    Meets (Untouched rows events) (refuse error : Op δ ε α) post (Refused rows events) := by
  refine meets_throw fun s hs => ⟨hs, fun other cause hother => ?_⟩
  cases hother
  exact h

private theorem refused_of_database {s : State δ ε} {e : Failure ε} (h : Untouched rows events s)
    (he : ∀ error cause, e ≠ .bridge error cause) : Refused rows events e s :=
  ⟨h, fun error cause hbridge => absurd hbridge (he error cause)⟩

private theorem meets_createTable :
    Meets (Untouched rows events) (createTable : Op δ ε Unit) (fun _ s => Untouched rows events s ∧ s.history.isSome)
      (Refused rows events) := by
  refine meets_guarded (fun s faults h => h) (fun s e h he => refused_of_database h he) ?_
  rintro s ⟨hrows, hevents⟩
  refine ⟨⟨?_, hevents⟩, rfl⟩
  rw [← hrows]
  unfold State.rows
  cases s.history with
  | none => rfl
  | some table => rfl

private theorem meets_selectHistory :
    Meets (fun s => Untouched rows events s ∧ s.history.isSome) (selectHistory env)
      (fun r s => r = rows ∧ Untouched rows events s ∧ s.history.isSome) (Refused rows events) := by
  refine meets_guarded (fun s faults h => h) (fun s e h he => refused_of_database h.1 he) ?_
  rintro s ⟨hs, hsome⟩
  obtain ⟨table, htable⟩ := Option.isSome_iff_exists.mp hsome
  dsimp only
  rw [htable]
  refine ⟨?_, hs, hsome⟩
  rw [← rows_of_history htable]
  exact hs.1

private theorem meets_applyAfter (hlisting : Listing env migrations) (hledger : Ledger initial rows events) :
    Meets (fun s : State δ ε => Untouched rows events s ∧ s.history.isSome)
      (applyAfter env migrationsPath migrations rows)
      (fun r s => Healthy env migrations rows ∧ Succeeded env migrations initial rows r s)
      (fun e s => Refused rows events e s ∨ Healthy env migrations rows ∧ Failed env migrations initial rows e s) := by
  unfold applyAfter
  cases hchecks : validateHistory env rows migrations migrationsPath with
  | error error =>
    have hcode : error.code ≠ .migrationsApplyFailed := by
      rw [code_of_validateHistory hchecks]
      decide
    exact (meets_refuse hcode).mono (fun s hs => hs.1) (fun _ _ h => h) fun _ _ h => .inl h
  | ok _ =>
    have hhealthy := (validateHistory_eq_ok hlisting).mp hchecks
    have hloop : Meets (Between env migrations initial rows (activeNames rows) []) _ _ _ :=
      meets_applyPending hlisting migrations [] [] (fun m hm => hm) hlisting.nodup fun _ _ => List.not_mem_nil
    refine hloop.mono (fun s hs => ?_) (fun r s h => ⟨hhealthy, h⟩) fun e s h => .inr ⟨hhealthy, h⟩
    obtain ⟨⟨hrows, hevents⟩, hsome⟩ := hs
    obtain ⟨table, htable⟩ := Option.isSome_iff_exists.mp hsome
    rw [rows_of_history htable] at hrows
    refine ⟨table, htable, ?_⟩
    rw [hrows, hevents]
    refine ⟨hledger, hhealthy, fun name => ?_, fun row hrow => List.mem_map_of_mem hrow⟩
    rw [vacant_iff]
    exact ⟨fun h => ⟨h, List.not_mem_nil⟩, fun h => h.1⟩

private theorem meets_applyMigrations (hlisting : Listing env migrations) (hledger : Ledger initial rows events) :
    Meets (Untouched rows events) (applyMigrations env migrationsPath migrations)
      (fun r s => Healthy env migrations rows ∧ Succeeded env migrations initial rows r s)
      (fun e s => Refused rows events e s ∨ Healthy env migrations rows ∧ Failed env migrations initial rows e s) := by
  have hrefused : ∀ {e : Failure ε} {s : State δ ε}, Refused rows events e s →
      Refused rows events e s ∨ Healthy env migrations rows ∧ Failed env migrations initial rows e s := .inl
  unfold applyMigrations
  refine meets_seq (meets_createTable.mono (fun s hs => hs) (fun _ _ h => h) fun _ _ h => hrefused h) ?_
  refine meets_bind (meets_selectHistory.mono (fun s hs => hs) (fun _ _ h => h) fun _ _ h => hrefused h)
    fun selected => ?_
  intro s hs
  obtain ⟨rfl, hs⟩ := hs
  split
  · have htables : Meets (fun s : State δ ε => Untouched selected events s ∧ s.history.isSome) (hasUserTables env)
        (fun _ s => Untouched selected events s ∧ s.history.isSome) (Refused selected events) :=
      meets_guarded (fun s faults h => h) (fun s e h he => refused_of_database h.1 he) fun s hs => hs
    refine (meets_bind (htables.mono (fun s hs => hs) (fun _ _ h => h) fun _ _ h => hrefused h)
      fun populated => ?_) s hs
    cases populated with
    | true =>
      exact (meets_refuse (by decide)).mono (fun s hs => hs.1) (fun _ _ h => h) fun _ _ h => hrefused h
    | false => exact meets_applyAfter hlisting hledger
  · exact meets_applyAfter hlisting hledger s hs

/-- What a call comes to. -/
theorem meets_pushMigrations (env : Env δ ε) (call : Call) (hledger : Ledger initial rows events) :
    Meets (Untouched rows events) (pushMigrations env call)
      (fun r s => (call.source env).2 ≠ [] ∧ Healthy env (call.source env).2 rows ∧
        Succeeded env (call.source env).2 initial rows r s)
      (fun e s => Refused rows events e s ∨
        Healthy env (call.source env).2 rows ∧ Failed env (call.source env).2 initial rows e s) := by
  have hlisting : Listing env (call.source env).2 := by
    unfold Call.source
    split
    · exact listing_listMigrations env _
    · exact ⟨.nil, fun m hm => by cases hm⟩
  unfold pushMigrations resolveMigrations
  by_cases hempty : (call.source env).2.isEmpty = true
  · rw [if_pos hempty]
    have hcode : (unavailable call).code = .migrationsUnavailable := rfl
    have hother : (unavailable call).code ≠ .migrationsApplyFailed := by
      rw [hcode]
      decide
    exact (meets_refuse hother).mono (fun s hs => hs) (fun _ _ h => h) fun _ _ h => .inl h
  · rw [if_neg hempty]
    refine (meets_applyMigrations hlisting hledger).mono (fun s hs => hs) (fun r s h => ⟨?_, h⟩) fun _ _ h => h
    exact fun hnil => hempty (List.isEmpty_iff.mpr hnil)

end Call

end PgliteBridge.Migrations
