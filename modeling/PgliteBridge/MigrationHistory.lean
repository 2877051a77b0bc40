import PgliteBridge.MigrationCalls

/-!
# The discipline of the migration history

Calls of `pushMigrations` and the repairs of others follow one another; every call may end anywhere.  The history stays
a `Ledger`, and every call keeps to `CallLaws` (`history_disciplined`).
-/

namespace PgliteBridge.Migrations

open Commands

variable {δ ε : Type}

inductive Action (δ ε : Type)
  | call (call : Call) (faults : List (Fault δ ε))
  /-- `prisma migrate resolve --rolled-back` -/
  | rollBack (id : String)
  /-- A row is replaced by a finished one. -/
  | replace (old new checksum : String)
  /-- Others change the rest of the database. -/
  | change (user : δ)

def State.initial (history : Option Table) (user : δ) (randomUUIDs : Nat → String) : State δ ε :=
  { history := history, user := user, faults := [], randomUUIDs := randomUUIDs, drawn := 0, events := [] }

private theorem id_rollBack (id : String) (row : HistoryRow) : (row.rollBack id).id = row.id := by
  unfold HistoryRow.rollBack
  split
  · rfl
  · rfl

private theorem nodup_replace {rows : List HistoryRow} {old new : String} (checksum : String)
    (hnodup : (rows.map HistoryRow.id).Nodup) (hnew : new ∉ rows.map HistoryRow.id) :
    ((rows.map (HistoryRow.replace old new checksum)).map HistoryRow.id).Nodup := by
  have hids : (rows.map (HistoryRow.replace old new checksum)).map HistoryRow.id =
      (rows.map HistoryRow.id).map fun id => if id = old then new else id := by
    rw [List.map_map, List.map_map]
    refine List.map_congr_left fun row _ => ?_
    change (row.replace old new checksum).id = if row.id = old then new else row.id
    unfold HistoryRow.replace
    split
    · rfl
    · rfl
  rw [hids]
  refine hnodup.map_on fun id hid id' hid' hsame => ?_
  split at hsame
  · rename_i hold
    split at hsame
    · rename_i hold'
      rw [hold, hold']
    · exact absurd (hsame ▸ hid') hnew
  · split at hsame
    · exact absurd (hsame ▸ hid) hnew
    · exact hsame

def step (env : Env δ ε) (s : State δ ε) : Action δ ε → State δ ε
  | .call call faults => (pushMigrations env call { s with faults := faults }).2
  | .rollBack id =>
    match s.history with
    | none => s
    | some table =>
      if id ∈ table.rows.map HistoryRow.id then
        { s with
          history := some (table.update (HistoryRow.rollBack id) (id_rollBack id))
          events := s.events ++ [.rolledBack id] }
      else s
  | .replace old new checksum =>
    match s.history with
    | none => s
    | some table =>
      if h : old ∈ table.rows.map HistoryRow.id ∧ new ∉ table.rows.map HistoryRow.id then
        { s with
          history := some ⟨table.rows.map (HistoryRow.replace old new checksum), nodup_replace checksum table.nodup h.2⟩
          events := s.events ++ [.replaced old new] }
      else s
  | .change user => { s with user := user }

def run (env : Env δ ε) (s : State δ ε) (actions : List (Action δ ε)) : State δ ε := actions.foldl (step env) s

/-- An active row that a call must not get past. -/
inductive Blocked (env : Env δ ε) (migrations : List MigrationFile) (rows : List HistoryRow) : Prop
  | unfinished {row : HistoryRow} : row ∈ rows → row.active = true → row.finished = false → Blocked env migrations rows
  | duplicated {before between behind : List HistoryRow} {row other : HistoryRow} :
    rows = before ++ row :: between ++ other :: behind → row.active = true → other.active = true →
    row.migrationName = other.migrationName → Blocked env migrations rows
  | missing {row : HistoryRow} : row ∈ rows → row.active = true → (∀ m ∈ migrations, m.name ≠ row.migrationName) →
    Blocked env migrations rows
  | mismatched {row : HistoryRow} {m : MigrationFile} : row ∈ rows → row.active = true → m ∈ migrations →
    m.name = row.migrationName → checksumMatches env row.checksum m.sql = false → Blocked env migrations rows

/-- The call `call`, from `s` and with these faults. -/
structure CallLaws (env : Env δ ε) (s : State δ ε) (call : Call) (faults : List (Fault δ ε)) : Prop where
  blocked : Blocked env (call.source env).2 s.rows → ∃ e t,
    pushMigrations env call { s with faults := faults } = (.error e, t) ∧ t.rows = s.rows ∧ t.events = s.events
  /-- A script failed: one row is new, active and not finished. -/
  failed : ∀ error cause t, pushMigrations env call { s with faults := faults } = (.error (.bridge error cause), t) →
    error.code = .migrationsApplyFailed → ∃ m ∈ (call.source env).2, ∃ id, error = applyFailed env m ∧
      (∀ row ∈ s.rows, row.id ≠ id) ∧
      t.rows.filter (fun row => row.active && !row.finished) = [startedRow id m]
  /-- The lists are the names of the directory, in order, that no active row and that an active row had. -/
  succeeded : ∀ applied skipped t, pushMigrations env call { s with faults := faults } = (.ok (applied, skipped), t) →
    let names := (call.source env).2.map MigrationFile.name
    applied = names.filter (· ∉ activeNames s.rows) ∧ skipped = names.filter (· ∈ activeNames s.rows)
  /-- A call right after a successful one has nothing to do. -/
  again : ∀ r t, pushMigrations env call { s with faults := faults } = (.ok r, t) →
    (∃ u, pushMigrations env call { t with faults := [] } = (.ok ([], (call.source env).2.map MigrationFile.name), u)) ∧
    ∀ faults', (pushMigrations env call { t with faults := faults' }).2.rows = t.rows ∧
      (pushMigrations env call { t with faults := faults' }).2.events = t.events ∧
      ∀ r', (pushMigrations env call { t with faults := faults' }).1 = .ok r' →
        r' = ([], (call.source env).2.map MigrationFile.name)

section Laws

variable {env : Env δ ε} {migrations : List MigrationFile} {migrationsPath : String} {initial rows : List HistoryRow}
  {events : List Event} {s t : State δ ε}

/-! ### The ledger of a run -/

private theorem untouched_faults (s : State δ ε) (faults : List (Fault δ ε)) :
    Untouched s.rows s.events { s with faults := faults } := ⟨rfl, rfl⟩

private theorem Ledger.call (h : Ledger initial s.rows s.events) (env : Env δ ε) (call : Call)
    (faults : List (Fault δ ε)) :
    Ledger initial (pushMigrations env call { s with faults := faults }).2.rows
      (pushMigrations env call { s with faults := faults }).2.events := by
  have hout := meets_pushMigrations env call h { s with faults := faults } (untouched_faults s faults)
  rcases hrun : pushMigrations env call { s with faults := faults } with ⟨e | r, t⟩
  · rw [hrun] at hout
    rcases hout with ⟨⟨hrows, hevents⟩, _⟩ | ⟨_, hfailed⟩
    · dsimp only
      rw [hrows, hevents]
      exact h
    · exact hfailed.1
  · rw [hrun] at hout
    exact hout.2.2.2.ledger

private theorem Ledger.step (h : Ledger initial s.rows s.events) (env : Env δ ε) (action : Action δ ε) :
    Ledger initial (Migrations.step env s action).rows (Migrations.step env s action).events := by
  cases action with
  | call call faults => exact h.call env call faults
  | rollBack id =>
    unfold Migrations.step
    dsimp only
    split
    · exact h
    · rename_i table htable
      split
      · rw [rows_of_history htable] at h
        exact h.rolledBack id
      · exact h
  | replace old new checksum =>
    unfold Migrations.step
    dsimp only
    split
    · exact h
    · rename_i table htable
      split
      · rw [rows_of_history htable] at h
        exact h.replaced old new checksum
      · exact h
  | change user => exact h

private theorem ledger_run (h : Ledger initial s.rows s.events) (env : Env δ ε) (actions : List (Action δ ε)) :
    Ledger initial (run env s actions).rows (run env s actions).events := by
  induction actions generalizing s with
  | nil => exact h
  | cons action actions ih => exact ih (h.step env action)

/-! ### A blocked call -/

private theorem not_healthy_of_blocked (h : Blocked env migrations rows) : ¬ Healthy env migrations rows := by
  intro hhealthy
  cases h with
  | unfinished hmem hactive hunfinished =>
    have hfinished := hhealthy.finished _ hmem hactive
    rw [hunfinished] at hfinished
    cases hfinished
  | @duplicated before between behind row other hrows hactive hother hname =>
    have hunique := hhealthy.unique
    rw [hrows] at hunique
    simp only [List.append_assoc, List.cons_append, List.filter_append, List.filter_cons, hactive, hother, if_true,
      List.map_append, List.map_cons, List.nodup_append, List.nodup_cons, List.mem_append, List.mem_cons] at hunique
    exact hunique.2.1.1 (.inr (.inl hname))
  | missing hmem hactive hmissing =>
    obtain ⟨m, hm, hname⟩ := hhealthy.listed _ hmem hactive
    exact hmissing m hm hname
  | mismatched hmem hactive hm hname hmismatch =>
    have hmatches := hhealthy.unmodified _ hmem hactive _ hm hname
    rw [hmismatch] at hmatches
    cases hmatches

/-! ### A failed script -/

private theorem Healthy.filter_unfinished (h : Healthy env migrations rows) :
    rows.filter (fun row => row.active && !row.finished) = [] := by
  refine List.filter_eq_nil_iff.mpr fun row hmem hbad => ?_
  rw [Bool.and_eq_true, Bool.not_eq_true'] at hbad
  rw [h.finished row hmem hbad.1] at hbad
  cases hbad.2

/-! ### A call that has nothing to do -/

/-- A call from `s` finds a table with these rows, and meets no fault if it is `quiet`. -/
def Settled (quiet : Bool) (rows : List HistoryRow) (events : List Event) (s : State δ ε) : Prop :=
  Untouched rows events s ∧ s.history.isSome ∧ (quiet = true → s.faults = [])

def Disturbed (quiet : Bool) (rows : List HistoryRow) (events : List Event) (_ : Failure ε) (s : State δ ε) : Prop :=
  quiet = false ∧ Untouched rows events s

variable {quiet : Bool}

private theorem meets_guarded_settled {α : Type} {post : α → State δ ε → Prop} {c : Op δ ε α}
    (hc : Meets (Settled quiet rows events) c post (Disturbed quiet rows events)) :
    Meets (Settled quiet rows events) (guarded c) post (Disturbed quiet rows events) := by
  intro s hs
  cases hfaults : s.faults with
  | nil =>
    unfold guarded
    rw [hfaults]
    exact hc s hs
  | cons fault faults =>
    have hnoisy : quiet = false := by
      cases quiet with
      | false => rfl
      | true =>
        have hnil := hs.2.2 rfl
        rw [hfaults] at hnil
        cases hnil
    have hquiet : ∀ l : List (Fault δ ε), quiet = true → l = [] := by
      intro l htrue
      rw [hnoisy] at htrue
      cases htrue
    unfold guarded
    rw [hfaults]
    cases fault with
    | proceeds => exact hc _ ⟨hs.1, hs.2.1, hquiet _⟩
    | rejected e => exact ⟨hnoisy, hs.1⟩
    | crashed user => exact ⟨hnoisy, hs.1⟩

private theorem applyPending_of_done {done : List String} (pending : List MigrationFile) (applied skipped : List String)
    (h : ∀ m ∈ pending, m.name ∈ done) :
    applyPending env done pending applied skipped = pure (applied, skipped ++ pending.map MigrationFile.name) := by
  induction pending generalizing skipped with
  | nil =>
    rw [List.map_nil, List.append_nil]
    rfl
  | cons m pending ih =>
    unfold applyPending
    rw [if_pos (h m List.mem_cons_self), ih _ fun n hn => h n (List.mem_cons_of_mem _ hn), List.map_cons,
      List.append_assoc]
    rfl

private theorem meets_settled (hlisting : Listing env migrations) (hhealthy : Healthy env migrations rows)
    (hdone : ∀ m ∈ migrations, m.name ∈ activeNames rows) (hsome : migrations ≠ []) :
    Meets (Settled quiet rows events) (applyMigrations env migrationsPath migrations)
      (fun r s => r = ([], migrations.map MigrationFile.name) ∧ Untouched rows events s)
      (Disturbed quiet rows events) := by
  unfold applyMigrations
  have hcreate : Meets (Settled quiet rows events) (createTable : Op δ ε Unit) (fun _ => Settled quiet rows events)
      (Disturbed quiet rows events) := by
    refine meets_guarded_settled ?_
    rintro s ⟨⟨hrows, hevents⟩, htable, hquiet⟩
    refine ⟨⟨?_, hevents⟩, rfl, hquiet⟩
    obtain ⟨table, hhistory⟩ := Option.isSome_iff_exists.mp htable
    rw [← hrows]
    unfold State.rows
    rw [hhistory]
    rfl
  have hselect : Meets (Settled quiet rows events) (selectHistory env)
      (fun r s => r = rows ∧ Settled quiet rows events s) (Disturbed quiet rows events) := by
    refine meets_guarded_settled ?_
    intro s hs
    obtain ⟨table, hhistory⟩ := Option.isSome_iff_exists.mp hs.2.1
    dsimp only
    rw [hhistory]
    refine ⟨?_, hs⟩
    rw [← rows_of_history hhistory]
    exact hs.1.1
  refine meets_seq hcreate (meets_bind hselect fun selected => ?_)
  rintro s ⟨rfl, hs⟩
  have hactive : selected.all HistoryRow.rolledBack = false := by
    obtain ⟨m, hm⟩ := List.exists_mem_of_ne_nil migrations hsome
    obtain ⟨row, hrow, _⟩ := List.mem_map.mp (hdone m hm)
    obtain ⟨hmem, hrowActive⟩ := List.mem_filter.mp hrow
    refine List.all_eq_false.mpr ⟨row, hmem, ?_⟩
    unfold HistoryRow.active at hrowActive
    rw [Bool.not_eq_true'] at hrowActive
    rw [hrowActive]
    exact Bool.false_ne_true
  rw [hactive]
  change Outcome _ _ (applyAfter env migrationsPath migrations selected s)
  unfold applyAfter
  rw [(validateHistory_eq_ok hlisting).mpr hhealthy]
  change Outcome _ _ (applyPending env (activeNames selected) migrations [] [] s)
  rw [applyPending_of_done migrations [] [] hdone]
  exact ⟨rfl, hs.1⟩

/-- After a call that succeeds, every name of the directory is on an active row. -/
private theorem mem_activeNames_of_succeeded {r : List String × List String}
    (h : Succeeded env migrations initial rows r t) : ∀ m ∈ migrations, m.name ∈ activeNames t.rows := by
  obtain ⟨_, table, htable, hprogress⟩ := h
  intro m hm
  rw [rows_of_history htable]
  by_contra hnot
  have hvacant := (hprogress.vacant m.name).mp (vacant_iff.mpr hnot)
  refine hvacant.2 (List.mem_filter.mpr ⟨List.mem_map_of_mem hm, ?_⟩)
  exact decide_eq_true hvacant.1

private theorem listing_source (env : Env δ ε) (call : Call) : Listing env (call.source env).2 := by
  unfold Call.source
  split
  · exact listing_listMigrations env _
  · exact ⟨.nil, fun m hm => by cases hm⟩

private theorem pushMigrations_of_source {call : Call} (h : (call.source env).2 ≠ []) :
    pushMigrations env call = applyMigrations env (call.source env).1 (call.source env).2 := by
  unfold pushMigrations resolveMigrations
  rw [if_neg fun hempty => h (List.isEmpty_iff.mp hempty)]

/-- Right after a call that succeeded. -/
private theorem meets_again (quiet : Bool) {call : Call} {r : List String × List String}
    (hsome : (call.source env).2 ≠ [])
    (h : Succeeded env (call.source env).2 initial rows r t) :
    Meets (Settled quiet t.rows t.events) (pushMigrations env call)
      (fun r s => r = ([], (call.source env).2.map MigrationFile.name) ∧ Untouched t.rows t.events s)
      (Disturbed quiet t.rows t.events) := by
  have hdone := mem_activeNames_of_succeeded h
  obtain ⟨_, table, htable, hprogress⟩ := h
  have hhealthy : Healthy env (call.source env).2 t.rows := by
    rw [rows_of_history htable]
    exact hprogress.healthy
  rw [pushMigrations_of_source hsome]
  exact meets_settled (listing_source env call) hhealthy hdone hsome

private theorem callLaws (h : Ledger initial s.rows s.events) (env : Env δ ε) (call : Call)
    (faults : List (Fault δ ε)) :
    CallLaws env s call faults := by
  have hout := meets_pushMigrations env call h { s with faults := faults } (untouched_faults s faults)
  constructor
  · intro hblocked
    have hnot := not_healthy_of_blocked hblocked
    rcases hrun : pushMigrations env call { s with faults := faults } with ⟨e | r, t⟩
    · rw [hrun] at hout
      rcases hout with ⟨⟨hrows, hevents⟩, _⟩ | ⟨hhealthy, _⟩
      · exact ⟨e, t, rfl, hrows, hevents⟩
      · exact absurd hhealthy hnot
    · rw [hrun] at hout
      exact absurd hout.2.1 hnot
  · intro error cause t hrun hcode
    rw [hrun] at hout
    rcases hout with ⟨_, hother⟩ | ⟨_, _, hfailed⟩
    · exact absurd hcode (hother error cause rfl)
    · obtain ⟨m, id, hm, herror, hnew, before, hrows, hhealthy⟩ := hfailed error cause rfl
      refine ⟨m, hm, id, herror, hnew, ?_⟩
      rw [hrows, List.filter_append, hhealthy.filter_unfinished]
      rfl
  · intro applied skipped t hrun
    rw [hrun] at hout
    exact Prod.mk.inj hout.2.2.1
  · intro r t hrun
    rw [hrun] at hout
    obtain ⟨hsome, _, hsucceeded⟩ := hout
    have htable : t.history.isSome := by
      obtain ⟨_, table, htable, _⟩ := hsucceeded
      rw [htable]
      rfl
    constructor
    · have hquiet : Meets _ _ _ fun _ _ => False :=
        (meets_again true hsome hsucceeded).mono (fun s hs => hs) (fun _ _ h => h) fun _ _ h => by cases h.1
      obtain ⟨r', u, hrun', hr', _⟩ := hquiet.succeeds (s := { t with faults := [] }) ⟨⟨rfl, rfl⟩, htable, fun _ => rfl⟩
      rw [hr'] at hrun'
      exact ⟨u, hrun'⟩
    · intro faults'
      have hagain := meets_again false hsome hsucceeded { t with faults := faults' }
        ⟨⟨rfl, rfl⟩, htable, fun hfalse => by cases hfalse⟩
      rcases hrun' : pushMigrations env call { t with faults := faults' } with ⟨e | r', u⟩
      · rw [hrun'] at hagain
        exact ⟨hagain.2.1, hagain.2.2, fun r' hr' => by cases hr'⟩
      · rw [hrun'] at hagain
        refine ⟨hagain.2.1, hagain.2.2, fun other hother => ?_⟩
        cases hother
        exact hagain.1

end Laws

/-- In every run of calls, failures, crashes and repairs, from every history. -/
theorem history_disciplined (env : Env δ ε) (history : Option Table) (user : δ) (randomUUIDs : Nat → String)
    (actions : List (Action δ ε)) :
    Disciplined (run env (.initial history user randomUUIDs) actions).events ∧
      ∀ call faults, CallLaws env (run env (.initial history user randomUUIDs) actions) call faults := by
  have hledger := ledger_run (s := .initial history user randomUUIDs) .initial env actions
  exact ⟨hledger.disciplined, fun call faults => callLaws hledger env call faults⟩

end PgliteBridge.Migrations
