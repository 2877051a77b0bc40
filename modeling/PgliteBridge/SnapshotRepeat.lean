import PgliteBridge.SnapshotRoundTrip
import PgliteBridge.TransitionSystem

/-!
# Resets behind one capture

A reset validates the snapshot against the catalog, and its scrub drops the temporary relations of the session.  As
long as no captured relation has been dropped, the constraints accept the rows of the snapshot and the sequences that a
reset does not restore stay where they were, all resets succeed and leave the same contents (`resets_repeat`).
-/

namespace PgliteBridge.SnapshotManager

open Commands Postgres TransitionSystem

variable {ν : Type} [Inhabited ν]

/-! ### Runs -/

inductive Action (ν : Type)
  /-- Statements that change rows and positions. -/
  | dml (rows : QualifiedName → List (Row ν)) (lastValue : QualifiedName → Option Int)
      (staging : Option (SnapshotSchema ν)) (role : ReplicationRole)
  | reset (scrubSession : Bool)

structure History (ν : Type) where
  session : Session ν
  /-- The results of the resets. -/
  resets : List (Except Failure Unit × Session ν)
  /-- Nothing has happened since the last reset. -/
  settled : Bool

/-- `pg n` is the server as the reset number `n` finds it. -/
def History.step (pg : Nat → Server) (h : History ν) : Action ν → Option (History ν)
  | .dml rows lastValue staging role =>
    some ⟨⟨{ h.session.database with rows, lastValue, staging }, role, none⟩, h.resets, false⟩
  | .reset scrubSession =>
    let result := run (resetDb (pg h.resets.length) scrubSession) h.session
    some ⟨result.2, h.resets ++ [result], true⟩

/-- Right behind a capture. -/
def History.start (s : Session ν) : History ν := ⟨s, [], false⟩

/-! ### The condition and the law -/

/-- What a reset needs of the database on which it starts. -/
structure Repeatable (saved database : Database ν) : Prop where
  /-- The captured tables exist. -/
  fits : Fits database
  /-- The constraints accept the rows of the snapshot, and the saved sequences exist. -/
  restorable : database.userTables ≠ [] → Restorable database
  /-- Sequences that the reset does not restore stand where they stood. -/
  still : ∀ sequence ∈ database.userSequences,
    database.lastValue sequence.name = saved.lastValue sequence.name ∨
      (database.userTables ≠ [] ∧ (saved.lastValue sequence.name ≠ none ∨
        sequence.name ∈ database.restarted (database.userTables.map (·.name))))

/-- The rows that user tables read and the positions of user sequences agree, where both have the relation. -/
structure SameContents (saved db db' : Database ν) : Prop where
  rows : ∀ table ∈ saved.tables, captors saved table ≠ [] → table ∈ db.tables → table ∈ db'.tables →
    (db.rows table.name).Perm (db'.rows table.name)
  positions : ∀ sequence ∈ saved.userSequences, sequence ∈ db.sequences → sequence ∈ db'.sequences →
    db.lastValue sequence.name = db'.lastValue sequence.name

/-- Every relation that is left is as it was. -/
structure Unchanged (db db' : Database ν) : Prop where
  rows : ∀ table ∈ db'.tables, table ∈ db.tables ∧ (db'.rows table.name).Perm (db.rows table.name)
  positions : ∀ sequence ∈ db'.sequences, sequence ∈ db.sequences ∧
    db'.lastValue sequence.name = db.lastValue sequence.name

def condition (saved : Database ν) (h : History ν) : Action ν → Prop
  | .dml .. => True
  | .reset _ => Repeatable saved h.session.database

structure Repeats (saved : Database ν) (h : History ν) : Prop where
  ok : ∀ result ∈ h.resets, result.1 = .ok ()
  same : ∀ result ∈ h.resets, ∀ result' ∈ h.resets, SameContents saved result.2.database result'.2.database
  /-- A reset right behind a reset. -/
  again : h.settled = true → ∀ pg : Server, pg.Faultless → ∀ scrubSession, condition saved h (.reset scrubSession) →
    (run (resetDb pg scrubSession) h.session).1 = .ok () ∧
      Unchanged h.session.database (run (resetDb pg scrubSession) h.session).2.database

/-! ### The catalog of a run -/

/-- The scrub may have dropped relations; nothing else has changed the catalog. -/
structure Tracks (saved : Database ν) (s : Session ν) : Prop where
  idle : s.transaction = none
  tables : s.database.tables.Sublist saved.tables
  sequences : s.database.sequences.Sublist saved.sequences
  snapshot : s.database.snapshot = saved.snapshot

section Catalog

variable {saved db : Database ν} {snapshot : SnapshotSchema ν} {table : Table ν} {insert : Insert}

omit [Inhabited ν] in
private theorem find?_of_sublist (hvalid : (saved.tables.map (·.name)).Nodup) (htables : db.tables.Sublist saved.tables)
    {name : QualifiedName} (h : db.find? name = some table) : saved.find? name = some table := by
  obtain ⟨hmem, rfl⟩ := Database.mem_of_find? h
  exact Database.find?_of_mem hvalid (htables.subset hmem)

private theorem place_of_sublist (hvalid : (saved.tables.map (·.name)).Nodup) (htables : db.tables.Sublist saved.tables)
    {values : String → ν} {entry : QualifiedName × Row ν} (h : db.place table values = some entry) :
    saved.place table values = some entry := by
  have hfound : ∀ name, ((db.find? name).bind fun destination => some (name, destination.build values)) = some entry →
      ((saved.find? name).bind fun destination => some (name, destination.build values)) = some entry := by
    intro name hname
    obtain ⟨destination, hfind, hentry⟩ := Option.bind_eq_some_iff.mp hname
    rw [find?_of_sublist hvalid htables hfind]
    exact hentry
  unfold Database.place at h ⊢
  cases hroute : table.route with
  | none =>
    rw [hroute] at h
    exact hfound table.name h
  | some route =>
    rw [hroute] at h
    obtain ⟨name, hname, hrest⟩ := Option.bind_eq_some_iff.mp h
    exact Option.bind_eq_some_iff.mpr ⟨name, hname, hfound name hrest⟩

private theorem mapM_of_imp {α β : Type} {f g : α → Option β} {l : List α} {result : List β}
    (h : ∀ a b, f a = some b → g a = some b) (hresult : l.mapM f = some result) : l.mapM g = some result := by
  induction l generalizing result with
  | nil => exact hresult
  | cons a rest ih =>
    rw [List.mapM_cons] at hresult ⊢
    simp only [Option.bind_eq_bind, Option.bind_eq_some_iff] at hresult ⊢
    obtain ⟨b, hb, others, hothers, hcons⟩ := hresult
    exact ⟨b, h a b hb, others, ih hothers, hcons⟩

/-- What is stored does not depend on the relations that have been dropped. -/
private theorem placements_of_sublist (hvalid : (saved.tables.map (·.name)).Nodup)
    (htables : db.tables.Sublist saved.tables)
    (hsnapshot : db.snapshot = saved.snapshot) {placed : List (QualifiedName × Row ν)}
    (h : db.placements insert = some placed) : saved.placements insert = some placed := by
  simp only [Database.placements, Option.bind_eq_bind, Option.bind_eq_some_iff] at h ⊢
  obtain ⟨target, htarget, copy, hcopy, hplaced⟩ := h
  refine ⟨target, find?_of_sublist hvalid htables htarget, copy, ?_, ?_⟩
  · rw [Database.copy?, ← hsnapshot]
    exact hcopy
  · split at hplaced
    · rename_i hlegal
      rw [if_pos hlegal]
      exact mapM_of_imp (fun row entry hentry => place_of_sublist hvalid htables hentry) hplaced
    · cases hplaced

private theorem placedAll_of_sublist (hvalid : (saved.tables.map (·.name)).Nodup)
    (htables : db.tables.Sublist saved.tables)
    (hsnapshot : db.snapshot = saved.snapshot) {inserts : List Insert}
    (h : ∀ insert ∈ inserts, (db.placements insert).isSome) : db.placedAll inserts = saved.placedAll inserts := by
  refine List.flatMap_congr fun insert hinsert => ?_
  obtain ⟨placed, hplaced⟩ := Option.isSome_iff_exists.mp (h insert hinsert)
  rw [hplaced, placements_of_sublist hvalid htables hsnapshot hplaced]

omit [Inhabited ν] in
/-- A plan that fits is the plan of the capture. -/
private theorem planned_of_fits (hvalid : (saved.tables.map (·.name)).Nodup) (htables : db.tables.Sublist saved.tables)
    (hsnapshot : db.snapshot = saved.snapshot) (hfits : Fits db) : planned db = planned saved := by
  have hrows : planRows db = planRows saved := by
    unfold planRows
    rw [hsnapshot]
    refine List.flatMap_congr fun snapshot hmem => List.map_congr_left fun line hline => ?_
    have hvalidRow : (planRow db snapshot line).valid = true := by
      refine List.all_eq_true.mp hfits.plan _ ?_
      rw [planRows, hsnapshot]
      exact List.mem_flatMap.mpr ⟨snapshot, hmem, List.mem_map_of_mem hline⟩
    have hexists : (db.find? line.2).isSome = true := (Bool.and_eq_true_iff.mp hvalidRow).1
    obtain ⟨table, htable⟩ := Option.isSome_iff_exists.mp hexists
    simp only [planRow, htable, find?_of_sublist hvalid htables htable]
  rw [planned, planned, hrows]

omit [Inhabited ν] in
private theorem userTables_sublist (htables : db.tables.Sublist saved.tables) :
    db.userTables.Sublist saved.userTables :=
  htables.filter _

/-- Every captured table is still there. -/
private theorem userTable_of_fits (hvalid : saved.Valid) (htables : db.tables.Sublist saved.tables)
    (hsnapshot : db.snapshot = some snapshot) (hcaptures : Captures saved snapshot) (hfits : Fits db)
    (htable : table ∈ saved.userTables) : table ∈ db.userTables := by
  have hname : table.name ∈ snapshot.tables.map Prod.snd :=
    hcaptures.tables.mem_iff.mpr (List.mem_map_of_mem htable)
  obtain ⟨line, hline, hsame⟩ := List.mem_map.mp hname
  have hvalidRow : (planRow db snapshot line).valid = true := by
    refine List.all_eq_true.mp hfits.plan _ ?_
    rw [planRows, hsnapshot]
    exact List.mem_flatMap.mpr ⟨snapshot, List.mem_singleton.mpr rfl, List.mem_map_of_mem hline⟩
  have hexists : (db.find? line.2).isSome = true := (Bool.and_eq_true_iff.mp hvalidRow).1
  obtain ⟨other, hother⟩ := Option.isSome_iff_exists.mp hexists
  obtain ⟨hmem, hothername⟩ := Database.mem_of_find? hother
  obtain ⟨htablemem, huser⟩ := Database.mem_userTables.mp htable
  have heq : other = table := eq_of_name hvalid htablemem (htables.subset hmem) (hothername.trans hsame)
  exact Database.mem_userTables.mpr ⟨heq ▸ hmem, huser⟩

end Catalog

/-! ### What every reset leaves -/

/-- The state behind a reset, by its catalog. -/
structure Restored (saved db : Database ν) : Prop where
  rows : ∀ table ∈ db.tables, captors saved table ≠ [] →
    (db.rows table.name).Perm (rowsFor table.name (saved.placedAll (planned saved)))
  positions : ∀ sequence ∈ db.userSequences, db.lastValue sequence.name = saved.lastValue sequence.name
  /-- Other tables that a reset empties are empty. -/
  emptied : ∀ table ∈ db.tables, captors saved table = [] →
    table.name ∈ db.truncated (db.userTables.map (·.name)) → db.rows table.name = []
  restarted : ∀ sequence ∈ db.sequences, Database.systemSchemaExclusion sequence.name = false →
    sequence.name ∈ db.restarted (db.userTables.map (·.name)) → db.lastValue sequence.name = none

/-- Relations may be dropped, those that are left keep their contents. -/
structure Shrinks (db db' : Database ν) : Prop where
  tables : db'.tables.Sublist db.tables
  sequences : db'.sequences.Sublist db.sequences
  snapshot : db'.snapshot = db.snapshot
  rows : ∀ table ∈ db'.tables, db'.rows table.name = db.rows table.name
  positions : ∀ sequence ∈ db'.sequences, db'.lastValue sequence.name = db.lastValue sequence.name

section Shrinking

variable {saved db db' : Database ν} {s : Session ν}

omit [Inhabited ν] in
private theorem shrinks_discardTemp (htables : (db.tables.map (·.name)).Nodup)
    (hsequences : (db.sequences.map (·.name)).Nodup) :
    Shrinks db db.discardTemp := by
  refine ⟨List.filter_sublist, List.filter_sublist, rfl, fun table htable => ?_, fun sequence hsequence => ?_⟩
  · obtain ⟨hmem, hpermanent⟩ := List.mem_filter.mp htable
    have hnot : db.temporaryTable table.name = false := by
      refine List.any_eq_false.mpr fun other hother hboth => ?_
      obtain ⟨hname, htemporary⟩ := Bool.and_eq_true_iff.mp hboth
      have heq : other = table := List.inj_on_of_nodup_map htables hother hmem (by simpa using hname)
      rw [heq] at htemporary
      rw [htemporary] at hpermanent
      cases hpermanent
    simp [Database.discardTemp, hnot]
  · obtain ⟨hmem, hpermanent⟩ := List.mem_filter.mp hsequence
    have hnot : db.temporarySequence sequence.name = false := by
      refine List.any_eq_false.mpr fun other hother hboth => ?_
      obtain ⟨hname, htemporary⟩ := Bool.and_eq_true_iff.mp hboth
      have heq : other = sequence := List.inj_on_of_nodup_map hsequences hother hmem (by simpa using hname)
      rw [heq] at htemporary
      rw [htemporary] at hpermanent
      cases hpermanent
    simp [Database.discardTemp, hnot]

omit [Inhabited ν] in
private theorem shrinks_scrubbed (scrubSession : Bool) (htables : (s.database.tables.map (·.name)).Nodup)
    (hsequences : (s.database.sequences.map (·.name)).Nodup) :
    Shrinks s.database (scrubbed scrubSession s).database := by
  cases scrubSession with
  | false => exact ⟨.refl _, .refl _, rfl, fun _ _ => rfl, fun _ _ => rfl⟩
  | true => exact shrinks_discardTemp htables hsequences

private theorem Restored.shrink (h : Restored saved db) (hshrinks : Shrinks db db') : Restored saved db' := by
  have husers : db'.userTables.map (·.name) ⊆ db.userTables.map (·.name) :=
    ((userTables_sublist hshrinks.tables).map _).subset
  have hin : db.userTables.map (·.name) ⊆ db.tables.map (·.name) := (List.filter_sublist.map _).subset
  refine ⟨fun table htable hcaptors => ?_, fun sequence hsequence => ?_, fun table htable hcaptors htruncated => ?_,
    fun sequence hsequence hsystem hrestarted => ?_⟩
  · rw [hshrinks.rows table htable]
    exact h.rows table (hshrinks.tables.subset htable) hcaptors
  · obtain ⟨hmem, huser⟩ := List.mem_filter.mp hsequence
    rw [hshrinks.positions sequence hmem]
    exact h.positions sequence (List.mem_filter.mpr ⟨hshrinks.sequences.subset hmem, huser⟩)
  · rw [hshrinks.rows table htable]
    exact h.emptied table (hshrinks.tables.subset htable) hcaptors
      (Database.truncated_mono hshrinks.tables husers hin htruncated)
  · rw [hshrinks.positions sequence hsequence]
    exact h.restarted sequence (hshrinks.sequences.subset hsequence) hsystem
      (Database.restarted_mono hshrinks.tables hshrinks.sequences husers hin hrestarted)

omit [Inhabited ν] in
private theorem Unchanged.shrink {db'' : Database ν} (h : Unchanged db db') (hshrinks : Shrinks db' db'') :
    Unchanged db db'' := by
  refine ⟨fun table htable => ?_, fun sequence hsequence => ?_⟩
  · rw [hshrinks.rows table htable]
    exact h.rows table (hshrinks.tables.subset htable)
  · rw [hshrinks.positions sequence hsequence]
    exact h.positions sequence (hshrinks.sequences.subset hsequence)

end Shrinking

section OneReset

variable {saved db : Database ν} {snapshot : SnapshotSchema ν} {inserts : List Insert}
  {sequences : List (QualifiedName × Int)}

/-- A row of the snapshot is placed in a table that a user table reads. -/
private theorem captors_of_placedAll (hvalid : saved.Valid) (hsnapshot : saved.snapshot = some snapshot)
    (hcaptures : Captures saved snapshot) (hinserts : inserts.Perm (planned saved)) {name : QualifiedName}
    (hname : name ∈ (saved.placedAll inserts).map Prod.fst) :
    ∃ table ∈ saved.tables, table.name = name ∧ captors saved table ≠ [] := by
  obtain ⟨entry, hentry, rfl⟩ := List.mem_map.mp hname
  obtain ⟨insert, hinsert, hplaced⟩ := List.mem_flatMap.mp hentry
  obtain ⟨user, huser, source, rfl, hcopy⟩ :=
    captures_insert hvalid hsnapshot hcaptures (hinserts.mem_iff.mp hinsert)
  rw [placements_insertFor hvalid (Database.mem_userTables.mp huser).1 hcopy] at hplaced
  split at hplaced
  · obtain ⟨table, htable, hsame, hcaptor⟩ := captor_of_placed huser (List.mem_map_of_mem hplaced)
    exact ⟨table, htable, hsame, List.ne_nil_of_mem hcaptor⟩
  · cases hplaced

omit [Inhabited ν] in
private theorem advanced_of_mem {name : QualifiedName} {value : Int} (h : (name, value) ∈ saved.advanced) :
    Database.systemSchemaExclusion name = true ∧ saved.lastValue name = some value := by
  obtain ⟨sequence, hsequence, hmap⟩ := List.mem_filterMap.mp h
  obtain ⟨position, hposition, hpair⟩ := Option.map_eq_some_iff.mp hmap
  obtain ⟨rfl, rfl⟩ := Prod.mk.inj hpair
  exact ⟨(List.mem_filter.mp hsequence).2, hposition⟩

/-- What a reset has when it starts to truncate: the database, the inserts and the positions. -/
structure Prepared (saved db : Database ν) (inserts : List Insert) (positions : List (QualifiedName × Int)) : Prop where
  valid : saved.Valid
  tables : db.tables.Sublist saved.tables
  sequences : db.sequences.Sublist saved.sequences
  users : ∀ user ∈ saved.userTables, user ∈ db.userTables
  placed : (db.placedAll inserts).Perm (saved.placedAll (planned saved))
  read : ∀ name ∈ (db.placedAll inserts).map Prod.fst, ∃ table ∈ saved.tables, table.name = name ∧
    captors saved table ≠ []
  advanced : positions.Perm saved.advanced
  still : ∀ sequence ∈ db.userSequences, saved.lastValue sequence.name = none →
    sequence.name ∉ db.restarted (db.userTables.map (·.name)) → db.lastValue sequence.name = none

namespace Prepared

variable {table : Table ν} {sequence : Sequence}

private theorem rows_captured (h : Prepared saved db inserts sequences) (htable : table ∈ db.tables)
    (hcaptors : captors saved table ≠ []) :
    ((afterReset db inserts sequences).rows table.name).Perm
      (rowsFor table.name (saved.placedAll (planned saved))) := by
  have hcaptors' : captors db table ≠ [] := by
    obtain ⟨user, hcaptor⟩ := List.exists_mem_of_ne_nil _ hcaptors
    obtain ⟨huser, hreads⟩ := mem_captors.mp hcaptor
    exact List.ne_nil_of_mem (mem_captors.mpr ⟨h.users user huser, hreads⟩)
  rw [afterReset_rows, if_pos (mem_truncatedAll htable hcaptors'), List.nil_append]
  exact rowsFor_perm h.placed

private theorem rows_other (h : Prepared saved db inserts sequences) (htable : table ∈ db.tables)
    (hcaptors : captors saved table = []) : (afterReset db inserts sequences).rows table.name =
      if table.name ∈ db.truncated (db.userTables.map (·.name)) then [] else db.rows table.name := by
  have hnone : rowsFor table.name (db.placedAll inserts) = [] := by
    refine rowsFor_eq_nil fun hmem => ?_
    obtain ⟨other, hother, hname, hne⟩ := h.read table.name hmem
    exact hne (eq_of_name h.valid (h.tables.subset htable) hother hname ▸ hcaptors)
  rw [afterReset_rows, hnone, List.append_nil]

private theorem position_user (h : Prepared saved db inserts sequences) (hsequence : sequence ∈ db.userSequences) :
    (afterReset db inserts sequences).lastValue sequence.name = saved.lastValue sequence.name := by
  have huser : sequence ∈ saved.userSequences := (h.sequences.filter _).subset hsequence
  cases hposition : saved.lastValue sequence.name with
  | some value =>
    have hkeys : (sequences.map Prod.fst).Nodup := (h.advanced.map Prod.fst).nodup_iff.mpr (advanced_keys h.valid)
    exact afterReset_lastValue_of_mem hkeys (h.advanced.mem_iff.mpr ((mem_advanced huser).mpr hposition))
  | none =>
    have hnot : sequence.name ∉ sequences.map Prod.fst := by
      intro hmem
      obtain ⟨⟨name, value⟩, hentry, rfl⟩ := List.mem_map.mp hmem
      rw [(advanced_of_mem (h.advanced.mem_iff.mp hentry)).2] at hposition
      cases hposition
    rw [afterReset_lastValue_of_not_mem hnot]
    split
    · rfl
    · rename_i hrestarted
      exact h.still sequence hsequence hposition hrestarted

private theorem position_system (h : Prepared saved db inserts sequences)
    (hsystem : Database.systemSchemaExclusion sequence.name = false) :
    (afterReset db inserts sequences).lastValue sequence.name =
      if sequence.name ∈ db.restarted (db.userTables.map (·.name)) then none else db.lastValue sequence.name := by
  refine afterReset_lastValue_of_not_mem fun hmem => ?_
  obtain ⟨⟨name, value⟩, hentry, rfl⟩ := List.mem_map.mp hmem
  rw [(advanced_of_mem (h.advanced.mem_iff.mp hentry)).1] at hsystem
  cases hsystem

/-- A reset leaves the contents that every reset leaves. -/
private theorem restored (h : Prepared saved db inserts sequences) :
    Restored saved (afterReset db inserts sequences) := by
  have hcatalog : (afterReset db inserts sequences).tables = db.tables ∧
      (afterReset db inserts sequences).sequences = db.sequences := by
    rw [afterReset, Database.positions_eq]
    exact ⟨rfl, rfl⟩
  have husers : (afterReset db inserts sequences).userTables = db.userTables := by
    simp only [Database.userTables, hcatalog.1]
  have htruncated : ∀ names, (afterReset db inserts sequences).truncated names = db.truncated names := by
    intro names
    rw [afterReset, Database.positions_eq]
    rfl
  have hrestarted : ∀ names, (afterReset db inserts sequences).restarted names = db.restarted names := by
    intro names
    rw [afterReset, Database.positions_eq]
    rfl
  refine ⟨fun table htable hcaptors => ?_, fun sequence hsequence => ?_, fun table htable hcaptors hmem => ?_,
    fun sequence hsequence hsystem hmem => ?_⟩
  · exact h.rows_captured (hcatalog.1 ▸ htable) hcaptors
  · have hmem : sequence ∈ db.userSequences := by
      rw [Database.userSequences, hcatalog.2] at hsequence
      exact hsequence
    exact h.position_user hmem
  · rw [husers, htruncated] at hmem
    rw [h.rows_other (hcatalog.1 ▸ htable) hcaptors, if_pos hmem]
  · rw [husers, hrestarted] at hmem
    rw [h.position_system hsystem, if_pos hmem]

/-- A reset of what a reset has left changes nothing. -/
private theorem unchanged (h : Prepared saved db inserts sequences) (hrestored : Restored saved db) :
    Unchanged db (afterReset db inserts sequences) := by
  have hcatalog : (afterReset db inserts sequences).tables = db.tables ∧
      (afterReset db inserts sequences).sequences = db.sequences := by
    rw [afterReset, Database.positions_eq]
    exact ⟨rfl, rfl⟩
  refine ⟨fun table htable => ?_, fun sequence hsequence => ?_⟩
  · rw [hcatalog.1] at htable
    refine ⟨htable, ?_⟩
    by_cases hcaptors : captors saved table = []
    · rw [h.rows_other htable hcaptors]
      split
      · rename_i hmem
        rw [hrestored.emptied table htable hcaptors hmem]
      · exact .refl _
    · exact (h.rows_captured htable hcaptors).trans (hrestored.rows table htable hcaptors).symm
  · rw [hcatalog.2] at hsequence
    refine ⟨hsequence, ?_⟩
    cases hsystem : Database.systemSchemaExclusion sequence.name with
    | true =>
      have huser : sequence ∈ db.userSequences := List.mem_filter.mpr ⟨hsequence, hsystem⟩
      rw [h.position_user huser, hrestored.positions sequence huser]
    | false =>
      rw [h.position_system hsystem]
      split
      · rename_i hmem
        rw [hrestored.restarted sequence hsequence hsystem hmem]
      · rfl

end Prepared

end OneReset

/-! ### The law -/

section Law

variable {saved : Database ν} {snapshot : SnapshotSchema ν} {s t : Session ν} {scrubSession : Bool}

/-- Without user tables a reset restores nothing. -/
private theorem restored_of_no_tables (hvalid : saved.Valid) (hsnapshot : saved.snapshot = some snapshot)
    (hcaptures : Captures saved snapshot) (htracks : Tracks saved s) (h : Repeatable saved s.database)
    (htables : s.database.userTables = []) : Restored saved s.database := by
  refine ⟨fun table _ hcaptors => ?_, fun sequence hsequence => ?_, fun table _ _ hmem => ?_,
    fun sequence _ _ hmem => ?_⟩
  · obtain ⟨user, hcaptor⟩ := List.exists_mem_of_ne_nil _ hcaptors
    have huser := userTable_of_fits hvalid htracks.tables (htracks.snapshot.trans hsnapshot) hcaptures h.fits
      (mem_captors.mp hcaptor).1
    rw [htables] at huser
    cases huser
  · exact (h.still sequence hsequence).resolve_right fun hboth => hboth.1 htables
  · rw [htables, List.map_nil, Database.truncated_nil] at hmem
    cases hmem
  · rw [htables, List.map_nil] at hmem
    obtain ⟨other, hother, -⟩ := List.mem_map.mp hmem
    have howned := (List.mem_filter.mp hother).2
    rw [Database.truncated_nil] at howned
    cases hcase : other.owner <;> simp [hcase] at howned

private theorem prepared_of_repeatable (hvalid : saved.Valid) (hsnapshot : saved.snapshot = some snapshot)
    (hcaptures : Captures saved snapshot) (htracks : Tracks saved s) (h : Repeatable saved s.database)
    (htables : s.database.userTables ≠ []) {inserts : List Insert} {sequences : List (QualifiedName × Int)}
    (hinserts : inserts.Perm (planned s.database)) (hsequences : sequences.Perm (savedSequences s.database)) :
    Prepared saved s.database inserts sequences := by
  have hplan : planned s.database = planned saved :=
    planned_of_fits hvalid.tableNames htracks.tables htracks.snapshot h.fits
  have hplaced : s.database.placedAll inserts = saved.placedAll inserts :=
    placedAll_of_sublist hvalid.tableNames htracks.tables htracks.snapshot fun insert hinsert =>
      (h.restorable htables).rows.placed insert (hinserts.mem_iff.mp hinsert)
  have hsaved : savedSequences s.database = snapshot.sequences := by
    simp [savedSequences, htracks.snapshot, hsnapshot]
  refine ⟨hvalid, htracks.tables, htracks.sequences, fun user huser => ?_, ?_, fun name hname => ?_, ?_,
    fun sequence hsequence hnone hrestarted => ?_⟩
  · exact userTable_of_fits hvalid htracks.tables (htracks.snapshot.trans hsnapshot) hcaptures h.fits huser
  · rw [hplaced]
    exact (hplan ▸ hinserts).flatMap_right _
  · rw [hplaced] at hname
    exact captors_of_placedAll hvalid hsnapshot hcaptures (hplan ▸ hinserts) hname
  · exact (hsaved ▸ hsequences).trans hcaptures.sequences
  · rcases h.still sequence hsequence with hsame | ⟨-, hadvanced | hmem⟩
    · exact hsame.trans hnone
    · exact (hadvanced hnone).elim
    · exact (hrestarted hmem).elim

omit [Inhabited ν] in
private theorem tracks_of_shrinks (htracks : Tracks saved s) (hshrinks : Shrinks s.database t.database)
    (ht : t.transaction = none) : Tracks saved t :=
  ⟨ht, hshrinks.tables.trans htracks.tables, hshrinks.sequences.trans htracks.sequences,
    hshrinks.snapshot.trans htracks.snapshot⟩

omit [Inhabited ν] in
private theorem scrubbed_transaction : (scrubbed scrubSession s).transaction = s.transaction := by
  cases scrubSession <;> rfl

/-- One reset. -/
private theorem reset_step (hvalid : saved.Valid) (hsnapshot : saved.snapshot = some snapshot)
    (hcaptures : Captures saved snapshot) (htracks : Tracks saved s) (h : Repeatable saved s.database) {pg : Server}
    (hpg : pg.Faultless) (scrubSession : Bool) :
    (run (resetDb pg scrubSession) s).1 = .ok () ∧ Tracks saved (run (resetDb pg scrubSession) s).2 ∧
      Restored saved (run (resetDb pg scrubSession) s).2.database ∧
      (Restored saved s.database → Unchanged s.database (run (resetDb pg scrubSession) s).2.database) := by
  have htableNames : (s.database.tables.map (·.name)).Nodup := hvalid.tableNames.sublist (htracks.tables.map _)
  have hsequenceNames : (s.database.sequences.map (·.name)).Nodup :=
    hvalid.sequenceNames.sublist (htracks.sequences.map _)
  have hout := run_outcome (resetDb_restores hpg scrubSession htracks.idle htableNames)
  rcases hrun : run (resetDb pg scrubSession) s with ⟨_ | _, t⟩
  · rw [hrun] at hout
    rcases hout with hfits | ⟨htables, hrestorable⟩
    · exact (hfits h.fits).elim
    · exact (hrestorable (h.restorable htables)).elim
  · rw [hrun] at hout
    by_cases htables : s.database.userTables = []
    · have ht : t = scrubbed scrubSession s := hout.untouched htables
      subst ht
      have hshrinks := shrinks_scrubbed scrubSession htableNames hsequenceNames
      have hrestored := restored_of_no_tables hvalid hsnapshot hcaptures htracks h htables
      have hsame : Unchanged s.database s.database := ⟨fun _ hmem => ⟨hmem, .refl _⟩, fun _ hmem => ⟨hmem, rfl⟩⟩
      exact ⟨rfl, tracks_of_shrinks htracks hshrinks (scrubbed_transaction.trans htracks.idle),
        hrestored.shrink hshrinks, fun _ => hsame.shrink hshrinks⟩
    · obtain ⟨inserts, sequences, hinserts, hsequences, rfl⟩ := hout.restored htables
      have hprepared :=
        prepared_of_repeatable hvalid hsnapshot hcaptures htracks h htables hinserts hsequences
      have hcatalog : (afterReset s.database inserts sequences).tables = s.database.tables ∧
          (afterReset s.database inserts sequences).sequences = s.database.sequences ∧
            (afterReset s.database inserts sequences).snapshot = s.database.snapshot := by
        rw [afterReset, Database.positions_eq]
        exact ⟨rfl, rfl, rfl⟩
      have htracks' : Tracks saved { s with database := afterReset s.database inserts sequences } :=
        ⟨htracks.idle, hcatalog.1 ▸ htracks.tables, hcatalog.2.1 ▸ htracks.sequences,
          hcatalog.2.2.trans htracks.snapshot⟩
      have hshrinks := shrinks_scrubbed (s := { s with database := afterReset s.database inserts sequences })
        scrubSession (hcatalog.1 ▸ htableNames) (hcatalog.2.1 ▸ hsequenceNames)
      exact ⟨rfl, tracks_of_shrinks htracks' hshrinks (scrubbed_transaction.trans htracks.idle),
        hprepared.restored.shrink hshrinks, fun hrestored => (hprepared.unchanged hrestored).shrink hshrinks⟩

private theorem Restored.same {db db' : Database ν} (h : Restored saved db) (h' : Restored saved db') :
    SameContents saved db db' := by
  refine ⟨fun table _ hcaptors htable htable' => ?_, fun sequence hsequence hmem hmem' => ?_⟩
  · exact (h.rows table htable hcaptors).trans (h'.rows table htable' hcaptors).symm
  · have huser := (List.mem_filter.mp hsequence).2
    rw [h.positions sequence (List.mem_filter.mpr ⟨hmem, huser⟩),
      h'.positions sequence (List.mem_filter.mpr ⟨hmem', huser⟩)]

/-- The invariant of a run. -/
structure Keeps (saved : Database ν) (h : History ν) : Prop where
  tracks : Tracks saved h.session
  resets : ∀ result ∈ h.resets, result.1 = .ok () ∧ Restored saved result.2.database
  settled : h.settled = true → Restored saved h.session.database

private theorem Keeps.step (hvalid : saved.Valid) (hsnapshot : saved.snapshot = some snapshot)
    (hcaptures : Captures saved snapshot) {pgs : Nat → Server} (hpgs : ∀ n, (pgs n).Faultless) {h h' : History ν}
    {action : Action ν} (hkeeps : Keeps saved h) (hcondition : condition saved h action)
    (hstep : h.step pgs action = some h') : Keeps saved h' := by
  cases action with
  | dml rows lastValue staging role =>
    obtain rfl := Option.some.inj hstep
    have htracks := hkeeps.tracks
    exact ⟨⟨rfl, htracks.tables, htracks.sequences, htracks.snapshot⟩, hkeeps.resets,
      fun hsettled => (by cases hsettled)⟩
  | reset scrubSession =>
    obtain rfl := Option.some.inj hstep
    obtain ⟨hok, htracks, hrestored, -⟩ :=
      reset_step hvalid hsnapshot hcaptures hkeeps.tracks hcondition (hpgs _) scrubSession
    refine ⟨htracks, fun result hresult => ?_, fun _ => hrestored⟩
    rcases List.mem_append.mp hresult with hmem | hmem
    · exact hkeeps.resets result hmem
    · rw [List.mem_singleton.mp hmem]
      exact ⟨hok, hrestored⟩

/-- In a run whose resets all meet the condition, every reset succeeds, all leave the same contents, and a reset right
behind a reset changes nothing. -/
theorem resets_repeat {pg : Server} {pgs : Nat → Server} (hpg : pg.Faultless) (hpgs : ∀ n, (pgs n).Faultless)
    (hs : s.transaction = none) (hvalid : s.database.Valid) {h : History ν}
    (hrun : Run (History.step pgs) (condition (run (snapshotDb pg) s).2.database)
      (History.start (run (snapshotDb pg) s).2) h) : Repeats (run (snapshotDb pg) s).2.database h := by
  obtain ⟨snapshot, hcaptures, hsnapshotDb⟩ := run_snapshotDb hpg hs hvalid
  rw [hsnapshotDb] at hrun ⊢
  have hsaved := valid_afterSnapshot snapshot hvalid
  have hcopies : Captures (afterSnapshot s snapshot).database snapshot :=
    ⟨hcaptures.tables, hcaptures.copies, hcaptures.sequences⟩
  have hkeeps : Keeps (afterSnapshot s snapshot).database h := by
    refine hrun.invariant ?_ fun before action behind hbefore hcondition hstep =>
      hbefore.step hsaved rfl hcopies hpgs hcondition hstep
    exact ⟨⟨hs, .refl _, .refl _, rfl⟩, fun _ hmem => (by cases hmem), fun hsettled => (by cases hsettled)⟩
  refine ⟨fun result hresult => (hkeeps.resets result hresult).1, fun result hresult result' hresult' =>
    (hkeeps.resets result hresult).2.same (hkeeps.resets _ hresult').2,
    fun hbehind pg' hpg' scrubSession hcondition => ?_⟩
  obtain ⟨hok, -, -, hunchanged⟩ := reset_step hsaved rfl hcopies hkeeps.tracks hcondition hpg' scrubSession
  exact ⟨hok, hunchanged (hkeeps.settled hbehind)⟩

end Law

/-! ### Two runs -/

/-- The condition holds of whatever is done to the rows of `usersSession`. -/
private theorem usersSession_repeatable {db : Database Nat}
    (h : ∃ rows lastValue staging, db = { (run (snapshotDb Server.plain) usersSession).2.database with
      rows := rows, lastValue := lastValue, staging := staging }) :
    Repeatable (run (snapshotDb Server.plain) usersSession).2.database db := by
  obtain ⟨rows, lastValue, staging, rfl⟩ := h
  have hfaithful := usersSession_faithful (run (snapshotDb Server.plain) usersSession).2.database
  obtain ⟨snapshot, hcaptures, hrun⟩ := run_snapshotDb Server.plain_faultless rfl usersSession_valid
  rw [hrun] at hfaithful ⊢
  have hsaved := valid_afterSnapshot snapshot usersSession_valid
  have hcopies : Captures (afterSnapshot usersSession snapshot).database snapshot :=
    ⟨hcaptures.tables, hcaptures.copies, hcaptures.sequences⟩
  refine ⟨⟨(fits_of_captures hsaved rfl hcopies).plan⟩,
    fun _ => restorable_of_faithful hsaved rfl hcopies hfaithful, fun sequence hsequence => Or.inr ?_⟩
  obtain rfl := List.mem_singleton.mp (List.mem_of_mem_filter hsequence)
  have hadvanced : usersSession.database.lastValue (publicName "users_id_seq") ≠ none := by decide
  exact ⟨List.ne_nil_of_mem (Database.mem_userTables.mpr ⟨List.mem_singleton.mpr rfl, by decide⟩), Or.inl hadvanced⟩

/-- A row is inserted, and two resets follow. -/
def usersHistory : History Nat :=
  let first := run (resetDb Server.plain true) usersLater
  let second := run (resetDb Server.plain true) first.2
  ⟨second.2, [first, second], true⟩

theorem usersHistory_repeats : Repeats (run (snapshotDb Server.plain) usersSession).2.database usersHistory := by
  have hdml : Run (History.step fun _ => Server.plain)
      (condition (run (snapshotDb Server.plain) usersSession).2.database)
      (History.start (run (snapshotDb Server.plain) usersSession).2) ⟨usersLater, [], false⟩ :=
    Run.refl.snoc (a := .dml usersLater.database.rows usersLater.database.lastValue usersLater.database.staging
      usersLater.role) trivial rfl
  have hlater : Repeatable (run (snapshotDb Server.plain) usersSession).2.database usersLater.database :=
    usersSession_repeatable ⟨_, _, _, rfl⟩
  have hfirst := hdml.snoc (a := (Action.reset true : Action Nat)) hlater rfl
  have hagain : Repeatable (run (snapshotDb Server.plain) usersSession).2.database
      (run (resetDb Server.plain true) usersLater).2.database :=
    usersSession_repeatable ⟨(run (resetDb Server.plain true) usersLater).2.database.rows,
      (run (resetDb Server.plain true) usersLater).2.database.lastValue,
      (run (resetDb Server.plain true) usersLater).2.database.staging, rfl⟩
  exact resets_repeat Server.plain_faultless (fun _ => Server.plain_faultless) rfl usersSession_valid
    (hfirst.snoc (a := (Action.reset true : Action Nat)) hagain rfl)

/-- A temporary table of the session. -/
def cartSession : Session Nat where
  database :=
    { tables :=
        [{ name := ⟨"pg_temp_3", "cart"⟩, columns := [⟨"item", none, false⟩], ancestors := [], route := none
           foreignKeys := [], accepts := fun _ => true, accepts_of_subperm := fun _ _ => rfl, temporary := true }]
      sequences := []
      rows := fun name => if name = ⟨"pg_temp_3", "cart"⟩ then [[("item", 7)]] else []
      lastValue := fun _ => none
      snapshot := none
      staging := none }
  role := .origin
  transaction := none

/-- Two resets right behind the capture. -/
def cartHistory : History Nat :=
  let first := run (resetDb Server.plain true) (run (snapshotDb Server.plain) cartSession).2
  let second := run (resetDb Server.plain true) first.2
  ⟨second.2, [first, second], true⟩

private theorem cartSession_valid : cartSession.database.Valid where
  tableNames := by decide
  sequenceNames := by decide
  columnNames := by simp [cartSession, Table.columnNames]
  stored := by
    intro table htable row hrow
    obtain rfl := List.mem_singleton.mp htable
    obtain rfl := List.mem_singleton.mp hrow
    decide
  accepted := by simp [cartSession]
  proper := by simp [cartSession]
  empty := by simp [cartSession]
  columns := by simp [cartSession]
  routed := by simp [cartSession]

/-- The scrub of the first reset drops the table, and the second one misses it. -/
theorem cartHistory_invalid : cartSession.database.Valid ∧
    Run (History.step fun _ => Server.plain) (fun _ _ => True)
      (History.start (run (snapshotDb Server.plain) cartSession).2) cartHistory ∧
    (run (resetDb Server.plain true) cartHistory.resets[0].2).1 =
      .error (snapshotInvalid "Snapshot source table pg_temp_3.cart no longer exists") ∧
    ¬ Repeats (run (snapshotDb Server.plain) cartSession).2.database cartHistory := by
  have hfirst : Run (History.step fun _ => Server.plain) (fun _ _ => True)
      (History.start (run (snapshotDb Server.plain) cartSession).2)
      ⟨cartHistory.resets[0].2, [cartHistory.resets[0]], true⟩ :=
    Run.refl.snoc (a := (Action.reset true : Action Nat)) trivial rfl
  have hinvalid : (run (resetDb Server.plain true) cartHistory.resets[0].2).1 =
      .error (snapshotInvalid "Snapshot source table pg_temp_3.cart no longer exists") := by rfl
  refine ⟨cartSession_valid, hfirst.snoc (a := (Action.reset true : Action Nat)) trivial rfl, hinvalid, fun h => ?_⟩
  have hok := h.ok cartHistory.resets[1] (List.getElem_mem _)
  exact absurd (hinvalid.symm.trans hok) (by simp [snapshotInvalid])

end PgliteBridge.SnapshotManager
