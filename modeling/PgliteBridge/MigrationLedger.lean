import PgliteBridge.Migrations

/-!
# The ledger of the migrations

`Ledger` is the history as an abstract machine: a row is started only if no active row has its name, and a script is
executed only right after that.  It follows that a script is not executed again before the row of its last execution,
or the row that stands for it since, is rolled back.
-/

namespace PgliteBridge.Migrations

def HistoryRow.rollBack (id : String) (row : HistoryRow) : HistoryRow :=
  if row.id = id then { row with rolledBack := true } else row

/-- A finished row takes the place of the row. -/
def HistoryRow.replace (old new checksum : String) (row : HistoryRow) : HistoryRow :=
  if row.id = old then { row with id := new, checksum := checksum, finished := true, rolledBack := false } else row

/-- No active row has the name. -/
def Vacant (rows : List HistoryRow) (name : String) : Prop :=
  ∀ row ∈ rows, row.active = true → row.migrationName ≠ name

inductive Ledger (initial : List HistoryRow) : List HistoryRow → List Event → Prop
  | initial : Ledger initial initial []
  | started {rows : List HistoryRow} {events : List Event} {id : String} {m : MigrationFile} :
    Ledger initial rows events → Vacant rows m.name →
    Ledger initial (rows ++ [startedRow id m]) (events ++ [.started m.name id rows])
  | executed {rows : List HistoryRow} {events : List Event} {id : String} {m : MigrationFile} :
    Ledger initial rows events → Vacant rows m.name →
    Ledger initial (rows ++ [startedRow id m]) (events ++ [.started m.name id rows] ++ [.executed m.name id])
  | finished {rows : List HistoryRow} {events : List Event} (id : String) : Ledger initial rows events →
    Ledger initial (rows.map (HistoryRow.finish id)) (events ++ [.finished id])
  | rolledBack {rows : List HistoryRow} {events : List Event} (id : String) : Ledger initial rows events →
    Ledger initial (rows.map (HistoryRow.rollBack id)) (events ++ [.rolledBack id])
  | replaced {rows : List HistoryRow} {events : List Event} (old new checksum : String) : Ledger initial rows events →
    Ledger initial (rows.map (HistoryRow.replace old new checksum)) (events ++ [.replaced old new])

/-- The row that stands for the row `id` after the events. -/
def current (id : String) (events : List Event) : String :=
  events.foldl (fun id event =>
    match event with
    | .replaced old new => if id = old then new else id
    | _ => id) id

def RolledBack (id : String) (events : List Event) : Prop :=
  ∃ before behind, events = before ++ .rolledBack (current id before) :: behind

/-- What holds of the executions in a list of events. -/
structure Disciplined (events : List Event) : Prop where
  /-- A script is executed right after its row is started, where no active row had its name. -/
  vacant : ∀ before name id behind, events = before ++ .executed name id :: behind →
    ∃ earlier rows, before = earlier ++ [.started name id rows] ∧ Vacant rows name
  /-- A script is not executed twice without a rollback of its row in between. -/
  once : ∀ before name id between id' behind,
    events = before ++ .executed name id :: between ++ .executed name id' :: behind → RolledBack id between

/-- The row of every execution is active as long as it is not rolled back. -/
def Standing (rows : List HistoryRow) (events : List Event) : Prop :=
  ∀ before name id behind, events = before ++ .executed name id :: behind →
    RolledBack id behind ∨
      ∃ row ∈ rows, row.active = true ∧ row.id = current id behind ∧ row.migrationName = name

variable {initial rows rows' : List HistoryRow} {events : List Event} {event : Event} {name id : String}

private theorem current_append (id : String) (before behind : List Event) :
    current id (before ++ behind) = current (current id before) behind := List.foldl_append

private theorem RolledBack.append (h : RolledBack id events) (behind : List Event) :
    RolledBack id (events ++ behind) := by
  obtain ⟨before, rest, he⟩ := h
  exact ⟨before, rest ++ behind, by rw [he, List.append_assoc, List.cons_append]⟩

/-- Where a split of a longer list lies. -/
private theorem split_append {α : Type} {l before behind : List α} {a b : α} (h : l ++ [a] = before ++ b :: behind) :
    (∃ rest, behind = rest ++ [a] ∧ l = before ++ b :: rest) ∨ behind = [] ∧ before = l ∧ b = a := by
  rcases List.eq_nil_or_concat behind with rfl | ⟨rest, last, rfl⟩
  · obtain ⟨hl, hb⟩ := List.append_inj' h rfl
    exact .inr ⟨rfl, hl.symm, (List.cons.inj hb).1.symm⟩
  · have hassoc : l ++ [a] = (before ++ b :: rest) ++ [last] := by
      rw [h, List.append_assoc, List.concat_eq_append]
      rfl
    obtain ⟨hl, ha⟩ := List.append_inj' hassoc rfl
    rw [List.concat_eq_append, (List.cons.inj ha).1]
    exact .inl ⟨rest, rfl, hl⟩

/-! ### Events that execute nothing -/

private theorem Disciplined.append (h : Disciplined events) (hevent : ∀ name id, event ≠ .executed name id) :
    Disciplined (events ++ [event]) where
  vacant before name id behind hsplit := by
    rcases split_append hsplit with ⟨rest, _, hl⟩ | ⟨_, _, hlast⟩
    · exact h.vacant before name id rest hl
    · exact absurd hlast.symm (hevent name id)
  once before name id between id' behind hsplit := by
    rcases split_append hsplit with ⟨rest, _, hl⟩ | ⟨_, _, hlast⟩
    · exact h.once before name id between id' rest hl
    · exact absurd hlast.symm (hevent name id')

private theorem Standing.append (h : Standing rows events) (hevent : ∀ name id, event ≠ .executed name id)
    (hkeeps : ∀ row ∈ rows, row.active = true → event ≠ .rolledBack row.id →
      ∃ row' ∈ rows', row'.active = true ∧ row'.id = current row.id [event] ∧ row'.migrationName = row.migrationName) :
    Standing rows' (events ++ [event]) := by
  intro before name id behind hsplit
  rcases split_append hsplit with ⟨rest, rfl, hl⟩ | ⟨_, _, hlast⟩
  · rcases h before name id rest hl with hrolled | ⟨row, hmem, hactive, hid, hname⟩
    · exact .inl (hrolled.append _)
    · by_cases hrolls : event = .rolledBack row.id
      · refine .inl ⟨rest, [], ?_⟩
        rw [hrolls, hid]
      · obtain ⟨row', hmem', hactive', hid', hname'⟩ := hkeeps row hmem hactive hrolls
        exact .inr ⟨row', hmem', hactive', by rw [hid', current_append, hid], hname'.trans hname⟩
  · exact absurd hlast.symm (hevent name id)

/-! ### Executions -/

private theorem Disciplined.execute (h : Disciplined events) (hstanding : Standing rows events)
    (hvacant : Vacant rows name) :
    Disciplined (events ++ [.started name id rows] ++ [.executed name id]) where
  vacant before other id' behind hsplit := by
    rcases split_append hsplit with ⟨rest, _, hl⟩ | ⟨_, hbefore, hlast⟩
    · rcases split_append hl with ⟨rest', _, hl'⟩ | ⟨_, _, hstarted⟩
      · exact h.vacant before other id' rest' hl'
      · cases hstarted
    · cases hlast
      exact ⟨events, rows, hbefore, hvacant⟩
  once before other id₁ between id₂ behind hsplit := by
    rcases split_append hsplit with ⟨rest, _, hl⟩ | ⟨_, hbefore, hlast⟩
    · rcases split_append hl with ⟨rest', _, hl'⟩ | ⟨_, _, hstarted⟩
      · exact h.once before other id₁ between id₂ rest' hl'
      · cases hstarted
    · cases hlast
      rcases split_append hbefore.symm with ⟨rest, hbetween, hl⟩ | ⟨_, _, hstarted⟩
      · rw [hbetween]
        rcases hstanding before name id₁ rest hl with hrolled | ⟨row, hmem, hactive, _, hname⟩
        · exact hrolled.append _
        · exact absurd hname (hvacant row hmem hactive)
      · cases hstarted

private theorem Standing.execute (h : Standing rows events) (m : MigrationFile) (id : String) :
    Standing (rows ++ [startedRow id m]) (events ++ [.started m.name id rows] ++ [.executed m.name id]) := by
  intro before other id' behind hsplit
  rcases split_append hsplit with ⟨rest, hrest, hl⟩ | ⟨hbehind, _, hlast⟩
  · rcases split_append hl with ⟨rest', hrest', hl'⟩ | ⟨_, _, hstarted⟩
    · rw [hrest, hrest']
      rcases h before other id' rest' hl' with hrolled | ⟨row, hmem, hactive, hid, hname⟩
      · exact .inl ((hrolled.append _).append _)
      · exact .inr ⟨row, List.mem_append_left _ hmem, hactive, by rw [current_append, current_append]; exact hid, hname⟩
    · cases hstarted
  · cases hlast
    rw [hbehind]
    exact .inr ⟨startedRow id m, List.mem_append_right _ List.mem_cons_self, rfl, rfl, rfl⟩

/-! ### The ledger -/

private theorem Ledger.standing (h : Ledger initial rows events) : Standing rows events := by
  induction h with
  | initial =>
    exact fun before name id behind hsplit => absurd hsplit.symm (List.append_ne_nil_of_right_ne_nil _ (by simp))
  | started _ _ ih =>
    exact ih.append (by simp) fun row hmem hactive _ => ⟨row, List.mem_append_left _ hmem, hactive, rfl, rfl⟩
  | executed _ _ ih => exact ih.execute _ _
  | finished id _ ih =>
    refine ih.append (by simp) fun row hmem hactive _ =>
      ⟨row.finish id, List.mem_map_of_mem hmem, ?_, id_finish id row, ?_⟩
    · unfold HistoryRow.finish
      split
      · exact hactive
      · exact hactive
    · unfold HistoryRow.finish
      split
      · rfl
      · rfl
  | rolledBack id _ ih =>
    refine ih.append (by simp) fun row hmem hactive hother => ⟨row.rollBack id, List.mem_map_of_mem hmem, ?_⟩
    have hne : row.id ≠ id := fun he => hother (by rw [he])
    unfold HistoryRow.rollBack
    rw [if_neg hne]
    exact ⟨hactive, rfl, rfl⟩
  | replaced old new checksum _ ih =>
    refine ih.append (by simp) fun row hmem hactive _ => ⟨row.replace old new checksum, List.mem_map_of_mem hmem, ?_⟩
    unfold HistoryRow.replace current
    by_cases hid : row.id = old
    · rw [if_pos hid]
      refine ⟨rfl, ?_, rfl⟩
      simp [hid]
    · rw [if_neg hid]
      refine ⟨hactive, ?_, rfl⟩
      simp [hid]

theorem Ledger.disciplined (h : Ledger initial rows events) : Disciplined events := by
  induction h with
  | initial =>
    constructor
    · exact fun before name id behind hsplit => absurd hsplit.symm (List.append_ne_nil_of_right_ne_nil _ (by simp))
    · exact fun before name id between id' behind hsplit =>
        absurd hsplit.symm (List.append_ne_nil_of_right_ne_nil _ (by simp))
  | started _ _ ih => exact ih.append (by simp)
  | executed hledger hvacant ih => exact ih.execute hledger.standing hvacant
  | finished _ _ ih => exact ih.append (by simp)
  | rolledBack _ _ ih => exact ih.append (by simp)
  | replaced _ _ _ _ ih => exact ih.append (by simp)

end PgliteBridge.Migrations
