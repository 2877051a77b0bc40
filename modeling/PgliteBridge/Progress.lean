import PgliteBridge.Awaits
import PgliteBridge.Ownership

/-!
# No deadlock

The program and PGlite run out of steps only when every batch that waits does so for the client of another duplex, one
that owns the session and is served (`no_deadlock`).
-/

namespace PgliteBridge

open TransitionSystem

/-- A step of the program or of PGlite; the others are up to the clients. -/
def Action.internal {ι : Type} : Action ι → Bool
  | .write .. | .releaseAbandonedPortalHold _ | .final _ | .destroy _ => false
  | _ => true

namespace System

variable {ι : Type} [DecidableEq ι] {s : System ι} {id : ι}

/-- Nothing can happen without a client. -/
def Quiescent (s : System ι) : Prop := ∀ a, a.internal = true → s.step a = none

/-- Beside its drain loop the duplex has nothing to do. -/
structure Rested (d : Duplex) : Prop where
  tails : d.tails = 0
  recovery : d.recovery = none
  rollback : d.rollback = .notStarted ∨ d.rollback = .settled
  finalWaits : d.finalWaits = false
  destroyWaits : d.destroyWaits = false

/-- The duplex waits for its client, or is closed. -/
structure AtRest (d : Duplex) : Prop extends Rested d where
  drain : d.drain = .idle
  writable : d.tornDown = false → d.writable = []

instance (d : Duplex) : Decidable (Rested d) :=
  decidable_of_iff (d.tails = 0 ∧ d.recovery = none ∧ (d.rollback = .notStarted ∨ d.rollback = .settled) ∧
    d.finalWaits = false ∧ d.destroyWaits = false)
    ⟨fun ⟨ht, hrec, hroll, hf, hd⟩ => ⟨ht, hrec, hroll, hf, hd⟩,
      fun ⟨ht, hrec, hroll, hf, hd⟩ => ⟨ht, hrec, hroll, hf, hd⟩⟩

instance (d : Duplex) : Decidable (AtRest d) :=
  decidable_of_iff (Rested d ∧ d.drain = .idle ∧ (d.tornDown = false → d.writable = []))
    ⟨fun ⟨hr, hd, hw⟩ => ⟨hr, hd, hw⟩, fun ⟨hr, hd, hw⟩ => ⟨hr, hd, hw⟩⟩

/-- A batch of one duplex waits for the client of another. -/
structure WaitsFor (s : System ι) (id holder : ι) : Prop where
  stage : (s.duplex id).stage = some .acquiring
  queued : id ∈ s.waitQueue
  owner : s.owner = some holder
  live : (s.duplex holder).live = true
  ended : (s.duplex holder).ended = false
  rest : AtRest (s.duplex holder)

private theorem Quiescent.pglite (hq : s.Quiescent) : s.running = none ∧ s.mutex = [] := by
  have hidle : s.running = none := by
    cases hrun : s.running with
    | none => rfl
    | some call =>
      have hframe := hq .frame rfl
      have hflush := hq .flush rfl
      have hrecovered := hq (.recovered true) rfl
      have hrolled := hq (.rolledBack true) rfl
      simp only [System.step, hrun] at hframe hflush hrecovered hrolled
      by_cases hkind : call.kind = .rollback
      · rw [if_pos hkind] at hrolled
        cases hrolled
      · by_cases hrec : call.recovering = true
        · rw [if_pos hrec] at hrecovered
          cases hrecovered
        · cases hresponse : call.response with
          | nil =>
            rw [if_neg (by simp [hkind, hrec, hresponse])] at hflush
            cases hflush
          | cons fr response =>
            rw [hresponse] at hframe
            cases hframe
  refine ⟨hidle, ?_⟩
  cases hmutex : s.mutex with
  | nil => rfl
  | cons op mutex =>
    have hstart := hq (.start []) rfl
    simp only [System.step, hidle, hmutex] at hstart
    cases hstart

private theorem Quiescent.rested (hq : s.Quiescent) (h : Due s) (id : ι) : Rested (s.duplex id) := by
  obtain ⟨hidle, hmutex⟩ := hq.pglite
  have hops : s.ops = [] := by simp [ops, runningOp, hidle, hmutex]
  have ht := h.tracked id
  have hrollback : (s.duplex id).rollback = .notStarted ∨ (s.duplex id).rollback = .settled := by
    have hquery := hq (.queryRollback id true) rfl
    have hdecide := hq (.decide id) rfl
    have hrolling := ht.rollback
    have hawait := ht.awaiting
    rw [hops] at hrolling
    simp only [System.step] at hquery hdecide
    cases hr : (s.duplex id).rollback with
    | notStarted => exact Or.inl rfl
    | settled => exact Or.inr rfl
    | awaitingCall =>
      obtain ⟨call, hrun, -⟩ := inCall_running (hawait hr)
      cases hidle.symm.trans hrun
    | deciding =>
      rw [if_pos hr] at hdecide
      cases hdecide
    | querying =>
      rw [if_pos hr] at hquery
      cases hquery
    | queued => cases hrolling (by rw [Duplex.rolling, hr]; rfl)
    | running => cases hrolling (by rw [Duplex.rolling, hr]; rfl)
  -- a teardown has started its rollback, so it has settled
  have hsettled : (s.duplex id).rollback ≠ .notStarted → (s.duplex id).rollback = .settled := hrollback.resolve_left
  refine ⟨?_, ?_, hrollback, ?_, ?_⟩
  · have htail := hq (.tail id) rfl
    simp only [System.step] at htail
    by_contra hne
    rw [if_neg hne] at htail
    cases htail
  · have hready := hq (.recoveryReady id) rfl
    have hrecovery := ht.recovery
    rw [hops] at hrecovery
    simp only [System.step] at hready
    cases hr : (s.duplex id).recovery with
    | none => rfl
    | some stage =>
      cases stage with
      | acquiring => exact absurd hr ht.stages.2
      | admitted =>
        rw [if_pos hr] at hready
        cases hready
      | queued => cases hrecovery (Or.inl hr)
      | running => cases hrecovery (Or.inr hr)
  · rw [Bool.eq_false_iff]
    intro hfinal
    have hrelease := hq (.finalRelease id) rfl
    simp only [System.step] at hrelease
    rw [if_pos ⟨hfinal, hsettled (ht.waits (Or.inl hfinal))⟩] at hrelease
    cases hrelease
  · rw [Bool.eq_false_iff]
    intro hdestroy
    have hcancel := hq (.destroyCancel id) rfl
    simp only [System.step] at hcancel
    rw [if_pos ⟨hdestroy, hsettled (ht.waits (Or.inr (Or.inl hdestroy)))⟩] at hcancel
    cases hcancel

/-- A drain loop is idle, or it waits in `acquire`. -/
theorem Quiescent.drain (hq : s.Quiescent) (h : Due s) (id : ι) :
    AtRest (s.duplex id) ∨ (s.duplex id).stage = some .acquiring := by
  have hrested := hq.rested h id
  obtain ⟨hidle, hmutex⟩ := hq.pglite
  have hops : s.ops = [] := by simp [ops, runningOp, hidle, hmutex]
  have ht := h.tracked id
  have hprocess := hq (.process id) rfl
  simp only [System.step, System.process] at hprocess
  cases hd : (s.duplex id).drain with
  | idle =>
    refine Or.inl ⟨hrested, hd, fun htorn => ?_⟩
    cases hw : (s.duplex id).writable with
    | nil => rfl
    | cons chunk rest =>
      have hdeliver := hq (.deliver id 1) rfl
      simp only [System.step] at hdeliver
      rw [if_neg (by simp [htorn, hd, hw])] at hdeliver
      split at hdeliver <;> cases hdeliver
  | active =>
    rw [hd] at hprocess
    dsimp only at hprocess
    split at hprocess <;> cases hprocess
  | failing =>
    rw [hd] at hprocess
    cases hprocess
  | terminating =>
    have hrelease := hq (.terminateRelease id) rfl
    simp only [System.step] at hrelease
    rw [if_pos ⟨hd, hrested.rollback.resolve_left (ht.waits (Or.inr (Or.inr hd)))⟩] at hrelease
    cases hrelease
  | busy op =>
    have hstage : (s.duplex id).stage = some op.stage := stage_of_busy hd
    cases hop : op.stage with
    | acquiring => exact Or.inr (hop ▸ hstage)
    | admitted =>
      have hready := hq (.pgliteReady id) rfl
      simp only [System.step, System.admitted, hd, if_pos hop] at hready
      cases hready
    | queued =>
      obtain ⟨mode, hmem⟩ := ht.batch (hop ▸ hstage)
      rw [hops] at hmem
      cases hmem
    | running => exact absurd (hop ▸ hstage) ht.stages.1

instance (s : System ι) (id holder : ι) : Decidable (s.WaitsFor id holder) :=
  decidable_of_iff ((s.duplex id).stage = some .acquiring ∧ id ∈ s.waitQueue ∧ s.owner = some holder ∧
    (s.duplex holder).live = true ∧ (s.duplex holder).ended = false ∧ AtRest (s.duplex holder))
    ⟨fun ⟨hs, hq, ho, hl, he, hr⟩ => ⟨hs, hq, ho, hl, he, hr⟩, fun ⟨hs, hq, ho, hl, he, hr⟩ => ⟨hs, hq, ho, hl, he, hr⟩⟩

theorem quiescent_of_rested (hidle : s.running = none) (hmutex : s.mutex = [])
    (hrest : ∀ id, AtRest (s.duplex id) ∨ Rested (s.duplex id) ∧ (s.duplex id).stage = some .acquiring) :
    s.Quiescent := by
  have hrested : ∀ id, Rested (s.duplex id) := fun id => (hrest id).elim (fun h => h.toRested) And.left
  -- the drain loop has no turn
  have hdrain : ∀ id, (s.duplex id).drain = .idle ∨ ∃ op, (s.duplex id).drain = .busy op ∧ op.stage = .acquiring := by
    intro id
    rcases hrest id with h | ⟨-, hstage⟩
    · exact Or.inl h.drain
    · obtain ⟨op, hop⟩ := busy_of_stage hstage
      rw [stage_of_busy hop] at hstage
      exact Or.inr ⟨op, hop, Option.some.inj hstage⟩
  have hadmitted : ∀ id, s.admitted id = none := by
    intro id
    unfold System.admitted
    rcases hdrain id with hd | ⟨op, hd, hop⟩ <;> rw [hd]
    exact if_neg (by simp [hop])
  intro a ha
  cases a with
  | deliver id count =>
    simp only [System.step]
    refine if_pos ?_
    rcases hrest id with h | ⟨-, hstage⟩
    · by_cases htorn : (s.duplex id).tornDown = true
      · exact Or.inl htorn
      · have hw := h.writable (by simpa using htorn)
        by_cases hcount : count = 0
        · exact Or.inr (Or.inr (Or.inl hcount))
        · exact Or.inr (Or.inr (Or.inr (by rw [hw]; exact Nat.pos_of_ne_zero hcount)))
    · obtain ⟨op, hop⟩ := busy_of_stage hstage
      exact Or.inr (Or.inl (by simp [hop]))
  | process id =>
    simp only [System.step, System.process]
    rcases hdrain id with hd | ⟨op, hd, -⟩ <;> rw [hd]
  | tail id => simp only [System.step, (hrested id).tails, if_true]
  | pgliteReady id => simp only [System.step, hadmitted id]
  | pgliteNotReady id => simp only [System.step, hadmitted id]
  | recoveryReady id => simp [System.step, (hrested id).recovery]
  | recoveryNotReady id => simp [System.step, (hrested id).recovery]
  | queryRollback id ok => rcases (hrested id).rollback with hr | hr <;> simp [System.step, hr]
  | decide id => rcases (hrested id).rollback with hr | hr <;> simp [System.step, hr]
  | start response => simp only [System.step, hidle, hmutex]
  | frame => simp only [System.step, hidle]
  | flush => simp only [System.step, hidle]
  | recovered ok => simp only [System.step, hidle]
  | throw => simp only [System.step, hidle]
  | rolledBack ok => simp only [System.step, hidle]
  | finalRelease id => simp [System.step, (hrested id).finalWaits]
  | destroyCancel id => simp [System.step, (hrested id).destroyWaits]
  | terminateRelease id => rcases hdrain id with hd | ⟨op, hd, -⟩ <;> simp [System.step, hd]
  | write id chunk => cases ha
  | releaseAbandonedPortalHold id => cases ha
  | final id => cases ha
  | destroy id => cases ha

/-- A batch waits for the client of another duplex, which owns the session and is served. -/
theorem Quiescent.waits (hq : s.Quiescent) (h : Due s) (hstage : (s.duplex id).stage = some .acquiring) :
    ∃ holder, s.WaitsFor id holder := by
  have hin : id ∈ s.waitQueue := (h.tracked id).acquiring.1 hstage
  cases hlock : s.lock with
  | none =>
    rw [waitQueue, hlock] at hin
    cases hin
  | some l =>
    have hfair := h.fair l hlock
    rw [waitQueue_of_lock hlock] at hin
    cases howner : l.owner with
    | none =>
      rw [hfair.free howner] at hin
      cases hin
    | some holder =>
      have hown : s.owner = some holder := (owner_of_lock hlock).trans howner
      have hold := (h.tracked holder).holds (Or.inl hown)
      have hrested := hq.rested h holder
      -- the holder does not wait itself
      have hrest := (hq.drain h holder).resolve_right fun hstage' => hfair.apart holder howner
        (waitQueue_of_lock hlock ▸ (h.tracked holder).acquiring.1 hstage')
      have hwaits : (s.duplex holder).destroyWaits ≠ true := by simp [hrested.destroyWaits]
      have hfinal : (s.duplex holder).finalWaits ≠ true := by simp [hrested.finalWaits]
      refine ⟨holder, hstage, waitQueue_of_lock hlock ▸ hin, hown, ?_, ?_, hrest⟩
      · have htorn : (s.duplex holder).tornDown ≠ true := fun ht => hwaits (hold.tornDown ht)
        have hphase : (s.duplex holder).phase ≠ .terminated := fun hp =>
          (hold.terminated hp).elim (by simp [hrest.drain]) hwaits
        simp [Duplex.live, htorn, hphase]
      · rw [Bool.eq_false_iff]
        exact fun he => (hold.ended he).elim hfinal hwaits

/-- The program and PGlite have nothing left to do only when PGlite is free and each batch that waits does so for
another client, which is served, owns the session and has nothing under way. -/
theorem no_deadlock {cond : System ι → Action ι → Prop} {locked : Bool} {cap : ι → Nat}
    (run : Run System.step cond (initial locked cap) s) :
    s.Quiescent ↔ s.running = none ∧ s.mutex = [] ∧
      ∀ id, AtRest (s.duplex id) ∨ Rested (s.duplex id) ∧ ∃ holder, s.WaitsFor id holder := by
  have h := due run
  constructor
  · intro hq
    refine ⟨hq.pglite.1, hq.pglite.2, fun id => (hq.drain h id).imp_right fun hstage => ?_⟩
    exact ⟨hq.rested h id, hq.waits h hstage⟩
  · rintro ⟨hidle, hmutex, hrest⟩
    exact quiescent_of_rested hidle hmutex fun id => (hrest id).imp_right fun ⟨hr, _, hwait⟩ => ⟨hr, hwait.stage⟩

/-- The startup packet of one client waits for the cursor of another. -/
theorem no_deadlock_cursor : ∃ s : System Bool, s.WaitsFor true false ∧ s.Quiescent := by
  obtain ⟨s, run, hwait, hrest⟩ : ∃ s : System Bool,
      Run System.step (fun _ _ => True) (initial true fun _ => MAX_MESSAGE_LENGTH) s ∧ s.WaitsFor true false ∧
        s.running = none ∧ s.mutex = [] ∧
          ∀ id, AtRest (s.duplex id) ∨ Rested (s.duplex id) ∧ ∃ holder, s.WaitsFor id holder :=
    exists_run (served false startupPacket 1 [.other, readyForQueryIdle] ++
      served false cursorRead 4 [.other, .other, .other, .other] ++
      [.write true startupPacket, .deliver true 1, .process true]) (by decide)
  exact ⟨s, hwait, (no_deadlock run).2 hrest⟩

end System

end PgliteBridge
