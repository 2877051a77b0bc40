import PgliteBridge.DuplexSystem
import PgliteBridge.TransitionSystem

/-!
# Steps outside PGlite

The actions that are no step of a call under `runExclusive`.  They leave the running call and the PostgreSQL session
alone, they only add to the queue of `runExclusive`, a duplex keeps what its calls have recorded (`Duplex.Outside`), and
the owner keeps the lock unless the action is the hand-over at the end of its teardown (`Local`, `step_local`).
-/

namespace PgliteBridge

/-- What a duplex keeps as long as none of its calls takes a step. -/
structure Duplex.Outside (d d' : Duplex) : Prop where
  errSeen : d'.errSeen = d.errSeen
  rfqSeenInCall : d'.rfqSeenInCall = d.rfqSeenInCall
  lastSeenRfqStatus : d'.lastSeenRfqStatus = d.lastSeenRfqStatus
  portal : d'.portalSuspended = true → d.portalSuspended = true
  live : d'.live = true → d.live = true

namespace Duplex.Outside

private theorem refl (d : Duplex) : d.Outside d := ⟨rfl, rfl, rfl, fun h => h, fun h => h⟩

private theorem trans {d d' d'' : Duplex} (h : d.Outside d') (h' : d'.Outside d'') : d.Outside d'' where
  errSeen := h'.errSeen.trans h.errSeen
  rfqSeenInCall := h'.rfqSeenInCall.trans h.rfqSeenInCall
  lastSeenRfqStatus := h'.lastSeenRfqStatus.trans h.lastSeenRfqStatus
  portal hp := h.portal (h'.portal hp)
  live hl := h.live (h'.live hl)

end Duplex.Outside

/-- `processMessage` reads none of what the calls record. -/
theorem Duplex.processMessage_outside (d : Duplex) (message : Bytes) : d.Outside (d.processMessage message).1 := by
  have hcopy : ∀ capture msgType, d.Outside (d.processCopy capture msgType message).1 := by
    intro capture msgType
    unfold Duplex.processCopy
    split
    · exact ⟨rfl, rfl, rfl, fun h => h, fun h => h⟩
    · split
      · dsimp only
        split <;> exact ⟨rfl, rfl, rfl, fun h => h, fun h => h⟩
      · exact .refl d
  have hquery : d.Outside (d.processQuery message).1 := by
    unfold Duplex.processQuery
    split <;> exact ⟨rfl, rfl, rfl, fun h => h, fun h => h⟩
  unfold Duplex.processMessage
  dsimp only
  split
  · refine ⟨rfl, rfl, rfl, nofun, fun h => ?_⟩
    simp [Duplex.live, Duplex.terminate] at h
  · split
    · exact hcopy _ _
    · split
      · exact ⟨rfl, rfl, rfl, fun h => h, fun h => h⟩
      · split
        · exact ⟨rfl, rfl, rfl, fun h => h, fun h => h⟩
        · split
          · exact hquery
          · exact .refl d

/-- A step of a call, or its start. -/
def Action.inPglite {ι : Type} : Action ι → Bool
  | .start _ | .frame | .flush | .recovered _ | .throw | .rolledBack _ => true
  | _ => false

namespace System

variable {ι : Type} [DecidableEq ι]

/-- The duplex whose teardown hands over the session. -/
def handsOver : Action ι → Option ι
  | .finalRelease id => some id
  | .destroyCancel id => some id
  | .terminateRelease id => some id
  | _ => none

/-- A change that is no step of a call; only the teardown of `leaving` may give up the session. -/
structure Local (leaving : Option ι) (s s' : System ι) : Prop where
  running : s'.running = s.running
  session : s'.session = s.session
  mutex : s.mutex <+: s'.mutex
  duplex : ∀ id, (s.duplex id).Outside (s'.duplex id)
  owner : ∀ id, s.owner = some id → leaving ≠ some id → s'.owner = some id

variable {s s' s'' : System ι} {id : ι} {leaving : Option ι}

omit [DecidableEq ι] in
theorem Local.refl (s : System ι) : Local leaving s s :=
  ⟨rfl, rfl, List.prefix_rfl, fun _ => .refl _, fun _ ho _ => ho⟩

omit [DecidableEq ι] in
private theorem Local.trans (h : Local leaving s s') (h' : Local leaving s' s'') : Local leaving s s'' where
  running := h'.running.trans h.running
  session := h'.session.trans h.session
  mutex := h.mutex.trans h'.mutex
  duplex id := (h.duplex id).trans (h'.duplex id)
  owner id ho hl := h'.owner id (h.owner id ho hl) hl

private theorem local_modify {f : Duplex → Duplex} (h : (s.duplex id).Outside (f (s.duplex id))) :
    Local leaving s (s.modify id f) := by
  refine ⟨rfl, rfl, List.prefix_rfl, fun other => ?_, fun _ ho _ => ho⟩
  by_cases ho : other = id
  · subst ho
    rw [modify_same]
    exact h
  · rw [modify_other ho]
    exact .refl _

/-- A change of the drain loop's state. -/
private theorem local_drain (g : Duplex → Drain) : Local leaving s (s.modify id fun d => { d with drain := g d }) :=
  local_modify ⟨rfl, rfl, rfl, fun h => h, fun h => h⟩

/-! ### The lock -/

private theorem local_settleOne (settlement : Settlement ι) : Local leaving s (s.settleOne settlement) := by
  cases settlement with
  | resolved id =>
    simp only [settleOne]
    refine local_modify ?_
    split <;> exact ⟨rfl, rfl, rfl, fun h => h, fun h => h⟩
  | rejected id =>
    simp only [settleOne]
    exact local_modify ⟨rfl, rfl, rfl, fun h => h, fun h => h⟩

private theorem local_settle (settled : List (Settlement ι)) : Local leaving s (settled.foldl settleOne s) := by
  induction settled generalizing s with
  | nil => exact .refl s
  | cons settlement settled ih => exact (local_settleOne settlement).trans ih

private theorem local_applyLock {outcome : SessionLock.Outcome ι}
    (h : ∀ id, s.owner = some id → leaving ≠ some id → outcome.lock.owner = some id) :
    Local leaving s (s.applyLock outcome) := by
  have hlock : Local leaving s { s with lock := some outcome.lock } :=
    ⟨rfl, rfl, List.prefix_rfl, fun _ => .refl _, h⟩
  exact hlock.trans (local_settle outcome.settled)

/-- The lock moves nothing but the drain loops that wait for it. -/
theorem applyLock_duplex (outcome : SessionLock.Outcome ι) (id : ι) :
    ∃ drain, (s.applyLock outcome).duplex id = { s.duplex id with drain } := by
  have hone : ∀ (settlement : Settlement ι) (t : System ι),
      ∃ drain, (t.settleOne settlement).duplex id = { t.duplex id with drain } := by
    intro settlement t
    cases settlement with
    | resolved other =>
      by_cases ho : id = other
      · subst ho
        simp only [settleOne, modify_same]
        split <;> exact ⟨_, rfl⟩
      · simp only [settleOne, modify_other ho]
        exact ⟨_, rfl⟩
    | rejected other =>
      by_cases ho : id = other
      · subst ho
        simp only [settleOne, modify_same]
        exact ⟨_, rfl⟩
      · simp only [settleOne, modify_other ho]
        exact ⟨_, rfl⟩
  have hsettle : ∀ (settled : List (Settlement ι)) (t : System ι),
      ∃ drain, (settled.foldl settleOne t).duplex id = { t.duplex id with drain } := by
    intro settled
    induction settled with
    | nil => exact fun t => ⟨_, rfl⟩
    | cons settlement settled ih =>
      intro t
      obtain ⟨drain, hd⟩ := hone settlement t
      obtain ⟨drain', hd'⟩ := ih (t.settleOne settlement)
      exact ⟨drain', by rw [List.foldl_cons, hd', hd]⟩
  exact hsettle outcome.settled _

theorem local_release : Local (some id) s (s.release id) := by
  unfold release
  split
  · rename_i l hl
    refine local_applyLock fun other ho hne => ?_
    rw [owner_of_lock hl] at ho
    have hother : l.owner ≠ some id := by
      rw [ho]
      exact fun he => hne he.symm
    rw [SessionLock.release_not_owner hother]
    exact ho
  · exact .refl s

private theorem local_cancel : Local (some id) s (s.cancel id) := by
  unfold cancel
  split
  · rename_i l hl
    refine local_applyLock fun other ho hne => ?_
    rw [owner_of_lock hl] at ho
    exact SessionLock.cancel_owner ho fun he => hne (congrArg some he.symm)
  · exact .refl s

private theorem local_acquireSession (batch : Bytes) (mode : RfqMode) :
    Local leaving s (s.acquireSession id batch mode) := by
  have hdrain : Local leaving s (s.modify id fun d => { d with drain := .busy { batch, mode, stage := .acquiring } }) :=
    local_drain fun _ => _
  unfold acquireSession
  simp only [modify_lock]
  split
  · rename_i l hl
    refine hdrain.trans (local_applyLock fun other ho _ => ?_)
    rw [modify_owner, owner_of_lock hl] at ho
    exact SessionLock.acquire_owner ho
  · exact hdrain.trans (local_settleOne _)

/-! ### Teardown and recovery -/

private theorem local_decideRollback : Local leaving s (s.decideRollback id) :=
  local_modify ⟨rfl, rfl, rfl, fun h => h, fun h => h⟩

private theorem local_rollbackIfInTransaction : Local leaving s (s.rollbackIfInTransaction id) := by
  unfold rollbackIfInTransaction
  split
  · split
    · exact local_modify ⟨rfl, rfl, rfl, fun h => h, fun h => h⟩
    · exact local_decideRollback
  · exact .refl s

theorem local_destroyDuplex : Local leaving s (s.destroyDuplex id) := by
  unfold destroyDuplex
  split
  · exact .refl s
  · refine Local.trans (local_modify ⟨rfl, rfl, rfl, fun h => h, fun h => ?_⟩) local_rollbackIfInTransaction
    simp [Duplex.live, tearDown] at h

private theorem local_deliverRecoverySync : Local leaving s (s.deliverRecoverySync id) := by
  unfold deliverRecoverySync
  split
  · exact .refl s
  · split
    · exact local_modify ⟨rfl, rfl, rfl, fun h => h, fun h => h⟩
    · exact local_modify ⟨rfl, rfl, rfl, nofun, fun h => h⟩

private theorem local_releasePortal : Local leaving s (s.releasePortal id) := by
  unfold releasePortal
  split
  · exact .refl s
  · split
    · exact local_deliverRecoverySync
    · split
      · exact local_modify ⟨rfl, rfl, rfl, fun h => h, fun h => h⟩
      · exact .refl s

private theorem local_judgePortal : Local leaving s (s.judgePortal id) := by
  have hclear : Local leaving s (s.modify id fun d => { d with portalRecoveryRequested := false }) :=
    local_modify ⟨rfl, rfl, rfl, fun h => h, fun h => h⟩
  unfold judgePortal
  split
  · dsimp only
    split
    · exact hclear.trans local_deliverRecoverySync
    · exact hclear
  · exact .refl s

/-! ### The drain loop -/

private theorem local_processNext {d : Duplex} {next : Duplex.Next} (h : (s.duplex id).Outside d) :
    Local leaving s (s.processNext id d next) := by
  cases next with
  | again => exact local_modify (f := fun _ => d) h
  | run batch mode => exact (local_modify (f := fun _ => d) h).trans (local_acquireSession batch mode)
  | terminate =>
    simp only [processNext]
    refine Local.trans (local_modify ?_) local_rollbackIfInTransaction
    exact h.trans ⟨rfl, rfl, rfl, fun h => h, fun h => h⟩
  | throw message =>
    simp only [processNext]
    exact local_modify (h.trans ⟨rfl, rfl, rfl, fun h => h, fun h => h⟩)

private theorem local_process (h : s.process id = some s') : Local leaving s s' := by
  unfold process at h
  split at h
  · split at h
    · cases h
      exact local_modify ⟨rfl, rfl, rfl, fun h => h, fun h => h⟩
    · cases h
      exact local_modify ⟨rfl, rfl, rfl, fun h => h, fun h => h⟩
    · rename_i message rest _
      cases h
      have hrest : (s.duplex id).Outside { s.duplex id with input := rest } :=
        ⟨rfl, rfl, rfl, fun h => h, fun h => h⟩
      unfold processTaken
      dsimp only
      split
      · exact local_processNext hrest
      · exact local_processNext (hrest.trans (Duplex.processMessage_outside _ message))
  · cases h
    exact Local.trans (local_modify ⟨rfl, rfl, rfl, fun h => h, fun h => h⟩) local_destroyDuplex
  · cases h

/-! ### Steps -/

theorem step_local {a : Action ι} (hout : a.inPglite = false) (h : s.step a = some s') : Local (handsOver a) s s' := by
  cases a with
  | start response => cases hout
  | frame => cases hout
  | flush => cases hout
  | recovered ok => cases hout
  | throw => cases hout
  | rolledBack ok => cases hout
  | write id chunk =>
    simp only [step] at h
    split at h
    · cases h
    · cases h
      exact local_modify ⟨rfl, rfl, rfl, fun h => h, fun h => h⟩
  | deliver id count =>
    simp only [step] at h
    split at h
    · cases h
    · split at h
      · cases h
        exact local_modify ⟨rfl, rfl, rfl, fun h => h, fun h => h⟩
      · cases h
        exact local_modify ⟨rfl, rfl, rfl, fun h => h, fun h => h⟩
  | process id => exact local_process h
  | tail id =>
    simp only [step] at h
    split at h
    · cases h
    · cases h
      exact Local.trans (local_modify ⟨rfl, rfl, rfl, fun h => h, fun h => h⟩) local_judgePortal
  | pgliteReady id =>
    simp only [step] at h
    split at h
    · rename_i op _
      cases h
      have hdrain : Local none s (s.modify id fun d => { d with drain := .busy { op with stage := .queued } }) :=
        local_drain fun _ => _
      exact ⟨hdrain.running, hdrain.session, List.prefix_append .., hdrain.duplex, hdrain.owner⟩
    · cases h
  | pgliteNotReady id =>
    simp only [step] at h
    split at h
    · cases h
      exact local_drain fun _ => _
    · cases h
  | recoveryReady id =>
    simp only [step] at h
    split at h
    · cases h
      have hqueued : Local none s (s.modify id fun d => { d with recovery := some .queued }) :=
        local_modify ⟨rfl, rfl, rfl, fun h => h, fun h => h⟩
      exact ⟨hqueued.running, hqueued.session, List.prefix_append .., hqueued.duplex, hqueued.owner⟩
    · cases h
  | recoveryNotReady id =>
    simp only [step] at h
    split at h
    · cases h
      have hdone : Local none s (s.modify id fun d => { d with recovery := none }) :=
        local_modify ⟨rfl, rfl, rfl, fun h => h, fun h => h⟩
      split
      · exact hdone
      · exact hdone.trans local_destroyDuplex
    · cases h
  | queryRollback id ok =>
    simp only [step] at h
    split at h
    · cases h
      split
      · have hqueued : Local none s (s.modify id fun d => { d with rollback := .queued }) :=
          local_modify ⟨rfl, rfl, rfl, fun h => h, fun h => h⟩
        exact ⟨hqueued.running, hqueued.session, List.prefix_append .., hqueued.duplex, hqueued.owner⟩
      · exact local_modify ⟨rfl, rfl, rfl, fun h => h, fun h => h⟩
    · cases h
  | releaseAbandonedPortalHold id =>
    cases h
    exact local_releasePortal
  | final id =>
    simp only [step] at h
    split at h
    · cases h
    · cases h
      exact Local.trans (local_modify ⟨rfl, rfl, rfl, fun h => h, fun h => h⟩) local_rollbackIfInTransaction
  | destroy id =>
    simp only [step] at h
    split at h
    · cases h
    · cases h
      exact local_destroyDuplex
  | decide id =>
    simp only [step] at h
    split at h
    · cases h
      exact local_decideRollback
    · cases h
  | finalRelease id =>
    simp only [step] at h
    split at h
    · cases h
      have hdone : Local (some id) s (s.modify id fun d => { d with finalWaits := false }) :=
        local_modify ⟨rfl, rfl, rfl, fun h => h, fun h => h⟩
      split
      · exact hdone
      · exact (hdone.trans local_release).trans (local_modify ⟨rfl, rfl, rfl, fun h => h, fun h => h⟩)
    · cases h
  | destroyCancel id =>
    simp only [step] at h
    split at h
    · cases h
      exact Local.trans (local_modify ⟨rfl, rfl, rfl, fun h => h, fun h => h⟩) local_cancel
    · cases h
  | terminateRelease id =>
    simp only [step] at h
    split at h
    · cases h
      have hdrain : Local (some id) s (s.modify id fun d => { d with drain := .active }) := local_drain fun _ => _
      exact (hdrain.trans local_release).trans (local_modify ⟨rfl, rfl, rfl, fun h => h, fun h => h⟩)
    · cases h

/-! ### The calls of the other duplexes -/

/-- A change that leaves the call of a duplex alone, and its hold on the session. -/
structure Apart (id : ι) (s s' : System ι) : Prop where
  running : ∀ call, s'.running = some call → call.id = id → s.running = some call
  duplex : (s.duplex id).Outside (s'.duplex id)
  owner : s.owner = some id → s'.owner = some id

omit [DecidableEq ι] in
private theorem Local.apart (h : Local leaving s s') (hne : leaving ≠ some id) : Apart id s s' where
  running _ hrun _ := h.running ▸ hrun
  duplex := h.duplex id
  owner ho := h.owner id ho hne

omit [DecidableEq ι] in
private theorem Apart.trans (h : Apart id s s') (h' : Apart id s' s'') : Apart id s s'' where
  running call hrun hid := h.running call (h'.running call hrun hid) hid
  duplex := h.duplex.trans h'.duplex
  owner ho := h'.owner (h.owner ho)

theorem local_updateStatus (status : UInt8) : Local (some id) s (s.updateStatus id status) := by
  unfold updateStatus
  split
  · rename_i l hl
    split
    · exact .refl s
    · refine local_applyLock fun other ho hne => ?_
      rw [owner_of_lock hl] at ho
      have hother : l.owner ≠ some id := by
        rw [ho]
        exact fun he => hne he.symm
      rw [SessionLock.updateStatus_not_owner status hother]
      exact ho
  · exact .refl s

theorem updateStatus_duplex (s : System ι) (id other : ι) (status : UInt8) :
    ∃ drain, (s.updateStatus other status).duplex id = { s.duplex id with drain } := by
  unfold updateStatus
  split
  · split
    · exact ⟨_, rfl⟩
    · exact applyLock_duplex _ id
  · exact ⟨_, rfl⟩

section OtherCall

variable {other : ι} {call : Call ι}

private theorem apart_other {f : Duplex → Duplex} (hne : other ≠ id) : Apart id s (s.modify other f) where
  running _ hrun _ := hrun
  duplex := by
    rw [modify_other (Ne.symm hne)]
    exact .refl _
  owner ho := ho

omit [DecidableEq ι] in
private theorem apart_session (session : Option ι) : Apart id s { s with session } :=
  ⟨fun _ hrun _ => hrun, .refl _, fun ho => ho⟩

omit [DecidableEq ι] in
private theorem apart_running {running : Option (Call ι)} (h : ∀ call ∈ running, call.id ≠ id) :
    Apart id s { s with running } :=
  ⟨fun call hrun hid => absurd hid (h call hrun), .refl _, fun ho => ho⟩

private theorem apart_release (hne : other ≠ id) : Apart id s (s.release other) :=
  local_release.apart fun he => hne (Option.some.inj he)

private theorem apart_updateStatus (status : UInt8) (hne : other ≠ id) : Apart id s (s.updateStatus other status) :=
  (local_updateStatus status).apart fun he => hne (Option.some.inj he)

private theorem apart_destroyDuplex (other : ι) : Apart id s (s.destroyDuplex other) :=
  (local_destroyDuplex : Local none s _).apart nofun

private theorem apart_startCall {kind : CallKind} {response : List ResponseFrame} (hne : other ≠ id) :
    Apart id s (s.startCall other kind response) := by
  have hcall : ∀ f, ∀ call : Call ι, call.id = other → Apart id s { s.modify other f with running := some call } := by
    intro f call hid
    refine (apart_other (f := f) hne).trans (apart_running fun call' hmem => ?_)
    cases hmem
    rw [hid]
    exact hne
  unfold startCall
  cases kind with
  | rollback => exact hcall _ _ rfl
  | batch mode =>
    dsimp only
    split
    · exact hcall _ _ rfl
    · exact apart_other hne
  | recovery =>
    dsimp only
    split
    · exact hcall _ _ rfl
    · exact apart_other hne

private theorem apart_receive {response : List ResponseFrame} {fr : ResponseFrame} (hne : call.id ≠ id) :
    Apart id s (s.receive call response fr) := by
  have hcall : ∀ f, ∀ call' : Call ι, call'.id = call.id →
      Apart id s { s.modify call.id f with running := some call' } := by
    intro f call' hid
    refine (apart_other (f := f) hne).trans (apart_running fun call'' hmem => ?_)
    cases hmem
    rw [hid]
    exact hne
  unfold receive
  cases fr with
  | errorResponse => exact hcall _ _ rfl
  | other => exact hcall _ _ rfl
  | readyForQuery status =>
    have hstatus : ∀ (f : Duplex → Duplex) (call' : Call ι) (session : Option ι), call'.id = call.id →
        Apart id s ({ s.modify call.id f with running := some call', session }.updateStatus call.id status) := by
      intro f call' session hid
      exact ((hcall f call' hid).trans (apart_session session)).trans (apart_updateStatus status hne)
    dsimp only
    split
    · exact hstatus _ _ _ rfl
    · refine Apart.trans ?_ (apart_other hne)
      exact hstatus _ _ _ rfl

private theorem apart_finishCall (hne : call.id ≠ id) : Apart id s (s.finishCall call) := by
  have hstop : Apart id s { s with running := none } := apart_running nofun
  unfold finishCall
  split <;> exact hstop.trans (apart_other hne)

private theorem apart_settlePortal {synced : Bool} (hne : call.id ≠ id) : Apart id s (s.settlePortal call synced) := by
  unfold settlePortal
  dsimp only
  split
  · exact (apart_other hne).trans (apart_session _)
  · split
    · exact ((apart_other hne).trans (apart_session _)).trans (apart_release hne)
    · exact apart_other hne

private theorem apart_flushHeld (hne : call.id ≠ id) : Apart id s (s.flushHeld call) := by
  unfold flushHeld
  split
  · exact apart_other hne
  · exact (Local.refl s : Local none s s).apart nofun

private theorem apart_flushCall (hne : call.id ≠ id) : Apart id s (s.flushCall call) := by
  have hheld := apart_flushHeld (s := s) hne
  unfold flushCall
  dsimp only
  split
  · split
    · refine hheld.trans (apart_running fun call' hmem => ?_)
      cases hmem
      exact hne
    · exact (hheld.trans (apart_settlePortal hne)).trans (apart_finishCall hne)
  · exact hheld.trans (apart_finishCall hne)

private theorem apart_recoveredCall {ok : Bool} (hne : call.id ≠ id) : Apart id s (s.recoveredCall call ok) := by
  unfold recoveredCall
  cases ok with
  | true => exact (apart_settlePortal hne).trans (apart_finishCall hne)
  | false => exact ((apart_destroyDuplex call.id).trans (apart_settlePortal hne)).trans (apart_finishCall hne)

private theorem apart_throwCall (hne : call.id ≠ id) : Apart id s (s.throwCall call) := by
  have hstop : Apart id s { s with running := none } := apart_running nofun
  unfold throwCall
  split
  · exact hstop.trans (apart_other hne)
  · dsimp only
    split
    · exact hstop.trans (apart_other hne)
    · exact (hstop.trans (apart_other hne)).trans (apart_destroyDuplex _)
  · exact hstop.trans (apart_other hne)

end OtherCall

/-- The call that an action starts, or is a step of, belongs to another duplex. -/
def Bypasses (id : ι) (s : System ι) : Action ι → Prop
  | .start _ => ∀ entry ∈ s.mutex.head?, entry.1 ≠ id
  | _ => ∀ call ∈ s.running, call.id ≠ id

theorem step_apart {a : Action ι} (hleave : handsOver a ≠ some id) (hother : a.inPglite = true → Bypasses id s a)
    (h : s.step a = some s') : Apart id s s' := by
  cases hin : a.inPglite with
  | false => exact (step_local hin h).apart hleave
  | true =>
    have hby := hother hin
    cases a with
    | start response =>
      simp only [step] at h
      split at h
      · rename_i other kind mutex hrun hmutex
        cases h
        have hne : other ≠ id := hby (other, kind) (by rw [hmutex]; rfl)
        have hpop : Apart id s { s with mutex } := ⟨fun _ hrun _ => hrun, .refl _, fun ho => ho⟩
        exact hpop.trans (apart_startCall hne)
      · cases h
    | frame =>
      simp only [step] at h
      split at h
      · rename_i call hrun
        split at h
        · cases h
          exact apart_receive (hby _ hrun)
        · cases h
      · cases h
    | flush =>
      simp only [step] at h
      split at h
      · rename_i call hrun
        split at h
        · cases h
        · cases h
          exact apart_flushCall (hby _ hrun)
      · cases h
    | recovered ok =>
      simp only [step] at h
      split at h
      · rename_i call hrun
        split at h
        · cases h
          exact apart_recoveredCall (hby _ hrun)
        · cases h
      · cases h
    | throw =>
      simp only [step] at h
      split at h
      · rename_i call hrun
        split at h
        · cases h
        · cases h
          exact apart_throwCall (hby _ hrun)
      · cases h
    | rolledBack ok =>
      simp only [step] at h
      split at h
      · rename_i call hrun
        split at h
        · cases h
          have hfinish := apart_finishCall (s := s) (hby _ hrun)
          split
          · exact (hfinish.trans (apart_other (hby _ hrun))).trans (apart_session none)
          · exact hfinish
        · cases h
      · cases h
    | _ => cases hin

end System

end PgliteBridge
