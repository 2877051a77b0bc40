import PgliteBridge.DuplexSystem
import PgliteBridge.TransitionSystem

/-!
# Execution ownership

An operation reaches PGlite only while its duplex owns the session lock, provided that a duplex never gives up the
session with an operation of its own still on its way to PGlite, or with the PostgreSQL session left in its transaction
or portal (`Careful`).  The invariant is `Owned`: whoever waits to start, may still open the session in its running
call, or has left the session open, is the owner.
-/

namespace PgliteBridge

open TransitionSystem

def Duplex.batchAdmitted (d : Duplex) : Bool :=
  match d.drain with
  | .busy op => op.stage == .admitted
  | _ => false

/-- An operation is between its admission and the queue of `runExclusive`; after a teardown only a ROLLBACK counts. -/
def Duplex.Waits (d : Duplex) : Prop :=
  (d.live = true ∧ (d.batchAdmitted = true ∨ d.recovery = some .admitted)) ∨ d.rollback = .querying

instance (d : Duplex) : Decidable d.Waits := by unfold Duplex.Waits; infer_instance

/-- A change that schedules no operation. -/
structure Duplex.Quiet (d d' : Duplex) : Prop where
  live : d'.live = true → d.live = true
  batch : d'.batchAdmitted = true → d.batchAdmitted = true
  recovery : d'.recovery = some .admitted → d.recovery = some .admitted
  rollback : d'.rollback = .querying → d.rollback = .querying
  err : d'.errSeen = false → d.errSeen = false

private theorem Duplex.Quiet.waits {d d' : Duplex} (q : d.Quiet d') (h : d'.Waits) : d.Waits := by
  rcases h with ⟨hl, ha | hr⟩ | hq
  · exact Or.inl ⟨q.live hl, Or.inl (q.batch ha)⟩
  · exact Or.inl ⟨q.live hl, Or.inr (q.recovery hr)⟩
  · exact Or.inr (q.rollback hq)

private theorem Duplex.Quiet.trans {d d' d'' : Duplex} (q : d.Quiet d') (q' : d'.Quiet d'') : d.Quiet d'' :=
  ⟨fun h => q.live (q'.live h), fun h => q.batch (q'.batch h), fun h => q.recovery (q'.recovery h),
    fun h => q.rollback (q'.rollback h), fun h => q.err (q'.err h)⟩

/-- A frame that tells of an open transaction. -/
def ResponseFrame.opens : ResponseFrame → Bool
  | .readyForQuery status => status != RFQ_STATUS_IDLE
  | _ => false

namespace System

variable {ι : Type} [DecidableEq ι]

/-- An operation is in the queue of `runExclusive` and will start. -/
def Queued (s : System ι) (id : ι) : Prop :=
  ∃ entry ∈ s.mutex, entry.1 = id ∧ (entry.2 = .rollback ∨ (s.duplex id).live = true)

/-- An operation has been scheduled and has not started. -/
def Waiting (s : System ι) (id : ι) : Prop := (s.duplex id).Waits ∨ s.Queued id

/-- With `response` still to come, the call may leave the session in a transaction or a suspended portal. -/
def MayOpen (s : System ι) (call : Call ι) (response : List ResponseFrame) : Prop :=
  (∃ fr ∈ response, fr.opens = true) ∨
    (call.kind.mode = .flushBoundary ∧ (s.duplex call.id).errSeen = false ∧ call.recovering = false ∧
      .errorResponse ∉ response)

instance (s : System ι) (id : ι) : Decidable (s.Queued id) := by unfold Queued; infer_instance

instance (s : System ι) (id : ι) : Decidable (s.Waiting id) := by unfold Waiting; infer_instance

instance (s : System ι) (call : Call ι) (response : List ResponseFrame) : Decidable (s.MayOpen call response) := by
  unfold MayOpen; infer_instance

structure Owned (s : System ι) : Prop where
  locked : s.lock.isSome = true
  waiting : ∀ id, s.Waiting id → s.owner = some id
  opening : ∀ call, s.running = some call → s.MayOpen call call.response → s.owner = some call.id
  recovering : ∀ call, s.running = some call → call.recovering = true →
    (s.duplex call.id).errSeen = true ∧ call.kind ≠ .rollback
  session : ∀ id, s.session = some id → s.owner = some id

/-! ### Modifying one duplex -/

section Modify

variable {s : System ι} {id : ι} {f : Duplex → Duplex}

/-- What waits after a change of one duplex waited before, or was scheduled by it. -/
private theorem Waiting.of_modify (hlive : (f (s.duplex id)).live = true → (s.duplex id).live = true) {other : ι}
    (h : (s.modify id f).Waiting other) : s.Waiting other ∨ other = id ∧ (f (s.duplex id)).Waits := by
  by_cases ho : other = id
  · subst ho
    rcases h with hw | ⟨entry, hmem, hid, hk⟩
    · rw [modify_same] at hw
      exact Or.inr ⟨rfl, hw⟩
    · rw [modify_same] at hk
      exact Or.inl (Or.inr ⟨entry, hmem, hid, hk.imp_right hlive⟩)
  · left
    simpa only [Waiting, Queued, modify_other ho, modify_mutex] using h

private theorem Waiting.of_quiet (q : (s.duplex id).Quiet (f (s.duplex id))) {other : ι}
    (h : (s.modify id f).Waiting other) : s.Waiting other := by
  rcases h.of_modify q.live with hw | ⟨rfl, hw⟩
  · exact hw
  · exact Or.inl (q.waits hw)

private theorem MayOpen.of_modify (herr : (f (s.duplex id)).errSeen = false → (s.duplex id).errSeen = false)
    {call : Call ι}
    {response : List ResponseFrame} (h : (s.modify id f).MayOpen call response) : s.MayOpen call response := by
  rcases h with hst | ⟨hmode, herr', hrec, hno⟩
  · exact Or.inl hst
  · refine Or.inr ⟨hmode, ?_, hrec, hno⟩
    by_cases ho : call.id = id
    · subst ho
      rw [modify_same] at herr'
      exact herr herr'
    · rwa [modify_other ho] at herr'

private theorem Owned.modify (h : Owned s) (hlive : (f (s.duplex id)).live = true → (s.duplex id).live = true)
    (hwaits : (f (s.duplex id)).Waits → (s.duplex id).Waits ∨ s.owner = some id)
    (herr : (f (s.duplex id)).errSeen = false → (s.duplex id).errSeen = false) : Owned (s.modify id f) := by
  refine ⟨h.locked, ?_, ?_, ?_, h.session⟩
  · intro other hw
    rcases hw.of_modify hlive with hw | ⟨rfl, hw⟩
    · exact h.waiting other hw
    · rcases hwaits hw with hw | hown
      · exact h.waiting other (Or.inl hw)
      · exact hown
  · intro call hrun hopen
    exact h.opening call hrun (hopen.of_modify herr)
  · intro call hrun hrec
    have hold := h.recovering call hrun hrec
    refine ⟨?_, hold.2⟩
    by_cases ho : call.id = id
    · subst ho
      rw [modify_same]
      cases he : (f (s.duplex call.id)).errSeen
      · exact absurd hold.1 (by rw [herr he]; decide)
      · rfl
    · rw [modify_other ho]
      exact hold.1

private theorem Owned.quiet (h : Owned s) (q : (s.duplex id).Quiet (f (s.duplex id))) : Owned (s.modify id f) :=
  h.modify q.live (fun hw => Or.inl (q.waits hw)) q.err

end Modify

/-! ### The lock -/

section Lock

variable {s : System ι}

/-- Nothing of the duplex needs the session any more. -/
structure Clear (s : System ι) (id : ι) : Prop where
  waiting : ¬s.Waiting id
  opening : ∀ call, s.running = some call → call.id = id → ¬s.MayOpen call call.response
  session : s.session ≠ some id

omit [DecidableEq ι] in
/-- The owner changes only if nothing of it needs the session. -/
private theorem Owned.relock (h : Owned s) {l : SessionLock ι}
    (keep : ∀ id, s.owner = some id → l.owner = some id ∨ Clear s id) : Owned { s with lock := some l } := by
  refine ⟨rfl, ?_, ?_, h.recovering, ?_⟩
  · intro id hw
    rcases keep id (h.waiting id hw) with hl | hclear
    · exact hl
    · exact absurd hw hclear.waiting
  · intro call hrun hopen
    rcases keep call.id (h.opening call hrun hopen) with hl | hclear
    · exact hl
    · exact absurd hopen (hclear.opening call hrun rfl)
  · intro id hs
    rcases keep id (h.session id hs) with hl | hclear
    · exact hl
    · exact absurd hs hclear.session

private theorem Owned.settleOne (h : Owned s) {settlement : Settlement ι}
    (hres : ∀ id, settlement = .resolved id → s.owner = some id) : Owned (s.settleOne settlement) := by
  cases settlement with
  | resolved id =>
    simp only [System.settleOne]
    apply h.modify
    · intro hl
      split at hl <;> exact hl
    · intro _
      exact Or.inr (hres id rfl)
    · intro he
      split at he <;> exact he
  | rejected id =>
    simp only [System.settleOne]
    exact h.quiet ⟨fun h => h, nofun, fun h => h, fun h => h, fun h => h⟩

private theorem Owned.settle {settled : List (Settlement ι)} (h : Owned s)
    (hres : ∀ id, .resolved id ∈ settled → s.owner = some id) : Owned (settled.foldl System.settleOne s) := by
  induction settled generalizing s with
  | nil => exact h
  | cons settlement settled ih =>
    apply ih
    · exact h.settleOne fun id he => hres id (by rw [he]; exact List.mem_cons_self ..)
    · intro id hmem
      rw [settleOne_owner]
      exact hres id (List.mem_cons_of_mem _ hmem)

private theorem Owned.applyLock (h : Owned s) {outcome : SessionLock.Outcome ι} (grants : outcome.Grants)
    (keep : ∀ id, s.owner = some id → outcome.lock.owner = some id ∨ Clear s id) : Owned (s.applyLock outcome) :=
  (h.relock keep).settle grants

/-- `release` by a duplex that needs the session no more. -/
private theorem Owned.release (h : Owned s) {id : ι} (clear : s.owner = some id → Clear s id) :
    Owned (s.release id) := by
  unfold System.release
  split
  · rename_i l hl
    refine h.applyLock (l.release_grants id) fun other ho => ?_
    by_cases he : other = id
    · subst he
      exact Or.inr (clear ho)
    · left
      rw [owner_of_lock hl] at ho
      rw [SessionLock.release_not_owner (by rw [ho]; exact fun e => he (Option.some.inj e))]
      exact ho
  · exact h

private theorem Owned.cancel (h : Owned s) {id : ι} (clear : s.owner = some id → Clear s id) : Owned (s.cancel id) := by
  unfold System.cancel
  split
  · rename_i l hl
    refine h.applyLock (l.cancel_grants id) fun other ho => ?_
    by_cases he : other = id
    · subst he
      exact Or.inr (clear ho)
    · left
      rw [owner_of_lock hl] at ho
      exact SessionLock.cancel_owner ho he
  · exact h

private theorem Owned.updateStatus (h : Owned s) {id : ι} {status : UInt8}
    (clear : status = RFQ_STATUS_IDLE → (s.duplex id).phase ≠ .terminated → s.owner = some id → Clear s id) :
    Owned (s.updateStatus id status) := by
  unfold System.updateStatus
  split
  · rename_i l hl
    split
    · exact h
    · rename_i hphase
      refine h.applyLock (l.updateStatus_grants id status) fun other ho => ?_
      rw [owner_of_lock hl] at ho
      by_cases hidle : status = STATUS_IDLE
      · by_cases he : other = id
        · subst he
          exact Or.inr (clear hidle hphase (by rw [owner_of_lock hl]; exact ho))
        · left
          rw [SessionLock.updateStatus_not_owner status (by rw [ho]; exact fun e => he (Option.some.inj e))]
          exact ho
      · left
        rw [SessionLock.updateStatus_not_idle hidle]
        exact ho
  · exact h

/-- A batch is admitted: its duplex owns the session, or waits in `acquire`. -/
private theorem Owned.acquireSession (h : Owned s) {id : ι} {batch : Bytes} {mode : RfqMode} :
    Owned (s.acquireSession id batch mode) := by
  have hmod : Owned (s.modify id fun d => { d with drain := .busy { batch, mode, stage := .acquiring } }) :=
    h.quiet ⟨fun h => h, nofun, fun h => h, fun h => h, fun h => h⟩
  unfold System.acquireSession
  simp only [modify_lock]
  split
  · rename_i l hl
    refine hmod.applyLock (l.acquire_grants id) fun other ho => Or.inl ?_
    rw [modify_owner, owner_of_lock hl] at ho
    exact SessionLock.acquire_owner ho
  · rename_i hl
    have := h.locked
    rw [hl] at this
    cases this

end Lock

/-! ### Teardown, drain loop and recovery -/

section Local

variable {s : System ι} {id : ι}

private theorem Owned.mayUse (h : Owned s) (hm : s.mayUse id = true) : s.owner = some id := by
  have hlock := h.locked
  unfold System.mayUse at hm
  split at hm
  · rename_i l hl
    rw [owner_of_lock hl]
    simpa [SessionLock.isOwner] using hm
  · rename_i hl
    rw [hl] at hlock
    cases hlock

private theorem Owned.decideRollback (h : Owned s) : Owned (s.decideRollback id) := by
  apply h.modify
  · exact fun hl => hl
  · rintro (hw | hq)
    · exact Or.inl (Or.inl hw)
    · right
      dsimp only at hq
      split at hq
      · rename_i huse
        exact h.mayUse (Bool.and_eq_true _ _ ▸ huse).2
      · cases hq
  · exact fun he => he

private theorem Owned.rollbackIfInTransaction (h : Owned s) : Owned (s.rollbackIfInTransaction id) := by
  unfold System.rollbackIfInTransaction
  split
  · split
    · exact h.quiet ⟨fun h => h, fun h => h, fun h => h, nofun, fun h => h⟩
    · exact h.decideRollback
  · exact h

private theorem Owned.destroyDuplex (h : Owned s) : Owned (s.destroyDuplex id) := by
  unfold System.destroyDuplex
  split
  · exact h
  · apply Owned.rollbackIfInTransaction
    exact h.quiet ⟨nofun, fun h => h, fun h => h, fun h => h, fun h => h⟩

private theorem Owned.deliverRecoverySync (h : Owned s) : Owned (s.deliverRecoverySync id) := by
  unfold System.deliverRecoverySync
  split
  · exact h
  · split
    · rename_i huse
      apply h.modify
      · exact fun hl => hl
      · exact fun _ => Or.inr (h.mayUse huse)
      · exact fun he => he
    · exact h.quiet ⟨fun h => h, fun h => h, fun h => h, fun h => h, fun h => h⟩

private theorem Owned.releasePortal (h : Owned s) : Owned (s.releasePortal id) := by
  unfold System.releasePortal
  split
  · exact h
  · split
    · exact h.deliverRecoverySync
    · split
      · exact h.quiet ⟨fun h => h, fun h => h, fun h => h, fun h => h, fun h => h⟩
      · exact h

private theorem Owned.judgePortal (h : Owned s) : Owned (s.judgePortal id) := by
  have hmod : Owned (s.modify id fun d => { d with portalRecoveryRequested := false }) :=
    h.quiet ⟨fun h => h, fun h => h, fun h => h, fun h => h, fun h => h⟩
  unfold System.judgePortal
  split
  · dsimp only
    split
    · exact hmod.deliverRecoverySync
    · exact hmod
  · exact h

/-- `processMessages` schedules nothing by itself. -/
private theorem processMessage_quiet (d : Duplex) (message : Bytes) : d.Quiet (d.processMessage message).1 := by
  unfold Duplex.processMessage
  dsimp only
  split
  · refine ⟨fun hl => ?_, fun h => h, fun h => h, fun h => h, fun h => h⟩
    simp [Duplex.live, Duplex.terminate] at hl
  · split
    · unfold Duplex.processCopy
      split
      · exact ⟨fun h => h, fun h => h, fun h => h, fun h => h, fun h => h⟩
      · split
        · dsimp only
          split <;> exact ⟨fun h => h, fun h => h, fun h => h, fun h => h, fun h => h⟩
        · exact ⟨fun h => h, fun h => h, fun h => h, fun h => h, fun h => h⟩
    · split
      · exact ⟨fun h => h, fun h => h, fun h => h, fun h => h, fun h => h⟩
      · split
        · exact ⟨fun h => h, fun h => h, fun h => h, fun h => h, fun h => h⟩
        · split
          · unfold Duplex.processQuery
            split <;> exact ⟨fun h => h, fun h => h, fun h => h, fun h => h, fun h => h⟩
          · exact ⟨fun h => h, fun h => h, fun h => h, fun h => h, fun h => h⟩

private theorem Owned.processNext (h : Owned s) {d : Duplex} {next : Duplex.Next} (q : (s.duplex id).Quiet d) :
    Owned (s.processNext id d next) := by
  unfold System.processNext
  cases next with
  | again => exact h.quiet q
  | run batch mode => exact (h.quiet q).acquireSession
  | terminate =>
    apply Owned.rollbackIfInTransaction
    exact h.quiet (q.trans ⟨fun h => h, nofun, fun h => h, fun h => h, fun h => h⟩)
  | throw message => exact h.quiet (q.trans ⟨fun h => h, nofun, fun h => h, fun h => h, fun h => h⟩)

private theorem Owned.process (h : Owned s) {s' : System ι} (hs : s.process id = some s') : Owned s' := by
  unfold System.process at hs
  split at hs
  · split at hs
    · cases hs
      exact h.quiet ⟨fun h => h, nofun, fun h => h, fun h => h, fun h => h⟩
    · cases hs
      exact h.quiet ⟨fun h => h, nofun, fun h => h, fun h => h, fun h => h⟩
    · rename_i message rest _
      cases hs
      have hq : (s.duplex id).Quiet { s.duplex id with input := rest } :=
        ⟨fun h => h, fun h => h, fun h => h, fun h => h, fun h => h⟩
      unfold System.processTaken
      dsimp only
      split
      · exact h.processNext hq
      · exact h.processNext (hq.trans (processMessage_quiet _ message))
  · cases hs
    apply Owned.destroyDuplex
    exact h.quiet ⟨fun h => h, nofun, fun h => h, fun h => h, fun h => h⟩
  · cases hs

end Local

/-! ### Giving up the session -/

/-- The duplex that gives up the session in an action: on an idle ReadyForQuery, after an errored flush-boundary batch
without a ReadyForQuery, or at the end of a teardown. -/
def givesUp (s : System ι) : Action ι → Option ι
  | .frame =>
    match s.running with
    | some call =>
      match call.response with
      | .readyForQuery status :: _ =>
        if status = RFQ_STATUS_IDLE ∧ (s.duplex call.id).phase ≠ .terminated ∧ s.owner = some call.id then some call.id
        else none
      | _ => none
    | none => none
  | .recovered _ =>
    match s.running with
    | some call =>
      if (s.duplex call.id).rfqSeenInCall = false ∧ (s.duplex call.id).inTransaction = false ∧
          s.owner = some call.id then some call.id
      else none
    | none => none
  | .finalRelease id => if s.owner = some id then some id else none
  | .destroyCancel id => if s.owner = some id then some id else none
  | .terminateRelease id => if s.owner = some id then some id else none
  | _ => none

/-- The response that is still to come after the action. -/
def responseAfter (call : Call ι) : Action ι → List ResponseFrame
  | .frame => call.response.tail
  | _ => call.response

/-- A duplex gives up the session only when none of its operations is scheduled and not started, its running call
cannot open the session any more, and the session is not left in its transaction or portal. -/
def Careful (s : System ι) (a : Action ι) : Prop :=
  ∀ id ∈ s.givesUp a, ¬s.Waiting id ∧
    (∀ call ∈ s.running, call.id = id → ¬s.MayOpen call (responseAfter call a)) ∧
    (a = .frame ∨ a = .recovered true ∨ s.session ≠ some id)

instance (s : System ι) (a : Action ι) : Decidable (s.Careful a) := by unfold Careful; infer_instance

/-! ### Protocol calls -/

section Calls

variable {s : System ι} {id : ι} {call : Call ι}

private theorem Clear.quiet {other : ι} {f : Duplex → Duplex} (h : Clear s id)
    (q : (s.duplex other).Quiet (f (s.duplex other))) : Clear (s.modify other f) id :=
  ⟨fun hw => h.waiting (hw.of_quiet q), fun call hrun hid hopen => h.opening call hrun hid (hopen.of_modify q.err),
    h.session⟩

private theorem callDone_quiet (d : Duplex) : d.Quiet (callDone d) := by
  refine ⟨fun h => h, fun h => h, fun h => h, fun hq => ?_, fun h => h⟩
  dsimp only [callDone] at hq
  split at hq
  · cases hq
  · exact hq

private theorem batchDone_quiet (d : Duplex) : d.Quiet (batchDone d) := by
  refine ⟨fun hl => ?_, nofun, fun h => h, fun h => h, fun h => h⟩
  dsimp only [batchDone, Duplex.live] at hl ⊢
  split at hl
  · rename_i hp
    rw [hp]
    simpa using hl
  · exact hl

private theorem onChunk_quiet (d : Duplex) (fr : ResponseFrame) : d.Quiet (d.onChunk fr) := by
  unfold Duplex.onChunk
  split <;> exact ⟨fun h => h, fun h => h, fun h => h, fun h => h, fun h => h⟩

private theorem onErrorResponse_quiet (d : Duplex) : d.Quiet d.onErrorResponse :=
  ⟨fun h => h, fun h => h, fun h => h, fun h => h, nofun⟩

private theorem onReadyForQuery_quiet (d : Duplex) (status : UInt8) : d.Quiet (d.onReadyForQuery status) :=
  ⟨fun h => h, fun h => h, fun h => h, fun h => h, fun h => h⟩

private theorem portalSuspended_quiet (d : Duplex) (suspended : Bool) :
    d.Quiet { d with portalSuspended := suspended } :=
  ⟨fun h => h, fun h => h, fun h => h, fun h => h, fun h => h⟩

omit [DecidableEq ι] in
private theorem Owned.setSession (h : Owned s) (session : Option ι) (hs : ∀ id, session = some id → s.owner = some id) :
    Owned { s with session } :=
  ⟨h.locked, h.waiting, h.opening, h.recovering, hs⟩

omit [DecidableEq ι] in
private theorem Owned.stop (h : Owned s) : Owned { s with running := none } :=
  ⟨h.locked, h.waiting, nofun, nofun, h.session⟩

omit [DecidableEq ι] in
/-- The running call goes on. -/
private theorem Owned.advance (h : Owned s) (call' : Call ι) (hrun : s.running = some call) (hid : call'.id = call.id)
    (hopen : s.MayOpen call' call'.response → s.MayOpen call call.response)
    (hrec : call'.recovering = true → (s.duplex call.id).errSeen = true ∧ call'.kind ≠ .rollback) :
    Owned { s with running := some call' } := by
  refine ⟨h.locked, h.waiting, ?_, ?_, h.session⟩
  · intro _ he ho
    cases he
    rw [hid]
    exact h.opening call hrun (hopen ho)
  · intro _ he hr
    cases he
    rw [hid]
    exact hrec hr

omit [DecidableEq ι] in
private theorem Owned.enqueue (h : Owned s) {kind : CallKind}
    (howner : kind = .rollback ∨ (s.duplex id).live = true → s.owner = some id) :
    Owned { s with mutex := s.mutex ++ [(id, kind)] } := by
  refine ⟨h.locked, ?_, h.opening, h.recovering, h.session⟩
  rintro other (hw | ⟨entry, hmem, rfl, hk⟩)
  · exact h.waiting other (Or.inl hw)
  · rcases List.mem_append.1 hmem with hmem | hmem
    · exact h.waiting _ (Or.inr ⟨entry, hmem, rfl, hk⟩)
    · rw [List.mem_singleton] at hmem
      subst hmem
      exact howner hk

/-- The first callback of the queue starts its call. -/
private theorem Owned.start (h : Owned s) {kind : CallKind} {mutex : List (ι × CallKind)}
    {response : List ResponseFrame}
    (hmutex : s.mutex = (id, kind) :: mutex) :
    Owned (({ s with mutex } : System ι).startCall id kind response) := by
  have hpop : Owned ({ s with mutex } : System ι) := by
    refine ⟨h.locked, ?_, h.opening, h.recovering, h.session⟩
    rintro other (hw | ⟨entry, hmem, hid, hk⟩)
    · exact h.waiting other (Or.inl hw)
    · exact h.waiting other (Or.inr ⟨entry, by rw [hmutex]; exact List.mem_cons_of_mem _ hmem, hid, hk⟩)
  have howner : kind = .rollback ∨ (s.duplex id).live = true → s.owner = some id := fun hk =>
    h.waiting id (Or.inr ⟨(id, kind), by rw [hmutex]; exact List.mem_cons_self .., rfl, hk⟩)
  -- whoever starts was waiting, so it owns the session
  have begins : ∀ (call : Call ι) (f : Duplex → Duplex), call.id = id → s.owner = some id → call.recovering = false →
      ((f (s.duplex id)).live = true → (s.duplex id).live = true) →
      ((f (s.duplex id)).Waits → (s.duplex id).Waits) →
      Owned { ({ s with mutex } : System ι).modify id f with running := some call } := by
    intro call f hid hown hrec hlive hwaits
    refine ⟨h.locked, ?_, ?_, ?_, h.session⟩
    · intro other hw
      rcases Waiting.of_modify (s := { s with mutex }) hlive hw with hw | ⟨rfl, hw⟩
      · exact hpop.waiting other hw
      · exact h.waiting _ (Or.inl (hwaits hw))
    · intro _ he _
      cases he
      rw [hid]
      exact hown
    · intro _ he hr
      cases he
      rw [hrec] at hr
      cases hr
  unfold System.startCall
  cases kind with
  | rollback =>
    refine begins { id, kind := .rollback } _ rfl (howner (Or.inl rfl)) rfl (fun hl => hl) ?_
    rintro (hw | hq)
    · exact Or.inl hw
    · cases hq
  | batch mode =>
    dsimp only
    split
    · rename_i hl
      exact begins { id, kind := .batch mode, response } _ rfl (howner (Or.inr hl)) rfl (fun hl => hl) (fun hw => hw)
    · exact hpop.quiet (batchDone_quiet _)
  | recovery =>
    dsimp only
    split
    · rename_i hl
      refine begins { id, kind := .recovery, response } _ rfl (howner (Or.inr hl)) rfl (fun hl => hl) ?_
      rintro (⟨hl', ha | hr⟩ | hq)
      · exact Or.inl ⟨hl', Or.inl ha⟩
      · cases hr
      · exact Or.inr hq
    · exact hpop.quiet ⟨fun h => h, fun h => h, nofun, fun h => h, fun h => h⟩

/-- A call that is over opens nothing. -/
private theorem Owned.finishCall (h : Owned s) : Owned (s.finishCall call) := by
  unfold System.finishCall
  split
  · exact h.stop.quiet ((batchDone_quiet _).trans (callDone_quiet _))
  · refine h.stop.quiet (Duplex.Quiet.trans ?_ (callDone_quiet _))
    exact ⟨fun h => h, fun h => h, nofun, fun h => h, fun h => h⟩
  · exact h.stop.quiet ⟨fun h => h, fun h => h, fun h => h, nofun, fun h => h⟩

private theorem Owned.throwCall (h : Owned s) : Owned (s.throwCall call) := by
  unfold System.throwCall
  split
  · refine h.stop.quiet (Duplex.Quiet.trans ?_ (callDone_quiet _))
    exact ⟨fun h => h, nofun, fun h => h, fun h => h, fun h => h⟩
  · have hdone : Owned (({ s with running := none } : System ι).modify call.id
        fun d => callDone { d with recovery := none }) := by
      refine h.stop.quiet (Duplex.Quiet.trans ?_ (callDone_quiet _))
      exact ⟨fun h => h, fun h => h, nofun, fun h => h, fun h => h⟩
    dsimp only
    split
    · exact hdone
    · exact hdone.destroyDuplex
  · exact h.stop.quiet ⟨fun h => h, fun h => h, fun h => h, nofun, fun h => h⟩

/-- The next message of the response. -/
private theorem Owned.receive (h : Owned s) {response : List ResponseFrame} {fr : ResponseFrame}
    (hrun : s.running = some call) (hresp : call.response = fr :: response)
    (careful : fr = .readyForQuery RFQ_STATUS_IDLE → (s.duplex call.id).phase ≠ .terminated →
      s.owner = some call.id → ¬s.Waiting call.id ∧ ¬s.MayOpen call response) :
    Owned (s.receive call response fr) := by
  have tail : ∀ {fr'}, fr' ∈ response → fr' ∈ call.response := by
    intro fr' hmem
    rw [hresp]
    exact List.mem_cons_of_mem _ hmem
  unfold System.receive
  cases fr with
  | errorResponse =>
    have h1 := h.quiet (f := fun d => d.onErrorResponse.onChunk .errorResponse)
      ((onErrorResponse_quiet (s.duplex call.id)).trans (onChunk_quiet _ .errorResponse))
    refine h1.advance { call with response, held := none } hrun rfl ?_ (h1.recovering call hrun)
    rintro (⟨fr', hmem, ho⟩ | ⟨_, herr, _⟩)
    · exact Or.inl ⟨fr', tail hmem, ho⟩
    · rw [modify_same, Duplex.onChunk] at herr
      split at herr <;> cases herr
  | other =>
    have h1 := h.quiet (f := fun d => d.onChunk .other) (onChunk_quiet (s.duplex call.id) .other)
    refine h1.advance { call with response, held := none } hrun rfl ?_ (h1.recovering call hrun)
    rintro (⟨fr', hmem, ho⟩ | ⟨hmode, herr, hrec, hno⟩)
    · exact Or.inl ⟨fr', tail hmem, ho⟩
    · refine Or.inr ⟨hmode, herr, hrec, ?_⟩
      rw [hresp]
      simpa using hno
  | readyForQuery status =>
    have h1 := h.quiet (f := fun d => d.onReadyForQuery status) (onReadyForQuery_quiet (s.duplex call.id) status)
    have hafter : ∀ held, Owned (({ s.modify call.id (fun d => d.onReadyForQuery status) with
        running := some { call with response, held }
        session := if status = RFQ_STATUS_IDLE then none else some call.id } : System ι).updateStatus
          call.id status) := by
      intro held
      have h2 := h1.advance { call with response, held } hrun rfl (by
        rintro (⟨fr', hmem, ho⟩ | ⟨hmode, herr, hrec, hno⟩)
        · exact Or.inl ⟨fr', tail hmem, ho⟩
        · refine Or.inr ⟨hmode, herr, hrec, ?_⟩
          rw [hresp]
          simpa using hno) (h1.recovering call hrun)
      have h3 := h2.setSession (if status = RFQ_STATUS_IDLE then none else some call.id) (by
        intro id hs
        split at hs
        · cases hs
        · rename_i hidle
          cases hs
          refine h.opening call hrun (Or.inl ⟨.readyForQuery status, ?_, by simpa [ResponseFrame.opens] using hidle⟩)
          rw [hresp]
          exact List.mem_cons_self ..)
      refine h3.updateStatus ?_
      intro hidle hphase howner
      subst hidle
      have hphase' : (s.duplex call.id).phase ≠ .terminated := by
        have hsame : ((s.modify call.id fun d => d.onReadyForQuery RFQ_STATUS_IDLE).duplex call.id).phase =
            (s.duplex call.id).phase := by rw [modify_same]; rfl
        rw [← hsame]
        exact hphase
      obtain ⟨hw, ho⟩ := careful rfl hphase' howner
      have hquiet := onReadyForQuery_quiet (s.duplex call.id) RFQ_STATUS_IDLE
      refine ⟨fun hw' => hw (Waiting.of_quiet (f := fun d => d.onReadyForQuery RFQ_STATUS_IDLE) hquiet hw'), ?_,
        by simp⟩
      intro call' hrun' _ hopen
      cases hrun'
      exact ho (MayOpen.of_modify (f := fun d => d.onReadyForQuery RFQ_STATUS_IDLE) hquiet.err hopen)
    dsimp only
    split
    · exact hafter _
    · exact (hafter _).quiet (onChunk_quiet _ _)

/-- Whether the session is left in the portal or transaction of an errored flush-boundary batch. -/
private theorem settlePortal_clear {synced : Bool} (hclear : ¬s.Waiting call.id)
    (hopen : ∀ call' ∈ s.running, call'.id = call.id → ¬s.MayOpen call' call'.response)
    (hsession : synced = true ∨ s.session ≠ some call.id) :
    Clear { s.modify call.id (fun d => { d with portalSuspended := false }) with
      session := if synced ∧ s.session = some call.id then none else s.session } call.id := by
  have hq := portalSuspended_quiet (s.duplex call.id) false
  refine ⟨fun hw => hclear (Waiting.of_quiet (f := fun d => { d with portalSuspended := false }) hq hw), ?_, ?_⟩
  · intro call' hrun hid ho
    exact hopen call' hrun hid (MayOpen.of_modify (f := fun d => { d with portalSuspended := false }) hq.err ho)
  · dsimp only
    split
    · simp
    · rename_i hs
      rcases hsession with hok | hne
      · intro he
        exact hs ⟨hok, he⟩
      · exact hne

private theorem Owned.settlePortal (h : Owned s) {synced : Bool}
    (hclean : (s.duplex call.id).errSeen = false → s.owner = some call.id)
    (careful : (s.duplex call.id).rfqSeenInCall = false → (s.duplex call.id).inTransaction = false →
      s.owner = some call.id → ¬s.Waiting call.id ∧
        (∀ call' ∈ s.running, call'.id = call.id → ¬s.MayOpen call' call'.response) ∧
        (synced = true ∨ s.session ≠ some call.id)) : Owned (s.settlePortal call synced) := by
  unfold System.settlePortal
  dsimp only
  split
  · rename_i herr
    have h1 := h.quiet (f := fun d => { d with portalSuspended := true }) (portalSuspended_quiet (s.duplex call.id) _)
    refine h1.setSession (some call.id) fun id he => ?_
    cases he
    exact hclean (by simpa using herr)
  · have h1 := h.quiet (f := fun d => { d with portalSuspended := false }) (portalSuspended_quiet (s.duplex call.id) _)
    split
    · rename_i hbranch
      simp only [Bool.and_eq_true, Bool.not_eq_true'] at hbranch
      have h2 := h1.setSession (if synced ∧ s.session = some call.id then none else s.session) (by
        intro id he
        split at he
        · cases he
        · exact h.session id he)
      refine Owned.release h2 fun howner => ?_
      obtain ⟨hw, ho, hs⟩ := careful hbranch.1 hbranch.2 howner
      exact settlePortal_clear hw ho hs
    · exact h1

omit [DecidableEq ι] in
private theorem flushHeld_quiet (d : Duplex) (call : Call ι) (status : UInt8) : d.Quiet
    (if d.tornDown || (call.kind.mode == .flushBoundary && !d.errSeen) then d
      else d.onChunk (.readyForQuery status)) := by
  split
  · exact ⟨fun h => h, fun h => h, fun h => h, fun h => h, fun h => h⟩
  · exact onChunk_quiet _ _

private theorem Owned.flushHeld (h : Owned s) : Owned (s.flushHeld call) := by
  unfold System.flushHeld
  split
  · exact h.quiet (flushHeld_quiet _ call _)
  · exact h

private theorem flushHeld_errSeen : ((s.flushHeld call).duplex call.id).errSeen = (s.duplex call.id).errSeen := by
  unfold System.flushHeld
  split
  · rw [modify_same]
    split
    · rfl
    · unfold Duplex.onChunk
      split <;> rfl
  · rfl

private theorem flushHeld_owner : (s.flushHeld call).owner = s.owner := by
  unfold System.flushHeld
  split <;> rfl

private theorem flushHeld_running : (s.flushHeld call).running = s.running := by
  unfold System.flushHeld
  split <;> rfl

/-- The response is complete: a clean flush-boundary batch suspends the portal of the owner. -/
private theorem Owned.flushCall (h : Owned s) (hrun : s.running = some call) (hkind : call.kind ≠ .rollback)
    (hrec : call.recovering = false) (hresp : call.response = []) : Owned (s.flushCall call) := by
  unfold System.flushCall
  dsimp only
  rw [flushHeld_errSeen]
  split
  · rename_i hmode
    split
    · rename_i herr
      have hrun' : (s.flushHeld call).running = some call := flushHeld_running.trans hrun
      refine h.flushHeld.advance { call with recovering := true } hrun' rfl ?_ ?_
      · rintro (⟨fr, hmem, ho⟩ | ⟨_, _, hr, _⟩)
        · exact Or.inl ⟨fr, hmem, ho⟩
        · cases hr
      · intro _
        rw [flushHeld_errSeen]
        exact ⟨herr, hkind⟩
    · rename_i herr
      have herr' : (s.duplex call.id).errSeen = false := by simpa using herr
      have howner : s.owner = some call.id :=
        h.opening call hrun (Or.inr ⟨hmode, herr', hrec, by rw [hresp]; simp⟩)
      apply Owned.finishCall
      unfold System.settlePortal
      dsimp only
      rw [flushHeld_errSeen, herr']
      refine Owned.setSession (h.flushHeld.quiet (portalSuspended_quiet _ _)) (some call.id) fun id he => ?_
      cases he
      rw [modify_owner, flushHeld_owner]
      exact howner
  · exact h.flushHeld.finishCall

theorem inCall_of_running (hrun : s.running = some call) (hkind : call.kind ≠ .rollback) : s.inCall call.id = true := by
  simp [inCall, hrun, hkind]

/-- Destroying a duplex during its call schedules nothing: the rollback waits for the call. -/
private theorem Clear.destroyDuplex (h : Clear s id) (hin : s.inCall id = true) : Clear (s.destroyDuplex id) id := by
  unfold System.destroyDuplex
  split
  · exact h
  · have h1 : Clear (s.modify id tearDown) id := h.quiet ⟨nofun, fun h => h, fun h => h, fun h => h, fun h => h⟩
    have hin' : (s.modify id tearDown).inCall id = true := hin
    unfold System.rollbackIfInTransaction
    rw [if_pos hin']
    split
    · exact h1.quiet ⟨fun h => h, fun h => h, fun h => h, nofun, fun h => h⟩
    · exact h1

private theorem rollbackIfInTransaction_owner : (s.rollbackIfInTransaction id).owner = s.owner := by
  unfold System.rollbackIfInTransaction
  split
  · split <;> rfl
  · rfl

private theorem destroyDuplex_owner : (s.destroyDuplex id).owner = s.owner := by
  unfold System.destroyDuplex
  split
  · rfl
  · rw [rollbackIfInTransaction_owner, modify_owner]

/-- The fields that `destroy()` leaves alone. -/
private theorem destroyDuplex_fields (s : System ι) (id : ι) :
    ((s.destroyDuplex id).duplex id).errSeen = (s.duplex id).errSeen ∧
    ((s.destroyDuplex id).duplex id).rfqSeenInCall = (s.duplex id).rfqSeenInCall ∧
    ((s.destroyDuplex id).duplex id).inTransaction = (s.duplex id).inTransaction := by
  unfold System.destroyDuplex
  split
  · exact ⟨rfl, rfl, rfl⟩
  · unfold System.rollbackIfInTransaction
    split
    · split
      · rw [modify_same, modify_same]
        exact ⟨rfl, rfl, rfl⟩
      · unfold System.decideRollback
        rw [modify_same, modify_same]
        exact ⟨rfl, rfl, rfl⟩
    · rw [modify_same]
      exact ⟨rfl, rfl, rfl⟩

/-- After `recoverySync`. -/
private theorem Owned.recoveredCall (h : Owned s) {ok : Bool} (hrun : s.running = some call)
    (hrec : call.recovering = true)
    (careful : s.Careful (.recovered ok)) : Owned (s.recoveredCall call ok) := by
  obtain ⟨herr, hkind⟩ := h.recovering call hrun hrec
  -- where the errored batch gives up the session
  have gives : (s.duplex call.id).rfqSeenInCall = false → (s.duplex call.id).inTransaction = false →
      s.owner = some call.id → ¬s.Waiting call.id ∧
        (∀ call' ∈ s.running, call'.id = call.id → ¬s.MayOpen call' call'.response) ∧
        (ok = true ∨ s.session ≠ some call.id) := by
    intro hrfq htx howner
    have hgives : s.givesUp (.recovered ok) = some call.id := by
      simp only [givesUp, hrun, hrfq, htx, howner, and_self, ↓reduceIte]
    obtain ⟨hw, ho, hs⟩ := careful call.id hgives
    refine ⟨hw, ho, ?_⟩
    rcases hs with hs | hs | hs
    · cases hs
    · cases hs
      exact Or.inl rfl
    · exact Or.inr hs
  unfold System.recoveredCall
  cases ok with
  | true => exact (h.settlePortal (fun he => absurd herr (by rw [he]; decide)) gives).finishCall
  | false =>
    obtain ⟨herr', hrfq', htx'⟩ := destroyDuplex_fields s call.id
    refine (h.destroyDuplex.settlePortal (fun he => ?_) ?_).finishCall
    · rw [herr', herr] at he
      cases he
    · rw [hrfq', htx', destroyDuplex_owner]
      intro hrfq htx howner
      obtain ⟨hw, ho, hs⟩ := gives hrfq htx howner
      have hclear : Clear s call.id := by
        refine ⟨hw, ho, ?_⟩
        rcases hs with hs | hs
        · cases hs
        · exact hs
      have hdestroyed := hclear.destroyDuplex (inCall_of_running hrun hkind)
      exact ⟨hdestroyed.waiting, hdestroyed.opening, Or.inr hdestroyed.session⟩

end Calls

/-! ### Steps and runs -/

section Steps

variable {s s' : System ι} {a : Action ι}

private theorem careful_clear {id : ι} (careful : s.Careful a) (hgives : s.owner = some id → s.givesUp a = some id)
    (hresp : ∀ call, responseAfter call a = call.response) (ha : a ≠ .frame) (hb : a ≠ .recovered true) :
    s.owner = some id → Clear s id := by
  intro howner
  obtain ⟨hw, ho, hs⟩ := careful id (hgives howner)
  refine ⟨hw, fun call hrun hid => ?_, ?_⟩
  · rw [← hresp call]
    exact ho call hrun hid
  · rcases hs with hs | hs | hs
    · exact absurd hs ha
    · exact absurd hs hb
    · exact hs

omit [DecidableEq ι] in
private theorem admitted_spec {id : ι} {op : Op} (h : s.admitted id = some op) :
    (s.duplex id).drain = .busy op ∧ (s.duplex id).batchAdmitted = true := by
  unfold admitted at h
  split at h
  · rename_i op' hd
    split at h
    · rename_i hst
      cases h
      exact ⟨hd, by simp [Duplex.batchAdmitted, hd, hst]⟩
    · cases h
  · cases h

private theorem Owned.step (h : Owned s) (careful : s.Careful a) (hstep : s.step a = some s') : Owned s' := by
  cases a with
  | write id chunk =>
    simp only [System.step] at hstep
    split at hstep
    · cases hstep
    · cases hstep
      exact h.quiet ⟨fun h => h, fun h => h, fun h => h, fun h => h, fun h => h⟩
  | deliver id count =>
    simp only [System.step] at hstep
    split at hstep
    · cases hstep
    · split at hstep
      · cases hstep
        exact h.quiet ⟨fun h => h, fun h => h, fun h => h, fun h => h, fun h => h⟩
      · cases hstep
        exact h.quiet ⟨fun h => h, nofun, fun h => h, fun h => h, fun h => h⟩
  | process id => exact h.process hstep
  | tail id =>
    simp only [System.step] at hstep
    split at hstep
    · cases hstep
    · cases hstep
      exact (h.quiet ⟨fun h => h, fun h => h, fun h => h, fun h => h, fun h => h⟩).judgePortal
  | pgliteReady id =>
    simp only [System.step] at hstep
    split at hstep
    · rename_i op hop
      cases hstep
      have h1 : Owned (s.modify id fun d => { d with drain := .busy { op with stage := .queued } }) :=
        h.quiet ⟨fun h => h, nofun, fun h => h, fun h => h, fun h => h⟩
      refine h1.enqueue ?_
      rw [modify_same]
      rintro (hk | hl)
      · cases hk
      · exact h.waiting id (Or.inl (Or.inl ⟨hl, Or.inl (admitted_spec hop).2⟩))
    · cases hstep
  | pgliteNotReady id =>
    simp only [System.step] at hstep
    split at hstep
    · cases hstep
      exact h.quiet ⟨fun h => h, nofun, fun h => h, fun h => h, fun h => h⟩
    · cases hstep
  | recoveryReady id =>
    simp only [System.step] at hstep
    split at hstep
    · rename_i hadm
      cases hstep
      have h1 : Owned (s.modify id fun d => { d with recovery := some .queued }) :=
        h.quiet ⟨fun h => h, fun h => h, nofun, fun h => h, fun h => h⟩
      refine h1.enqueue ?_
      rw [modify_same]
      rintro (hk | hl)
      · cases hk
      · exact h.waiting id (Or.inl (Or.inl ⟨hl, Or.inr hadm⟩))
    · cases hstep
  | recoveryNotReady id =>
    simp only [System.step] at hstep
    split at hstep
    · cases hstep
      have h1 : Owned (s.modify id fun d => { d with recovery := none }) :=
        h.quiet ⟨fun h => h, fun h => h, nofun, fun h => h, fun h => h⟩
      split
      · exact h1
      · exact h1.destroyDuplex
    · cases hstep
  | queryRollback id ok =>
    simp only [System.step] at hstep
    split at hstep
    · rename_i hquery
      cases hstep
      split
      · have h1 : Owned (s.modify id fun d => { d with rollback := .queued }) :=
          h.quiet ⟨fun h => h, fun h => h, fun h => h, nofun, fun h => h⟩
        exact h1.enqueue fun _ => h.waiting id (Or.inl (Or.inr hquery))
      · exact h.quiet ⟨fun h => h, fun h => h, fun h => h, nofun, fun h => h⟩
    · cases hstep
  | start response =>
    simp only [System.step] at hstep
    split at hstep
    · rename_i hrun hmutex
      cases hstep
      exact h.start hmutex
    · cases hstep
  | frame =>
    simp only [System.step] at hstep
    split at hstep
    · rename_i call hrun
      split at hstep
      · rename_i fr response hresp
        cases hstep
        refine h.receive hrun hresp fun hfr hphase howner => ?_
        subst hfr
        have hgives : s.givesUp .frame = some call.id := by simp [givesUp, hrun, hresp, hphase, howner]
        obtain ⟨hw, ho, _⟩ := careful call.id hgives
        refine ⟨hw, ?_⟩
        have := ho call hrun rfl
        rwa [responseAfter, hresp] at this
      · cases hstep
    · cases hstep
  | flush =>
    simp only [System.step] at hstep
    split at hstep
    · rename_i call hrun
      split at hstep
      · cases hstep
      · rename_i hguard
        cases hstep
        simp only [not_or, ne_eq, not_not, Bool.not_eq_true] at hguard
        exact h.flushCall hrun hguard.1 hguard.2.1 hguard.2.2
    · cases hstep
  | recovered ok =>
    simp only [System.step] at hstep
    split at hstep
    · rename_i call hrun
      split at hstep
      · rename_i hrec
        cases hstep
        exact h.recoveredCall hrun hrec careful
      · cases hstep
    · cases hstep
  | throw =>
    simp only [System.step] at hstep
    split at hstep
    · split at hstep
      · cases hstep
      · cases hstep
        exact h.throwCall
    · cases hstep
  | rolledBack ok =>
    simp only [System.step] at hstep
    split at hstep
    · rename_i call hrun
      split at hstep
      · cases hstep
        split
        · refine Owned.setSession (h.finishCall.quiet ?_) none nofun
          exact ⟨fun h => h, fun h => h, fun h => h, fun h => h, fun h => h⟩
        · exact h.finishCall
      · cases hstep
    · cases hstep
  | releaseAbandonedPortalHold id =>
    cases hstep
    exact h.releasePortal
  | final id =>
    simp only [System.step] at hstep
    split at hstep
    · cases hstep
    · cases hstep
      apply Owned.rollbackIfInTransaction
      exact h.quiet ⟨fun h => h, fun h => h, fun h => h, fun h => h, fun h => h⟩
  | destroy id =>
    simp only [System.step] at hstep
    split at hstep
    · cases hstep
    · cases hstep
      exact h.destroyDuplex
  | decide id =>
    simp only [System.step] at hstep
    split at hstep
    · cases hstep
      exact h.decideRollback
    · cases hstep
  | finalRelease id =>
    simp only [System.step] at hstep
    split at hstep
    · cases hstep
      have hq : (s.duplex id).Quiet { s.duplex id with finalWaits := false } :=
        ⟨fun h => h, fun h => h, fun h => h, fun h => h, fun h => h⟩
      have h1 := h.quiet (f := fun d => { d with finalWaits := false }) hq
      split
      · exact h1
      · refine Owned.quiet (Owned.release h1 fun howner => ?_)
          ⟨fun h => h, fun h => h, fun h => h, fun h => h, fun h => h⟩
        exact (careful_clear careful (fun ho => if_pos ho) (fun _ => rfl) nofun nofun howner).quiet hq
    · cases hstep
  | destroyCancel id =>
    simp only [System.step] at hstep
    split at hstep
    · cases hstep
      have hq : (s.duplex id).Quiet { s.duplex id with destroyWaits := false } :=
        ⟨fun h => h, fun h => h, fun h => h, fun h => h, fun h => h⟩
      refine Owned.cancel (h.quiet (f := fun d => { d with destroyWaits := false }) hq) fun howner => ?_
      exact (careful_clear careful (fun ho => if_pos ho) (fun _ => rfl) nofun nofun howner).quiet hq
    · cases hstep
  | terminateRelease id =>
    simp only [System.step] at hstep
    split at hstep
    · cases hstep
      have hq : (s.duplex id).Quiet { s.duplex id with drain := .active } :=
        ⟨fun h => h, nofun, fun h => h, fun h => h, fun h => h⟩
      have h1 := h.quiet (f := fun d => { d with drain := .active }) hq
      refine Owned.quiet (Owned.release h1 fun howner => ?_)
        ⟨fun h => h, fun h => h, fun h => h, fun h => h, fun h => h⟩
      exact (careful_clear careful (fun ho => if_pos ho) (fun _ => rfl) nofun nofun howner).quiet hq
    · cases hstep

theorem startCall_running {id : ι} {kind : CallKind} {response : List ResponseFrame} {call : Call ι}
    (hidle : s.running = none) (h : (s.startCall id kind response).running = some call) :
    call.id = id ∧ (kind = .rollback ∨ (s.duplex id).live = true) := by
  unfold System.startCall at h
  cases kind with
  | rollback =>
    cases h
    exact ⟨rfl, Or.inl rfl⟩
  | batch mode =>
    dsimp only at h
    split at h
    · rename_i hl
      cases h
      exact ⟨rfl, Or.inr hl⟩
    · rw [modify_running, hidle] at h
      cases h
  | recovery =>
    dsimp only at h
    split at h
    · rename_i hl
      cases h
      exact ⟨rfl, Or.inr hl⟩
    · rw [modify_running, hidle] at h
      cases h

omit [DecidableEq ι] in
private theorem owned_initial (cap : ι → Nat) : Owned (initial true cap) := by
  refine ⟨rfl, ?_, nofun, nofun, nofun⟩
  rintro id (hw | ⟨entry, hmem, _⟩)
  · rcases hw with ⟨_, ha | hr⟩ | hq
    · cases ha
    · cases hr
    · cases hq
  · cases hmem

/-- Every operation that starts, a batch, a recovery Sync or a ROLLBACK, starts while its duplex owns the lock and while
the PostgreSQL session is in no other duplex's transaction or portal. -/
theorem execution_ownership (cap : ι → Nat) {response : List ResponseFrame} {call : Call ι}
    (run : Run System.step Careful (initial true cap) s) (hstart : s.step (.start response) = some s')
    (hcall : s'.running = some call) :
    s.owner = some call.id ∧ ∀ id, s.session = some id → id = call.id := by
  have owned : Owned s := run.invariant (owned_initial cap) fun t a u h hc hs => h.step hc hs
  simp only [System.step] at hstart
  split at hstart
  · rename_i id kind mutex hidle hmutex
    cases hstart
    obtain ⟨hid, hlive⟩ := startCall_running (s := { s with mutex }) hidle hcall
    have howner : s.owner = some id :=
      owned.waiting id (Or.inr ⟨(id, kind), by rw [hmutex]; exact List.mem_cons_self .., rfl, hlive⟩)
    rw [hid]
    refine ⟨howner, fun other hs => ?_⟩
    exact Option.some.inj ((owned.session other hs).symm.trans howner)
  · cases hstart

end Steps

/-! ### Runs -/

/-- One batch from its `write` to the end of its drain, of `messages` messages and answered by `response`. -/
def served (id : Bool) (chunk : Bytes) (messages : Nat) (response : List ResponseFrame) : List (Action Bool) :=
  [.write id chunk, .deliver id 1] ++ List.replicate messages (.process id) ++ [.pgliteReady id, .start response] ++
    response.map (fun _ => .frame) ++ [.flush, .process id, .tail id]

def startupPacket : Bytes := encodeUInt32BE 9 ++ [0, 3, 0, 0, 0]

/-- `Parse "SELECT 1"`, `Bind`, `Execute` of one row, `Flush`: a cursor's read. -/
def cursorRead : Bytes :=
  encodeMessage PARSE [0, 0x53, 0x45, 0x4c, 0x45, 0x43, 0x54, 0x20, 0x31, 0, 0, 0] ++
    encodeMessage BIND [0, 0, 0, 0, 0, 0, 0, 0] ++ encodeMessage EXECUTE [0, 0, 0, 0, 1] ++ encodeMessage FLUSH []

/-- `Close` of the portal and `Sync`. -/
def cursorClose : Bytes := encodeMessage CLOSE [0x50, 0] ++ encodeMessage SYNC []

def readyForQueryIdle : ResponseFrame := .readyForQuery RFQ_STATUS_IDLE

/-- A cursor is read once, then closed and its client released in one go while a second client waits. -/
def closeAndRelease : List (Action Bool) :=
  served false startupPacket 1 [.other, readyForQueryIdle] ++
  served false cursorRead 4 [.other, .other, .other, .other] ++
    [.write true startupPacket, .deliver true 1, .process true, .write false cursorClose, .deliver false 1,
      .process false, .process false, .releaseAbandonedPortalHold false, .recoveryReady false, .pgliteReady false,
      .start [readyForQueryIdle], .frame, .flush]

/-- The recovery Sync gives up the session, and the client's own Close and Sync starts while the second client owns
it. -/
theorem closeAndRelease_unowned :
    ¬∀ (s s' : System Bool) (response : List ResponseFrame) (call : Call Bool),
      Run System.step (fun _ _ => True) (initial true fun _ => MAX_MESSAGE_LENGTH) s →
      s.step (.start response) = some s' → s'.running = some call → s.owner = some call.id := by
  intro h
  obtain ⟨s, run, howner, hstart⟩ : ∃ s : System Bool,
      Run System.step (fun _ _ => True) (initial true fun _ => MAX_MESSAGE_LENGTH) s ∧ s.owner = some true ∧
        ((s.step (.start [.other, readyForQueryIdle])).bind running).map Call.id = some false :=
    exists_run closeAndRelease (by decide)
  rw [Option.map_eq_some_iff] at hstart
  obtain ⟨call, hrunning, hid⟩ := hstart
  rw [Option.bind_eq_some_iff] at hrunning
  obtain ⟨s', hstep, hcall⟩ := hrunning
  have hown := h s s' _ call run hstep hcall
  rw [howner, hid] at hown
  cases hown

/-- The cursor's read, in a run all of whose steps are careful. -/
theorem execution_ownership_read : ∃ s : System Bool, ∃ call : Call Bool,
    s.running = none ∧ call.kind = .batch .flushBoundary ∧ s.owner = some call.id ∧
      ∀ id, s.session = some id → id = call.id := by
  obtain ⟨s, run, hidle, hstart⟩ : ∃ s : System Bool,
      Run System.step Careful (initial true fun _ => MAX_MESSAGE_LENGTH) s ∧ s.running = none ∧
        ((s.step (.start [.other])).bind running).map Call.kind = some (.batch .flushBoundary) :=
    exists_run (served false startupPacket 1 [.other, readyForQueryIdle] ++ [.write false cursorRead,
      .deliver false 1, .process false, .process false, .process false, .process false, .pgliteReady false]) (by decide)
  rw [Option.map_eq_some_iff] at hstart
  obtain ⟨call, hrunning, hkind⟩ := hstart
  rw [Option.bind_eq_some_iff] at hrunning
  obtain ⟨s', hstep, hcall⟩ := hrunning
  exact ⟨s, call, hidle, hkind, execution_ownership _ run hstep hcall⟩

end System

end PgliteBridge
