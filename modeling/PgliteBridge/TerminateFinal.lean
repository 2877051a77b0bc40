import PgliteBridge.TeardownRollback
import PgliteBridge.EndOfStream

/-!
# Terminate is final

Behind a Terminate nothing of its client is left to be sent: no later step brings back input, a buffered pipeline or a
capture, and the drain loop only waits for its rollback (`Final`, `final_step`).  So the session is given up once and
the end of the stream is pushed once, whatever follows (`terminate_final`).
-/

namespace PgliteBridge

open TransitionSystem

/-- Nothing of the client's is left to send. -/
structure Duplex.Cleared (d : Duplex) : Prop where
  phase : d.phase = .terminated
  input : d.input = []
  pipeline : d.pipeline = []
  copyCapture : d.copyCapture = none

/-- The drain loop of a terminated duplex: it waits for the rollback, or has nothing to do. -/
def Duplex.Ending (d : Duplex) : Prop := d.drain = .terminating ∨ d.drain = .active ∨ d.drain = .idle

private theorem Duplex.Ending.stage {d : Duplex} (h : d.Ending) : d.stage = none := by
  rcases h with h | h | h <;> simp [Duplex.stage, h]

/-- A change that moves neither the drain loop nor the end of the stream, and brings nothing back. -/
structure Duplex.Rests (d d' : Duplex) : Prop where
  cleared : d.Cleared → d'.Cleared
  drain : d'.drain = d.drain
  tornDown : d'.tornDown = d.tornDown
  eofs : d'.eofs = d.eofs

namespace Duplex.Rests

private theorem refl (d : Duplex) : d.Rests d := ⟨fun h => h, rfl, rfl, rfl⟩

private theorem trans {d d' d'' : Duplex} (h : d.Rests d') (h' : d'.Rests d'') : d.Rests d'' where
  cleared hc := h'.cleared (h.cleared hc)
  drain := h'.drain.trans h.drain
  tornDown := h'.tornDown.trans h.tornDown
  eofs := h'.eofs.trans h.eofs

/-- A change of other fields. -/
private theorem of_same {d d' : Duplex} (hphase : d'.phase = d.phase) (hinput : d'.input = d.input)
    (hpipeline : d'.pipeline = d.pipeline) (hcapture : d'.copyCapture = d.copyCapture) (hdrain : d'.drain = d.drain)
    (htorn : d'.tornDown = d.tornDown) (hpushed : d'.eofs = d.eofs) : d.Rests d' where
  cleared h := ⟨hphase.trans h.phase, hinput.trans h.input, hpipeline.trans h.pipeline, hcapture.trans h.copyCapture⟩
  drain := hdrain
  tornDown := htorn
  eofs := hpushed

end Duplex.Rests

private theorem Duplex.rests_push (d : Duplex) {p : Push} (hp : p ≠ .eof) : d.Rests (d.push p) := by
  exact .of_same rfl rfl rfl rfl rfl rfl (d.eofs_push hp)

private theorem Duplex.rests_onChunk (d : Duplex) (fr : ResponseFrame) : d.Rests (d.onChunk fr) := by
  unfold Duplex.onChunk
  split
  · exact d.rests_push (by simp)
  · exact .refl d

namespace SessionLock

variable {ι : Type} [DecidableEq ι] {l : SessionLock ι} {id other : ι}

/-- An operation settles no call of `id`, does not make it wait, and does not give it the session. -/
structure Spares (l : SessionLock ι) (id : ι) (outcome : Outcome ι) : Prop where
  settled : ∀ settlement ∈ outcome.settled, settlement.id ≠ id
  waiting : id ∉ outcome.lock.waitQueue
  owner : outcome.lock.owner = some id → l.owner = some id

omit [DecidableEq ι] in
private theorem spares_refl (h : id ∉ l.waitQueue) : l.Spares id { lock := l } :=
  ⟨fun _ hmem => by (cases hmem), h, fun ho => ho⟩

omit [DecidableEq ι] in
private theorem spares_drainWaitQueue (h : id ∉ l.waitQueue) :
    l.Spares id (drainWaitQueue { l with owner := none }) := by
  rcases l with ⟨owner, _ | ⟨next, rest⟩⟩
  · exact ⟨fun _ hmem => by (cases hmem), h, fun ho => by (cases ho)⟩
  · have hne : next ≠ id := fun he => h (he ▸ List.mem_cons_self)
    refine ⟨?_, fun hmem => h (List.mem_cons_of_mem _ hmem), fun ho => absurd (Option.some.inj ho) hne⟩
    intro settlement hmem
    rw [List.mem_singleton.1 hmem]
    exact hne

private theorem spares_release (h : id ∉ l.waitQueue) : l.Spares id (l.release other) := by
  unfold release
  split
  · obtain ⟨hs, hw, ho⟩ := spares_drainWaitQueue h
    exact ⟨hs, hw, ho⟩
  · exact spares_refl h

private theorem spares_updateStatus (h : id ∉ l.waitQueue) (status : UInt8) :
    l.Spares id (l.updateStatus other status) := by
  unfold updateStatus
  split
  · obtain ⟨hs, hw, ho⟩ := spares_drainWaitQueue h
    exact ⟨hs, hw, ho⟩
  · exact spares_refl h

private theorem spares_cancel (h : id ∉ l.waitQueue) : l.Spares id (l.cancel other) := by
  have hdrained :
      l.Spares id (if l.owner = some other then drainWaitQueue { l with owner := none } else { lock := l }) := by
    split
    · exact spares_drainWaitQueue h
    · exact spares_refl h
  unfold cancel
  dsimp only
  generalize (if l.owner = some other then drainWaitQueue { l with owner := none } else { lock := l }) = drained
    at hdrained
  obtain ⟨hs, hw, ho⟩ := hdrained
  refine ⟨?_, fun hmem => hw (List.mem_of_mem_filter hmem), ho⟩
  intro settlement hmem
  rcases List.mem_append.1 hmem with hmem | hmem
  · exact hs settlement hmem
  · obtain ⟨waiter, hwaiter, rfl⟩ := List.mem_map.1 hmem
    rintro rfl
    exact hw (List.mem_of_mem_filter hwaiter)

private theorem spares_acquire (h : id ∉ l.waitQueue) (hne : other ≠ id) : l.Spares id (l.acquire other) := by
  have hone : ∀ settlement ∈ [Settlement.resolved other], settlement.id ≠ id := by
    intro settlement hmem
    rw [List.mem_singleton.1 hmem]
    exact hne
  unfold acquire
  split
  · exact ⟨hone, h, fun ho => absurd (Option.some.inj ho) hne⟩
  · split
    · exact ⟨hone, h, fun ho => ho⟩
    · refine ⟨fun _ hmem => by (cases hmem), ?_, fun ho => ho⟩
      intro hmem
      rcases List.mem_append.1 hmem with hmem | hmem
      · exact h hmem
      · exact hne (List.mem_singleton.1 hmem).symm

/-- Who does not wait does not own the session behind its `release`. -/
private theorem release_gives (h : id ∉ l.waitQueue) : (l.release id).lock.owner ≠ some id := by
  unfold release
  split
  · rcases l with ⟨owner, _ | ⟨next, rest⟩⟩
    · exact fun ho => by (cases ho)
    · exact fun ho => h (Option.some.inj ho ▸ List.mem_cons_self)
  · assumption

end SessionLock

namespace System

variable {ι : Type} [DecidableEq ι] {s s' s'' t : System ι} {id other : ι} {call : Call ι}

/-- A change that lets the drain loop of `id` rest, and does not bring the session to it. -/
structure Rest (id : ι) (s s' : System ι) : Prop where
  duplex : (s.duplex id).Rests (s'.duplex id)
  waiting : id ∉ s.waitQueue → id ∉ s'.waitQueue
  owner : s'.owner = some id → s.owner = some id

omit [DecidableEq ι] in
private theorem Rest.refl (s : System ι) : Rest id s s := ⟨.refl _, fun h => h, fun h => h⟩

omit [DecidableEq ι] in
private theorem Rest.trans (h : Rest id s s') (h' : Rest id s' s'') : Rest id s s'' where
  duplex := h.duplex.trans h'.duplex
  waiting hq := h'.waiting (h.waiting hq)
  owner ho := h.owner (h'.owner ho)

omit [DecidableEq ι] in
/-- Of another component. -/
private theorem Rest.of_eq (h : Rest id s s') (hduplex : s''.duplex = s'.duplex) (hlock : s''.lock = s'.lock) :
    Rest id s s'' where
  duplex := hduplex ▸ h.duplex
  waiting hq := by
    rw [waitQueue, hlock]
    exact h.waiting hq
  owner ho := by
    rw [System.owner, hlock] at ho
    exact h.owner ho

private theorem rest_modify {f : Duplex → Duplex} (h : other = id → (s.duplex id).Rests (f (s.duplex id))) :
    Rest id s (s.modify other f) := by
  refine ⟨?_, fun hq => hq, fun ho => ho⟩
  by_cases hid : other = id
  · subst hid
    rw [modify_same]
    exact h rfl
  · rw [modify_other (Ne.symm hid)]
    exact .refl _

/-- A change of fields that do not count. -/
private theorem rest_same {f : Duplex → Duplex} (h : (s.duplex id).Rests (f (s.duplex id))) :
    Rest id s (s.modify other f) :=
  rest_modify fun _ => h

/-- A change of another duplex. -/
private theorem rest_other {f : Duplex → Duplex} (hne : other ≠ id) : Rest id s (s.modify other f) :=
  rest_modify fun h => absurd h hne

/-! ### The lock -/

private theorem rest_settleOne {settlement : Settlement ι} (h : settlement.id ≠ id) :
    Rest id s (s.settleOne settlement) := by
  cases settlement with
  | resolved other =>
    simp only [settleOne]
    exact rest_other h
  | rejected other =>
    simp only [settleOne]
    exact rest_other h

private theorem rest_applyLock {l : SessionLock ι} {outcome : SessionLock.Outcome ι} (hl : s.lock = some l)
    (h : l.Spares id outcome) : Rest id s (s.applyLock outcome) := by
  have hsettle : ∀ (settled : List (Settlement ι)) (t : System ι), (∀ settlement ∈ settled, settlement.id ≠ id) →
      Rest id t (settled.foldl settleOne t) := by
    intro settled
    induction settled with
    | nil => exact fun t _ => .refl t
    | cons settlement settled ih =>
      intro t hsettled
      refine (rest_settleOne (hsettled settlement List.mem_cons_self)).trans (ih _ ?_)
      exact fun settlement' hmem => hsettled settlement' (List.mem_cons_of_mem _ hmem)
  have hlock : Rest id s { s with lock := some outcome.lock } := by
    refine ⟨.refl _, fun _ => h.waiting, fun ho => ?_⟩
    rw [owner_of_lock hl]
    exact h.owner ho
  exact hlock.trans (hsettle outcome.settled _ h.settled)

omit [DecidableEq ι] in
private theorem not_mem_waitQueue {l : SessionLock ι} (hl : s.lock = some l) (hq : id ∉ s.waitQueue) :
    id ∉ l.waitQueue := by
  rw [waitQueue, hl] at hq
  exact hq

private theorem rest_release (hq : id ∉ s.waitQueue) : Rest id s (s.release other) := by
  unfold release
  split
  · rename_i l hl
    exact rest_applyLock hl (SessionLock.spares_release (not_mem_waitQueue hl hq))
  · exact .refl s

private theorem rest_cancel (hq : id ∉ s.waitQueue) : Rest id s (s.cancel other) := by
  unfold cancel
  split
  · rename_i l hl
    exact rest_applyLock hl (SessionLock.spares_cancel (not_mem_waitQueue hl hq))
  · exact .refl s

private theorem rest_updateStatus (hq : id ∉ s.waitQueue) (status : UInt8) :
    Rest id s (s.updateStatus other status) := by
  unfold updateStatus
  split
  · rename_i l hl
    split
    · exact .refl s
    · exact rest_applyLock hl (SessionLock.spares_updateStatus (not_mem_waitQueue hl hq) status)
  · exact .refl s

private theorem rest_acquireSession (hq : id ∉ s.waitQueue) (hne : other ≠ id) (batch : Bytes) (mode : RfqMode) :
    Rest id s (s.acquireSession other batch mode) := by
  have hbusy : Rest id s (s.modify other fun d => { d with drain := .busy { batch, mode, stage := .acquiring } }) :=
    rest_other hne
  unfold acquireSession
  dsimp only
  split
  · rename_i l hl
    exact hbusy.trans (rest_applyLock hl (SessionLock.spares_acquire (not_mem_waitQueue hl hq) hne))
  · exact hbusy.trans (rest_settleOne hne)

/-! ### Teardown and recovery -/

private theorem rest_decideRollback : Rest id s (s.decideRollback other) :=
  rest_same (.of_same rfl rfl rfl rfl rfl rfl rfl)

private theorem rest_rollbackIfInTransaction : Rest id s (s.rollbackIfInTransaction other) := by
  unfold rollbackIfInTransaction
  split
  · split
    · exact rest_same (.of_same rfl rfl rfl rfl rfl rfl rfl)
    · exact rest_decideRollback
  · exact .refl s

private theorem rest_destroyDuplex (hne : other ≠ id) : Rest id s (s.destroyDuplex other) := by
  unfold destroyDuplex
  split
  · exact .refl s
  · exact (rest_other hne).trans rest_rollbackIfInTransaction

private theorem rest_deliverRecoverySync : Rest id s (s.deliverRecoverySync other) := by
  unfold deliverRecoverySync
  split
  · exact .refl s
  · split <;> exact rest_same (.of_same rfl rfl rfl rfl rfl rfl rfl)

private theorem rest_releasePortal : Rest id s (s.releasePortal other) := by
  unfold releasePortal
  split
  · exact .refl s
  · split
    · exact rest_deliverRecoverySync
    · split
      · exact rest_same (.of_same rfl rfl rfl rfl rfl rfl rfl)
      · exact .refl s

private theorem rest_judgePortal : Rest id s (s.judgePortal other) := by
  have hrequest : Rest id s (s.modify other fun d => { d with portalRecoveryRequested := false }) :=
    rest_same (.of_same rfl rfl rfl rfl rfl rfl rfl)
  unfold judgePortal
  split
  · dsimp only
    split
    · exact hrequest.trans rest_deliverRecoverySync
    · exact hrequest
  · exact .refl s

/-! ### The drain loop of another duplex -/

private theorem rest_processNext (hq : id ∉ s.waitQueue) (hne : other ≠ id) (d : Duplex) (next : Duplex.Next) :
    Rest id s (s.processNext other d next) := by
  cases next with
  | again =>
    simp only [processNext]
    exact rest_other hne
  | run batch mode =>
    have htaken : Rest id s (s.modify other fun _ => d) := rest_other hne
    exact htaken.trans (rest_acquireSession (htaken.waiting hq) hne batch mode)
  | terminate => exact (rest_other hne).trans rest_rollbackIfInTransaction
  | throw message =>
    simp only [processNext]
    exact rest_other hne

private theorem rest_process (hq : id ∉ s.waitQueue) (hne : other ≠ id) (hs : s.process other = some s') :
    Rest id s s' := by
  unfold process at hs
  split at hs
  · split at hs
    · cases hs
      exact rest_other hne
    · cases hs
      exact rest_other hne
    · cases hs
      unfold processTaken
      dsimp only
      split
      · exact rest_processNext hq hne _ _
      · exact rest_processNext hq hne _ _
  · cases hs
    exact (rest_other hne).trans (rest_destroyDuplex hne)
  · cases hs

/-! ### Calls -/

/-- A callback of the queue is called for a duplex that has no batch there. -/
private theorem rest_startCall {kind : CallKind} (hkind : other = id → batchId (id, kind) = none)
    (response : List ResponseFrame) : Rest id s (s.startCall other kind response) := by
  unfold startCall
  cases kind with
  | rollback =>
    exact Rest.of_eq (rest_same (.of_same rfl rfl rfl rfl rfl rfl rfl) :
      Rest id s (s.modify other fun d => { d with rollback := .running })) rfl rfl
  | batch mode =>
    have hne : other ≠ id := fun he => by cases hkind he
    dsimp only
    split
    · exact Rest.of_eq (rest_other hne : Rest id s (s.modify other Duplex.startCall)) rfl rfl
    · exact rest_other hne
  | recovery =>
    dsimp only
    split
    · exact Rest.of_eq (rest_same (.of_same rfl rfl rfl rfl rfl rfl rfl) :
        Rest id s (s.modify other fun d => { d.startCall with recovery := some .running })) rfl rfl
    · exact rest_same (.of_same rfl rfl rfl rfl rfl rfl rfl)

private theorem rest_receive (hq : id ∉ s.waitQueue) (response : List ResponseFrame) (fr : ResponseFrame) :
    Rest id s (s.receive call response fr) := by
  cases fr with
  | errorResponse =>
    have herror : (s.duplex id).Rests (s.duplex id).onErrorResponse := .of_same rfl rfl rfl rfl rfl rfl rfl
    have hchunk : Rest id s (s.modify call.id fun d => d.onErrorResponse.onChunk .errorResponse) :=
      rest_same (herror.trans (Duplex.rests_onChunk _ _))
    exact hchunk.of_eq rfl rfl
  | other =>
    have hchunk : Rest id s (s.modify call.id fun d => d.onChunk .other) := rest_same (Duplex.rests_onChunk _ _)
    exact hchunk.of_eq rfl rfl
  | readyForQuery status =>
    rw [receive_readyForQuery]
    have hrecord : Rest id s (s.modify call.id fun d => d.onReadyForQuery status) :=
      rest_same (.of_same rfl rfl rfl rfl rfl rfl rfl)
    have hstatus : ∀ u : System ι, Rest id s u → Rest id s (u.updateStatus call.id status) :=
      fun u hu => hu.trans (rest_updateStatus (hu.waiting hq) status)
    have hnote : Rest id s (s.noteReadyForQuery call response status) := hstatus _ (hrecord.of_eq rfl rfl)
    split
    · exact hnote
    · exact hnote.trans (rest_same (Duplex.rests_onChunk _ _))

private theorem rest_finishCall (hbatch : call.id = id → batchId (id, call.kind) = none) :
    Rest id s (s.finishCall call) := by
  have hidle : Rest id s { s with running := none } := (Rest.refl s).of_eq rfl rfl
  unfold finishCall
  dsimp only
  split
  · rename_i mode hkind
    refine hidle.trans (rest_other fun he => ?_)
    rw [hkind] at hbatch
    cases hbatch he
  · exact hidle.trans (rest_same (.of_same rfl rfl rfl rfl rfl rfl rfl))
  · exact hidle.trans (rest_same (.of_same rfl rfl rfl rfl rfl rfl rfl))

private theorem rest_settlePortal (hq : id ∉ s.waitQueue) (synced : Bool) : Rest id s (s.settlePortal call synced) := by
  have hportal : ∀ b, Rest id s (s.modify call.id fun d => { d with portalSuspended := b }) :=
    fun b => rest_same (.of_same rfl rfl rfl rfl rfl rfl rfl)
  have hrelease : ∀ u : System ι, Rest id s u → Rest id s (u.release call.id) :=
    fun u hu => hu.trans (rest_release (hu.waiting hq))
  unfold settlePortal
  dsimp only
  split
  · exact (hportal true).of_eq rfl rfl
  · split
    · exact hrelease _ ((hportal false).of_eq rfl rfl)
    · exact hportal false

private theorem rest_flushHeld : Rest id s (s.flushHeld call) := by
  unfold flushHeld
  split
  · refine rest_modify fun _ => ?_
    split
    · exact .refl _
    · exact Duplex.rests_onChunk _ _
  · exact .refl s

private theorem rest_flushCall (hq : id ∉ s.waitQueue) (hbatch : call.id = id → batchId (id, call.kind) = none) :
    Rest id s (s.flushCall call) := by
  have hheld : Rest id s (s.flushHeld call) := rest_flushHeld
  unfold flushCall
  dsimp only
  split
  · split
    · exact hheld.of_eq rfl rfl
    · have hportal : Rest id s ((s.flushHeld call).settlePortal call true) :=
        hheld.trans (rest_settlePortal (hheld.waiting hq) true)
      exact hportal.trans (rest_finishCall hbatch)
  · exact hheld.trans (rest_finishCall hbatch)

/-- Only a Flush batch recovers. -/
private theorem rest_recoveredCall (hq : id ∉ s.waitQueue) (hne : call.id ≠ id) (ok : Bool) :
    Rest id s (s.recoveredCall call ok) := by
  have hfailed : Rest id s (if ok then s else s.destroyDuplex call.id) := by
    split
    · exact .refl s
    · exact rest_destroyDuplex hne
  unfold recoveredCall
  exact (hfailed.trans (rest_settlePortal (hfailed.waiting hq) ok)).trans (rest_finishCall fun he => absurd he hne)

/-- A recovery that fails behind a Terminate destroys nothing. -/
private theorem rest_throwCall (hbatch : call.id = id → batchId (id, call.kind) = none)
    (hphase : (s.duplex id).phase = .terminated) : Rest id s (s.throwCall call) := by
  have hidle : Rest id s { s with running := none } := (Rest.refl s).of_eq rfl rfl
  unfold throwCall
  dsimp only
  split
  · rename_i mode hkind
    refine hidle.trans (rest_other fun he => ?_)
    rw [hkind] at hbatch
    cases hbatch he
  · have hdone : Rest id s ({ s with running := none }.modify call.id fun d => callDone { d with recovery := none }) :=
      hidle.trans (rest_same (.of_same rfl rfl rfl rfl rfl rfl rfl))
    split
    · exact hdone
    · rename_i hlive
      refine hdone.trans (rest_destroyDuplex fun he => hlive ?_)
      rw [he, modify_same]
      exact hphase
  · exact hidle.trans (rest_same (.of_same rfl rfl rfl rfl rfl rfl rfl))

/-! ### A step behind a Terminate -/

/-- What holds in every run. -/
structure Settled (s : System ι) : Prop where
  scheduled : WellScheduled s
  recovering : ∀ call ∈ s.running, call.recovering = true → call.kind.mode = .flushBoundary

private theorem Settled.step {a : Action ι} (h : Settled s) (hs : s.step a = some s') : Settled s' :=
  ⟨h.scheduled.step hs, recovering_step (q := fun kind => kind.mode = .flushBoundary) (fun _ hmode => hmode)
    h.recovering hs⟩

/-- The steps that move a terminated duplex. -/
def movesEnding (id : ι) : Action ι → Bool
  | .process other => other = id
  | .terminateRelease other => other = id
  | .destroy other => other = id
  | _ => false

private theorem step_rest {a : Action ι} (h : Settled s) (hcleared : (s.duplex id).Cleared)
    (hending : (s.duplex id).Ending)
    (hmoves : movesEnding id a = false) (hs : s.step a = some s') : Rest id s s' := by
  have hq : id ∉ s.waitQueue := h.scheduled.not_waiting (by simp [hending.stage])
  have hb : id ∉ s.batches := h.scheduled.not_batch (by simp [hending.stage])
  have hkind : ∀ kind, (id, kind) ∈ s.ops → batchId (id, kind) = none := by
    intro kind hmem
    cases kind with
    | batch mode => exact absurd (List.mem_filterMap.2 ⟨(id, .batch mode), hmem, rfl⟩ : id ∈ s.batches) hb
    | _ => rfl
  have hadmitted : ∀ other op, s.admitted other = some op → other ≠ id := by
    rintro other op hop rfl
    have hstage := (WellScheduled.admitted_stage hop).1
    rw [hending.stage] at hstage
    cases hstage
  have hrunning : ∀ call, s.running = some call → call.id = id → batchId (id, call.kind) = none := by
    rintro call hrun rfl
    exact hkind call.kind (by simp [ops, runningOp, hrun])
  cases a with
  | write other chunk =>
    simp only [System.step] at hs
    split at hs
    · cases hs
    · cases hs
      exact rest_same (.of_same rfl rfl rfl rfl rfl rfl rfl)
  | deliver other count =>
    simp only [System.step] at hs
    split at hs
    · cases hs
    · split at hs
      · cases hs
        exact rest_same (.of_same rfl rfl rfl rfl rfl rfl rfl)
      · rename_i hphase
        cases hs
        exact rest_other fun he => hphase (he ▸ hcleared.phase)
  | process other => exact rest_process hq (by simpa [movesEnding] using hmoves) hs
  | tail other =>
    simp only [System.step] at hs
    split at hs
    · cases hs
    · cases hs
      exact (rest_same (.of_same rfl rfl rfl rfl rfl rfl rfl)).trans rest_judgePortal
  | pgliteReady other =>
    simp only [System.step] at hs
    split at hs
    · rename_i op hop
      cases hs
      exact Rest.of_eq (rest_other (hadmitted other op hop) : Rest id s (s.modify other fun d =>
        { d with drain := .busy { op with stage := .queued } })) rfl rfl
    · cases hs
  | pgliteNotReady other =>
    simp only [System.step] at hs
    split at hs
    · rename_i op hop
      cases hs
      exact rest_other (hadmitted other op hop)
    · cases hs
  | recoveryReady other =>
    simp only [System.step] at hs
    split at hs
    · cases hs
      exact Rest.of_eq (rest_same (.of_same rfl rfl rfl rfl rfl rfl rfl) :
        Rest id s (s.modify other fun d => { d with recovery := some .queued })) rfl rfl
    · cases hs
  | recoveryNotReady other =>
    simp only [System.step] at hs
    split at hs
    · cases hs
      have hdone : Rest id s (s.modify other fun d => { d with recovery := none }) :=
        rest_same (.of_same rfl rfl rfl rfl rfl rfl rfl)
      split
      · exact hdone
      · rename_i hphase
        refine hdone.trans (rest_destroyDuplex fun he => hphase ?_)
        rw [he, modify_same]
        exact hcleared.phase
    · cases hs
  | queryRollback other ok =>
    simp only [System.step] at hs
    split at hs
    · cases hs
      split
      · exact Rest.of_eq (rest_same (.of_same rfl rfl rfl rfl rfl rfl rfl) :
          Rest id s (s.modify other fun d => { d with rollback := .queued })) rfl rfl
      · exact rest_same (.of_same rfl rfl rfl rfl rfl rfl rfl)
    · cases hs
  | start response =>
    simp only [System.step] at hs
    split at hs
    · rename_i other kind mutex hidle hmutex
      cases hs
      have hrest : Rest id s { s with mutex } := (Rest.refl s).of_eq rfl rfl
      refine hrest.trans (rest_startCall ?_ response)
      rintro rfl
      exact hkind kind (by simp [ops, hmutex])
    · cases hs
  | frame =>
    simp only [System.step] at hs
    split at hs
    · split at hs
      · cases hs
        exact rest_receive hq _ _
      · cases hs
    · cases hs
  | flush =>
    simp only [System.step] at hs
    split at hs
    · rename_i call hrun
      split at hs
      · cases hs
      · cases hs
        exact rest_flushCall hq (hrunning call hrun)
    · cases hs
  | recovered ok =>
    simp only [System.step] at hs
    split at hs
    · rename_i call hrun
      split at hs
      · rename_i hrec
        cases hs
        refine rest_recoveredCall hq (fun he => ?_) ok
        have hmode := h.recovering call hrun hrec
        have hbatch := hrunning call hrun he
        cases hcall : call.kind <;> simp [hcall, CallKind.mode, batchId] at hmode hbatch
      · cases hs
    · cases hs
  | throw =>
    simp only [System.step] at hs
    split at hs
    · rename_i call hrun
      split at hs
      · cases hs
      · cases hs
        exact rest_throwCall (hrunning call hrun) hcleared.phase
    · cases hs
  | rolledBack ok =>
    simp only [System.step] at hs
    split at hs
    · rename_i call hrun
      split at hs
      · rename_i hroll
        cases hs
        have hfinish : Rest id s (s.finishCall call) := rest_finishCall (hrunning call hrun)
        split
        · have hidle : Rest id s ((s.finishCall call).modify call.id fun d =>
              { d with lastSeenRfqStatus := some RFQ_STATUS_IDLE }) :=
            hfinish.trans (rest_same (.of_same rfl rfl rfl rfl rfl rfl rfl))
          exact hidle.of_eq rfl rfl
        · exact hfinish
      · cases hs
    · cases hs
  | releaseAbandonedPortalHold other =>
    cases hs
    exact rest_releasePortal
  | final other =>
    simp only [System.step] at hs
    split at hs
    · cases hs
    · cases hs
      exact (rest_same (.of_same rfl rfl rfl rfl rfl rfl rfl)).trans rest_rollbackIfInTransaction
  | destroy other =>
    simp only [System.step] at hs
    split at hs
    · cases hs
    · cases hs
      exact rest_destroyDuplex (by simpa [movesEnding] using hmoves)
  | decide other =>
    simp only [System.step] at hs
    split at hs
    · cases hs
      exact rest_decideRollback
    · cases hs
  | finalRelease other =>
    simp only [System.step] at hs
    split at hs
    · cases hs
      have hdone : Rest id s (s.modify other fun d => { d with finalWaits := false }) :=
        rest_same (.of_same rfl rfl rfl rfl rfl rfl rfl)
      split
      · exact hdone
      · rename_i hphase
        refine (hdone.trans (rest_release (hdone.waiting hq))).trans (rest_other fun he => hphase ?_)
        rw [he, modify_same]
        exact hcleared.phase
    · cases hs
  | destroyCancel other =>
    simp only [System.step] at hs
    split at hs
    · cases hs
      have hdone : Rest id s (s.modify other fun d => { d with destroyWaits := false }) :=
        rest_same (.of_same rfl rfl rfl rfl rfl rfl rfl)
      exact hdone.trans (rest_cancel (hdone.waiting hq))
    · cases hs
  | terminateRelease other =>
    have hne : other ≠ id := by simpa [movesEnding] using hmoves
    simp only [System.step] at hs
    split at hs
    · cases hs
      have hdrain : Rest id s (s.modify other fun d => { d with drain := .active }) := rest_other hne
      exact (hdrain.trans (rest_release (hdrain.waiting hq))).trans (rest_other hne)
    · cases hs

/-- Where a duplex stands behind its Terminate: until the release its end of stream is not pushed, and from then on it
does not own the session. -/
structure Final (s : System ι) (id : ι) : Prop where
  cleared : (s.duplex id).Cleared
  ending : (s.duplex id).Ending
  eofs : (s.duplex id).eofs = if (s.duplex id).drain = .terminating then 0 else 1
  released : (s.duplex id).drain ≠ .terminating → s.owner ≠ some id

omit [DecidableEq ι] in
private theorem Final.rest (h : Final s id) (hrest : Rest id s s') : Final s' id where
  cleared := hrest.duplex.cleared h.cleared
  ending := by
    unfold Duplex.Ending
    rw [hrest.duplex.drain]
    exact h.ending
  eofs := by
    rw [hrest.duplex.eofs, hrest.duplex.drain]
    exact h.eofs
  released hdrain ho := by
    rw [hrest.duplex.drain] at hdrain
    exact h.released hdrain (hrest.owner ho)

/-- The drain loop behind the release. -/
private theorem process_ending (h : Final s id) (hs : s.process id = some s') :
    (s.duplex id).drain = .active ∧ s' = s.modify id fun d => { d with drain := .idle, tails := d.tails + 1 } := by
  have hnext : (s.duplex id).nextMessage = .incomplete := by
    unfold Duplex.nextMessage
    rw [h.cleared.phase]
  unfold process at hs
  rcases h.ending with hdrain | hdrain | hdrain
  · simp [hdrain] at hs
  · simp only [hdrain, hnext] at hs
    cases hs
    exact ⟨hdrain, rfl⟩
  · simp [hdrain] at hs

private theorem Final.process (h : Final s id) (hs : s.process id = some s') : Final s' id := by
  obtain ⟨hactive, rfl⟩ := process_ending h hs
  have hdone := h.released (by simp [hactive])
  have heofs := h.eofs
  rw [if_neg (by simp [hactive])] at heofs
  refine ⟨?_, ?_, ?_, fun _ => hdone⟩
  · rw [modify_same]
    exact ⟨h.cleared.phase, h.cleared.input, h.cleared.pipeline, h.cleared.copyCapture⟩
  · rw [modify_same]
    exact .inr (.inr rfl)
  · rw [modify_same, if_neg (by simp)]
    exact heofs

/-- The release of a Terminate, with the end of the stream. -/
private theorem Final.terminateRelease (h : Final s id) (hq : id ∉ s.waitQueue)
    (hdrain : (s.duplex id).drain = .terminating) :
    Final (((s.modify id fun d => { d with drain := .active }).release id).modify id fun d => d.push .eof) id := by
  have hrelease : Rest id (s.modify id fun d => { d with drain := .active })
      ((s.modify id fun d => { d with drain := .active }).release id) := rest_release hq
  have hduplex := hrelease.duplex
  rw [modify_same] at hduplex
  have hcleared := hduplex.cleared ⟨h.cleared.phase, h.cleared.input, h.cleared.pipeline, h.cleared.copyCapture⟩
  have heofs : (s.duplex id).eofs = 0 := by rw [h.eofs, if_pos hdrain]
  refine ⟨?_, ?_, ?_, fun _ => ?_⟩
  · rw [modify_same]
    exact ⟨hcleared.phase, hcleared.input, hcleared.pipeline, hcleared.copyCapture⟩
  · rw [modify_same]
    exact .inr (.inl hduplex.drain)
  · have hpushed : ∀ d : Duplex, (d.push .eof).eofs = d.eofs + 1 := by
      intro d
      simp [Duplex.eofs, Duplex.push, List.count_append]
    have hactive : (((s.modify id fun d => { d with drain := .active }).release id).duplex id).eofs = 0 :=
      hduplex.eofs.trans heofs
    rw [modify_same, hpushed, hactive, if_neg]
    exact fun hd => by
      have hd' := hduplex.drain.symm.trans hd
      cases hd'
  · rw [modify_owner]
    unfold System.release
    cases hl : s.lock with
    | none => simp [System.owner, hl]
    | some l =>
      have hgives := SessionLock.release_gives (not_mem_waitQueue hl hq)
      have howner : ∀ (settled : List (Settlement ι)) (u : System ι), (settled.foldl settleOne u).owner = u.owner := by
        intro settled
        induction settled with
        | nil => exact fun u => rfl
        | cons settlement settled ih => exact fun u => (ih _).trans (settleOne_owner settlement)
      simp only [modify_lock, hl]
      unfold applyLock
      rw [howner]
      exact hgives

private theorem Final.destroy (h : Final s id) : Final (s.destroyDuplex id) id := by
  unfold destroyDuplex
  split
  · exact h
  · refine Final.rest ?_ rest_rollbackIfInTransaction
    refine ⟨?_, ?_, ?_, fun hdrain => ?_⟩
    · rw [modify_same]
      exact ⟨h.cleared.phase, rfl, rfl, rfl⟩
    · rw [modify_same]
      exact h.ending
    · rw [modify_same]
      exact h.eofs
    · rw [modify_same] at hdrain
      exact h.released hdrain

theorem final_step {a : Action ι} (h : Settled s) (hf : Final s id) (hs : s.step a = some s') : Final s' id := by
  have hq : id ∉ s.waitQueue := h.scheduled.not_waiting (by simp [hf.ending.stage])
  cases hmoves : movesEnding id a with
  | false => exact hf.rest (step_rest h hf.cleared hf.ending hmoves hs)
  | true =>
    cases a with
    | process other =>
      obtain rfl : other = id := by simpa [movesEnding] using hmoves
      exact hf.process hs
    | terminateRelease other =>
      obtain rfl : other = id := by simpa [movesEnding] using hmoves
      simp only [System.step] at hs
      split at hs
      · rename_i hguard
        cases hs
        exact hf.terminateRelease hq hguard.1
      · cases hs
    | destroy other =>
      obtain rfl : other = id := by simpa [movesEnding] using hmoves
      simp only [System.step] at hs
      split at hs
      · cases hs
      · cases hs
        exact hf.destroy
    | _ => cases hmoves

/-! ### The Terminate -/

/-- The next message of the drain loop is a Terminate. -/
structure TakesTerminate (s : System ι) (id : ι) (message rest : Bytes) : Prop where
  phase : (s.duplex id).phase = .ready
  framed : takeMessage (s.duplex id).input = .message message rest
  type : message.getD 0 0 = TERMINATE

/-- The Terminate branch up to its rollback. -/
def takeTerminate (s : System ι) (id : ι) (rest : Bytes) : System ι :=
  s.modify id fun _ => { Duplex.terminate { s.duplex id with input := rest } with drain := .terminating }

private theorem process_terminate {message rest : Bytes} (hterm : s.TakesTerminate id message rest)
    (hactive : (s.duplex id).drain = .active) :
    s.process id = some ((s.takeTerminate id rest).rollbackIfInTransaction id) := by
  have hnext : (s.duplex id).nextMessage = .message message rest := by
    unfold Duplex.nextMessage
    rw [hterm.phase]
    exact hterm.framed
  have hmessage : Duplex.processMessage { s.duplex id with input := rest } message =
      (Duplex.terminate { s.duplex id with input := rest }, .terminate) := by
    unfold Duplex.processMessage
    rw [hterm.type]
    rfl
  unfold process
  rw [hactive]
  dsimp only
  rw [hnext]
  unfold processTaken
  dsimp only
  rw [if_neg (by simp [hterm.phase]), hmessage]
  rfl

private theorem final_of_terminate {message rest : Bytes} (h : WellScheduled s) (hunended : s.AllUnended)
    (hterm : s.TakesTerminate id message rest) (hactive : (s.duplex id).drain = .active)
    (hs : s.step (.process id) = some s') :
    Final s' id ∧ (s'.duplex id).tornDown = (s.duplex id).tornDown := by
  have heofs : (s.duplex id).eofs = 0 :=
    (hunended id).unended (h.not_ended (by simp [hactive])) (by simp [hterm.phase])
  rw [System.step, process_terminate hterm hactive] at hs
  cases hs
  have hrest : Rest id (s.takeTerminate id rest) ((s.takeTerminate id rest).rollbackIfInTransaction id) :=
    rest_rollbackIfInTransaction
  refine ⟨Final.rest ?_ hrest, ?_⟩
  · unfold takeTerminate
    refine ⟨?_, ?_, ?_, fun hdrain => ?_⟩
    · rw [modify_same]
      exact ⟨rfl, rfl, rfl, rfl⟩
    · rw [modify_same]
      exact .inl rfl
    · rw [modify_same]
      exact heofs
    · rw [modify_same] at hdrain
      exact absurd rfl hdrain
  · have htorn := hrest.duplex.tornDown
    unfold takeTerminate at htorn ⊢
    rw [modify_same] at htorn
    exact htorn

/-- The step fails the callbacks of the writes that are pending. -/
def failsWrites (s s' : System ι) (id : ι) : Bool :=
  (s.duplex id).draining && !(s.duplex id).tornDown && (s'.duplex id).tornDown

/-- Only `destroy` tears down a terminated duplex: no failing recovery does. -/
private theorem destroy_of_tornDown {a : Action ι} (h : Settled s) (hf : Final s id) (hs : s.step a = some s')
    (hbefore : (s.duplex id).tornDown = false) (hafter : (s'.duplex id).tornDown = true) : a = .destroy id := by
  cases hmoves : movesEnding id a with
  | false =>
    rw [(step_rest h hf.cleared hf.ending hmoves hs).duplex.tornDown, hbefore] at hafter
    cases hafter
  | true =>
    cases a with
    | process other =>
      obtain rfl : other = id := by simpa [movesEnding] using hmoves
      obtain ⟨-, rfl⟩ := process_ending hf hs
      rw [modify_same] at hafter
      rw [hbefore] at hafter
      cases hafter
    | terminateRelease other =>
      obtain rfl : other = id := by simpa [movesEnding] using hmoves
      simp only [System.step] at hs
      split at hs
      · cases hs
        obtain ⟨drain, hd⟩ := release_duplex (s.modify other fun d => { d with drain := .active }) other other
        rw [modify_same, hd, modify_same] at hafter
        have hafter' : (s.duplex other).tornDown = true := hafter
        rw [hbefore] at hafter'
        cases hafter'
      · cases hs
    | destroy other =>
      obtain rfl : other = id := by simpa [movesEnding] using hmoves
      rfl
    | _ => cases hmoves

/-- Nothing gives the session back to a terminated duplex. -/
private theorem owner_of_final {a : Action ι} (h : Settled s) (hf : Final s id) (hs : s.step a = some s')
    (howner : s'.owner = some id) : s.owner = some id := by
  cases hmoves : movesEnding id a with
  | false => exact (step_rest h hf.cleared hf.ending hmoves hs).owner howner
  | true =>
    cases a with
    | process other =>
      obtain rfl : other = id := by simpa [movesEnding] using hmoves
      obtain ⟨-, rfl⟩ := process_ending hf hs
      exact howner
    | terminateRelease other =>
      obtain rfl : other = id := by simpa [movesEnding] using hmoves
      have hdrain : (s'.duplex other).drain ≠ .terminating := by
        simp only [System.step] at hs
        split at hs
        · cases hs
          have hq : other ∉ (s.modify other fun d => { d with drain := .active }).waitQueue :=
            h.scheduled.not_waiting (by simp [hf.ending.stage])
          have hrest : Rest other (s.modify other fun d => { d with drain := .active })
              ((s.modify other fun d => { d with drain := .active }).release other) := rest_release hq
          have hsame := hrest.duplex.drain
          rw [modify_same] at hsame ⊢
          exact fun hd => by (cases hsame.symm.trans hd)
        · cases hs
      exact absurd howner ((final_step h hf hs).released hdrain)
    | destroy other =>
      simp only [System.step] at hs
      split at hs
      · cases hs
      · cases hs
        unfold destroyDuplex at howner
        split at howner
        · exact howner
        · have hrest : Rest id (s.modify other tearDown) ((s.modify other tearDown).rollbackIfInTransaction other) :=
            rest_rollbackIfInTransaction
          exact hrest.owner howner
    | _ => cases hmoves

private theorem settled_run {as : List (Action ι)} (h : Settled s) (run : replay step (fun _ _ => True) s as = some t) :
    Settled t :=
  (run_of_replay run).invariant h fun _ _ _ hs _ hstep => hs.step hstep

private theorem final_run {as : List (Action ι)} (h : Settled s) (hf : Final s id)
    (run : replay step (fun _ _ => True) s as = some t) : Final t id ∧
      ((t.duplex id).tornDown = true → (s.duplex id).tornDown = true ∨ .destroy id ∈ as) := by
  induction as generalizing s with
  | nil =>
    cases run
    exact ⟨hf, .inl⟩
  | cons a as ih =>
    simp only [replay, if_true] at run
    cases hstep : s.step a with
    | none => rw [hstep] at run; cases run
    | some s' =>
      rw [hstep] at run
      obtain ⟨hft, htorn⟩ := ih (h.step hstep) (final_step h hf hstep) run
      refine ⟨hft, fun hdown => ?_⟩
      rcases htorn hdown with hafter | hmem
      · cases hbefore : (s.duplex id).tornDown with
        | true => exact .inl rfl
        | false =>
          right
          rw [destroy_of_tornDown h hf hstep hbefore hafter]
          exact List.mem_cons_self
      · exact .inr (List.mem_cons_of_mem _ hmem)

/-- The rollback of a Terminate settled: the loop releases the session, ends the stream, and completes its writes. -/
private theorem completes (h : Settled s) (hf : Final s id) (hsettled : (s.duplex id).rollback = .settled)
    (hdrain : (s.duplex id).drain = .terminating) :
    ∃ t u, s.step (.terminateRelease id) = some t ∧ t.step (.process id) = some u ∧ (u.duplex id).drain = .idle ∧
      s.failsWrites t id = false ∧ t.failsWrites u id = false := by
  have hrelease : ∃ t, s.step (.terminateRelease id) = some t ∧ (t.duplex id).drain = .active ∧
      (t.duplex id).tornDown = (s.duplex id).tornDown := by
    simp only [System.step, hdrain, hsettled, and_self, if_true, Option.some.injEq, exists_eq_left']
    have hq : id ∉ (s.modify id fun d => { d with drain := .active }).waitQueue :=
      h.scheduled.not_waiting (by simp [hf.ending.stage])
    have hrest : Rest id (s.modify id fun d => { d with drain := .active })
        ((s.modify id fun d => { d with drain := .active }).release id) := rest_release hq
    have hsame := hrest.duplex
    rw [modify_same] at hsame
    rw [modify_same]
    exact ⟨hsame.drain, hsame.tornDown⟩
  obtain ⟨t, ht, hactive, htorn⟩ := hrelease
  have hft : Final t id := final_step h hf ht
  have hnext : (t.duplex id).nextMessage = .incomplete := by
    unfold Duplex.nextMessage
    rw [hft.cleared.phase]
  have hu : t.step (.process id) = some (t.modify id fun d => { d with drain := .idle, tails := d.tails + 1 }) := by
    simp only [System.step, process, hactive, hnext]
  refine ⟨t, _, ht, hu, by rw [modify_same], ?_, ?_⟩
  · simp [failsWrites, htorn]
  · rw [failsWrites, modify_same]
    simp

/-! ### Every run -/

/-- A state `t` behind a Terminate of `id` that was taken in `s`, after the actions `as` and before `bs`. -/
structure Finality (locked : Bool) (cap : ι → Nat) (as bs : List (Action ι)) (s t : System ι) (id : ι) : Prop where
  /-- No input, pipeline or capture is left, and no batch is on its way to PGlite or can be started. -/
  cleared : (t.duplex id).Cleared
  unsent : id ∉ t.batches
  unstarted : ∀ response t', t.step (.start response) = some t' →
    ∀ call ∈ t'.running, call.id = id → call.kind = .rollback
  /-- Only `destroy` fails a write; once the rollback has settled, the pending ones complete. -/
  writes : ∀ a t', t.step a = some t' → t.failsWrites t' id = true → a = .destroy id
  completed : (t.duplex id).rollback = .settled → (t.duplex id).drain = .terminating →
    ∃ u v, t.step (.terminateRelease id) = some u ∧ u.step (.process id) = some v ∧ (v.duplex id).drain = .idle ∧
      t.failsWrites u id = false ∧ u.failsWrites v id = false
  /-- One ROLLBACK at most, and before the release where one is due. -/
  asked : ((as ++ bs).filter (asksFor id)).length ≤ 1
  rolledBack : ∀ t', t.step (.terminateRelease id) = some t' → Decided (initial locked cap) (as ++ bs) id
  /-- The session is given up with the end of the stream, and for good. -/
  released : (t.duplex id).drain ≠ .terminating → t.owner ≠ some id
  kept : ∀ a t', t.step a = some t' → t'.owner = some id → t.owner = some id
  eofs : (t.duplex id).eofs = if (t.duplex id).drain = .terminating then 0 else 1
  /-- No failing recovery destroys the duplex. -/
  undestroyed : (t.duplex id).tornDown = true → (s.duplex id).tornDown = true ∨ .destroy id ∈ bs

omit [DecidableEq ι] in
private theorem settled_initial (locked : Bool) (cap : ι → Nat) : Settled (initial locked cap) :=
  ⟨wellScheduled_initial locked cap, fun _ hcall => by cases hcall⟩

/-- Whatever follows a Terminate, nothing of its client is sent any more. -/
theorem terminate_final {locked : Bool} {cap : ι → Nat} {as bs : List (Action ι)} {message rest : Bytes}
    (run : replay step (fun _ _ => True) (initial locked cap) as = some s)
    (hterm : s.TakesTerminate id message rest) (hactive : (s.duplex id).drain = .active)
    (later : replay step (fun _ _ => True) s (.process id :: bs) = some t) :
    Finality locked cap as (.process id :: bs) s t id := by
  have hs : Settled s := settled_run (settled_initial locked cap) run
  have hall := replay_append run later
  have hsteady : Steady (initial locked cap) := steady_initial locked cap
  simp only [replay, if_true] at later
  cases hprocess : s.step (.process id) with
  | none => rw [hprocess] at later; cases later
  | some u =>
    rw [hprocess] at later
    obtain ⟨hfu, hsame⟩ := final_of_terminate hs.scheduled (unended (run_of_replay run)) hterm hactive hprocess
    have hu : Settled u := hs.step hprocess
    have ht : Settled t := settled_run hu later
    obtain ⟨hft, htorn⟩ := final_run hu hfu later
    have hdead : (t.duplex id).live = false := by simp [Duplex.live, hft.cleared.phase]
    refine
      { cleared := hft.cleared
        unsent := ht.scheduled.not_batch (by simp [hft.ending.stage])
        unstarted := fun response t' hstart => stopped_start hdead hstart
        writes := fun a t' hstep hfails => ?_
        completed := fun hsettled hdrain => completes ht hft hsettled hdrain
        asked := asked_once hsteady hall
        rolledBack := fun t' hstep => ?_
        released := hft.released
        kept := fun a t' hstep => owner_of_final ht hft hstep
        eofs := hft.eofs
        undestroyed := fun hdown => ?_ }
    · simp only [failsWrites, Bool.and_eq_true, Bool.not_eq_true'] at hfails
      exact destroy_of_tornDown ht hft hstep hfails.1.2 hfails.2
    · exact decided_of_settled hsteady rfl (handsOver_settled rfl hstep) hall
    · rcases htorn hdown with hafter | hmem
      · exact .inl (hsame ▸ hafter)
      · exact .inr (List.mem_cons_of_mem _ hmem)

def terminateMessage : Bytes := encodeMessage TERMINATE []

/-- A client terminates inside a transaction, with a query behind its Terminate. -/
def terminatedInTransaction : List (Action Bool) :=
  served false startupPacket 1 [.other, readyForQueryIdle] ++
    served false beginQuery 1 [.other, .readyForQuery RFQ_STATUS_IN_TRANSACTION] ++
    [.write false (terminateMessage ++ beginQuery), .deliver false 1]

def TerminatedThen (bs : List (Action Bool)) (p : System Bool → System Bool → Prop) : Prop :=
  ∃ s t, replay step (fun _ _ => True) (initial true fun _ => MAX_MESSAGE_LENGTH) terminatedInTransaction = some s ∧
    s.TakesTerminate false terminateMessage beginQuery ∧ (s.duplex false).drain = .active ∧
    replay step (fun _ _ => True) s (.process false :: bs) = some t ∧ p s t

private theorem terminatedThen {bs : List (Action Bool)} {p : System Bool → System Bool → Prop}
    [∀ s t, Decidable (p s t)]
    (h : (replay step (fun _ _ => True) (initial true fun _ => MAX_MESSAGE_LENGTH) terminatedInTransaction).any
      (fun s => decide ((s.duplex false).phase = .ready ∧
        takeMessage (s.duplex false).input = .message terminateMessage beginQuery ∧ (s.duplex false).drain = .active) &&
        (replay step (fun _ _ => True) s (.process false :: bs)).any fun t => decide (p s t)) = true) :
    TerminatedThen bs p := by
  obtain ⟨s, hs, hboth⟩ := (Option.any_eq_true _ _).mp h
  rw [Bool.and_eq_true, decide_eq_true_eq] at hboth
  obtain ⟨⟨hphase, hframed, hactive⟩, hlater⟩ := hboth
  obtain ⟨t, ht, hp⟩ := (Option.any_eq_true _ _).mp hlater
  exact ⟨s, t, hs, ⟨hphase, hframed, rfl⟩, hactive, ht, of_decide_eq_true hp⟩

/-- The ROLLBACK, the release, and the end of the drain. -/
def rolledBackThenReleased : List (Action Bool) :=
  [.queryRollback false true, .start [], .rolledBack true, .terminateRelease false, .process false]

theorem terminate_final_inTransaction : TerminatedThen rolledBackThenReleased fun s t =>
    Finality true (fun _ => MAX_MESSAGE_LENGTH) terminatedInTransaction (.process false :: rolledBackThenReleased)
      s t false ∧ (t.duplex false).eofs = 1 := by
  obtain ⟨s, t, run, hterm, hactive, later, heofs⟩ :
      TerminatedThen rolledBackThenReleased fun _ t => (t.duplex false).eofs = 1 :=
    terminatedThen (by decide +kernel)
  exact ⟨s, t, run, hterm, hactive, later, terminate_final run hterm hactive later, heofs⟩

/-- A write that is still pending is failed by a `destroy` behind its Terminate. -/
theorem terminate_destroyed : ¬∀ (as bs : List (Action Bool)) (s t t' : System Bool) (message rest : Bytes)
    (a : Action Bool), replay step (fun _ _ => True) (initial true fun _ => MAX_MESSAGE_LENGTH) as = some s →
    s.TakesTerminate false message rest → (s.duplex false).drain = .active →
    replay step (fun _ _ => True) s (.process false :: bs) = some t → t.step a = some t' →
    t.failsWrites t' false = false := by
  intro hclaim
  obtain ⟨s, t, run, hterm, hactive, later, hfails⟩ : TerminatedThen [] fun _ t =>
      (t.step (.destroy false)).any (fun t' => t.failsWrites t' false) = true :=
    terminatedThen (by decide +kernel)
  obtain ⟨t', hstep, hfails⟩ := (Option.any_eq_true _ _).mp hfails
  rw [hclaim _ _ s t t' _ _ _ run hterm hactive later hstep] at hfails
  cases hfails

end System

end PgliteBridge
