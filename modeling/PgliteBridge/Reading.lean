import PgliteBridge.Awaits

/-!
# What an idle loop has read

A drain loop stops at an incomplete message, and new bytes start it again, so an idle duplex has no complete message in
its input (`read`).
-/

namespace PgliteBridge

open TransitionSystem

/-- An idle loop has taken every complete message. -/
def Duplex.Read (d : Duplex) : Prop := d.drain = .idle → d.nextMessage = .incomplete

namespace System

variable {ι : Type} [DecidableEq ι] {s s' : System ι} {id : ι} {f : Duplex → Duplex} {d d' : Duplex}

def AllRead (s : System ι) : Prop := ∀ id, (s.duplex id).Read

omit [DecidableEq ι] in
private theorem read_of_busy (h : d.drain ≠ .idle) : d.Read := fun hidle => absurd hidle h

omit [DecidableEq ι] in
private theorem read_of_empty (h : d.input = []) : d.Read := by
  intro _
  unfold Duplex.nextMessage takeStartup takeMessage
  rw [h]
  split <;> rfl

omit [DecidableEq ι] in
/-- Neither the input nor the phase has changed, and the loop is idle only if it was. -/
private theorem read_same (h : d.Read) (hdrain : d'.drain = .idle → d.drain = .idle) (hinput : d'.input = d.input)
    (hphase : d'.phase = d.phase) : d'.Read := by
  intro hidle
  have hnext := h (hdrain hidle)
  unfold Duplex.nextMessage at hnext ⊢
  rw [hinput, hphase]
  exact hnext

private theorem AllRead.modify (h : s.AllRead) (hf : (s.duplex id).Read → (f (s.duplex id)).Read) :
    (s.modify id f).AllRead := by
  intro other
  by_cases ho : other = id
  · subst ho
    rw [modify_same]
    exact hf (h other)
  · rw [modify_other ho]
    exact h other

private theorem AllRead.same (h : s.AllRead) (hdrain : (f (s.duplex id)).drain = .idle → (s.duplex id).drain = .idle)
    (hinput : (f (s.duplex id)).input = (s.duplex id).input) (hphase : (f (s.duplex id)).phase = (s.duplex id).phase) :
    (s.modify id f).AllRead :=
  h.modify fun hd => read_same hd hdrain hinput hphase

/-! ### The lock -/

private theorem AllRead.settleOne (h : s.AllRead) (settlement : Settlement ι) : (s.settleOne settlement).AllRead := by
  rw [settleOne_eq]
  refine h.same (fun hidle => ?_) rfl rfl
  cases settlement with
  | rejected other => cases hidle
  | resolved other =>
    cases hd : (s.duplex other).drain with
    | busy op => cases (congrArg (settledDrain (.resolved other)) hd).symm.trans hidle
    | idle => exact hd
    | active => cases (congrArg (settledDrain (.resolved other)) hd).symm.trans hidle
    | terminating => cases (congrArg (settledDrain (.resolved other)) hd).symm.trans hidle
    | failing => cases (congrArg (settledDrain (.resolved other)) hd).symm.trans hidle

private theorem AllRead.applyLock (h : s.AllRead) (outcome : SessionLock.Outcome ι) :
    (s.applyLock outcome).AllRead := by
  have hsettle : ∀ (settled : List (Settlement ι)) (s : System ι), s.AllRead →
      (settled.foldl System.settleOne s).AllRead := by
    intro settled
    induction settled with
    | nil => exact fun _ hs => hs
    | cons settlement settled ih => exact fun s hs => ih _ (hs.settleOne settlement)
  exact hsettle outcome.settled { s with lock := some outcome.lock } h

private theorem AllRead.release (h : s.AllRead) : (s.release id).AllRead := by
  unfold System.release
  split
  · exact h.applyLock _
  · exact h

private theorem AllRead.cancel (h : s.AllRead) : (s.cancel id).AllRead := by
  unfold System.cancel
  split
  · exact h.applyLock _
  · exact h

private theorem AllRead.updateStatus (h : s.AllRead) (status : UInt8) : (s.updateStatus id status).AllRead := by
  unfold System.updateStatus
  split
  · split
    · exact h
    · exact h.applyLock _
  · exact h

private theorem AllRead.acquireSession (h : s.AllRead) (batch : Bytes) (mode : RfqMode) :
    (s.acquireSession id batch mode).AllRead := by
  have hbusy : (s.modify id fun d => { d with drain := .busy { batch, mode, stage := .acquiring } }).AllRead :=
    h.modify fun _ => read_of_busy fun hidle => by cases hidle
  unfold System.acquireSession
  dsimp only
  split
  · exact hbusy.applyLock _
  · exact hbusy.settleOne _

/-! ### Teardown and recovery -/

private theorem AllRead.rollbackIfInTransaction (h : s.AllRead) : (s.rollbackIfInTransaction id).AllRead := by
  obtain ⟨rollback, heq, -⟩ := rollbackIfInTransaction_eq s id
  rw [heq]
  exact h.same (fun hidle => hidle) rfl rfl

/-- A duplex that has been torn down has dropped its input. -/
private theorem AllRead.destroy (id : ι) (f : Duplex → Duplex) (h : s.AllRead)
    (hdrain : (f (s.duplex id)).tornDown = true → (f (s.duplex id)).Read) :
    ((s.modify id f).destroyDuplex id).AllRead := by
  have hall : ∀ g : Duplex → Duplex, (g (f (s.duplex id))).Read → (s.modify id fun d => g (f d)).AllRead :=
    fun g hg => h.modify (f := fun d => g (f d)) fun _ => hg
  unfold System.destroyDuplex
  split
  · rename_i htorn
    rw [modify_same] at htorn
    exact hall (fun d => d) (hdrain htorn)
  · have htorn : ((s.modify id f).modify id tearDown).AllRead := by
      rw [modify_modify]
      exact hall tearDown (read_of_empty rfl)
    exact htorn.rollbackIfInTransaction

private theorem AllRead.destroyDuplex (h : s.AllRead) : (s.destroyDuplex id).AllRead := by
  have hsame : s.modify id (fun d => d) = s :=
    congrArg (fun duplex => ({ s with duplex } : System ι)) (Function.update_eq_self id s.duplex)
  have hd := h.destroy id (fun d => d) fun _ => h id
  rwa [hsame] at hd

private theorem AllRead.deliverRecoverySync (h : s.AllRead) : (s.deliverRecoverySync id).AllRead := by
  unfold System.deliverRecoverySync
  split
  · exact h
  · split <;> exact h.same (fun hidle => hidle) rfl rfl

private theorem AllRead.releasePortal (h : s.AllRead) : (s.releasePortal id).AllRead := by
  unfold System.releasePortal
  split
  · exact h
  · split
    · exact h.deliverRecoverySync
    · split
      · exact h.same (fun hidle => hidle) rfl rfl
      · exact h

private theorem AllRead.judgePortal (h : s.AllRead) : (s.judgePortal id).AllRead := by
  unfold System.judgePortal
  split
  · have hclear : (s.modify id fun d => { d with portalRecoveryRequested := false }).AllRead :=
      h.same (fun hidle => hidle) rfl rfl
    dsimp only
    split
    · exact hclear.deliverRecoverySync
    · exact hclear
  · exact h

/-! ### The drain loop -/

private theorem AllRead.processNext {next : Duplex.Next} (h : s.AllRead) (hactive : d.drain = .active) :
    (s.processNext id d next).AllRead := by
  have hmoved : ∀ drain : Drain, drain ≠ .idle → (s.modify id fun _ => { d with drain }).AllRead := fun drain hdrain =>
    h.modify fun _ => read_of_busy hdrain
  have hrecord : (s.modify id fun _ => d).AllRead :=
    h.modify fun _ => read_of_busy fun hidle => by cases hactive.symm.trans hidle
  cases next with
  | again => exact hrecord
  | run batch mode => exact hrecord.acquireSession batch mode
  | terminate => exact (hmoved .terminating fun he => by cases he).rollbackIfInTransaction
  | throw message => exact hmoved .failing fun he => by cases he

private theorem AllRead.process (h : s.AllRead) (hd : Due s) (hs : s.process id = some s') : s'.AllRead := by
  unfold System.process at hs
  split at hs
  · rename_i hactive
    split at hs
    · rename_i hnext
      cases hs
      refine h.modify fun _ _ => ?_
      unfold Duplex.nextMessage at hnext ⊢
      exact hnext
    · cases hs
      exact h.modify fun _ => read_of_busy fun hidle => by cases hidle
    · rename_i message rest _
      cases hs
      unfold processTaken
      dsimp only
      split
      · exact h.processNext hactive
      · obtain ⟨hserved, -⟩ := served_processMessage { s.duplex id with input := rest } message
        exact h.processNext (hserved.drain.trans hactive)
  · cases hs
    exact h.destroy _ _ fun htorn => read_of_empty ((hd.tracked id).cleared htorn)
  · cases hs

/-! ### Protocol calls -/

section Calls

variable {call : Call ι} {kind : CallKind} {response : List ResponseFrame}

private theorem AllRead.start (h : s.AllRead) : (s.startCall id kind response).AllRead := by
  have hsame : ∀ f : Duplex → Duplex, (f (s.duplex id)).drain = (s.duplex id).drain →
      (f (s.duplex id)).input = (s.duplex id).input → (f (s.duplex id)).phase = (s.duplex id).phase →
      (s.modify id f).AllRead := fun f hdrain hinput hphase => h.same (fun hidle => hdrain ▸ hidle) hinput hphase
  unfold startCall
  split
  · exact hsame (fun d => { d with rollback := .running }) rfl rfl rfl
  · split
    · exact hsame Duplex.startCall rfl rfl rfl
    · exact h.modify fun _ => read_of_busy fun hidle => by cases hidle
  · split
    · exact hsame (fun d => { d.startCall with recovery := some .running }) rfl rfl rfl
    · exact hsame (fun d => { d with recovery := none }) rfl rfl rfl

private theorem AllRead.onChunk (h : s.AllRead) (id : ι) (fr : ResponseFrame) :
    (s.modify id fun d => d.onChunk fr).AllRead := by
  have hsame : ((s.duplex id).onChunk fr).drain = (s.duplex id).drain ∧
      ((s.duplex id).onChunk fr).input = (s.duplex id).input ∧
        ((s.duplex id).onChunk fr).phase = (s.duplex id).phase := by
    unfold Duplex.onChunk
    split <;> exact ⟨rfl, rfl, rfl⟩
  exact h.same (fun hidle => hsame.1 ▸ hidle) hsame.2.1 hsame.2.2

private theorem AllRead.receive {fr : ResponseFrame} (h : s.AllRead) : (s.receive call response fr).AllRead := by
  cases fr with
  | errorResponse =>
    have herror : (s.modify call.id fun d => d.onErrorResponse).AllRead := h.same (fun hidle => hidle) rfl rfl
    have hchunk := herror.onChunk call.id .errorResponse
    rw [modify_modify] at hchunk
    exact hchunk
  | other => exact h.onChunk call.id .other
  | readyForQuery status =>
    have hstatus : (s.modify call.id fun d => d.onReadyForQuery status).AllRead := h.same (fun hidle => hidle) rfl rfl
    have hnoted : (s.noteReadyForQuery call response status).AllRead := by
      unfold System.noteReadyForQuery
      refine AllRead.updateStatus ?_ status
      exact hstatus
    rw [receive_readyForQuery]
    split
    · exact hnoted
    · exact hnoted.onChunk _ _

private theorem AllRead.flushHeld (h : s.AllRead) : (s.flushHeld call).AllRead := by
  unfold System.flushHeld
  split
  · rename_i status _
    have hchunk := h.onChunk call.id (.readyForQuery status)
    refine h.modify fun hd => ?_
    split
    · exact hd
    · have := hchunk call.id
      rwa [modify_same] at this
  · exact h

private theorem AllRead.settlePortal {synced : Bool} (h : s.AllRead) : (s.settlePortal call synced).AllRead := by
  have hportal : ∀ suspended, (s.modify call.id fun d => { d with portalSuspended := suspended }).AllRead :=
    fun _ => h.same (fun hidle => hidle) rfl rfl
  unfold System.settlePortal
  dsimp only
  split
  · exact hportal true
  · split
    · exact AllRead.release (hportal false)
    · exact hportal false

private theorem AllRead.finishCall (h : s.AllRead) : (s.finishCall call).AllRead := by
  unfold System.finishCall
  split
  · exact AllRead.modify h fun _ => read_of_busy fun hidle => by cases hidle
  · exact AllRead.same h (fun hidle => hidle) rfl rfl
  · exact AllRead.same h (fun hidle => hidle) rfl rfl

private theorem AllRead.flushCall (h : s.AllRead) : (s.flushCall call).AllRead := by
  unfold System.flushCall
  dsimp only
  split
  · split
    · exact h.flushHeld
    · exact h.flushHeld.settlePortal.finishCall
  · exact h.flushHeld.finishCall

private theorem AllRead.recoveredCall {ok : Bool} (h : s.AllRead) : (s.recoveredCall call ok).AllRead := by
  unfold System.recoveredCall
  cases ok with
  | true => exact h.settlePortal.finishCall
  | false => exact h.destroyDuplex.settlePortal.finishCall

private theorem AllRead.throwCall (h : s.AllRead) : (s.throwCall call).AllRead := by
  unfold System.throwCall
  split
  · exact AllRead.modify h fun _ => read_of_busy fun hidle => by cases hidle
  · have hdone : (({ s with running := none } : System ι).modify call.id fun d =>
        callDone { d with recovery := none }).AllRead := AllRead.same h (fun hidle => hidle) rfl rfl
    dsimp only
    split
    · exact hdone
    · exact hdone.destroyDuplex
  · exact AllRead.same h (fun hidle => hidle) rfl rfl

end Calls

/-! ### Steps and runs -/

private theorem AllRead.step {a : Action ι} (h : s.AllRead) (hd : Due s) (hs : s.step a = some s') : s'.AllRead := by
  -- a change of what the loop does not read
  have hsame : ∀ (id : ι) (f : Duplex → Duplex), (f (s.duplex id)).drain = (s.duplex id).drain →
      (f (s.duplex id)).input = (s.duplex id).input → (f (s.duplex id)).phase = (s.duplex id).phase →
      (s.modify id f).AllRead := fun id f hdrain hinput hphase => h.same (fun hidle => hdrain ▸ hidle) hinput hphase
  have hbusy : ∀ (id : ι) (f : Duplex → Duplex), (f (s.duplex id)).drain ≠ .idle → (s.modify id f).AllRead :=
    fun id f hdrain => h.modify fun _ => read_of_busy hdrain
  cases a with
  | write id chunk =>
    simp only [System.step] at hs
    split at hs
    · cases hs
    · cases hs
      exact hsame id _ rfl rfl rfl
  | deliver id count =>
    simp only [System.step] at hs
    split at hs
    · cases hs
    · split at hs
      · cases hs
        exact hsame id _ rfl rfl rfl
      · cases hs
        exact hbusy id _ fun he => by cases he
  | process id => exact h.process hd hs
  | tail id =>
    simp only [System.step] at hs
    split at hs
    · cases hs
    · cases hs
      exact AllRead.judgePortal (hsame id _ rfl rfl rfl)
  | pgliteReady id =>
    simp only [System.step] at hs
    split at hs
    · rename_i op _
      cases hs
      exact hbusy id (fun d => { d with drain := .busy { op with stage := .queued } }) fun he => by cases he
    · cases hs
  | pgliteNotReady id =>
    simp only [System.step] at hs
    split at hs
    · cases hs
      exact hbusy id _ fun he => by cases he
    · cases hs
  | recoveryReady id =>
    simp only [System.step] at hs
    split at hs
    · cases hs
      exact hsame id (fun d => { d with recovery := some .queued }) rfl rfl rfl
    · cases hs
  | recoveryNotReady id =>
    simp only [System.step] at hs
    split at hs
    · cases hs
      have hdone := hsame id (fun d => { d with recovery := none }) rfl rfl rfl
      split
      · exact hdone
      · exact hdone.destroyDuplex
    · cases hs
  | queryRollback id ok =>
    simp only [System.step] at hs
    split at hs
    · cases hs
      have hmoved : ∀ rollback, (s.modify id fun d => { d with rollback }).AllRead := fun _ => hsame id _ rfl rfl rfl
      split
      · exact hmoved .queued
      · exact hmoved .settled
    · cases hs
  | start response =>
    simp only [System.step] at hs
    split at hs
    · cases hs
      exact AllRead.start h
    · cases hs
  | frame =>
    simp only [System.step] at hs
    split at hs
    · split at hs
      · cases hs
        exact h.receive
      · cases hs
    · cases hs
  | flush =>
    simp only [System.step] at hs
    split at hs
    · split at hs
      · cases hs
      · cases hs
        exact h.flushCall
    · cases hs
  | recovered ok =>
    simp only [System.step] at hs
    split at hs
    · split at hs
      · cases hs
        exact h.recoveredCall
      · cases hs
    · cases hs
  | throw =>
    simp only [System.step] at hs
    split at hs
    · split at hs
      · cases hs
      · cases hs
        exact h.throwCall
    · cases hs
  | rolledBack ok =>
    simp only [System.step] at hs
    split at hs
    · rename_i call _
      split at hs
      · cases hs
        have hfinish : (s.finishCall call).AllRead := h.finishCall
        split
        · exact hfinish.same (f := fun d => { d with lastSeenRfqStatus := some RFQ_STATUS_IDLE }) (fun hidle => hidle)
            rfl rfl
        · exact hfinish
      · cases hs
    · cases hs
  | releaseAbandonedPortalHold id =>
    cases hs
    exact h.releasePortal
  | final id =>
    simp only [System.step] at hs
    split at hs
    · cases hs
    · cases hs
      exact AllRead.rollbackIfInTransaction (hsame id _ rfl rfl rfl)
  | destroy id =>
    simp only [System.step] at hs
    split at hs
    · cases hs
    · cases hs
      exact h.destroyDuplex
  | decide id =>
    simp only [System.step] at hs
    split at hs
    · cases hs
      exact hsame id _ rfl rfl rfl
    · cases hs
  | finalRelease id =>
    simp only [System.step] at hs
    split at hs
    · cases hs
      have hdone := hsame id (fun d => { d with finalWaits := false }) rfl rfl rfl
      split
      · exact hdone
      · exact hdone.release.same (f := fun d => d.push .eof) (fun hidle => hidle) rfl rfl
    · cases hs
  | destroyCancel id =>
    simp only [System.step] at hs
    split at hs
    · cases hs
      exact AllRead.cancel (hsame id _ rfl rfl rfl)
    · cases hs
  | terminateRelease id =>
    simp only [System.step] at hs
    split at hs
    · cases hs
      have hactive : (s.modify id fun d => { d with drain := .active }).AllRead := hbusy id _ fun he => by cases he
      exact hactive.release.same (f := fun d => d.push .eof) (fun hidle => hidle) rfl rfl
    · cases hs

/-- A loop that is idle has taken every complete message. -/
theorem allRead {cond : System ι → Action ι → Prop} {locked : Bool} {cap : ι → Nat}
    (run : Run System.step cond (initial locked cap) s) : s.AllRead := by
  induction run with
  | refl => exact fun _ => read_of_empty rfl
  | snoc run _ hs ih => exact ih.step (due run) hs

end System

end PgliteBridge
