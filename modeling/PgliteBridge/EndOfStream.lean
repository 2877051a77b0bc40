import PgliteBridge.Scheduling

/-!
# The end of the stream

A duplex that is neither half-closed nor terminated has not ended its stream (`unended`): only the release at the end of
`_final` and the one of a Terminate push an end.
-/

namespace PgliteBridge

open TransitionSystem

def Duplex.eofs (d : Duplex) : Nat := d.pushed.count .eof

theorem Duplex.eofs_push (d : Duplex) {p : Push} (hp : p ≠ .eof) : (d.push p).eofs = d.eofs := by
  simp [Duplex.eofs, Duplex.push, List.count_append, hp]

/-- The stream has not ended before a half-close or a Terminate. -/
structure Duplex.Unended (d : Duplex) : Prop where
  final : d.finalWaits = true → d.ended = true
  terminating : d.drain = .terminating → d.phase = .terminated
  unended : d.ended = false → d.phase ≠ .terminated → d.eofs = 0

namespace Duplex.Unended

variable {d : Duplex}

private theorem of_eofs {d' : Duplex} (h : d.Unended) (hfinal : d'.finalWaits = d.finalWaits)
    (hended : d'.ended = d.ended)
    (hdrain : d'.drain = .terminating → d.drain = .terminating) (hphase : d'.phase = d.phase)
    (heofs : d'.eofs = d.eofs) : d'.Unended where
  final hf := hended ▸ h.final (hfinal ▸ hf)
  terminating hd := hphase ▸ h.terminating (hdrain hd)
  unended he hp := heofs ▸ h.unended (hended ▸ he) (hphase ▸ hp)

private theorem push (h : d.Unended) {p : Push} (hp : p ≠ .eof) : (d.push p).Unended :=
  h.of_eofs rfl rfl (fun hd => hd) rfl (d.eofs_push hp)

private theorem onChunk (h : d.Unended) (fr : ResponseFrame) : (d.onChunk fr).Unended := by
  unfold Duplex.onChunk
  split
  · exact h.push (by simp)
  · exact h

/-- The loop goes elsewhere than to the rollback of a Terminate. -/
private theorem drain (h : d.Unended) {drain : Drain} (hne : drain ≠ .terminating) : Unended { d with drain } :=
  h.of_eofs rfl rfl (fun hd => absurd hd hne) rfl rfl

private theorem capture (h : d.Unended) (copyCapture : Option CopyCapture) : Unended { d with copyCapture } :=
  h.of_eofs rfl rfl (fun hd => hd) rfl rfl

private theorem pipeline (h : d.Unended) (pipeline : List Bytes) : Unended { d with pipeline } :=
  h.of_eofs rfl rfl (fun hd => hd) rfl rfl

private theorem processMessage (h : d.Unended) (message : Bytes) : (d.processMessage message).1.Unended ∧
    ((d.processMessage message).2 = .terminate → (d.processMessage message).1.phase = .terminated) := by
  have hcopy : ∀ capture msgType, (d.processCopy capture msgType message).1.Unended ∧
      (d.processCopy capture msgType message).2 ≠ .terminate := by
    intro capture msgType
    have hclosed : Unended { d with copyCapture := none } := h.capture none
    unfold Duplex.processCopy
    split
    · exact ⟨h.capture _, fun he => by (cases he)⟩
    · split
      · dsimp only
        split
        · exact ⟨(hclosed.push (by simp)).push (by simp), fun he => by (cases he)⟩
        · exact ⟨hclosed, fun he => by (cases he)⟩
      · exact ⟨h, fun he => by (cases he)⟩
  have hquery : (d.processQuery message).1.Unended ∧ (d.processQuery message).2 ≠ .terminate := by
    unfold Duplex.processQuery
    split
    · exact ⟨(h.capture _).push (by simp), fun he => by (cases he)⟩
    · exact ⟨(h.push (by simp)).push (by simp), fun he => by (cases he)⟩
    · exact ⟨h, fun he => by (cases he)⟩
  unfold Duplex.processMessage
  dsimp only
  split
  · exact ⟨⟨h.final, fun _ => rfl, fun _ hp => absurd rfl hp⟩, fun _ => rfl⟩
  · split
    · obtain ⟨hs, hn⟩ := hcopy _ _
      exact ⟨hs, fun he => absurd he hn⟩
    · split
      · exact ⟨h.pipeline _, fun he => by (cases he)⟩
      · split
        · exact ⟨h.pipeline _, fun he => by (cases he)⟩
        · split
          · exact ⟨hquery.1, fun he => absurd he hquery.2⟩
          · exact ⟨h, fun he => by (cases he)⟩

end Duplex.Unended

namespace System

variable {ι : Type} [DecidableEq ι] {s s' : System ι} {id : ι} {call : Call ι}

def AllUnended (s : System ι) : Prop := ∀ id, (s.duplex id).Unended

theorem release_duplex (s : System ι) (id other : ι) :
    ∃ drain, (s.release other).duplex id = { s.duplex id with drain } := by
  unfold release
  split
  · exact applyLock_duplex _ id
  · exact ⟨_, rfl⟩

namespace AllUnended

private theorem modify (h : s.AllUnended) {f : Duplex → Duplex} (hf : (f (s.duplex id)).Unended) :
    (s.modify id f).AllUnended := by
  intro other
  by_cases hid : other = id
  · subst hid
    rw [modify_same]
    exact hf
  · rw [modify_other hid]
    exact h other

omit [DecidableEq ι] in
private theorem of_duplex (h : s.AllUnended) (hd : s'.duplex = s.duplex) : s'.AllUnended := fun id => hd ▸ h id

private theorem settleOne (h : s.AllUnended) (settlement : Settlement ι) : (s.settleOne settlement).AllUnended := by
  cases settlement with
  | resolved id =>
    simp only [System.settleOne]
    refine h.modify ?_
    split
    · exact (h id).drain (by simp)
    · exact h id
  | rejected id =>
    simp only [System.settleOne]
    exact h.modify ((h id).drain (by simp))

private theorem applyLock (h : s.AllUnended) (outcome : SessionLock.Outcome ι) : (s.applyLock outcome).AllUnended := by
  have hsettle : ∀ (settled : List (Settlement ι)) (t : System ι), t.AllUnended →
      (settled.foldl System.settleOne t).AllUnended := by
    intro settled
    induction settled with
    | nil => exact fun t ht => ht
    | cons settlement settled ih => exact fun t ht => ih _ (ht.settleOne settlement)
  exact hsettle outcome.settled _ (h.of_duplex rfl)

private theorem release (h : s.AllUnended) : (s.release id).AllUnended := by
  unfold System.release
  split
  · exact h.applyLock _
  · exact h

private theorem cancel (h : s.AllUnended) : (s.cancel id).AllUnended := by
  unfold System.cancel
  split
  · exact h.applyLock _
  · exact h

private theorem updateStatus (h : s.AllUnended) (status : UInt8) : (s.updateStatus id status).AllUnended := by
  unfold System.updateStatus
  split
  · split
    · exact h
    · exact h.applyLock _
  · exact h

private theorem acquireSession (h : s.AllUnended) (batch : Bytes) (mode : RfqMode) :
    (s.acquireSession id batch mode).AllUnended := by
  have hbusy : (s.modify id fun d => { d with drain := .busy { batch, mode, stage := .acquiring } }).AllUnended :=
    h.modify ((h id).drain (by simp))
  unfold System.acquireSession
  dsimp only
  split
  · exact hbusy.applyLock _
  · exact hbusy.settleOne _

/-! ### Teardown and recovery -/

private theorem decideRollback (h : s.AllUnended) : (s.decideRollback id).AllUnended :=
  h.modify ((h id).of_eofs rfl rfl (fun hd => hd) rfl rfl)

private theorem rollbackIfInTransaction (h : s.AllUnended) : (s.rollbackIfInTransaction id).AllUnended := by
  unfold System.rollbackIfInTransaction
  split
  · split
    · exact h.modify ((h id).of_eofs rfl rfl (fun hd => hd) rfl rfl)
    · exact h.decideRollback
  · exact h

private theorem destroyDuplex (h : s.AllUnended) : (s.destroyDuplex id).AllUnended := by
  unfold System.destroyDuplex
  split
  · exact h
  · refine rollbackIfInTransaction (h.modify ?_)
    exact (h id).of_eofs rfl rfl (fun hd => hd) rfl rfl

private theorem deliverRecoverySync (h : s.AllUnended) : (s.deliverRecoverySync id).AllUnended := by
  unfold System.deliverRecoverySync
  split
  · exact h
  · split <;> exact h.modify ((h id).of_eofs rfl rfl (fun hd => hd) rfl rfl)

private theorem releasePortal (h : s.AllUnended) : (s.releasePortal id).AllUnended := by
  unfold System.releasePortal
  split
  · exact h
  · split
    · exact h.deliverRecoverySync
    · split
      · exact h.modify ((h id).of_eofs rfl rfl (fun hd => hd) rfl rfl)
      · exact h

private theorem judgePortal (h : s.AllUnended) : (s.judgePortal id).AllUnended := by
  have hrequest : (s.modify id fun d => { d with portalRecoveryRequested := false }).AllUnended :=
    h.modify ((h id).of_eofs rfl rfl (fun hd => hd) rfl rfl)
  unfold System.judgePortal
  split
  · dsimp only
    split
    · exact hrequest.deliverRecoverySync
    · exact hrequest
  · exact h

/-! ### The drain loop -/

private theorem processNext (h : s.AllUnended) {d : Duplex} (hd : d.Unended) (next : Duplex.Next)
    (hterminate : next = .terminate → d.phase = .terminated) : (s.processNext id d next).AllUnended := by
  have htaken : (s.modify id fun _ => d).AllUnended := h.modify hd
  cases next with
  | again => exact htaken
  | run batch mode => exact htaken.acquireSession batch mode
  | terminate =>
    refine rollbackIfInTransaction (h.modify ?_)
    exact ⟨hd.final, fun _ => hterminate rfl, hd.unended⟩
  | throw message =>
    simp only [System.processNext]
    exact h.modify (hd.drain (by simp))

private theorem process (h : s.AllUnended) (hs : s.process id = some s') : s'.AllUnended := by
  unfold System.process at hs
  split at hs
  · split at hs
    · cases hs
      exact h.modify ((h id).of_eofs rfl rfl (fun hd => by (cases hd)) rfl rfl)
    · cases hs
      exact h.modify ((h id).drain (by simp))
    · rename_i message rest _
      cases hs
      have hinput : Duplex.Unended { s.duplex id with input := rest } := (h id).of_eofs rfl rfl (fun hd => hd) rfl rfl
      unfold System.processTaken
      dsimp only
      split
      · exact h.processNext hinput _ fun he => by (cases he)
      · exact h.processNext (hinput.processMessage message).1 _ (hinput.processMessage message).2
  · cases hs
    refine destroyDuplex (h.modify ?_)
    exact (h id).of_eofs rfl rfl (fun hd => by (cases hd)) rfl rfl
  · cases hs

/-! ### Calls -/

private theorem batchDone {d : Duplex} (h : d.Unended) : (System.batchDone d).Unended := by
  refine ⟨h.final, fun hd => by (cases hd), fun he hp => h.unended he ?_⟩
  intro hphase
  simp [System.batchDone, hphase] at hp

private theorem callDone {d : Duplex} (h : d.Unended) : (System.callDone d).Unended :=
  h.of_eofs rfl rfl (fun hd => hd) rfl rfl

private theorem startCall (h : s.AllUnended) (kind : CallKind) (response : List ResponseFrame) :
    (s.startCall id kind response).AllUnended := by
  unfold System.startCall
  cases kind with
  | rollback =>
    exact of_duplex (h.modify ((h id).of_eofs rfl rfl (fun hd => hd) rfl rfl) :
      (s.modify id fun d => { d with rollback := .running }).AllUnended) rfl
  | batch mode =>
    dsimp only
    split
    · exact of_duplex (h.modify ((h id).of_eofs rfl rfl (fun hd => hd) rfl rfl) :
        (s.modify id Duplex.startCall).AllUnended) rfl
    · exact h.modify (batchDone (h id))
  | recovery =>
    dsimp only
    split
    · exact of_duplex (h.modify ((h id).of_eofs rfl rfl (fun hd => hd) rfl rfl) :
        (s.modify id fun d => { d.startCall with recovery := some .running }).AllUnended) rfl
    · exact h.modify ((h id).of_eofs rfl rfl (fun hd => hd) rfl rfl)

private theorem receive (h : s.AllUnended) (response : List ResponseFrame) (fr : ResponseFrame) :
    (s.receive call response fr).AllUnended := by
  cases fr with
  | errorResponse =>
    have herror : (s.duplex call.id).onErrorResponse.Unended :=
      (h call.id).of_eofs rfl rfl (fun hd => hd) rfl rfl
    exact of_duplex (h.modify (herror.onChunk .errorResponse) :
      (s.modify call.id fun d => d.onErrorResponse.onChunk .errorResponse).AllUnended) rfl
  | other =>
    exact of_duplex (h.modify ((h call.id).onChunk .other) :
      (s.modify call.id fun d => d.onChunk .other).AllUnended) rfl
  | readyForQuery status =>
    rw [receive_readyForQuery]
    have hrecord : (s.modify call.id fun d => d.onReadyForQuery status).AllUnended :=
      h.modify ((h call.id).of_eofs rfl rfl (fun hd => hd) rfl rfl)
    have hstatus : ∀ u : System ι, u.AllUnended → (u.updateStatus call.id status).AllUnended :=
      fun u hu => hu.updateStatus status
    have hnote : (s.noteReadyForQuery call response status).AllUnended := hstatus _ (hrecord.of_duplex rfl)
    split
    · exact hnote
    · exact hnote.modify ((hnote call.id).onChunk _)

private theorem finishCall (h : s.AllUnended) : (s.finishCall call).AllUnended := by
  have hidle : AllUnended { s with running := none } := h.of_duplex rfl
  unfold System.finishCall
  dsimp only
  split
  · exact hidle.modify (callDone (batchDone (h call.id)))
  · exact hidle.modify ((h call.id).of_eofs rfl rfl (fun hd => hd) rfl rfl)
  · exact hidle.modify ((h call.id).of_eofs rfl rfl (fun hd => hd) rfl rfl)

private theorem settlePortal (h : s.AllUnended) (synced : Bool) : (s.settlePortal call synced).AllUnended := by
  have hportal : ∀ b, (s.modify call.id fun d => { d with portalSuspended := b }).AllUnended :=
    fun b => h.modify ((h call.id).of_eofs rfl rfl (fun hd => hd) rfl rfl)
  unfold System.settlePortal
  dsimp only
  split
  · exact (hportal true).of_duplex rfl
  · split
    · exact release ((hportal false).of_duplex rfl)
    · exact hportal false

private theorem flushHeld (h : s.AllUnended) : (s.flushHeld call).AllUnended := by
  unfold System.flushHeld
  split
  · refine h.modify ?_
    split
    · exact h call.id
    · exact (h call.id).onChunk _
  · exact h

private theorem flushCall (h : s.AllUnended) : (s.flushCall call).AllUnended := by
  have hheld : (s.flushHeld call).AllUnended := h.flushHeld
  unfold System.flushCall
  dsimp only
  split
  · split
    · exact hheld.of_duplex rfl
    · exact finishCall (hheld.settlePortal true)
  · exact hheld.finishCall

private theorem recoveredCall (h : s.AllUnended) (ok : Bool) : (s.recoveredCall call ok).AllUnended := by
  have hfailed : (if ok then s else s.destroyDuplex call.id).AllUnended := by
    split
    · exact h
    · exact h.destroyDuplex
  unfold System.recoveredCall
  exact finishCall (hfailed.settlePortal ok)

private theorem throwCall (h : s.AllUnended) : (s.throwCall call).AllUnended := by
  have hidle : AllUnended { s with running := none } := h.of_duplex rfl
  unfold System.throwCall
  dsimp only
  split
  · exact hidle.modify (callDone ((h call.id).drain (by simp)))
  · have hdone : ({ s with running := none }.modify call.id fun d =>
        System.callDone { d with recovery := none }).AllUnended :=
      hidle.modify ((h call.id).of_eofs rfl rfl (fun hd => hd) rfl rfl)
    split
    · exact hdone
    · exact hdone.destroyDuplex
  · exact hidle.modify ((h call.id).of_eofs rfl rfl (fun hd => hd) rfl rfl)

/-! ### Steps and runs -/

private theorem step {a : Action ι} (h : s.AllUnended) (hs : s.step a = some s') : s'.AllUnended := by
  have hsame : ∀ {id : ι} {f : Duplex → Duplex}, (f (s.duplex id)).finalWaits = (s.duplex id).finalWaits →
      (f (s.duplex id)).ended = (s.duplex id).ended →
      ((f (s.duplex id)).drain = .terminating → (s.duplex id).drain = .terminating) →
      (f (s.duplex id)).phase = (s.duplex id).phase → (f (s.duplex id)).eofs = (s.duplex id).eofs →
      (s.modify id f).AllUnended :=
    fun hf he hd hp hpushed => h.modify ((h _).of_eofs hf he hd hp hpushed)
  cases a with
  | write id chunk =>
    simp only [System.step] at hs
    split at hs
    · cases hs
    · cases hs
      exact hsame rfl rfl (fun hd => hd) rfl rfl
  | deliver id count =>
    simp only [System.step] at hs
    split at hs
    · cases hs
    · split at hs
      · cases hs
        exact hsame rfl rfl (fun hd => hd) rfl rfl
      · cases hs
        exact hsame rfl rfl (fun hd => by (cases hd)) rfl rfl
  | process id => exact h.process hs
  | tail id =>
    simp only [System.step] at hs
    split at hs
    · cases hs
    · cases hs
      exact judgePortal (hsame rfl rfl (fun hd => hd) rfl rfl)
  | pgliteReady id =>
    simp only [System.step] at hs
    split at hs
    · rename_i op _
      cases hs
      exact of_duplex (h.modify ((h id).drain (by simp)) :
        (s.modify id fun d => { d with drain := .busy { op with stage := .queued } }).AllUnended) rfl
    · cases hs
  | pgliteNotReady id =>
    simp only [System.step] at hs
    split at hs
    · cases hs
      exact h.modify ((h id).drain (by simp))
    · cases hs
  | recoveryReady id =>
    simp only [System.step] at hs
    split at hs
    · cases hs
      exact of_duplex (hsame rfl rfl (fun hd => hd) rfl rfl :
        (s.modify id fun d => { d with recovery := some .queued }).AllUnended) rfl
    · cases hs
  | recoveryNotReady id =>
    simp only [System.step] at hs
    split at hs
    · cases hs
      have hdone : (s.modify id fun d => { d with recovery := none }).AllUnended :=
        hsame rfl rfl (fun hd => hd) rfl rfl
      split
      · exact hdone
      · exact hdone.destroyDuplex
    · cases hs
  | queryRollback id ok =>
    simp only [System.step] at hs
    split at hs
    · cases hs
      split
      · exact of_duplex (hsame rfl rfl (fun hd => hd) rfl rfl :
          (s.modify id fun d => { d with rollback := .queued }).AllUnended) rfl
      · exact hsame rfl rfl (fun hd => hd) rfl rfl
    · cases hs
  | start response =>
    simp only [System.step] at hs
    split at hs
    · rename_i id kind mutex _ _
      cases hs
      have hqueue : AllUnended { s with mutex } := h.of_duplex rfl
      exact hqueue.startCall kind response
    · cases hs
  | frame =>
    simp only [System.step] at hs
    split at hs
    · split at hs
      · cases hs
        exact h.receive _ _
      · cases hs
    · cases hs
  | flush =>
    simp only [System.step] at hs
    split at hs
    · split at hs
      · cases hs
      · cases hs
        exact h.flushCall
    · cases hs
  | recovered ok =>
    simp only [System.step] at hs
    split at hs
    · split at hs
      · cases hs
        exact h.recoveredCall ok
      · cases hs
    · cases hs
  | throw =>
    simp only [System.step] at hs
    split at hs
    · split at hs
      · cases hs
      · cases hs
        exact h.throwCall
    · cases hs
  | rolledBack ok =>
    simp only [System.step] at hs
    split at hs
    · rename_i call _
      split at hs
      · cases hs
        have hfinish : (s.finishCall call).AllUnended := h.finishCall
        split
        · exact of_duplex (hfinish.modify ((hfinish call.id).of_eofs rfl rfl (fun hd => hd) rfl rfl) :
            ((s.finishCall call).modify call.id fun d =>
              { d with lastSeenRfqStatus := some RFQ_STATUS_IDLE }).AllUnended) rfl
        · exact hfinish
      · cases hs
    · cases hs
  | releaseAbandonedPortalHold id =>
    cases hs
    exact h.releasePortal
  | final id =>
    simp only [System.step] at hs
    split at hs
    · cases hs
    · cases hs
      refine rollbackIfInTransaction (h.modify ?_)
      exact ⟨fun _ => rfl, (h id).terminating, fun he => by (cases he)⟩
  | destroy id =>
    simp only [System.step] at hs
    split at hs
    · cases hs
    · cases hs
      exact h.destroyDuplex
  | decide id =>
    simp only [System.step] at hs
    split at hs
    · cases hs
      exact h.decideRollback
    · cases hs
  | finalRelease id =>
    simp only [System.step] at hs
    split at hs
    · rename_i hguard
      cases hs
      have hdone : (s.modify id fun d => { d with finalWaits := false }).AllUnended :=
        h.modify ⟨fun hf => by (cases hf), (h id).terminating, (h id).unended⟩
      split
      · exact hdone
      · have hreleased : ((s.modify id fun d => { d with finalWaits := false }).release id).AllUnended := hdone.release
        have hended : (((s.modify id fun d => { d with finalWaits := false }).release id).duplex id).ended = true := by
          obtain ⟨drain, hd⟩ := release_duplex (s.modify id fun d => { d with finalWaits := false }) id id
          rw [hd, modify_same]
          exact (h id).final hguard.1
        refine hreleased.modify ⟨(hreleased id).final, (hreleased id).terminating, fun he => ?_⟩
        rw [show ((((s.modify id fun d => { d with finalWaits := false }).release id).duplex id).push .eof).ended =
          true from hended] at he
        cases he
    · cases hs
  | destroyCancel id =>
    simp only [System.step] at hs
    split at hs
    · cases hs
      exact cancel (hsame rfl rfl (fun hd => hd) rfl rfl)
    · cases hs
  | terminateRelease id =>
    simp only [System.step] at hs
    split at hs
    · rename_i hguard
      cases hs
      have hphase : (s.duplex id).phase = .terminated := (h id).terminating hguard.1
      have hdrain : (s.modify id fun d => { d with drain := .active }).AllUnended :=
        h.modify ((h id).drain (by simp))
      have hreleased : ((s.modify id fun d => { d with drain := .active }).release id).AllUnended := hdrain.release
      refine hreleased.modify ⟨(hreleased id).final, (hreleased id).terminating, fun _ hp => ?_⟩
      obtain ⟨drain, hd⟩ := release_duplex (s.modify id fun d => { d with drain := .active }) id id
      refine absurd ?_ hp
      rw [hd, modify_same]
      exact hphase
    · cases hs

end AllUnended

theorem unended {cond : System ι → Action ι → Prop} {locked : Bool} {cap : ι → Nat}
    (run : Run step cond (initial locked cap) s) : s.AllUnended := by
  refine run.invariant (fun id => ?_) fun _ _ _ h _ hs => h.step hs
  exact ⟨fun hf => by (cases hf), fun hd => by (cases hd), fun _ _ => rfl⟩

end System

end PgliteBridge
