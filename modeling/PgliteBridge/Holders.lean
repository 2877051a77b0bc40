import PgliteBridge.Progress
import PgliteBridge.Teardown

/-!
# Who holds the session

With answers of PostgreSQL's shape (`Answered`), a duplex owns the session only while its last status tells of a
transaction, its portal is suspended, one of its batches is under way, or it is on its way down (`Duplex.Keeps`).  So a
batch that waits when nothing is under way waits for a transaction or a cursor of another client
(`waits_for_open_session`).
-/

namespace PgliteBridge

open TransitionSystem

/-- A transaction or a portal is open, as far as the duplex knows. -/
def Duplex.Open (d : Duplex) : Prop := d.inTransaction = true ∨ d.portalSuspended = true

/-- What entitles a duplex to the session. -/
def Duplex.Keeps (d : Duplex) : Prop :=
  d.Open ∨ (∃ op, d.drain = .busy op) ∨ d.drain = .failing ∨ d.live = false ∨ d.ended = true

instance (d : Duplex) : Decidable d.Open := by unfold Duplex.Open; infer_instance

def ResponseFrame.known : ResponseFrame → Bool
  | .readyForQuery status =>
    status == RFQ_STATUS_IDLE || status == RFQ_STATUS_IN_TRANSACTION || status == RFQ_STATUS_FAILED
  | _ => true

namespace System

variable {ι : Type} [DecidableEq ι] {s s' : System ι} {id : ι} {f : Duplex → Duplex} {d d' : Duplex}

/-- Every batch but a Flush batch is answered with a ReadyForQuery, and a status is one of the three. -/
def Answered (s : System ι) : Action ι → Prop
  | .start response =>
    (∀ op ∈ s.mutex.head?, (batchId op).isSome = true → op.2.mode ≠ .flushBoundary →
      ∃ fr ∈ response, fr.isReadyForQuery = true) ∧ ∀ fr ∈ response, fr.known = true
  | _ => True

instance (s : System ι) : (a : Action ι) → Decidable (s.Answered a)
  | .start response =>
    inferInstanceAs (Decidable ((∀ op ∈ s.mutex.head?, (batchId op).isSome = true → op.2.mode ≠ .flushBoundary →
      ∃ fr ∈ response, fr.isReadyForQuery = true) ∧ ∀ fr ∈ response, fr.known = true))
  | .write .. | .deliver .. | .process _ | .tail _ | .pgliteReady _ | .pgliteNotReady _ | .recoveryReady _
  | .recoveryNotReady _ | .queryRollback .. | .frame | .flush | .recovered _ | .throw | .rolledBack _
  | .releaseAbandonedPortalHold _ | .final _ | .destroy _ | .decide _ | .finalRelease _ | .destroyCancel _
  | .terminateRelease _ => isTrue trivial

structure Kept (s : System ι) : Prop where
  owner : ∀ id, s.owner = some id → (s.duplex id).Keeps
  seen : ∀ call ∈ s.running, (batchId (call.id, call.kind)).isSome = true → (s.duplex call.id).rfqSeenInCall = true →
    s.owner = some call.id → (s.duplex call.id).live = true → (s.duplex call.id).inTransaction = true
  answered : ∀ call ∈ s.running, ∀ mode, call.kind = .batch mode → mode ≠ .flushBoundary →
    (s.duplex call.id).rfqSeenInCall = true ∨ ∃ fr ∈ call.response, fr.isReadyForQuery = true
  statuses : ∀ call ∈ s.running, ∀ status, .readyForQuery status ∈ call.response →
    status = RFQ_STATUS_IDLE ∨ status = RFQ_STATUS_IN_TRANSACTION ∨ status = RFQ_STATUS_FAILED
  recovering : ∀ call ∈ s.running, call.recovering = true → call.kind = .batch .flushBoundary

/-- A change outside the calls that leaves the duplex its title. -/
structure Entitled (d d' : Duplex) : Prop where
  keeps : d.Keeps → d'.Keeps
  rfqSeenInCall : d'.rfqSeenInCall = d.rfqSeenInCall
  lastSeenRfqStatus : d'.lastSeenRfqStatus = d.lastSeenRfqStatus
  live : d'.live = true → d.live = true

private theorem Kept.modify_of (h : Kept s) (hkeeps : s.owner = some id → (s.duplex id).Keeps → (f (s.duplex id)).Keeps)
    (hrfq : (f (s.duplex id)).rfqSeenInCall = (s.duplex id).rfqSeenInCall)
    (hstatus : (f (s.duplex id)).lastSeenRfqStatus = (s.duplex id).lastSeenRfqStatus)
    (hlive : (f (s.duplex id)).live = true → (s.duplex id).live = true) : Kept (s.modify id f) := by
  have hsame : ∀ other, ((s.modify id f).duplex other).rfqSeenInCall = (s.duplex other).rfqSeenInCall ∧
      ((s.modify id f).duplex other).inTransaction = (s.duplex other).inTransaction ∧
      (((s.modify id f).duplex other).live = true → (s.duplex other).live = true) := by
    intro other
    by_cases ho : other = id
    · subst ho
      rw [modify_same, Duplex.inTransaction, hstatus]
      exact ⟨hrfq, rfl, hlive⟩
    · rw [modify_other ho]
      exact ⟨rfl, rfl, fun hl => hl⟩
  refine ⟨fun other hown => ?_, fun call hcall hbatch hseen hown hl => ?_, fun call hcall mode hmode hflush => ?_,
    h.statuses, h.recovering⟩
  · by_cases ho : other = id
    · subst ho
      rw [modify_same]
      exact hkeeps hown (h.owner other hown)
    · rw [modify_other ho]
      exact h.owner other hown
  · obtain ⟨hs, ht, hlive⟩ := hsame call.id
    rw [ht]
    exact h.seen call hcall hbatch (hs ▸ hseen) hown (hlive hl)
  · rw [(hsame call.id).1]
    exact h.answered call hcall mode hmode hflush

private theorem Kept.modify (h : Kept s) (hf : Entitled (s.duplex id) (f (s.duplex id))) : Kept (s.modify id f) :=
  h.modify_of (fun _ => hf.keeps) hf.rfqSeenInCall hf.lastSeenRfqStatus hf.live

omit [DecidableEq ι] in
/-- A change that leaves the title itself alone. -/
private theorem entitled (hdrain : d'.drain = d.drain) (hstatus : d'.lastSeenRfqStatus = d.lastSeenRfqStatus)
    (hportal : d'.portalSuspended = d.portalSuspended) (hlive : d'.live = d.live) (hended : d'.ended = d.ended)
    (hrfq : d'.rfqSeenInCall = d.rfqSeenInCall) : Entitled d d' := by
  refine ⟨fun hk => ?_, hrfq, hstatus, fun hl => hlive ▸ hl⟩
  unfold Duplex.Keeps Duplex.Open Duplex.inTransaction at *
  rw [hdrain, hstatus, hportal, hlive, hended]
  exact hk

/-! ### The lock -/

private theorem Kept.settleOne (h : Kept s) (settlement : Settlement ι) : Kept (s.settleOne settlement) := by
  rw [settleOne_eq]
  refine h.modify ⟨fun hk => ?_, rfl, rfl, fun hl => hl⟩
  rcases hk with hopen | ⟨op, hop⟩ | hfail | hrest
  · exact Or.inl hopen
  · exact Or.inr ((through_settled settlement (Or.inr ⟨op, hop⟩)).elim (fun hf => Or.inr (Or.inl hf))
      fun ⟨op', hop', _⟩ => Or.inl ⟨op', hop'⟩)
  · exact Or.inr ((through_settled settlement (Or.inl (Or.inl hfail))).elim (fun hf => Or.inr (Or.inl hf))
      fun ⟨op', hop', _⟩ => Or.inl ⟨op', hop'⟩)
  · exact Or.inr (Or.inr (Or.inr hrest))

/-- The session goes to a duplex with a batch under way, or stays where it was. -/
private theorem Kept.applyLock {outcome : SessionLock.Outcome ι} (h : Kept s)
    (howner : ∀ id, outcome.lock.owner = some id → s.owner = some id ∨ ∃ op, (s.duplex id).drain = .busy op)
    (hcall : ∀ call ∈ s.running, (batchId (call.id, call.kind)).isSome = true → outcome.lock.owner = some call.id →
      s.owner = some call.id) : Kept (s.applyLock outcome) := by
  have hlock : Kept ({ s with lock := some outcome.lock } : System ι) := by
    refine ⟨fun id hown => ?_, fun call hrun hbatch hseen hown => ?_, h.answered, h.statuses, h.recovering⟩
    swap
    · exact h.seen call hrun hbatch hseen (hcall call hrun hbatch hown)
    rcases howner id hown with hown | hbusy
    · exact h.owner id hown
    · exact Or.inr (Or.inl hbusy)
  have hsettle : ∀ (settled : List (Settlement ι)) (s : System ι), Kept s →
      Kept (settled.foldl System.settleOne s) := by
    intro settled
    induction settled with
    | nil => exact fun _ hs => hs
    | cons settlement settled ih => exact fun s hs => ih _ (hs.settleOne settlement)
  exact hsettle _ _ hlock

omit [DecidableEq ι] in
/-- The batch PGlite executes is past its `acquire`. -/
theorem running_stage {call : Call ι} (hw : WellScheduled s) (hrun : s.running = some call)
    (hbatch : (batchId (call.id, call.kind)).isSome = true) : (s.duplex call.id).stage = some .queued := by
  refine hw.queued call.id ?_
  rw [batches, WellScheduled.ops_of_running hrun, List.filterMap_cons]
  cases hkind : call.kind <;> simp [hkind, batchId] at hbatch ⊢

private theorem Kept.pass {l : SessionLock ι} {outcome : SessionLock.Outcome ι} (h : Kept s) (hw : WellScheduled s)
    (hl : s.lock = some l) (hp : l.Passes outcome) : Kept (s.applyLock outcome) := by
  have hwaits : ∀ id, outcome.lock.owner = some id → s.owner = some id ∨ (s.duplex id).stage = some .acquiring := by
    intro id hown
    rw [System.owner_of_lock hl]
    exact (hp.owner id hown).imp_right fun hq => hw.waiters id (waitQueue_of_lock hl ▸ hq)
  refine h.applyLock (fun id hown => (hwaits id hown).imp_right busy_of_stage) fun call hrun hbatch hown => ?_
  refine (hwaits call.id hown).resolve_right fun hstage => ?_
  cases hstage.symm.trans (running_stage hw hrun hbatch)

private theorem Kept.release (h : Kept s) (hw : WellScheduled s) (hfair : ∀ l, s.lock = some l → l.Fair) :
    Kept (s.release id) := by
  unfold System.release
  split
  · rename_i l hl
    exact h.pass hw hl (SessionLock.passes_release (hfair l hl))
  · exact h

private theorem Kept.cancel (h : Kept s) (hw : WellScheduled s) (hfair : ∀ l, s.lock = some l → l.Fair) :
    Kept (s.cancel id) := by
  unfold System.cancel
  split
  · rename_i l hl
    exact h.pass hw hl (SessionLock.passes_cancel (hfair l hl))
  · exact h

private theorem Kept.updateStatus (h : Kept s) (hw : WellScheduled s) (hfair : ∀ l, s.lock = some l → l.Fair)
    (status : UInt8) : Kept (s.updateStatus id status) := by
  unfold System.updateStatus
  split
  · rename_i l hl
    split
    · exact h
    · exact h.pass hw hl (SessionLock.passes_updateStatus (hfair l hl) status)
  · exact h

/-- The owner has no title any more and gives the session up. -/
private theorem Kept.giveUp (h : Kept ({ s with lock := none } : System ι)) (hw : WellScheduled s)
    (hfair : ∀ l, s.lock = some l → l.Fair) (howner : s.owner = some id) : Kept (s.release id) := by
  unfold System.release
  split
  · rename_i l hl
    have hl' := hfair l hl
    have hown : l.owner = some id := (System.owner_of_lock hl).symm.trans howner
    have hout : id ∉ l.waitQueue := hl'.apart id hown
    -- the next owner was waiting
    have hwaits : ∀ other, (l.release id).lock.owner = some other → (s.duplex other).stage = some .acquiring := by
      intro other hother
      refine hw.waiters other (waitQueue_of_lock hl ▸
        ((SessionLock.passes_release hl').owner other hother).resolve_left ?_)
      intro he
      rw [he] at hown
      cases hown
      exact (SessionLock.release_leaves hl' hout).1 hother
    refine h.applyLock (fun other hother => Or.inr (busy_of_stage (hwaits other hother)))
      fun call hrun hbatch hother => ?_
    cases (hwaits call.id hother).symm.trans (running_stage hw hrun hbatch)
  · rename_i hl
    rw [System.owner, hl] at howner
    cases howner

private theorem Kept.acquireSession (h : Kept s) (hw : WellScheduled s) (hactive : (s.duplex id).drain = .active)
    (batch : Bytes) (mode : RfqMode) : Kept (s.acquireSession id batch mode) := by
  have hbusy : Kept (s.modify id fun d => { d with drain := .busy { batch, mode, stage := .acquiring } }) :=
    h.modify ⟨fun _ => Or.inr (Or.inl ⟨_, rfl⟩), rfl, rfl, fun hl => hl⟩
  -- the batch that PGlite executes is not one of this duplex
  have hother : ∀ call ∈ s.running, (batchId (call.id, call.kind)).isSome = true → call.id ≠ id := by
    rintro call hrun hbatch rfl
    have hstage := running_stage hw hrun hbatch
    rw [Duplex.stage, hactive] at hstage
    cases hstage
  unfold System.acquireSession
  dsimp only
  split
  · rename_i l hl
    have howner : ∀ other, (l.acquire id).lock.owner = some other → other = id ∨ s.owner = some other := by
      intro other hown
      rw [owner_of_lock (s := s) hl]
      unfold SessionLock.acquire at hown
      split at hown
      · exact Or.inl (Option.some.inj hown).symm
      · split at hown
        · exact Or.inr hown
        · exact Or.inr hown
    refine hbusy.applyLock (fun other hown => ?_) fun call hrun hbatch hown => ?_
    · rcases howner other hown with rfl | hown
      · exact Or.inr ⟨_, congrArg Duplex.drain modify_same⟩
      · exact Or.inl hown
    · exact (howner call.id hown).resolve_left (hother call hrun hbatch)
  · exact hbusy.settleOne _

/-! ### Teardown and recovery -/

omit [DecidableEq ι] in
private theorem keeps_dead (h : d.live = false) : d.Keeps := Or.inr (Or.inr (Or.inr (Or.inl h)))

omit [DecidableEq ι] in
private theorem keeps_ended (h : d.ended = true) : d.Keeps := Or.inr (Or.inr (Or.inr (Or.inr h)))

private theorem Kept.rollbackIfInTransaction (h : Kept s) : Kept (s.rollbackIfInTransaction id) := by
  obtain ⟨rollback, heq, -⟩ := rollbackIfInTransaction_eq s id
  rw [heq]
  exact h.modify (entitled rfl rfl rfl rfl rfl rfl)

/-- Whatever else the destroy comes with. -/
private theorem Kept.destroy (h : Kept s) (hrfq : (f (s.duplex id)).rfqSeenInCall = (s.duplex id).rfqSeenInCall)
    (hstatus : (f (s.duplex id)).lastSeenRfqStatus = (s.duplex id).lastSeenRfqStatus)
    (hlive : (f (s.duplex id)).live = true → (s.duplex id).live = true) : Kept ((s.modify id f).destroyDuplex id) := by
  unfold System.destroyDuplex
  split
  · rename_i htorn
    rw [modify_same] at htorn
    exact h.modify ⟨fun _ => keeps_dead (by simp [Duplex.live, htorn]), hrfq, hstatus, hlive⟩
  · have htorn : Kept ((s.modify id f).modify id tearDown) := by
      rw [modify_modify]
      refine h.modify ⟨fun _ => keeps_dead rfl, hrfq, hstatus, fun hl => ?_⟩
      cases (show (tearDown (f (s.duplex id))).live = false from rfl).symm.trans hl
    exact htorn.rollbackIfInTransaction

private theorem Kept.destroyDuplex (h : Kept s) : Kept (s.destroyDuplex id) := by
  have hsame : s.modify id (fun d => d) = s :=
    congrArg (fun duplex => ({ s with duplex } : System ι)) (Function.update_eq_self id s.duplex)
  have hd := h.destroy (f := fun d => d) rfl rfl fun (hl : (s.duplex id).live = true) => hl
  rwa [hsame] at hd

private theorem Kept.deliverRecoverySync (h : Kept s) : Kept (s.deliverRecoverySync id) := by
  unfold System.deliverRecoverySync
  split
  · exact h
  · split
    · exact h.modify (entitled rfl rfl rfl rfl rfl rfl)
    · rename_i hno
      refine h.modify_of (fun hown => absurd ?_ hno) rfl rfl fun hl => hl
      rw [System.owner, Option.bind_eq_some_iff] at hown
      obtain ⟨l, hl, hown⟩ := hown
      simp [System.mayUse, hl, SessionLock.isOwner, hown]

private theorem Kept.releasePortal (h : Kept s) : Kept (s.releasePortal id) := by
  unfold System.releasePortal
  split
  · exact h
  · split
    · exact h.deliverRecoverySync
    · split
      · exact h.modify (entitled rfl rfl rfl rfl rfl rfl)
      · exact h

private theorem Kept.judgePortal (h : Kept s) : Kept (s.judgePortal id) := by
  unfold System.judgePortal
  split
  · have hclear : Kept (s.modify id fun d => { d with portalRecoveryRequested := false }) :=
      h.modify (entitled rfl rfl rfl rfl rfl rfl)
    dsimp only
    split
    · exact hclear.deliverRecoverySync
    · exact hclear
  · exact h

/-! ### The drain loop -/

omit [DecidableEq ι] in
/-- A message leaves the title alone, unless it is a Terminate. -/
private theorem entitled_processMessage (d : Duplex) (message : Bytes) : Entitled d (d.processMessage message).1 ∧
    ((d.processMessage message).2 = .terminate → (d.processMessage message).1.live = false) := by
  have hcopy : ∀ capture msgType, Entitled d (d.processCopy capture msgType message).1 ∧
      (d.processCopy capture msgType message).2 ≠ .terminate := by
    intro capture msgType
    unfold Duplex.processCopy
    split
    · exact ⟨entitled rfl rfl rfl rfl rfl rfl, fun he => by cases he⟩
    · split
      · dsimp only
        split <;> exact ⟨entitled rfl rfl rfl rfl rfl rfl, fun he => by cases he⟩
      · exact ⟨entitled rfl rfl rfl rfl rfl rfl, fun he => by cases he⟩
  have hquery : Entitled d (d.processQuery message).1 ∧ (d.processQuery message).2 ≠ .terminate := by
    unfold Duplex.processQuery
    split <;> exact ⟨entitled rfl rfl rfl rfl rfl rfl, fun he => by cases he⟩
  have hlive : d.terminate.live = false := by simp [Duplex.live, Duplex.terminate]
  unfold Duplex.processMessage
  dsimp only
  split
  · refine ⟨⟨fun _ => keeps_dead hlive, rfl, rfl, fun hl => ?_⟩, fun _ => hlive⟩
    cases hlive.symm.trans hl
  · split
    · exact ⟨(hcopy _ _).1, fun he => absurd he (hcopy _ _).2⟩
    · split
      · exact ⟨entitled rfl rfl rfl rfl rfl rfl, fun he => by cases he⟩
      · split
        · exact ⟨entitled rfl rfl rfl rfl rfl rfl, fun he => by cases he⟩
        · split
          · exact ⟨hquery.1, fun he => absurd he hquery.2⟩
          · exact ⟨entitled rfl rfl rfl rfl rfl rfl, fun he => by cases he⟩

omit [DecidableEq ι] in
/-- A loop that is between two awaits gives the duplex no title. -/
private theorem keeps_drain {drain : Drain} (hd : d.drain = .active ∨ d.drain = .idle ∨ d.drain = .terminating)
    (h : d.Keeps) :
    ({ d with drain } : Duplex).Keeps := by
  rcases h with hopen | ⟨op, hop⟩ | hfail | hrest
  · exact Or.inl hopen
  · rcases hd with hd | hd | hd <;> cases hd.symm.trans hop
  · rcases hd with hd | hd | hd <;> cases hd.symm.trans hfail
  · exact Or.inr (Or.inr (Or.inr hrest))

private theorem Kept.processNext {next : Duplex.Next} (h : Kept s) (hw : WellScheduled s)
    (hactive : (s.duplex id).drain = .active) (hsame : (s.duplex id).SameSchedule d) (hd : Entitled (s.duplex id) d) :
    Kept (s.processNext id d next) := by
  have hrecord : Kept (s.modify id fun _ => d) := h.modify hd
  have hdrain : d.drain = .active := hsame.drain.trans hactive
  have hmoved : ∀ drain : Drain, Kept (s.modify id fun _ => { d with drain }) := fun drain =>
    h.modify ⟨fun hk => keeps_drain (Or.inl hdrain) (hd.keeps hk), hd.rfqSeenInCall, hd.lastSeenRfqStatus, hd.live⟩
  cases next with
  | again => exact hrecord
  | run batch mode =>
    refine hrecord.acquireSession (hw.same (f := fun _ => d) hsame) ?_ batch mode
    rw [modify_same]
    exact hdrain
  | terminate => exact (hmoved .terminating).rollbackIfInTransaction
  | throw message => exact hmoved .failing

private theorem Kept.process (h : Kept s) (hw : WellScheduled s) (hs : s.process id = some s') : Kept s' := by
  unfold System.process at hs
  split at hs
  · rename_i hactive
    split at hs
    · cases hs
      exact h.modify ⟨fun hk => keeps_drain (Or.inl hactive) hk, rfl, rfl, fun hl => hl⟩
    · cases hs
      exact h.modify ⟨fun _ => Or.inr (Or.inr (Or.inl rfl)), rfl, rfl, fun hl => hl⟩
    · rename_i message rest _
      cases hs
      unfold processTaken
      dsimp only
      split
      · exact h.processNext hw hactive ⟨rfl, rfl, rfl, rfl, fun h => h⟩ (entitled rfl rfl rfl rfl rfl rfl)
      · obtain ⟨hsame, -⟩ := Duplex.processMessage_same { s.duplex id with input := rest } message
        obtain ⟨hent, -⟩ := entitled_processMessage { s.duplex id with input := rest } message
        have hrest : Entitled (s.duplex id) { s.duplex id with input := rest } := entitled rfl rfl rfl rfl rfl rfl
        exact h.processNext hw hactive ⟨hsame.drain, hsame.ended, hsame.writable, hsame.rollback, hsame.live⟩
          ⟨fun hk => hent.keeps (hrest.keeps hk), hent.rfqSeenInCall, hent.lastSeenRfqStatus, hent.live⟩
  · rename_i hfailing
    cases hs
    exact h.destroy rfl rfl fun hl => hl
  · cases hs

/-! ### Protocol calls -/

section Calls

variable {call : Call ι} {kind : CallKind} {mutex : List (ι × CallKind)} {response : List ResponseFrame}

omit [DecidableEq ι] in
private theorem batchDone_dead (h : d.live = false) : (batchDone d).live = false := by
  unfold batchDone Duplex.live at *
  cases hp : d.phase <;> simp_all

omit [DecidableEq ι] in
private theorem Kept.of_idle (hidle : s.running = none) (h : ∀ id, s.owner = some id → (s.duplex id).Keeps) :
    Kept s := by
  have hnone : ∀ call ∈ s.running, False := fun call hcall => by cases hidle.symm.trans hcall
  exact ⟨h, fun call hcall => (hnone call hcall).elim, fun call hcall => (hnone call hcall).elim,
    fun call hcall => (hnone call hcall).elim, fun call hcall => (hnone call hcall).elim⟩

omit [DecidableEq ι] in
/-- A call begins. -/
private theorem Kept.open_call (h : ∀ id, s.owner = some id → (s.duplex id).Keeps) (hrec : call.recovering = false)
    (hseen : (batchId (call.id, call.kind)).isSome = true → (s.duplex call.id).rfqSeenInCall = false)
    (hanswered : ∀ mode, call.kind = .batch mode → mode ≠ .flushBoundary →
      ∃ fr ∈ call.response, fr.isReadyForQuery = true)
    (hstatuses : ∀ status, .readyForQuery status ∈ call.response →
      status = RFQ_STATUS_IDLE ∨ status = RFQ_STATUS_IN_TRANSACTION ∨ status = RFQ_STATUS_FAILED) :
    Kept ({ s with running := some call } : System ι) := by
  refine ⟨h, fun c hc hbatch hs => ?_, fun c hc mode hmode hflush => ?_, fun c hc => ?_, fun c hc hr => ?_⟩
  all_goals obtain rfl := Option.some.inj hc
  · cases (hseen hbatch).symm.trans hs
  · exact Or.inr (hanswered mode hmode hflush)
  · exact hstatuses
  · cases hrec.symm.trans hr

private theorem Kept.start (h : Kept s) (hidle : s.running = none) (hmutex : s.mutex = (id, kind) :: mutex)
    (hanswer : s.Answered (.start response)) : Kept ({ s with mutex }.startCall id kind response) := by
  obtain ⟨hframes, hknown⟩ := hanswer
  have hstatuses : ∀ status, .readyForQuery status ∈ response →
      status = RFQ_STATUS_IDLE ∨ status = RFQ_STATUS_IN_TRANSACTION ∨ status = RFQ_STATUS_FAILED := by
    intro status hmem
    have := hknown _ hmem
    simpa [ResponseFrame.known, or_assoc] using this
  have hpop : Kept ({ s with mutex } : System ι) := .of_idle hidle h.owner
  -- the callback marks the start of its call
  have hstart : ∀ f : Duplex → Duplex, ((s.duplex id).Keeps → (f (s.duplex id)).Keeps) →
      ∀ other, s.owner = some other → ((({ s with mutex } : System ι).modify id f).duplex other).Keeps := by
    intro f hf other hown
    by_cases ho : other = id
    · subst ho
      rw [modify_same]
      exact hf (h.owner other hown)
    · rw [modify_other ho]
      exact h.owner other hown
  unfold startCall
  cases kind with
  | rollback =>
    have hkeeps := hstart (fun d => { d with rollback := .running }) fun hk => hk
    refine Kept.open_call hkeeps rfl (fun hbatch => ?_) (fun mode hmode => ?_) fun status hmem => ?_
    · cases hbatch
    · cases hmode
    · cases hmem
  | batch mode =>
    dsimp only
    split
    · refine Kept.open_call (hstart Duplex.startCall fun hk => hk) rfl (fun _ => ?_) (fun mode' hmode hflush => ?_)
        hstatuses
      · exact congrArg Duplex.rfqSeenInCall modify_same
      · obtain rfl := CallKind.batch.inj hmode
        exact hframes (id, .batch mode) (by rw [hmutex]; rfl) rfl hflush
    · rename_i hlive
      have hdead : (batchDone (s.duplex id)).live = false := batchDone_dead (by simpa using hlive)
      exact hpop.modify ⟨fun _ => keeps_dead hdead, rfl, rfl, fun hl => by cases hdead.symm.trans hl⟩
  | recovery =>
    dsimp only
    split
    · have hkeeps := hstart (fun d => { d.startCall with recovery := some .running }) fun hk => hk
      refine Kept.open_call hkeeps rfl (fun hbatch => ?_) (fun mode hmode => ?_) hstatuses
      · cases hbatch
      · cases hmode
    · exact hpop.modify (entitled rfl rfl rfl rfl rfl rfl)

omit [DecidableEq ι] in
/-- The running call goes on. -/
private theorem Kept.advance (h : Kept s) (hrun : s.running = some call) (call' : Call ι) (session : Option ι)
    (hid : call'.id = call.id) (hkind : call'.kind = call.kind)
    (hresponse : ∀ fr ∈ call'.response, fr ∈ call.response)
    (hanswered : ∀ fr ∈ call.response, fr.isReadyForQuery = true → fr ∉ call'.response →
      (s.duplex call.id).rfqSeenInCall = true)
    (hrec : call'.recovering = true → call'.kind = .batch .flushBoundary) : Kept (s.setCall call' session) := by
  refine ⟨h.owner, fun c hc hbatch => ?_, fun c hc mode hmode hflush => ?_, fun c hc status hmem => ?_,
    fun c hc hr => ?_⟩
  all_goals obtain rfl := Option.some.inj hc
  · rw [hid, hkind] at hbatch
    rw [hid]
    exact h.seen call hrun hbatch
  · rw [hid]
    rcases h.answered call hrun mode (hkind ▸ hmode) hflush with hs | ⟨fr, hmem, hrfq⟩
    · exact Or.inl hs
    · by_cases hin : fr ∈ call'.response
      · exact Or.inr ⟨fr, hin, hrfq⟩
      · exact Or.inl (hanswered fr hmem hrfq hin)
  · exact h.statuses call hrun status (hresponse _ hmem)
  · exact hrec hr

omit [DecidableEq ι] in
private theorem entitled_onChunk (d : Duplex) (fr : ResponseFrame) : Entitled d (d.onChunk fr) := by
  unfold Duplex.onChunk
  split <;> exact entitled rfl rfl rfl rfl rfl rfl

/-- The status of a ReadyForQuery is recorded.  An idle one takes the title away. -/
private theorem Kept.noted {status : UInt8} (h : Kept s) (hrun : s.running = some call)
    (hresponse : call.response = .readyForQuery status :: response) (call' : Call ι) (session : Option ι)
    (hcall : call' = { call with response, held := call'.held })
    (hidle : s.owner = some call.id → status = RFQ_STATUS_IDLE → (s.duplex call.id).live = false) :
    Kept ((s.modify call.id fun d => d.onReadyForQuery status).setCall call' session) := by
  have hstatus := h.statuses call hrun status (by rw [hresponse]; exact List.mem_cons_self)
  have hopen : status ≠ RFQ_STATUS_IDLE → ((s.duplex call.id).onReadyForQuery status).inTransaction = true := by
    intro hne
    rcases hstatus.resolve_left hne with rfl | rfl <;> rfl
  have hid : call'.id = call.id := by rw [hcall]
  have hduplex : ((s.modify call.id fun d => d.onReadyForQuery status).setCall call' session).duplex call.id =
      (s.duplex call.id).onReadyForQuery status := by
    rw [setCall, modify_same]
  refine ⟨fun other hown => ?_, fun c hc hbatch hseen hown hlive => ?_, fun c hc mode hmode hflush => ?_,
    fun c hc other hmem => ?_, fun c hc hrec => ?_⟩
  · by_cases ho : other = call.id
    · subst ho
      rw [hduplex]
      by_cases hs : status = RFQ_STATUS_IDLE
      · exact keeps_dead (hidle hown hs)
      · exact Or.inl (Or.inl (hopen hs))
    · rw [setCall, modify_other ho]
      exact h.owner other hown
  all_goals obtain rfl := Option.some.inj hc
  · rw [hid, hduplex] at hlive ⊢
    refine hopen fun hs => ?_
    cases (hidle (hid ▸ hown) hs).symm.trans hlive
  · rw [hid, hduplex]
    exact Or.inl rfl
  · refine h.statuses call hrun other ?_
    rw [hresponse]
    exact List.mem_cons_of_mem _ (by rwa [hcall] at hmem)
  · rw [hcall] at hrec ⊢
    exact h.recovering call hrun hrec

omit [DecidableEq ι] in
theorem setCall_wellScheduled (hw : WellScheduled s) (hrun : s.running = some call) (call' : Call ι)
    (session : Option ι) (hid : call'.id = call.id) (hkind : call'.kind = call.kind) :
    WellScheduled (s.setCall call' session) := by
  refine hw.of_eq rfl rfl ?_ rfl
  simp only [runningOp, setCall, hrun, Option.map_some, hid, hkind]

private theorem Kept.noteReadyForQuery {status : UInt8} (h : Kept s) (hw : WellScheduled s)
    (hfair : ∀ l, s.lock = some l → l.Fair) (hrun : s.running = some call)
    (hresponse : call.response = .readyForQuery status :: response) :
    Kept (s.noteReadyForQuery call response status) := by
  have hwell : ∀ (call' : Call ι) (session : Option ι), call' = { call with response, held := call'.held } →
      WellScheduled ((s.modify call.id fun d => d.onReadyForQuery status).setCall call' session) := by
    intro call' session hcall
    have hsame : WellScheduled (s.modify call.id fun d => d.onReadyForQuery status) :=
      hw.same ⟨rfl, rfl, rfl, rfl, fun hl => hl⟩
    exact setCall_wellScheduled hsame hrun call' session (by rw [hcall]) (by rw [hcall])
  unfold System.noteReadyForQuery
  by_cases hgone : s.owner = some call.id → status = RFQ_STATUS_IDLE → (s.duplex call.id).live = false
  · exact (h.noted hrun hresponse _ _ rfl hgone).updateStatus (hwell _ _ rfl) hfair status
  · simp only [Classical.not_imp, Bool.not_eq_false] at hgone
    obtain ⟨hown, rfl, hlive⟩ := hgone
    have hphase : (s.duplex call.id).phase ≠ .terminated := by
      rw [Duplex.live, Bool.and_eq_true, bne_iff_ne] at hlive
      exact hlive.2
    have hrelease : ∀ t : System ι, (t.duplex call.id).phase ≠ .terminated →
        t.updateStatus call.id RFQ_STATUS_IDLE = t.release call.id := by
      intro t ht
      unfold System.updateStatus System.release
      split
      · rw [if_neg ht, SessionLock.updateStatus, SessionLock.release]
        simp [RFQ_STATUS_IDLE, STATUS_IDLE]
      · rfl
    rw [hrelease _ (by rw [setCall, modify_same]; exact hphase)]
    have hfree : Kept ({ s with lock := none } : System ι) :=
      ⟨fun other ho => (by cases ho), fun _ _ _ _ ho => (by cases ho), h.answered, h.statuses, h.recovering⟩
    exact Kept.giveUp (hfree.noted hrun hresponse _ _ rfl fun ho => (by cases ho)) (hwell _ _ rfl) hfair hown

private theorem Kept.receive {fr : ResponseFrame} (h : Kept s) (hw : WellScheduled s)
    (hfair : ∀ l, s.lock = some l → l.Fair)
    (hrun : s.running = some call) (hresponse : call.response = fr :: response) :
    Kept (s.receive call response fr) := by
  -- a frame that is no ReadyForQuery
  have hother : ∀ f : Duplex → Duplex, Entitled (s.duplex call.id) (f (s.duplex call.id)) → fr.isReadyForQuery = false →
      Kept ((s.modify call.id f).setCall { call with response, held := none } s.session) := by
    intro f hf hno
    refine (h.modify hf).advance hrun _ _ rfl rfl (fun fr' hmem => ?_) (fun fr' hmem hrfq hout => ?_) fun hrec => ?_
    · rw [hresponse]
      exact List.mem_cons_of_mem _ hmem
    · rw [hresponse] at hmem
      rcases List.mem_cons.1 hmem with rfl | hmem
      · cases hno.symm.trans hrfq
      · exact absurd hmem hout
    · exact h.recovering call hrun hrec
  cases fr with
  | errorResponse =>
    rw [receive_errorResponse]
    obtain ⟨hkeeps, hrfq, hstatus, hlive⟩ := entitled_onChunk (s.duplex call.id).onErrorResponse .errorResponse
    exact hother _ ⟨fun hk => hkeeps hk, hrfq, hstatus, hlive⟩ rfl
  | other =>
    rw [receive_other]
    exact hother _ (entitled_onChunk _ _) rfl
  | readyForQuery status =>
    have hnoted := h.noteReadyForQuery hw hfair hrun hresponse
    rw [receive_readyForQuery]
    split
    · exact hnoted
    · exact hnoted.modify (entitled_onChunk _ _)

private theorem Kept.flushHeld (h : Kept s) : Kept (s.flushHeld call) := by
  unfold System.flushHeld
  split
  · refine h.modify ?_
    split
    · exact entitled rfl rfl rfl rfl rfl rfl
    · exact entitled_onChunk _ _
  · exact h

/-- A batch that returns leaves the session to an open transaction or portal. -/
private theorem Kept.finishCall (h : Kept s) (hopen : ∀ mode, call.kind = .batch mode → s.owner = some call.id →
    (s.duplex call.id).live = true → (s.duplex call.id).Open) : Kept (s.finishCall call) := by
  have hstop : Kept ({ s with running := none } : System ι) := .of_idle rfl h.owner
  unfold System.finishCall
  split
  · rename_i mode hmode
    have hdead : (s.duplex call.id).live = false → (callDone (batchDone (s.duplex call.id))).live = false :=
      batchDone_dead
    refine hstop.modify_of (fun hown _ => ?_) rfl rfl fun hl => ?_
    · by_cases hlive : (s.duplex call.id).live = true
      · exact Or.inl (hopen mode hmode hown hlive)
      · exact keeps_dead (hdead (by simpa using hlive))
    · by_contra hno
      cases (hdead (by simpa using hno)).symm.trans hl
  · exact hstop.modify (entitled rfl rfl rfl rfl rfl rfl)
  · exact hstop.modify (entitled rfl rfl rfl rfl rfl rfl)

omit [DecidableEq ι] in
private theorem Kept.setSession (h : Kept s) (session : Option ι) : Kept ({ s with session } : System ι) :=
  ⟨h.owner, h.seen, h.answered, h.statuses, h.recovering⟩

private theorem Kept.settlePortal {synced : Bool} (h : Kept s) (hw : WellScheduled s)
    (hfair : ∀ l, s.lock = some l → l.Fair)
    (hstage : (s.duplex call.id).stage = some .queued) : Kept (s.settlePortal call synced) := by
  have hportal : ∀ suspended, Kept (s.modify call.id fun d => { d with portalSuspended := suspended }) := fun _ =>
    h.modify ⟨fun _ => Or.inr (Or.inl (busy_of_stage hstage)), rfl, rfl, fun hl => hl⟩
  have hwell : WellScheduled (s.modify call.id fun d => { d with portalSuspended := false }) :=
    hw.same ⟨rfl, rfl, rfl, rfl, fun hl => hl⟩
  unfold System.settlePortal
  dsimp only
  split
  · exact (hportal true).setSession _
  · split
    · exact ((hportal false).setSession _).release (hwell.of_eq rfl rfl rfl rfl) hfair
    · exact hportal false

private theorem release_owner (hq : id ∉ s.waitQueue) (hfair : ∀ l, s.lock = some l → l.Fair) :
    (s.release id).owner ≠ some id := by
  unfold System.release
  split
  · rename_i l hl
    rw [System.owner_of_lock (applyLock_frame _).1]
    exact (SessionLock.release_leaves (hfair l hl) (waitQueue_of_lock hl ▸ hq)).1
  · rename_i hl
    rw [System.owner, hl]
    exact fun he => by cases he

/-- The batch with the portal keeps the session for a suspended portal, or for a transaction. -/
private theorem Kept.settlePortal_open {synced : Bool} (h : Kept s) (hw : WellScheduled s)
    (hfair : ∀ l, s.lock = some l → l.Fair) (hrun : s.running = some call)
    (hbatch : (batchId (call.id, call.kind)).isSome = true)
    (hown : (s.settlePortal call synced).owner = some call.id)
    (hlive : ((s.settlePortal call synced).duplex call.id).live = true) :
    ((s.settlePortal call synced).duplex call.id).Open := by
  unfold System.settlePortal at hown hlive ⊢
  dsimp only at hown hlive ⊢
  split at hown
  · rename_i herr
    rw [if_pos herr]
    right
    show ((s.modify call.id fun d => { d with portalSuspended := true }).duplex call.id).portalSuspended = true
    rw [modify_same]
  · rename_i herr
    rw [if_neg herr] at hlive ⊢
    split at hown
    · -- an errored portal outside a transaction has given the session up
      refine absurd hown (release_owner ?_ hfair)
      exact hw.not_waiting (by rw [running_stage hw hrun hbatch]; exact fun he => by cases he)
    · rename_i hkeep
      rw [if_neg hkeep, modify_same] at hlive ⊢
      left
      by_cases hrfq : (s.duplex call.id).rfqSeenInCall = true
      · exact h.seen call hrun hbatch hrfq hown hlive
      · have htransaction : (s.duplex call.id).inTransaction = true := by simpa [Bool.eq_false_iff.2 hrfq] using hkeep
        exact htransaction

private theorem Kept.settleAndFinish {synced : Bool} (h : Kept s) (hw : WellScheduled s)
    (hfair : ∀ l, s.lock = some l → l.Fair) (hrun : s.running = some call)
    (hbatch : (batchId (call.id, call.kind)).isSome = true) : Kept ((s.settlePortal call synced).finishCall call) :=
  (h.settlePortal hw hfair (running_stage hw hrun hbatch)).finishCall
    fun _ _ => h.settlePortal_open hw hfair hrun hbatch

theorem flushHeld_lock : (s.flushHeld call).lock = s.lock := by
  unfold System.flushHeld
  split <;> rfl

private theorem Kept.flushCall (h : Kept s) (hw : WellScheduled s) (hfair : ∀ l, s.lock = some l → l.Fair)
    (hrun : s.running = some call) (hresponse : call.response = []) : Kept (s.flushCall call) := by
  have hheld : Kept (s.flushHeld call) := h.flushHeld
  have hrun' : (s.flushHeld call).running = some call := WellScheduled.flushHeld_running.trans hrun
  have hfair' : ∀ l, (s.flushHeld call).lock = some l → l.Fair := by
    rw [flushHeld_lock]
    exact hfair
  unfold System.flushCall
  dsimp only
  split
  · rename_i hmode
    have hkind : call.kind = .batch .flushBoundary := by
      cases hk : call.kind with
      | batch mode => exact congrArg CallKind.batch (by rwa [hk] at hmode)
      | recovery =>
        rw [hk] at hmode
        cases hmode
      | rollback =>
        rw [hk] at hmode
        cases hmode
    split
    · exact hheld.advance hrun' { call with recovering := true } (s.flushHeld call).session rfl rfl (fun _ hmem => hmem)
        (fun _ hmem _ hout => absurd hmem hout) fun _ => hkind
    · exact hheld.settleAndFinish hw.flushHeld hfair' hrun' (by rw [hkind]; rfl)
  · rename_i hmode
    refine hheld.finishCall fun mode hkind hown hlive => ?_
    -- the answer had a ReadyForQuery, and it told of a transaction
    have hne : mode ≠ .flushBoundary := by
      rintro rfl
      exact hmode (by rw [hkind]; rfl)
    refine Or.inl (hheld.seen call hrun' (by rw [hkind]; rfl) ?_ hown hlive)
    refine (hheld.answered call hrun' mode hkind hne).resolve_right ?_
    rw [hresponse]
    rintro ⟨fr, hmem, -⟩
    cases hmem

theorem destroyDuplex_lock : (s.destroyDuplex id).lock = s.lock := by
  unfold System.destroyDuplex
  split
  · rfl
  · obtain ⟨rollback, heq, -⟩ := rollbackIfInTransaction_eq (s.modify id tearDown) id
    rw [heq]
    rfl

private theorem Kept.recoveredCall {ok : Bool} (h : Kept s) (hw : WellScheduled s)
    (hfair : ∀ l, s.lock = some l → l.Fair)
    (hrun : s.running = some call) (hrec : call.recovering = true) : Kept (s.recoveredCall call ok) := by
  have hbatch : (batchId (call.id, call.kind)).isSome = true := by
    rw [h.recovering call hrun hrec]
    rfl
  unfold System.recoveredCall
  cases ok with
  | true => exact h.settleAndFinish hw hfair hrun hbatch
  | false =>
    have hlocal : Local none s (s.destroyDuplex call.id) := local_destroyDuplex
    refine h.destroyDuplex.settleAndFinish hw.destroyDuplex ?_ (hlocal.running.trans hrun) hbatch
    rw [destroyDuplex_lock]
    exact hfair

private theorem Kept.throwCall (h : Kept s) : Kept (s.throwCall call) := by
  have hstop : Kept ({ s with running := none } : System ι) := .of_idle rfl h.owner
  unfold System.throwCall
  split
  · exact hstop.modify ⟨fun _ => Or.inr (Or.inr (Or.inl rfl)), rfl, rfl, fun hl => hl⟩
  · have hdone : Kept (({ s with running := none } : System ι).modify call.id fun d =>
        callDone { d with recovery := none }) := hstop.modify (entitled rfl rfl rfl rfl rfl rfl)
    dsimp only
    split
    · exact hdone
    · exact hdone.destroyDuplex
  · exact hstop.modify (entitled rfl rfl rfl rfl rfl rfl)

end Calls

/-! ### Steps and runs -/

private theorem Kept.step {a : Action ι} (h : Kept s) (hw : WellScheduled s) (hfair : ∀ l, s.lock = some l → l.Fair)
    (ha : s.Answered a) (hs : s.step a = some s') : Kept s' := by
  cases a with
  | write id chunk =>
    simp only [System.step] at hs
    split at hs
    · cases hs
    · cases hs
      exact h.modify (entitled rfl rfl rfl rfl rfl rfl)
  | deliver id count =>
    simp only [System.step] at hs
    split at hs
    · cases hs
    · rename_i hguard
      simp only [not_or, not_not] at hguard
      obtain ⟨-, hidle, -, -⟩ := hguard
      split at hs
      · cases hs
        exact h.modify (entitled rfl rfl rfl rfl rfl rfl)
      · cases hs
        exact h.modify ⟨fun hk => keeps_drain (Or.inr (Or.inl hidle)) hk, rfl, rfl, fun hl => hl⟩
  | process id => exact h.process hw hs
  | tail id =>
    simp only [System.step] at hs
    split at hs
    · cases hs
    · cases hs
      exact Kept.judgePortal (h.modify (entitled rfl rfl rfl rfl rfl rfl))
  | pgliteReady id =>
    simp only [System.step] at hs
    split at hs
    · rename_i op _
      cases hs
      have hqueued : Kept (s.modify id fun d => { d with drain := .busy { op with stage := .queued } }) :=
        h.modify ⟨fun _ => Or.inr (Or.inl ⟨_, rfl⟩), rfl, rfl, fun hl => hl⟩
      exact ⟨hqueued.owner, hqueued.seen, hqueued.answered, hqueued.statuses, hqueued.recovering⟩
    · cases hs
  | pgliteNotReady id =>
    simp only [System.step] at hs
    split at hs
    · cases hs
      exact h.modify ⟨fun _ => Or.inr (Or.inr (Or.inl rfl)), rfl, rfl, fun hl => hl⟩
    · cases hs
  | recoveryReady id =>
    simp only [System.step] at hs
    split at hs
    · cases hs
      have hqueued : Kept (s.modify id fun d => { d with recovery := some .queued }) :=
        h.modify (entitled rfl rfl rfl rfl rfl rfl)
      exact ⟨hqueued.owner, hqueued.seen, hqueued.answered, hqueued.statuses, hqueued.recovering⟩
    · cases hs
  | recoveryNotReady id =>
    simp only [System.step] at hs
    split at hs
    · cases hs
      have hdone : Kept (s.modify id fun d => { d with recovery := none }) :=
        h.modify (entitled rfl rfl rfl rfl rfl rfl)
      split
      · exact hdone
      · exact hdone.destroyDuplex
    · cases hs
  | queryRollback id ok =>
    simp only [System.step] at hs
    split at hs
    · cases hs
      have hmoved : ∀ rollback, Kept (s.modify id fun d => { d with rollback }) := fun _ =>
        h.modify (entitled rfl rfl rfl rfl rfl rfl)
      split
      · have hqueued := hmoved .queued
        exact ⟨hqueued.owner, hqueued.seen, hqueued.answered, hqueued.statuses, hqueued.recovering⟩
      · exact hmoved .settled
    · cases hs
  | start response =>
    simp only [System.step] at hs
    split at hs
    · rename_i id kind mutex hidle hmutex
      cases hs
      exact h.start hidle hmutex ha
    · cases hs
  | frame =>
    simp only [System.step] at hs
    split at hs
    · rename_i call hrun
      split at hs
      · rename_i hresponse
        cases hs
        exact h.receive hw hfair hrun hresponse
      · cases hs
    · cases hs
  | flush =>
    simp only [System.step] at hs
    split at hs
    · rename_i call hrun
      split at hs
      · cases hs
      · rename_i hguard
        simp only [not_or, not_not] at hguard
        cases hs
        exact h.flushCall hw hfair hrun hguard.2.2
    · cases hs
  | recovered ok =>
    simp only [System.step] at hs
    split at hs
    · rename_i call hrun
      split at hs
      · rename_i hrec
        cases hs
        exact h.recoveredCall hw hfair hrun hrec
      · cases hs
    · cases hs
  | throw =>
    simp only [System.step] at hs
    split at hs
    · split at hs
      · cases hs
      · cases hs
        exact h.throwCall
    · cases hs
  | rolledBack ok =>
    simp only [System.step] at hs
    split at hs
    · rename_i call hrun
      split at hs
      · rename_i hkind
        cases hs
        have hfinish : Kept (s.finishCall call) := h.finishCall fun mode hmode => by cases hkind.symm.trans hmode
        have hidle : (s.finishCall call).running = none := by simp [System.finishCall, hkind]
        split
        · -- the duplex is on its way down
          have hdown := (hw.finishCall hrun).rollback call.id (by simp [System.finishCall, hkind])
          refine .of_idle hidle fun other hown => ?_
          by_cases ho : other = call.id
          · subst ho
            show (((s.finishCall call).modify call.id fun d =>
              { d with lastSeenRfqStatus := some RFQ_STATUS_IDLE }).duplex call.id).Keeps
            rw [modify_same]
            exact hdown.elim (fun he => keeps_ended he) fun hl => keeps_dead hl
          · show (((s.finishCall call).modify call.id fun d =>
              { d with lastSeenRfqStatus := some RFQ_STATUS_IDLE }).duplex other).Keeps
            rw [modify_other ho]
            exact hfinish.owner other hown
        · exact hfinish
      · cases hs
    · cases hs
  | releaseAbandonedPortalHold id =>
    cases hs
    exact h.releasePortal
  | final id =>
    simp only [System.step] at hs
    split at hs
    · cases hs
    · cases hs
      exact Kept.rollbackIfInTransaction (h.modify ⟨fun _ => keeps_ended rfl, rfl, rfl, fun hl => hl⟩)
  | destroy id =>
    simp only [System.step] at hs
    split at hs
    · cases hs
    · cases hs
      exact h.destroyDuplex
  | decide id =>
    simp only [System.step] at hs
    split at hs
    · cases hs
      exact h.modify (entitled rfl rfl rfl rfl rfl rfl)
    · cases hs
  | finalRelease id =>
    simp only [System.step] at hs
    split at hs
    · cases hs
      have hdone : Kept (s.modify id fun d => { d with finalWaits := false }) :=
        h.modify (entitled rfl rfl rfl rfl rfl rfl)
      have hwell : WellScheduled (s.modify id fun d => { d with finalWaits := false }) :=
        hw.same ⟨rfl, rfl, rfl, rfl, fun hl => hl⟩
      split
      · exact hdone
      · exact (hdone.release hwell hfair).modify (entitled rfl rfl rfl rfl rfl rfl)
    · cases hs
  | destroyCancel id =>
    simp only [System.step] at hs
    split at hs
    · cases hs
      have hdone : Kept (s.modify id fun d => { d with destroyWaits := false }) :=
        h.modify (entitled rfl rfl rfl rfl rfl rfl)
      exact hdone.cancel (hw.same ⟨rfl, rfl, rfl, rfl, fun hl => hl⟩) hfair
    · cases hs
  | terminateRelease id =>
    simp only [System.step] at hs
    split at hs
    · rename_i hguard
      cases hs
      have hactive : Kept (s.modify id fun d => { d with drain := .active }) :=
        h.modify ⟨fun hk => keeps_drain (Or.inr (Or.inr hguard.1)) hk, rfl, rfl, fun hl => hl⟩
      have hstage : (s.duplex id).stage = none := by simp [Duplex.stage, hguard.1]
      have hwell : WellScheduled (s.modify id fun d => { d with drain := .active }) :=
        hw.drain (hw.not_waiting (by simp [hstage])) (hw.not_batch (by simp [hstage]))
          (hw.not_ended (by simp [hguard.1])) fun _ => .active
      exact (hactive.release hwell hfair).modify (entitled rfl rfl rfl rfl rfl rfl)
    · cases hs

theorem kept {locked : Bool} {cap : ι → Nat} (run : Run System.step Answered (initial locked cap) s) : Kept s := by
  induction run with
  | refl =>
    refine .of_idle rfl fun id hown => ?_
    have howner : (initial locked cap).owner = none := by cases locked <;> rfl
    cases howner.symm.trans hown
  | snoc run ha hs ih => exact ih.step (wellScheduled locked cap run) (due run).fair ha hs

/-- When nothing is under way, a batch waits for a client that keeps a transaction or a cursor open. -/
theorem waits_for_open_session {locked : Bool} {cap : ι → Nat}
    (run : Run System.step Answered (initial locked cap) s) (hq : s.Quiescent)
    (hstage : (s.duplex id).stage = some .acquiring) :
    ∃ holder, s.WaitsFor id holder ∧ (s.duplex holder).Open := by
  obtain ⟨holder, hwait⟩ := hq.waits (due run) hstage
  refine ⟨holder, hwait, ?_⟩
  rcases (kept run).owner holder hwait.owner with hopen | ⟨op, hop⟩ | hfail | hlive | hended
  · exact hopen
  · cases hwait.rest.drain.symm.trans hop
  · cases hwait.rest.drain.symm.trans hfail
  · cases hlive.symm.trans hwait.live
  · cases hended.symm.trans hwait.ended

/-- The startup packet of one client waits for the cursor of another. -/
theorem waits_for_open_session_cursor : ∃ s : System Bool, s.Quiescent ∧
    ∃ holder, s.WaitsFor true holder ∧ (s.duplex holder).Open := by
  obtain ⟨s, run, ⟨hidle, hmutex, hrest⟩, hstage⟩ : ∃ s : System Bool,
      Run System.step Answered (initial true fun _ => MAX_MESSAGE_LENGTH) s ∧
        (s.running = none ∧ s.mutex = [] ∧
          ∀ id, AtRest (s.duplex id) ∨ Rested (s.duplex id) ∧ (s.duplex id).stage = some .acquiring) ∧
        (s.duplex true).stage = some .acquiring :=
    exists_run (served false startupPacket 1 [.other, readyForQueryIdle] ++
      served false cursorRead 4 [.other, .other, .other, .other] ++
      [.write true startupPacket, .deliver true 1, .process true]) (by decide)
  have hq := quiescent_of_rested hidle hmutex hrest
  exact ⟨s, hq, waits_for_open_session run hq hstage⟩

end System

end PgliteBridge
