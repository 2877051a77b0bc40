import PgliteBridge.Holders
import PgliteBridge.Reading
import Mathlib.Algebra.BigOperators.Group.Finset.Basic
import Mathlib.Data.Prod.Lex

/-!
# Every schedule comes to an end

Without a new act of a client the program and PGlite run out of steps (`comes_to_rest`).  The work that is left is
counted: the bytes a duplex has still to read, the stages that lie ahead of its batch, its recovery and its rollback,
the callbacks in the queue of `runExclusive` (`potential`); a step of a call that lowers none of these shortens the
answer still to come (`callRank`).
-/

namespace PgliteBridge

open TransitionSystem

/-! ### The work of one duplex -/

/-- A chunk that is handed over starts the loop; the bytes of a message pay for its batch. -/
def Drain.weight : Drain → Nat
  | .idle => 0
  | .failing => 7
  | .active => 8
  | .terminating => 9
  | .busy op =>
    match op.stage with
    | .acquiring => 13
    | .admitted => 12
    | .queued | .running => 9

@[simp] theorem Drain.weight_idle : Drain.idle.weight = 0 := rfl
@[simp] theorem Drain.weight_terminating : Drain.terminating.weight = 9 := rfl
@[simp] theorem Drain.weight_queued (batch : Bytes) (mode : RfqMode) :
    (Drain.busy { batch, mode, stage := .queued }).weight = 9 := rfl
@[simp] theorem Drain.weight_failing : Drain.failing.weight = 7 := rfl
@[simp] theorem Drain.weight_active : Drain.active.weight = 8 := rfl

def recoveryWeight : Option OpStage → Nat
  | none => 0
  | some .running => 1
  | some .queued => 2
  | some .admitted | some .acquiring => 5

def Rollback.weight : Rollback → Nat
  | .settled => 0
  | .running | .queued => 1
  | .querying => 4
  | .deciding => 5
  | .awaitingCall | .notStarted => 6

def Duplex.potential (d : Duplex) : Nat :=
  6 * d.input.length + (6 * d.writable.flatten.length + 9 * d.writable.length) + d.drain.weight + 6 * d.tails +
    recoveryWeight d.recovery + d.rollback.weight + (d.finalWaits.toNat + d.destroyWaits.toNat + (!d.tornDown).toNat)

namespace System

variable {ι : Type} [DecidableEq ι] {s s' : System ι} {id : ι} {f : Duplex → Duplex} {d d' : Duplex}

/-- What is left of the call in PGlite. -/
def callRank (s : System ι) : Nat :=
  match s.running with
  | none => 0
  | some call => 1 + 2 * call.response.length + (!call.recovering).toNat

section Finite

variable [Fintype ι]

def potential (s : System ι) : Nat := ∑ id, (s.duplex id).potential + 2 * s.mutex.length

def rank (s : System ι) : Nat ×ₗ Nat := toLex (s.potential, s.callRank)

omit [DecidableEq ι] in
private theorem rank_of_lt (h : s'.potential < s.potential) : s'.rank < s.rank :=
  Prod.Lex.toLex_lt_toLex.2 (Or.inl h)

omit [DecidableEq ι] in
private theorem rank_of_le (h : s'.potential ≤ s.potential) (hcall : s'.callRank < s.callRank) : s'.rank < s.rank := by
  rcases Nat.lt_or_eq_of_le h with hlt | heq
  · exact rank_of_lt hlt
  · exact Prod.Lex.toLex_lt_toLex.2 (Or.inr ⟨heq, hcall⟩)

/-! ### Changes of one duplex -/

private theorem potential_modify (s : System ι) (id : ι) (f : Duplex → Duplex) :
    (s.modify id f).potential + (s.duplex id).potential = s.potential + (f (s.duplex id)).potential := by
  have hother : ∑ other ∈ Finset.univ.erase id, ((s.modify id f).duplex other).potential =
      ∑ other ∈ Finset.univ.erase id, (s.duplex other).potential := by
    refine Finset.sum_congr rfl fun other hmem => ?_
    rw [modify_other (Finset.ne_of_mem_erase hmem)]
  have hnew := Finset.add_sum_erase Finset.univ (fun other => ((s.modify id f).duplex other).potential)
    (Finset.mem_univ id)
  have hold := Finset.add_sum_erase Finset.univ (fun other => (s.duplex other).potential) (Finset.mem_univ id)
  simp only [modify_same] at hnew
  unfold potential
  rw [modify_mutex]
  omega

private theorem potential_modify_le (h : (f (s.duplex id)).potential ≤ (s.duplex id).potential) :
    (s.modify id f).potential ≤ s.potential := by
  have := potential_modify s id (f)
  omega

private theorem potential_modify_lt (h : (f (s.duplex id)).potential < (s.duplex id).potential) :
    (s.modify id f).potential < s.potential := by
  have := potential_modify s id (f)
  omega

omit [DecidableEq ι] in
private theorem potential_le (h : ∀ id, (s'.duplex id).potential ≤ (s.duplex id).potential)
    (hmutex : s'.mutex.length ≤ s.mutex.length) : s'.potential ≤ s.potential := by
  have := Finset.sum_le_sum fun id (_ : id ∈ Finset.univ) => h id
  unfold potential
  omega

/-! ### The lock -/

/-- Settled waiters go on, and the others stay where they are. -/
private theorem potential_applyLock {outcome : SessionLock.Outcome ι}
    (hout : ∀ id ∈ outcome.settled.map Settlement.id, (s.duplex id).stage = some .acquiring) :
    (s.applyLock outcome).potential ≤ s.potential := by
  refine potential_le (fun id => ?_) (by rw [(applyLock_frame outcome).2.2])
  obtain ⟨drain, hd, hsame, hthrough⟩ := settle_duplex outcome.settled { s with lock := some outcome.lock } id
  rw [System.applyLock, hd]
  suffices hw : drain.weight ≤ (s.duplex id).drain.weight by
    simp only [Duplex.potential]
    omega
  by_cases hmem : id ∈ outcome.settled.map Settlement.id
  · obtain ⟨op, hop⟩ := busy_of_stage (hout id hmem)
    have hstage : op.stage = .acquiring := Option.some.inj ((stage_of_busy hop).symm.trans (hout id hmem))
    have hweight : (s.duplex id).drain.weight = 13 := by rw [hop, Drain.weight, hstage]
    rw [hweight]
    rcases hthrough (Or.inr ⟨hmem, op, hop⟩) with rfl | ⟨op', rfl, hadmitted⟩
    · decide
    · rw [Drain.weight, hadmitted]
      decide
  · exact (congrArg Drain.weight (hsame hmem)).le

private theorem potential_pass {l : SessionLock ι} {outcome : SessionLock.Outcome ι} (hw : WellScheduled s)
    (hl : s.lock = some l) (hp : l.Passes outcome) : (s.applyLock outcome).potential ≤ s.potential :=
  potential_applyLock fun id hmem => hw.waiters id (waitQueue_of_lock hl ▸ hp.settled id hmem)

private theorem potential_release (id : ι) (hw : WellScheduled s) (hfair : ∀ l, s.lock = some l → l.Fair) :
    (s.release id).potential ≤ s.potential := by
  unfold System.release
  split
  · rename_i l hl
    exact potential_pass hw hl (SessionLock.passes_release (hfair l hl))
  · exact le_rfl

private theorem potential_cancel (id : ι) (hw : WellScheduled s) (hfair : ∀ l, s.lock = some l → l.Fair) :
    (s.cancel id).potential ≤ s.potential := by
  unfold System.cancel
  split
  · rename_i l hl
    exact potential_pass hw hl (SessionLock.passes_cancel (hfair l hl))
  · exact le_rfl

private theorem potential_eof (s : System ι) (id : ι) : (s.modify id fun d => d.push .eof).potential ≤ s.potential :=
  potential_modify_le le_rfl

private theorem potential_updateStatus (hw : WellScheduled s) (hfair : ∀ l, s.lock = some l → l.Fair) (status : UInt8) :
    (s.updateStatus id status).potential ≤ s.potential := by
  unfold System.updateStatus
  split
  · rename_i l hl
    split
    · exact le_rfl
    · exact potential_pass hw hl (SessionLock.passes_updateStatus (hfair l hl) status)
  · exact le_rfl

private theorem potential_acquireSession (hactive : (s.duplex id).drain = .active) (batch : Bytes) (mode : RfqMode) :
    (s.acquireSession id batch mode).potential ≤ s.potential + 5 := by
  have hbusy : (s.modify id fun d => { d with drain := .busy { batch, mode, stage := .acquiring } }).potential ≤
      s.potential + 5 := by
    have := potential_modify s id (fun d => { d with drain := .busy { batch, mode, stage := .acquiring } })
    simp only [Duplex.potential, Drain.weight, hactive] at this
    omega
  have hstage :
      ((s.modify id fun d => { d with drain := .busy { batch, mode, stage := .acquiring } }).duplex id).stage =
        some .acquiring := by
    rw [modify_same]
    rfl
  refine le_trans ?_ hbusy
  unfold System.acquireSession
  dsimp only
  split
  · rename_i l hl
    refine potential_applyLock fun other hmem => ?_
    have hother : other = id := by
      unfold SessionLock.acquire at hmem
      split at hmem
      · simpa [Settlement.id] using hmem
      · split at hmem
        · simpa [Settlement.id] using hmem
        · cases hmem
    rw [hother]
    exact hstage
  · rw [settleOne_eq]
    refine potential_modify_le ?_
    simp only [Settlement.id, modify_same, settledDrain, Duplex.potential, Drain.weight]
    omega

/-! ### Teardown and recovery -/

omit [DecidableEq ι] in
private theorem rollback_weight (rollback : Rollback) : rollback.weight ≤ 6 := by cases rollback <;> decide

private theorem potential_rollbackIfInTransaction (s : System ι) (id : ι) :
    (s.rollbackIfInTransaction id).potential ≤ s.potential := by
  have hstart : ∀ rollback : Rollback, (s.duplex id).rollback = .notStarted →
      (s.modify id fun d => { d with rollback }).potential ≤ s.potential := by
    intro rollback hnot
    refine potential_modify_le ?_
    have hweight : (s.duplex id).rollback.weight = 6 := by rw [hnot, Rollback.weight]
    have := rollback_weight rollback
    simp only [Duplex.potential]
    omega
  unfold System.rollbackIfInTransaction
  split
  · rename_i hnot
    split
    · exact hstart _ hnot
    · exact hstart (if (s.duplex id).inTransaction && s.mayUse id then .querying else .settled) hnot
  · exact le_rfl

private theorem potential_destroyDuplex (s : System ι) (id : ι) : (s.destroyDuplex id).potential ≤ s.potential := by
  unfold System.destroyDuplex
  split
  · exact le_rfl
  · rename_i htorn
    rw [Bool.not_eq_true] at htorn
    refine (potential_rollbackIfInTransaction _ _).trans (potential_modify_le ?_)
    simp only [Duplex.potential, tearDown, htorn, List.flatten_nil, List.length_nil, Bool.not_false, Bool.not_true,
      Bool.toNat_true, Bool.toNat_false]
    omega

private theorem potential_deliverRecoverySync (s : System ι) (id : ι) :
    (s.deliverRecoverySync id).potential ≤ s.potential + 5 := by
  unfold System.deliverRecoverySync
  split
  · omega
  · split
    · have := potential_modify s id (fun d => { d with recovery := some .admitted })
      simp only [Duplex.potential, recoveryWeight] at this
      omega
    · have := potential_modify s id (fun d => { d with portalSuspended := false })
      simp only [Duplex.potential] at this
      omega

private theorem potential_judgePortal (s : System ι) (id : ι) : (s.judgePortal id).potential ≤ s.potential + 5 := by
  unfold System.judgePortal
  split
  · have hclear : (s.modify id fun d => { d with portalRecoveryRequested := false }).potential ≤ s.potential :=
      potential_modify_le le_rfl
    dsimp only
    split
    · have := potential_deliverRecoverySync (s.modify id fun d => { d with portalRecoveryRequested := false }) id
      omega
    · omega
  · omega

/-! ### The drain loop -/

omit [DecidableEq ι] [Fintype ι] in
private theorem nextMessage_shorter {message rest : Bytes} (h : d.nextMessage = .message message rest) :
    rest.length < d.input.length := by
  unfold Duplex.nextMessage at h
  split at h
  · unfold takeStartup at h
    split at h
    · cases h
    · dsimp only at h
      split at h
      · cases h
      · split at h
        · cases h
        · split at h
          · cases h
          · cases h
            rw [List.length_drop]
            omega
  · unfold takeMessage at h
    split at h
    · cases h
    · dsimp only at h
      split at h
      · cases h
      · split at h
        · cases h
        · split at h
          · cases h
          · cases h
            rw [List.length_drop]
            omega
  · cases h

omit [DecidableEq ι] [Fintype ι] in
/-- A message adds nothing to what the duplex waits for. -/
private theorem potential_processMessage (d : Duplex) (message : Bytes) :
    (d.processMessage message).1.potential ≤ d.potential := by
  have hcopy : ∀ capture msgType, (d.processCopy capture msgType message).1.potential ≤ d.potential := by
    intro capture msgType
    unfold Duplex.processCopy
    split
    · exact le_rfl
    · split
      · dsimp only
        split <;> exact le_rfl
      · exact le_rfl
  have hquery : (d.processQuery message).1.potential ≤ d.potential := by
    unfold Duplex.processQuery
    split <;> exact le_rfl
  unfold Duplex.processMessage
  dsimp only
  split
  · simp only [Duplex.terminate, Duplex.potential, List.length_nil]
    omega
  · split
    · exact hcopy _ _
    · split
      · exact le_rfl
      · split
        · exact le_rfl
        · split
          · exact hquery
          · exact le_rfl

/-- The bytes of the message pay for what it starts. -/
private theorem potential_processNext {next : Duplex.Next} (hactive : d.drain = .active)
    (hpaid : d.potential + 6 ≤ (s.duplex id).potential) : (s.processNext id d next).potential < s.potential := by
  have hrecord := potential_modify s id (fun _ => d)
  cases next with
  | again =>
    simp only [processNext]
    omega
  | run batch mode =>
    have hloop : ((s.modify id fun _ => d).duplex id).drain = .active := by
      rw [modify_same]
      exact hactive
    have hbatch := potential_acquireSession hloop batch mode
    simp only [processNext]
    omega
  | terminate =>
    have hterm := potential_modify s id (fun _ => { d with drain := .terminating })
    have hroll := potential_rollbackIfInTransaction (s.modify id fun _ => { d with drain := .terminating }) id
    simp only [processNext]
    simp only [Duplex.potential, hactive, Drain.weight] at hpaid hterm
    omega
  | throw message =>
    have hfail := potential_modify s id (fun _ => { d with drain := .failing })
    simp only [processNext]
    simp only [Duplex.potential, hactive, Drain.weight] at hpaid hfail
    omega

private theorem potential_process (hs : s.process id = some s') : s'.potential < s.potential := by
  unfold System.process at hs
  split at hs
  · rename_i hactive
    split at hs
    · cases hs
      refine potential_modify_lt ?_
      simp only [Duplex.potential, Drain.weight, hactive]
      omega
    · cases hs
      refine potential_modify_lt ?_
      simp only [Duplex.potential, Drain.weight, hactive]
      omega
    · rename_i message rest hnext
      cases hs
      have hshort := nextMessage_shorter hnext
      have hpaid : ({ s.duplex id with input := rest } : Duplex).potential + 6 ≤ (s.duplex id).potential := by
        simp only [Duplex.potential]
        omega
      unfold processTaken
      dsimp only
      split
      · exact potential_processNext hactive hpaid
      · obtain ⟨hserved, -⟩ := served_processMessage { s.duplex id with input := rest } message
        have hmessage := potential_processMessage { s.duplex id with input := rest } message
        exact potential_processNext (hserved.drain.trans hactive) ((Nat.add_le_add_right hmessage 6).trans hpaid)
  · rename_i hfailing
    cases hs
    refine lt_of_le_of_lt (potential_destroyDuplex _ _) (potential_modify_lt ?_)
    simp only [Duplex.potential, Drain.weight, hfailing]
    omega
  · cases hs

/-! ### Protocol calls -/

section Calls

variable {call : Call ι} {kind : CallKind} {mutex : List (ι × CallKind)} {response : List ResponseFrame}

omit [DecidableEq ι] in
private theorem potential_of_eq (hduplex : s'.duplex = s.duplex) (hmutex : s'.mutex = s.mutex) :
    s'.potential = s.potential := by
  rw [potential, hduplex, hmutex, potential]

omit [DecidableEq ι] in
private theorem potential_session (s : System ι) (session : Option ι) :
    ({ s with session } : System ι).potential = s.potential :=
  potential_of_eq rfl rfl

omit [DecidableEq ι] in
private theorem potential_setCall (s : System ι) (call : Call ι) (session : Option ι) :
    (s.setCall call session).potential = s.potential :=
  potential_of_eq rfl rfl

omit [DecidableEq ι] [Fintype ι] in
/-- The batch PGlite has been given counts for what follows it. -/
private theorem queued_weight (h : d.stage = some .queued) : d.drain.weight = 9 := by
  obtain ⟨op, hop⟩ := busy_of_stage h
  have hstage : op.stage = .queued := Option.some.inj ((stage_of_busy hop).symm.trans h)
  rw [hop, Drain.weight, hstage]

omit [DecidableEq ι] [Fintype ι] in
private theorem admitted_weight (h : d.stage = some .admitted) : d.drain.weight = 12 := by
  obtain ⟨op, hop⟩ := busy_of_stage h
  have hstage : op.stage = .admitted := Option.some.inj ((stage_of_busy hop).symm.trans h)
  rw [hop, Drain.weight, hstage]

private theorem potential_push (s : System ι) (id : ι) (f : Duplex → Duplex) (op : ι × CallKind) :
    ({ s.modify id f with mutex := s.mutex ++ [op] } : System ι).potential = (s.modify id f).potential + 2 := by
  simp only [potential, modify_mutex, List.length_append, List.length_singleton]
  omega

omit [DecidableEq ι] [Fintype ι] in
private theorem callDone_weight (d : Duplex) : (callDone d).potential ≤ d.potential := by
  unfold callDone
  split
  · rename_i hr
    simp only [Duplex.potential, hr, Rollback.weight]
    omega
  · exact le_rfl

private theorem potential_start (hw : WellScheduled s) (hidle : s.running = none)
    (hmutex : s.mutex = (id, kind) :: mutex) :
    ({ s with mutex }.startCall id kind response).potential < s.potential := by
  have hpop : ({ s with mutex } : System ι).potential + 2 = s.potential := by
    simp only [potential, hmutex, List.length_cons]
    omega
  have hmodify : ∀ f : Duplex → Duplex, (f (s.duplex id)).potential ≤ (s.duplex id).potential + 1 →
      (({ s with mutex } : System ι).modify id f).potential < s.potential := by
    intro f hf
    have := potential_modify ({ s with mutex }) id (f)
    simp only at this
    omega
  unfold startCall
  cases kind with
  | rollback =>
    refine hmodify (fun d => { d with rollback := .running }) ?_
    simp only [Duplex.potential, Rollback.weight]
    omega
  | batch mode =>
    have hqueued : (s.duplex id).stage = some .queued := by
      refine hw.queued id ?_
      rw [batches, WellScheduled.ops_of_mutex hidle hmutex]
      exact List.mem_cons_self
    have hweight := queued_weight hqueued
    dsimp only
    split
    · exact hmodify Duplex.startCall (by simp only [Duplex.potential, Duplex.startCall]; omega)
    · refine hmodify batchDone ?_
      simp only [Duplex.potential, batchDone, Drain.weight_active]
      omega
  | recovery =>
    dsimp only
    split
    · refine hmodify (fun d => { d.startCall with recovery := some .running }) ?_
      simp only [Duplex.potential, Duplex.startCall, recoveryWeight]
      omega
    · refine hmodify (fun d => { d with recovery := none }) ?_
      simp only [Duplex.potential, recoveryWeight]
      omega

private theorem potential_finishCall (hw : WellScheduled s) (hrun : s.running = some call) :
    (s.finishCall call).potential ≤ s.potential := by
  have hmodify : ∀ f : Duplex → Duplex, (f (s.duplex call.id)).potential ≤ (s.duplex call.id).potential →
      (({ s with running := none } : System ι).modify call.id f).potential ≤ s.potential := fun f hf =>
    potential_modify_le (s := { s with running := none }) hf
  unfold System.finishCall
  split
  · rename_i mode hmode
    have hweight := queued_weight (running_stage hw hrun (by rw [hmode]; rfl))
    refine hmodify _ ((callDone_weight _).trans ?_)
    simp only [Duplex.potential, batchDone, Drain.weight_active]
    omega
  · refine hmodify _ ((callDone_weight _).trans ?_)
    simp only [Duplex.potential, recoveryWeight]
    omega
  · refine hmodify _ ?_
    simp only [Duplex.potential, Rollback.weight]
    omega

private theorem potential_throwCall (hw : WellScheduled s) (hrun : s.running = some call) :
    (s.throwCall call).potential ≤ s.potential := by
  have hmodify : ∀ f : Duplex → Duplex, (f (s.duplex call.id)).potential ≤ (s.duplex call.id).potential →
      (({ s with running := none } : System ι).modify call.id f).potential ≤ s.potential := fun f hf =>
    potential_modify_le (s := { s with running := none }) hf
  unfold System.throwCall
  split
  · rename_i mode hmode
    have hweight := queued_weight (running_stage hw hrun (by rw [hmode]; rfl))
    refine hmodify _ ((callDone_weight _).trans ?_)
    simp only [Duplex.potential, Drain.weight_failing]
    omega
  · have hdone := hmodify (fun d => callDone { d with recovery := none }) <| (callDone_weight _).trans <| by
      simp only [Duplex.potential, recoveryWeight]
      omega
    dsimp only
    split
    · exact hdone
    · exact (potential_destroyDuplex _ _).trans hdone
  · refine hmodify _ ?_
    simp only [Duplex.potential, Rollback.weight]
    omega

omit [DecidableEq ι] [Fintype ι] in
private theorem potential_status (d : Duplex) (status : Option UInt8) :
    ({ d with lastSeenRfqStatus := status } : Duplex).potential = d.potential := rfl

omit [DecidableEq ι] [Fintype ι] in
private theorem potential_onChunk (d : Duplex) (fr : ResponseFrame) : (d.onChunk fr).potential = d.potential := by
  unfold Duplex.onChunk
  split <;> rfl

private theorem potential_flushHeld : (s.flushHeld call).potential ≤ s.potential := by
  unfold System.flushHeld
  split
  · refine potential_modify_le ?_
    split
    · exact le_rfl
    · exact (potential_onChunk _ _).le
  · exact le_rfl

private theorem potential_settlePortal (call : Call ι) (synced : Bool) (hw : WellScheduled s)
    (hfair : ∀ l, s.lock = some l → l.Fair) : (s.settlePortal call synced).potential ≤ s.potential := by
  have hportal : ∀ (suspended : Bool) (session : Option ι),
      ({ s.modify call.id (fun d => { d with portalSuspended := suspended }) with session } : System ι).potential ≤
        s.potential := by
    intro suspended session
    rw [potential_session]
    exact potential_modify_le le_rfl
  have hwell : WellScheduled (s.modify call.id fun d => { d with portalSuspended := false }) :=
    hw.same ⟨rfl, rfl, rfl, rfl, fun hl => hl⟩
  unfold System.settlePortal
  dsimp only
  split
  · exact hportal true (some call.id)
  · split
    · refine le_trans (potential_release call.id ?_ ?_) (hportal false _)
      · exact hwell.of_eq rfl rfl rfl rfl
      · exact hfair
    · exact hportal false s.session

omit [DecidableEq ι] [Fintype ι] in
private theorem callRank_of_running (call : Call ι) (hrun : s.running = some call) :
    s.callRank = 1 + 2 * call.response.length + (!call.recovering).toNat := by
  rw [callRank, hrun]

omit [DecidableEq ι] [Fintype ι] in
private theorem callRank_of_idle (hrun : s.running = none) : s.callRank = 0 := by
  rw [callRank, hrun]

omit [DecidableEq ι] in
/-- The call returns. -/
private theorem rank_of_return (hrun : s.running = some call) (hdone : s'.running = none)
    (h : s'.potential ≤ s.potential) :
    s'.rank < s.rank := by
  refine rank_of_le h ?_
  rw [callRank_of_running call hrun, callRank_of_idle hdone]
  omega

omit [Fintype ι] in
private theorem finishCall_running : (s.finishCall call).running = none := by
  unfold System.finishCall
  split <;> rfl

omit [Fintype ι] in
private theorem throwCall_running : (s.throwCall call).running = none := by
  unfold System.throwCall
  split
  · rfl
  · dsimp only
    split
    · rfl
    · have hlocal : ∀ t : System ι, Local none t (t.destroyDuplex call.id) := fun _ => local_destroyDuplex
      rw [(hlocal _).running]
      rfl
  · rfl

private theorem rank_receive {fr : ResponseFrame} (hw : WellScheduled s) (hfair : ∀ l, s.lock = some l → l.Fair)
    (hrun : s.running = some call) (hresponse : call.response = fr :: response) :
    (s.receive call response fr).rank < s.rank := by
  have hlength : call.response.length = response.length + 1 := by rw [hresponse, List.length_cons]
  -- the frame is gone from the answer
  have hshorter : ∀ (t : System ι) (held : Option UInt8), t.running = some { call with response, held } →
      t.callRank < s.callRank := by
    intro t held ht
    rw [callRank_of_running _ ht, callRank_of_running call hrun, hlength]
    simp only
    omega
  have hother : ∀ f : Duplex → Duplex, (f (s.duplex call.id)).potential ≤ (s.duplex call.id).potential →
      ((s.modify call.id f).setCall { call with response, held := none } s.session).rank < s.rank := by
    intro f hf
    refine rank_of_le ?_ (hshorter _ none rfl)
    rw [potential_setCall]
    exact potential_modify_le hf
  cases fr with
  | errorResponse =>
    rw [receive_errorResponse]
    exact hother _ (potential_onChunk _ _).le
  | other =>
    rw [receive_other]
    exact hother _ (potential_onChunk _ _).le
  | readyForQuery status =>
    have hnoted : (s.noteReadyForQuery call response status).potential ≤ s.potential := by
      have hwell : WellScheduled (s.modify call.id fun d => d.onReadyForQuery status) :=
        hw.same ⟨rfl, rfl, rfl, rfl, fun hl => hl⟩
      unfold System.noteReadyForQuery
      refine le_trans (potential_updateStatus ?_ ?_ status) ?_
      · exact setCall_wellScheduled hwell hrun _ _ rfl rfl
      · exact hfair
      · rw [potential_setCall]
        exact potential_modify_le le_rfl
    have hcall : (s.noteReadyForQuery call response status).running =
        some { call with response, held := if call.kind.mode.suppresses then some status else none } :=
      (local_updateStatus status).running
    rw [receive_readyForQuery]
    split
    · exact rank_of_le hnoted (hshorter _ _ hcall)
    · exact rank_of_le ((potential_modify_le (potential_onChunk _ _).le).trans hnoted) (hshorter _ _ hcall)

private theorem rank_flushCall (hw : WellScheduled s) (hfair : ∀ l, s.lock = some l → l.Fair)
    (hrun : s.running = some call)
    (hrec : call.recovering = false) : (s.flushCall call).rank < s.rank := by
  have hheld : (s.flushHeld call).potential ≤ s.potential := potential_flushHeld
  have hrun' : (s.flushHeld call).running = some call := WellScheduled.flushHeld_running.trans hrun
  have hfair' : ∀ l, (s.flushHeld call).lock = some l → l.Fair := by
    rw [flushHeld_lock]
    exact hfair
  unfold System.flushCall
  dsimp only
  split
  · split
    · refine rank_of_le ((potential_of_eq rfl rfl).trans_le hheld) ?_
      rw [callRank_of_running { call with recovering := true } rfl, callRank_of_running call hrun, hrec]
      simp only [Bool.not_true, Bool.not_false, Bool.toNat_false, Bool.toNat_true]
      omega
    · refine rank_of_return hrun finishCall_running ?_
      have hsettled := potential_settlePortal call true hw.flushHeld hfair'
      exact (potential_finishCall hw.flushHeld.settlePortal
        (WellScheduled.settlePortal_running.trans hrun')).trans (hsettled.trans hheld)
  · exact rank_of_return hrun finishCall_running ((potential_finishCall hw.flushHeld hrun').trans hheld)

private theorem rank_recoveredCall {ok : Bool} (hw : WellScheduled s) (hfair : ∀ l, s.lock = some l → l.Fair)
    (hrun : s.running = some call) : (s.recoveredCall call ok).rank < s.rank := by
  unfold System.recoveredCall
  refine rank_of_return hrun finishCall_running ?_
  cases ok with
  | true =>
    exact (potential_finishCall hw.settlePortal (WellScheduled.settlePortal_running.trans hrun)).trans
      (potential_settlePortal call true hw hfair)
  | false =>
    have hlocal : Local none s (s.destroyDuplex call.id) := local_destroyDuplex
    have hdown : WellScheduled (s.destroyDuplex call.id) := hw.destroyDuplex
    have hsettled := potential_settlePortal call false hdown
      (by rw [destroyDuplex_lock]; exact hfair)
    exact (potential_finishCall hw.destroyDuplex.settlePortal
      (WellScheduled.settlePortal_running.trans (hlocal.running.trans hrun))).trans
        (hsettled.trans (potential_destroyDuplex _ _))

end Calls

/-! ### Steps -/

private theorem rank_step {a : Action ι} (hw : WellScheduled s) (hfair : ∀ l, s.lock = some l → l.Fair)
    (ha : a.internal = true) (hs : s.step a = some s') : s'.rank < s.rank := by
  cases a with
  | write id chunk => cases ha
  | releaseAbandonedPortalHold id => cases ha
  | final id => cases ha
  | destroy id => cases ha
  | deliver id count =>
    simp only [System.step] at hs
    split at hs
    · cases hs
    · rename_i hguard
      simp only [not_or, not_not, Nat.not_lt] at hguard
      obtain ⟨-, hidle, hcount, hlength⟩ := hguard
      -- a chunk that is delivered weighs less as input
      have hparts : ((s.duplex id).writable.take count).flatten.length +
          ((s.duplex id).writable.drop count).flatten.length = (s.duplex id).writable.flatten.length := by
        rw [← List.length_append, ← List.flatten_append, List.take_append_drop]
      have hdrop : ((s.duplex id).writable.drop count).length + count = (s.duplex id).writable.length := by
        rw [List.length_drop]
        omega
      split at hs
      · cases hs
        refine rank_of_lt (potential_modify_lt ?_)
        simp only [Duplex.potential]
        omega
      · cases hs
        refine rank_of_lt (potential_modify_lt ?_)
        simp only [Duplex.potential, List.length_append, hidle, Drain.weight_active, Drain.weight_idle]
        omega
  | process id => exact rank_of_lt (potential_process hs)
  | tail id =>
    simp only [System.step] at hs
    split at hs
    · cases hs
    · rename_i htails
      cases hs
      have htail := potential_modify s id (fun d => { d with tails := d.tails - 1 })
      have hjudge := potential_judgePortal (s.modify id fun d => { d with tails := d.tails - 1 }) id
      simp only [Duplex.potential] at htail
      exact rank_of_lt (by omega)
  | pgliteReady id =>
    simp only [System.step] at hs
    split at hs
    · rename_i op hop
      cases hs
      have hweight := admitted_weight (WellScheduled.admitted_stage hop).1
      have hqueued := potential_modify s id (fun d => { d with drain := .busy { op with stage := .queued } })
      simp only [Duplex.potential, Drain.weight_queued, hweight] at hqueued
      refine rank_of_lt ?_
      rw [potential_push]
      omega
    · cases hs
  | pgliteNotReady id =>
    simp only [System.step] at hs
    split at hs
    · rename_i op hop
      cases hs
      have hweight := admitted_weight (WellScheduled.admitted_stage hop).1
      refine rank_of_lt (potential_modify_lt ?_)
      simp only [Duplex.potential, Drain.weight_failing, hweight]
      omega
    · cases hs
  | recoveryReady id =>
    simp only [System.step] at hs
    split at hs
    · rename_i hadmitted
      cases hs
      have hqueued := potential_modify s id (fun d => { d with recovery := some .queued })
      simp only [Duplex.potential, recoveryWeight, hadmitted] at hqueued
      refine rank_of_lt ?_
      rw [potential_push]
      omega
    · cases hs
  | recoveryNotReady id =>
    simp only [System.step] at hs
    split at hs
    · rename_i hadmitted
      cases hs
      have hdone : (s.modify id fun d => { d with recovery := none }).potential < s.potential := by
        refine potential_modify_lt ?_
        simp only [Duplex.potential, recoveryWeight, hadmitted]
        omega
      split
      · exact rank_of_lt hdone
      · exact rank_of_lt (lt_of_le_of_lt (potential_destroyDuplex _ _) hdone)
    · cases hs
  | queryRollback id ok =>
    simp only [System.step] at hs
    split at hs
    · rename_i hquery
      cases hs
      have hmoved : ∀ rollback, (s.modify id fun d => { d with rollback }).potential + 4 =
          s.potential + rollback.weight := by
        intro rollback
        have := potential_modify s id (fun d => { d with rollback })
        have hweight : (s.duplex id).rollback.weight = 4 := by rw [hquery, Rollback.weight]
        simp only [Duplex.potential, hweight] at this
        omega
      split
      · have := hmoved .queued
        refine rank_of_lt ?_
        rw [potential_push]
        simp only [Rollback.weight] at this
        omega
      · have := hmoved .settled
        simp only [Rollback.weight] at this
        exact rank_of_lt (by omega)
    · cases hs
  | start response =>
    simp only [System.step] at hs
    split at hs
    · rename_i id kind mutex hidle hmutex
      cases hs
      exact rank_of_lt (potential_start hw hidle hmutex)
    · cases hs
  | frame =>
    simp only [System.step] at hs
    split at hs
    · rename_i call hrun
      split at hs
      · rename_i hresponse
        cases hs
        exact rank_receive hw hfair hrun hresponse
      · cases hs
    · cases hs
  | flush =>
    simp only [System.step] at hs
    split at hs
    · rename_i call hrun
      split at hs
      · cases hs
      · rename_i hguard
        simp only [not_or, Bool.not_eq_true] at hguard
        cases hs
        exact rank_flushCall hw hfair hrun hguard.2.1
    · cases hs
  | recovered ok =>
    simp only [System.step] at hs
    split at hs
    · rename_i call hrun
      split at hs
      · cases hs
        exact rank_recoveredCall hw hfair hrun
      · cases hs
    · cases hs
  | throw =>
    simp only [System.step] at hs
    split at hs
    · rename_i call hrun
      split at hs
      · cases hs
      · cases hs
        exact rank_of_return hrun throwCall_running (potential_throwCall hw hrun)
    · cases hs
  | rolledBack ok =>
    simp only [System.step] at hs
    split at hs
    · rename_i call hrun
      split at hs
      · cases hs
        have hfinish := potential_finishCall hw hrun
        have hidle : (s.finishCall call).running = none := finishCall_running
        split
        · refine rank_of_return hrun hidle ?_
          rw [potential_session]
          refine le_trans (potential_modify_le ?_) hfinish
          exact (potential_status _ _).le
        · exact rank_of_return hrun hidle hfinish
      · cases hs
    · cases hs
  | decide id =>
    simp only [System.step] at hs
    split at hs
    · rename_i hdeciding
      cases hs
      refine rank_of_lt (potential_modify_lt ?_)
      have hweight : (s.duplex id).rollback.weight = 5 := by rw [hdeciding, Rollback.weight]
      simp only [Duplex.potential, hweight]
      split <;> simp only [Rollback.weight] <;> omega
    · cases hs
  | finalRelease id =>
    simp only [System.step] at hs
    split at hs
    · rename_i hguard
      cases hs
      have hdone : (s.modify id fun d => { d with finalWaits := false }).potential < s.potential := by
        refine potential_modify_lt ?_
        simp only [Duplex.potential, hguard.1, Bool.toNat_true, Bool.toNat_false]
        omega
      have hwell : WellScheduled (s.modify id fun d => { d with finalWaits := false }) :=
        hw.same ⟨rfl, rfl, rfl, rfl, fun hl => hl⟩
      split
      · exact rank_of_lt hdone
      · have hreleased := (potential_release id hwell hfair).trans_lt hdone
        exact rank_of_lt ((potential_eof _ id).trans_lt hreleased)
    · cases hs
  | destroyCancel id =>
    simp only [System.step] at hs
    split at hs
    · rename_i hguard
      cases hs
      have hwell : WellScheduled (s.modify id fun d => { d with destroyWaits := false }) :=
        hw.same ⟨rfl, rfl, rfl, rfl, fun hl => hl⟩
      refine rank_of_lt ((potential_cancel id hwell hfair).trans_lt (potential_modify_lt ?_))
      simp only [Duplex.potential, hguard.1, Bool.toNat_true, Bool.toNat_false]
      omega
    · cases hs
  | terminateRelease id =>
    simp only [System.step] at hs
    split at hs
    · rename_i hguard
      cases hs
      have hstage : (s.duplex id).stage = none := by simp [Duplex.stage, hguard.1]
      have hwell : WellScheduled (s.modify id fun d => { d with drain := .active }) :=
        hw.drain (hw.not_waiting (by simp [hstage])) (hw.not_batch (by simp [hstage]))
          (hw.not_ended (by simp [hguard.1])) fun _ => .active
      have hactive : (s.modify id fun d => { d with drain := .active }).potential < s.potential := by
        refine potential_modify_lt ?_
        simp only [Duplex.potential, hguard.1, Drain.weight_active, Drain.weight_terminating]
        omega
      have hreleased := (potential_release id hwell hfair).trans_lt hactive
      exact rank_of_lt ((potential_eof _ id).trans_lt hreleased)
    · cases hs

/-- A step of the program or of PGlite. -/
def Unprompted (_ : System ι) (a : Action ι) : Prop := a.internal = true

/-- Left to themselves, the program and PGlite come to an end whatever they do next, and every complete message has
been taken then, or its duplex waits for the client of another that owns the session. -/
theorem comes_to_rest {cond : System ι → Action ι → Prop} {locked : Bool} {cap : ι → Nat}
    (run : Run System.step cond (initial locked cap) s) :
    Acc (Next System.step Unprompted) s ∧ (∃ t, Run System.step Unprompted s t ∧ t.Quiescent) ∧
      ∀ t, Run System.step Unprompted s t → t.Quiescent → ∀ id,
        AtRest (t.duplex id) ∧ (t.duplex id).nextMessage = .incomplete ∨ ∃ holder, t.WaitsFor id holder := by
  have hrun : Run System.step (fun _ _ => True) (initial locked cap) s := run.mono fun _ _ _ => trivial
  have hacc : Acc (Next System.step Unprompted) s := by
    refine acc_of_rank wellFounded_lt rank hrun (fun t a u ht _ hs => ht.snoc trivial hs) fun t a u ht ha hs => ?_
    exact rank_step (wellScheduled locked cap ht) (due ht).fair ha hs
  refine ⟨hacc, exists_last hacc, fun t ht hq id => ?_⟩
  have htrun : Run System.step (fun _ _ => True) (initial locked cap) t := hrun.trans (ht.mono fun _ _ _ => trivial)
  have hd := due htrun
  rcases hq.drain hd id with hrest | hstage
  · exact Or.inl ⟨hrest, allRead htrun id hrest.drain⟩
  · exact Or.inr (hq.waits hd hstage)

end Finite

/-- Two clients have sent their startup packets at once. -/
theorem comes_to_rest_startup : ∃ s : System Bool, (s.duplex false).writable ≠ [] ∧ (s.duplex true).writable ≠ [] ∧
    Acc (Next System.step Unprompted) s := by
  obtain ⟨s, run, hfalse, htrue⟩ : ∃ s : System Bool,
      Run System.step (fun _ _ => True) (initial true fun _ => MAX_MESSAGE_LENGTH) s ∧
        (s.duplex false).writable ≠ [] ∧ (s.duplex true).writable ≠ [] :=
    exists_run [.write false startupPacket, .write true startupPacket] (by decide)
  exact ⟨s, hfalse, htrue, (comes_to_rest run).1⟩

end System

end PgliteBridge
