import PgliteBridge.Scheduling
import PgliteBridge.Ownership

/-!
# Teardown

A duplex that is half-closed, destroyed or terminated rolls back before it hands over the session, but it decides from
the last ReadyForQuery status, and a Flush batch has none.  The hand-over leaves nothing of the duplex open on the
backend provided that the status tells the truth at the decision (`Truthful`): then no later statement runs inside its
transaction or portal (`teardown_closes`).
-/

namespace PgliteBridge

open TransitionSystem

def ResponseFrame.isReadyForQuery : ResponseFrame → Bool
  | .readyForQuery _ => true
  | _ => false

/-! ### How a rollback goes on -/

/-- Not decided yet. -/
def Duplex.waiting (d : Duplex) : Bool := !d.decided || d.rollback == .deciding

/-- A change that asks PGlite for nothing: the rollback waits, or it is decided by `due`. -/
inductive Turn (due : Bool) (mine : Prop) (d d' : Duplex) : Prop
  | same (h : d'.rollback = d.rollback)
  | wait (h : d.waiting = true) (h' : d'.rollback = .awaitingCall ∨ d'.rollback = .deciding)
  | decide (h : d.waiting = true) (hmine : mine) (h' : d'.rollback = if due then .querying else .settled)

private theorem Turn.trans {due : Bool} {mine : Prop} {d d' d'' : Duplex} (h : Turn due mine d d')
    (h' : Turn due mine d' d'') :
    Turn due mine d d'' := by
  have hwaiting : ∀ {d : Duplex}, d.waiting = true ↔
      d.rollback = .notStarted ∨ d.rollback = .awaitingCall ∨ d.rollback = .deciding := by
    intro d
    cases hd : d.rollback <;> simp [Duplex.waiting, Duplex.decided, hd]
  cases h with
  | same hs =>
    cases h' with
    | same hs' => exact .same (hs'.trans hs)
    | wait hw hs' => exact .wait (hwaiting.mpr (hs ▸ hwaiting.mp hw)) hs'
    | decide hw hmine hs' => exact .decide (hwaiting.mpr (hs ▸ hwaiting.mp hw)) hmine hs'
  | wait hw hs =>
    cases h' with
    | same hs' => exact .wait hw (hs' ▸ hs)
    | wait _ hs' => exact .wait hw hs'
    | decide _ hmine hs' => exact .decide hw hmine hs'
  | decide hw hmine hs =>
    have hdecided : d'.waiting = false := by
      cases hdue : due <;> simp [hdue] at hs <;> simp [Duplex.waiting, Duplex.decided, hs]
    cases h' with
    | same hs' => exact .decide hw hmine (hs'.trans hs)
    | wait hw' => rw [hdecided] at hw'; cases hw'
    | decide hw' => rw [hdecided] at hw'; cases hw'

namespace System

variable {ι : Type} [DecidableEq ι] {s s' s'' : System ι} {id other : ι}

/-! ### Who decides -/

/-- The drain loop is about to tear its duplex down: behind an error, or with a Terminate. -/
def tearsDown (s : System ι) (id : ι) : Bool :=
  match (s.duplex id).drain with
  | .failing => !(s.duplex id).tornDown
  | .active =>
    match (s.duplex id).nextMessage with
    | .message message _ => (s.duplex id).phase == .ready && message.getD 0 0 == TERMINATE
    | _ => false
  | _ => false

/-- The duplex has not started its rollback, and no call of its own has to be awaited first. -/
def undecided (s : System ι) (id : ι) : Bool := (s.duplex id).rollback == .notStarted && !s.inCall id

/-- The duplex whose teardown reads the status in this step. -/
def decides (s : System ι) : Action ι → Option ι
  | .final id => if s.undecided id then some id else none
  | .destroy id => if s.undecided id then some id else none
  | .process id => if s.tearsDown id && s.undecided id then some id else none
  | .recoveryNotReady id => if (s.duplex id).live && s.undecided id then some id else none
  | .throw =>
    match s.running with
    | some call =>
      if call.kind = .recovery ∧ (s.duplex call.id).live = true ∧ (s.duplex call.id).rollback = .notStarted then
        some call.id
      else none
    | none => none
  | .decide id => some id
  | _ => none

/-- The rollback goes on only from where it stands, and is skipped only by a decision. -/
structure RollbackStep (skips : Option ι) (s s' : System ι) : Prop where
  keeps : ∀ id, (s.duplex id).rollback = .settled → (s'.duplex id).rollback = .settled
  skips : ∀ id, (s'.duplex id).rollback = .settled → (s.duplex id).rollback = .settled ∨ skips = some id

/-- No duplex comes back to life, and a rollback takes a turn; `decider` decides. -/
structure Turns (due : ι → Bool) (decider : Option ι) (s s' : System ι) : Prop where
  live : ∀ id, (s'.duplex id).live = true → (s.duplex id).live = true
  turn : ∀ id, Turn (due id) (decider = some id) (s.duplex id) (s'.duplex id)

variable {due : ι → Bool} {decider : Option ι}

omit [DecidableEq ι] in
private theorem Turns.trans (h : Turns due decider s s') (h' : Turns due decider s' s'') : Turns due decider s s'' :=
  ⟨fun id hlive => h.live id (h'.live id hlive), fun id => (h.turn id).trans (h'.turn id)⟩

omit [DecidableEq ι] in
private theorem Turns.of_same (h : ∀ id, (s'.duplex id).live = (s.duplex id).live ∧
    (s'.duplex id).rollback = (s.duplex id).rollback) : Turns due decider s s' :=
  ⟨fun id hlive => (h id).1 ▸ hlive, fun id => .same (h id).2⟩

omit [DecidableEq ι] in
private theorem Turns.of_duplex (h : Turns due decider s s') (hd : s''.duplex = s'.duplex) : Turns due decider s s'' :=
  h.trans (.of_same fun id => by rw [hd]; exact ⟨rfl, rfl⟩)

private theorem turns_modify {f : Duplex → Duplex} (hlive : (f (s.duplex id)).live = true → (s.duplex id).live = true)
    (hturn : Turn (due id) (decider = some id) (s.duplex id) (f (s.duplex id))) :
    Turns due decider s (s.modify id f) := by
  constructor
  · intro other hl
    by_cases ho : other = id
    · subst ho
      rw [modify_same] at hl
      exact hlive hl
    · rwa [modify_other ho] at hl
  · intro other
    by_cases ho : other = id
    · subst ho
      rw [modify_same]
      exact hturn
    · rw [modify_other ho]
      exact .same rfl

/-- A change that does not touch the rollback. -/
private theorem turns_same {f : Duplex → Duplex} (hlive : (f (s.duplex id)).live = true → (s.duplex id).live = true)
    (h : (f (s.duplex id)).rollback = (s.duplex id).rollback) : Turns due decider s (s.modify id f) :=
  turns_modify hlive (.same h)

private theorem turns_applyLock (outcome : SessionLock.Outcome ι) : Turns due decider s (s.applyLock outcome) := by
  refine .of_same fun id => ?_
  obtain ⟨drain, hd⟩ := applyLock_duplex (s := s) outcome id
  rw [hd]
  exact ⟨rfl, rfl⟩

private theorem turns_release : Turns due decider s (s.release id) := by
  unfold release
  split
  · exact turns_applyLock _
  · exact .of_same fun _ => ⟨rfl, rfl⟩

private theorem turns_cancel : Turns due decider s (s.cancel id) := by
  unfold cancel
  split
  · exact turns_applyLock _
  · exact .of_same fun _ => ⟨rfl, rfl⟩

private theorem turns_updateStatus {status : UInt8} : Turns due decider s (s.updateStatus id status) := by
  unfold updateStatus
  split
  · split
    · exact .of_same fun _ => ⟨rfl, rfl⟩
    · exact turns_applyLock _
  · exact .of_same fun _ => ⟨rfl, rfl⟩

private theorem turns_acquireSession (batch : Bytes) (mode : RfqMode) :
    Turns due decider s (s.acquireSession id batch mode) := by
  have hdrain : Turns due decider s
      (s.modify id fun d => { d with drain := .busy { batch, mode, stage := .acquiring } }) :=
    turns_same (fun h => h) rfl
  unfold acquireSession
  dsimp only
  split
  · exact hdrain.trans (turns_applyLock _)
  · refine hdrain.trans ?_
    simp only [settleOne]
    refine turns_same (fun h => ?_) ?_
    · split at h <;> exact h
    · split <;> rfl

private theorem turns_deliverRecoverySync : Turns due decider s (s.deliverRecoverySync id) := by
  unfold deliverRecoverySync
  split
  · exact .of_same fun _ => ⟨rfl, rfl⟩
  · split <;> exact turns_same (fun h => h) rfl

private theorem turns_releasePortal : Turns due decider s (s.releasePortal id) := by
  unfold releasePortal
  split
  · exact .of_same fun _ => ⟨rfl, rfl⟩
  · split
    · exact turns_deliverRecoverySync
    · split
      · exact turns_same (fun h => h) rfl
      · exact .of_same fun _ => ⟨rfl, rfl⟩

private theorem turns_judgePortal : Turns due decider s (s.judgePortal id) := by
  have hclear : Turns due decider s (s.modify id fun d => { d with portalRecoveryRequested := false }) :=
    turns_same (fun h => h) rfl
  unfold judgePortal
  split
  · dsimp only
    split
    · exact hclear.trans turns_deliverRecoverySync
    · exact hclear
  · exact .of_same fun _ => ⟨rfl, rfl⟩

/-- Who reads an open transaction it may end asks for a ROLLBACK. -/
private theorem turns_decideRollback (hwaiting : (s.duplex id).waiting = true) (hmine : decider = some id)
    (hdue : due id = ((s.duplex id).inTransaction && s.mayUse id)) : Turns due decider s (s.decideRollback id) := by
  refine turns_modify (fun h => h) (.decide hwaiting hmine ?_)
  rw [hdue]

private theorem turns_rollbackIfInTransaction (hmine : s.undecided id = true → decider = some id)
    (hdue : due id = ((s.duplex id).inTransaction && s.mayUse id)) :
    Turns due decider s (s.rollbackIfInTransaction id) := by
  unfold rollbackIfInTransaction
  split
  · rename_i hnot
    have hwaiting : (s.duplex id).waiting = true := by simp [Duplex.waiting, Duplex.decided, hnot]
    split
    · exact turns_modify (fun h => h) (.wait hwaiting (Or.inl rfl))
    · rename_i hcall
      exact turns_decideRollback hwaiting (hmine (by simp [undecided, hnot, hcall])) hdue
  · exact .of_same fun _ => ⟨rfl, rfl⟩

private theorem turns_destroyDuplex (hmine : (s.duplex id).tornDown = false → s.undecided id = true → decider = some id)
    (hdue : due id = ((s.duplex id).inTransaction && s.mayUse id)) : Turns due decider s (s.destroyDuplex id) := by
  unfold destroyDuplex
  split
  · exact .of_same fun _ => ⟨rfl, rfl⟩
  · rename_i htorn
    rw [Bool.not_eq_true] at htorn
    have hdown : Turns due decider s (s.modify id tearDown) :=
      turns_same (fun h => by simp [Duplex.live, tearDown] at h) rfl
    refine hdown.trans (turns_rollbackIfInTransaction ?_ ?_)
    · simp only [undecided, modify_same]
      exact hmine htorn
    · rw [modify_same]
      exact hdue

private theorem turns_processNext {d : Duplex} {next : Duplex.Next} (hlive : d.live = true → (s.duplex id).live = true)
    (hd : d.rollback = (s.duplex id).rollback) (hread : d.inTransaction = (s.duplex id).inTransaction)
    (hmine : next = .terminate → s.undecided id = true → decider = some id)
    (hdue : due id = ((s.duplex id).inTransaction && s.mayUse id)) :
    Turns due decider s (s.processNext id d next) := by
  cases next with
  | again => exact turns_same (f := fun _ => d) hlive hd
  | run batch mode => exact (turns_same (f := fun _ => d) hlive hd).trans (turns_acquireSession batch mode)
  | throw message => exact turns_same (f := fun _ => { d with drain := .failing }) hlive hd
  | terminate =>
    have hterminating : Turns due decider s (s.modify id fun _ => { d with drain := .terminating }) :=
      turns_same (f := fun _ => { d with drain := .terminating }) hlive hd
    refine hterminating.trans (turns_rollbackIfInTransaction ?_ ?_)
    · have hundecided : (s.modify id fun _ => { d with drain := .terminating }).undecided id = s.undecided id := by
        simp only [undecided, modify_same, hd]
        rfl
      rw [hundecided]
      exact hmine rfl
    · rw [modify_same, hdue]
      show _ = (d.inTransaction && s.mayUse id)
      rw [hread]

/-- Only a Terminate makes the loop ask for the rollback. -/
private theorem processMessage_terminate (d : Duplex) (message : Bytes)
    (h : (d.processMessage message).2 = .terminate) : message.getD 0 0 = TERMINATE := by
  by_contra hne
  unfold Duplex.processMessage at h
  dsimp only at h
  rw [if_neg hne] at h
  split at h
  · unfold Duplex.processCopy at h
    split at h
    · cases h
    · split at h
      · dsimp only at h
        split at h <;> cases h
      · cases h
  · split at h
    · cases h
    · split at h
      · cases h
      · split at h
        · unfold Duplex.processQuery at h
          split at h <;> cases h
        · cases h

private theorem nextMessage_phase {d : Duplex} {message rest : Bytes} (h : d.nextMessage = .message message rest) :
    d.phase ≠ .terminated := by
  intro hphase
  simp [Duplex.nextMessage, hphase] at h

/-- An open transaction that the duplex may end. -/
def owes (s : System ι) (id : ι) : Bool := (s.duplex id).inTransaction && s.mayUse id

private theorem turns_process (hs : s.process id = some s') : Turns s.owes (s.decides (.process id)) s s' := by
  unfold process at hs
  split at hs
  · rename_i hactive
    split at hs
    · cases hs
      exact turns_same (fun h => h) rfl
    · cases hs
      exact turns_same (fun h => h) rfl
    · rename_i message rest hnext
      cases hs
      unfold processTaken
      dsimp only
      split
      · exact turns_processNext (fun h => h) rfl rfl (fun hterm => by cases hterm) rfl
      · rename_i hphase
        obtain ⟨hsame, _⟩ := Duplex.processMessage_same { s.duplex id with input := rest } message
        have hread := (Duplex.processMessage_outside { s.duplex id with input := rest } message).lastSeenRfqStatus
        have hread' : (({ s.duplex id with input := rest } : Duplex).processMessage message).1.inTransaction =
            (s.duplex id).inTransaction := by
          simp only [Duplex.inTransaction, hread]
        refine turns_processNext hsame.live hsame.rollback hread' (fun hterm hundecided => ?_) rfl
        have htype := processMessage_terminate _ _ hterm
        have hready : (s.duplex id).phase = .ready := by
          have hnot := nextMessage_phase hnext
          cases hp : (s.duplex id).phase with
          | preStartup => exact absurd hp hphase
          | ready => rfl
          | terminated => exact absurd hp hnot
        have htears : s.tearsDown id = true := by
          simp only [tearsDown, hactive, hnext, hready, htype]
          decide
        simp [decides, htears, hundecided]
  · rename_i hfailing
    cases hs
    refine Turns.trans (turns_same (fun h => h) rfl) (turns_destroyDuplex ?_ ?_)
    · rw [modify_same]
      intro htorn hundecided
      have hundecided' : s.undecided id = true := by
        simp only [undecided, modify_same] at hundecided
        exact hundecided
      have htorn' : (s.duplex id).tornDown = false := htorn
      simp [decides, tearsDown, hfailing, htorn', hundecided']
    · rw [modify_same]
      rfl
  · cases hs

/-! ### Calls -/

section Calls

variable {call : Call ι}

omit [DecidableEq ι] in
private theorem turns_running {running : Option (Call ι)} : Turns due decider s { s with running } :=
  .of_same fun _ => ⟨rfl, rfl⟩

private theorem turns_callDone {f : Duplex → Duplex} (hlive : (f (s.duplex id)).live = true → (s.duplex id).live = true)
    (hf : (f (s.duplex id)).rollback = (s.duplex id).rollback) :
    Turns due decider s (s.modify id fun d => callDone (f d)) := by
  refine turns_modify hlive ?_
  by_cases hawaiting : (s.duplex id).rollback = .awaitingCall
  · refine .wait (by simp [Duplex.waiting, Duplex.decided, hawaiting]) (Or.inr ?_)
    unfold callDone
    rw [hf, hawaiting]
    rfl
  · refine .same ?_
    unfold callDone
    rw [hf]
    exact if_neg hawaiting

private theorem live_of_batchDone (d : Duplex) : (batchDone d).live = true → d.live = true := by
  intro h
  cases hp : d.phase <;> simp [Duplex.live, batchDone, hp] at h ⊢ <;> exact h

private theorem turns_finishCall (hkind : call.kind ≠ .rollback) : Turns due decider s (s.finishCall call) := by
  unfold finishCall
  split
  · exact turns_running.trans (turns_callDone (live_of_batchDone _) rfl)
  · exact turns_running.trans (turns_callDone (f := fun d => { d with recovery := none }) (fun h => h) rfl)
  · rename_i hroll
    exact absurd hroll hkind

private theorem onChunk_schedule (d : Duplex) (fr : ResponseFrame) :
    (d.onChunk fr).live = d.live ∧ (d.onChunk fr).rollback = d.rollback := by
  unfold Duplex.onChunk
  split <;> exact ⟨rfl, rfl⟩

private theorem turns_receive {response : List ResponseFrame} {fr : ResponseFrame} :
    Turns due decider s (s.receive call response fr) := by
  have hcall : ∀ (t : System ι) (call' : Call ι) (session : Option ι), Turns due decider s t →
      Turns due decider s (t.setCall call' session) := by
    intro t call' session ht
    exact ht.trans (.of_same fun _ => ⟨rfl, rfl⟩)
  have hchunk : ∀ (t : System ι) (f : Duplex → Duplex) (fr : ResponseFrame), (∀ d, (f d).live = d.live) →
      (∀ d, (f d).rollback = d.rollback) → Turns due decider t (t.modify call.id fun d => (f d).onChunk fr) := by
    intro t f fr hlive hrollback
    obtain ⟨hl, hr⟩ := onChunk_schedule (f (t.duplex call.id)) fr
    exact turns_same (fun h => by rwa [hl, hlive] at h) (hr.trans (hrollback _))
  cases fr with
  | errorResponse =>
    rw [receive_errorResponse]
    exact hcall _ _ _ (hchunk s Duplex.onErrorResponse _ (fun _ => rfl) fun _ => rfl)
  | other =>
    rw [receive_other]
    exact hcall _ _ _ (hchunk s id _ (fun _ => rfl) fun _ => rfl)
  | readyForQuery status =>
    have hnoted : Turns due decider s (s.noteReadyForQuery call response status) := by
      refine Turns.trans ?_ turns_updateStatus
      exact hcall _ _ _ (turns_same (f := fun d => d.onReadyForQuery status) (fun h => h) rfl)
    rw [receive_readyForQuery]
    split
    · exact hnoted
    · exact hnoted.trans (hchunk _ id _ (fun _ => rfl) fun _ => rfl)

private theorem turns_settlePortal {synced : Bool} : Turns due decider s (s.settlePortal call synced) := by
  unfold settlePortal
  dsimp only
  split
  · exact (turns_same (f := fun d => { d with portalSuspended := true }) (fun h => h) rfl).of_duplex rfl
  · have hdoomed : Turns due decider s (s.modify call.id fun d => { d with portalSuspended := false }) :=
      turns_same (fun h => h) rfl
    split
    · refine Turns.trans ?_ turns_release
      exact hdoomed.of_duplex rfl
    · exact hdoomed

private theorem turns_flushCall (hkind : call.kind ≠ .rollback) : Turns due decider s (s.flushCall call) := by
  have hheld : Turns due decider s (s.flushHeld call) := by
    unfold flushHeld
    split
    · rename_i status _
      refine turns_same (fun h => ?_) ?_
      · split at h
        · exact h
        · rwa [(onChunk_schedule _ _).1] at h
      · split
        · rfl
        · exact (onChunk_schedule _ _).2
    · exact .of_same fun _ => ⟨rfl, rfl⟩
  unfold flushCall
  dsimp only
  split
  · split
    · exact hheld.trans turns_running
    · exact (hheld.trans turns_settlePortal).trans (turns_finishCall hkind)
  · exact hheld.trans (turns_finishCall hkind)

private theorem turns_recoveredCall {ok : Bool} (hrun : s.running = some call) (hkind : call.kind ≠ .rollback)
    (hdue : due call.id = ((s.duplex call.id).inTransaction && s.mayUse call.id)) :
    Turns due decider s (s.recoveredCall call ok) := by
  unfold recoveredCall
  cases ok with
  | true => exact turns_settlePortal.trans (turns_finishCall hkind)
  | false =>
    -- the call itself is awaited first
    have hdestroy : Turns due decider s (s.destroyDuplex call.id) := by
      refine turns_destroyDuplex (fun _ hu => ?_) hdue
      simp [undecided, inCall_of_running hrun hkind] at hu
    exact (hdestroy.trans turns_settlePortal).trans (turns_finishCall hkind)

private theorem turns_throwCall (hrun : s.running = some call) (hkind : call.kind ≠ .rollback) :
    Turns s.owes (s.decides .throw) s (s.throwCall call) := by
  unfold throwCall
  split
  · exact turns_running.trans (turns_callDone (f := fun d => { d with drain := .failing }) (fun h => h) rfl)
  · rename_i hrecovery
    have hdone : Turns s.owes (s.decides .throw) s
        (({ s with running := none } : System ι).modify call.id fun d => callDone { d with recovery := none }) :=
      turns_running.trans (turns_callDone (f := fun d => { d with recovery := none }) (fun h => h) rfl)
    dsimp only
    split
    · exact hdone
    · rename_i hphase
      refine hdone.trans (turns_destroyDuplex ?_ ?_)
      · rw [modify_same] at hphase ⊢
        intro htorn hundecided
        have hphase' : (s.duplex call.id).phase ≠ .terminated := hphase
        have htorn' : (s.duplex call.id).tornDown = false := htorn
        have hnot : (s.duplex call.id).rollback = .notStarted := by
          simp only [undecided, modify_same, Bool.and_eq_true, beq_iff_eq] at hundecided
          have hr := hundecided.1
          unfold callDone at hr
          dsimp only at hr
          split at hr
          · cases hr
          · exact hr
        simp [decides, hrun, hrecovery, hnot, Duplex.live, hphase', htorn']
      · rw [modify_same]
        rfl
  · rename_i hroll
    exact absurd hroll hkind

end Calls

/-! ### Steps -/

/-- What a step does to the rollback of a duplex: it takes a turn, or the ROLLBACK is asked for, started or answered. -/
inductive RollbackMove (s : System ι) (a : Action ι) (id : ι) (d d' : Duplex) : Prop
  | turn (h : Turn (s.owes id) (s.decides a = some id) d d')
  | query (ok : Bool) (ha : a = .queryRollback id ok) (h : d.rollback = .querying)
      (h' : d'.rollback = if ok then .queued else .settled)
  | start (h : d.rolling = true) (h' : d'.rollback = .running)
  | answer (ok : Bool) (ha : a = .rolledBack ok) (hrun : s.running.map Call.id = some id) (h : d.rolling = true)
      (h' : d'.rollback = .settled)

/-- A step: no duplex comes back to life, and the rollbacks move. -/
structure RollbackMoves (a : Action ι) (s s' : System ι) : Prop where
  live : ∀ id, (s'.duplex id).live = true → (s.duplex id).live = true
  move : ∀ id, RollbackMove s a id (s.duplex id) (s'.duplex id)

private theorem Turns.moves {a : Action ι} (h : Turns s.owes (s.decides a) s s') : RollbackMoves a s s' :=
  ⟨h.live, fun id => .turn (h.turn id)⟩

/-- The ROLLBACK of one duplex is asked for, started or answered. -/
private theorem moves_modify {a : Action ι} {f : Duplex → Duplex}
    (hlive : (f (s.duplex id)).live = true → (s.duplex id).live = true)
    (hmove : RollbackMove s a id (s.duplex id) (f (s.duplex id))) : RollbackMoves a s (s.modify id f) := by
  constructor
  · intro other hl
    by_cases ho : other = id
    · subst ho
      rw [modify_same] at hl
      exact hlive hl
    · rwa [modify_other ho] at hl
  · intro other
    by_cases ho : other = id
    · subst ho
      rw [modify_same]
      exact hmove
    · rw [modify_other ho]
      exact .turn (.same rfl)

private theorem RollbackMoves.of_duplex {a : Action ι} (h : RollbackMoves a s s') (hd : s''.duplex = s'.duplex) :
    RollbackMoves a s s'' := by
  refine ⟨fun id => ?_, fun id => ?_⟩
  · rw [hd]
    exact h.live id
  · rw [hd]
    exact h.move id

theorem step_moves {a : Action ι} (h : WellScheduled s)
    (hrecovering : ∀ call ∈ s.running, call.recovering = true → call.kind ≠ .rollback) (hs : s.step a = some s') :
    RollbackMoves a s s' := by
  cases a with
  | write id chunk =>
    simp only [step] at hs
    split at hs
    · cases hs
    · cases hs
      exact (turns_same (fun h => h) rfl).moves
  | deliver id count =>
    simp only [step] at hs
    split at hs
    · cases hs
    · split at hs
      · cases hs
        exact (turns_same (fun h => h) rfl).moves
      · cases hs
        exact (turns_same (fun h => h) rfl).moves
  | process id => exact (turns_process hs).moves
  | tail id =>
    simp only [step] at hs
    split at hs
    · cases hs
    · cases hs
      exact (Turns.trans (turns_same (fun h => h) rfl) turns_judgePortal).moves
  | pgliteReady id =>
    simp only [step] at hs
    split at hs
    · rename_i op _
      cases hs
      exact Turns.moves ((turns_same (f := fun d => { d with drain := .busy { op with stage := .queued } }) (fun h => h)
        rfl).of_duplex rfl)
    · cases hs
  | pgliteNotReady id =>
    simp only [step] at hs
    split at hs
    · cases hs
      exact (turns_same (fun h => h) rfl).moves
    · cases hs
  | recoveryReady id =>
    simp only [step] at hs
    split at hs
    · cases hs
      exact Turns.moves
        ((turns_same (f := fun d => { d with recovery := some .queued }) (fun h => h) rfl).of_duplex rfl)
    · cases hs
  | recoveryNotReady id =>
    simp only [step] at hs
    split at hs
    · cases hs
      have hdone : Turns s.owes (s.decides (.recoveryNotReady id)) s
          (s.modify id fun d => { d with recovery := none }) :=
        turns_same (fun h => h) rfl
      split
      · exact hdone.moves
      · rename_i hphase
        refine (hdone.trans (turns_destroyDuplex ?_ ?_)).moves
        · rw [modify_same] at hphase ⊢
          intro htorn hundecided
          have hundecided' : s.undecided id = true := by
            simp only [undecided, modify_same] at hundecided
            exact hundecided
          have hphase' : (s.duplex id).phase ≠ .terminated := hphase
          have htorn' : (s.duplex id).tornDown = false := htorn
          simp [decides, Duplex.live, hphase', htorn', hundecided']
        · rw [modify_same]
          rfl
    · cases hs
  | queryRollback id ok =>
    simp only [step] at hs
    split at hs
    · rename_i hquery
      cases hs
      cases ok with
      | true =>
        exact (moves_modify (f := fun d => { d with rollback := .queued }) (fun h => h)
          (.query true rfl hquery rfl)).of_duplex rfl
      | false =>
        exact moves_modify (f := fun d => { d with rollback := .settled }) (fun h => h) (.query false rfl hquery rfl)
    · cases hs
  | start response =>
    simp only [step] at hs
    split at hs
    · rename_i id kind mutex hidle hmutex
      cases hs
      unfold startCall
      cases kind with
      | rollback =>
        -- a ROLLBACK that is still queued is not settled
        have hrolling : (s.duplex id).rolling = true := h.rolling id (by simp [rollbacks, ops, hmutex, rollbackId])
        exact (moves_modify (f := fun d => { d with rollback := .running }) (fun h => h)
          (.start hrolling rfl)).of_duplex rfl
      | batch mode =>
        dsimp only
        split
        · exact Turns.moves ((turns_same (f := Duplex.startCall) (fun h => h) rfl).of_duplex rfl)
        · exact Turns.moves ((turns_same (f := batchDone) (live_of_batchDone _) rfl).of_duplex rfl)
      | recovery =>
        dsimp only
        split
        · exact Turns.moves ((turns_same (f := fun d => { d.startCall with recovery := some .running }) (fun h => h)
            rfl).of_duplex rfl)
        · exact Turns.moves ((turns_same (f := fun d => { d with recovery := none }) (fun h => h) rfl).of_duplex rfl)
    · cases hs
  | frame =>
    simp only [step] at hs
    split at hs
    · split at hs
      · cases hs
        exact turns_receive.moves
      · cases hs
    · cases hs
  | flush =>
    simp only [step] at hs
    split at hs
    · split at hs
      · cases hs
      · rename_i hguard
        cases hs
        exact (turns_flushCall fun hk => hguard (Or.inl hk)).moves
    · cases hs
  | recovered ok =>
    simp only [step] at hs
    split at hs
    · rename_i call hrun
      split at hs
      · rename_i hrec
        cases hs
        exact (turns_recoveredCall hrun (hrecovering call hrun hrec) rfl).moves
      · cases hs
    · cases hs
  | throw =>
    simp only [step] at hs
    split at hs
    · rename_i call hrun
      split at hs
      · cases hs
      · rename_i hguard
        cases hs
        exact (turns_throwCall hrun fun hk => hguard (Or.inl hk)).moves
    · cases hs
  | rolledBack ok =>
    simp only [step] at hs
    split at hs
    · rename_i call hrun
      split at hs
      · rename_i hkind
        cases hs
        have hrolling : (s.duplex call.id).rolling = true :=
          h.rolling call.id (by simp [rollbacks, ops, runningOp, hrun, hkind, rollbackId])
        have hrunning : s.running.map Call.id = some call.id := by rw [hrun]; rfl
        unfold finishCall
        rw [hkind]
        dsimp only
        split
        · have hanswer : RollbackMoves (.rolledBack ok) s (s.modify call.id fun d =>
              { d with rollback := .settled, lastSeenRfqStatus := some RFQ_STATUS_IDLE }) :=
            moves_modify (fun h => h) (.answer ok rfl hrunning hrolling rfl)
          refine hanswer.of_duplex ?_
          simp [modify]
        · exact (moves_modify (f := fun d => { d with rollback := .settled }) (fun h => h)
            (.answer ok rfl hrunning hrolling rfl)).of_duplex rfl
      · cases hs
    · cases hs
  | releaseAbandonedPortalHold id =>
    cases hs
    exact turns_releasePortal.moves
  | final id =>
    simp only [step] at hs
    split at hs
    · cases hs
    · cases hs
      refine (Turns.trans (turns_same (f := fun d => { d with ended := true, finalWaits := true }) (fun h => h) rfl)
        (turns_rollbackIfInTransaction ?_ ?_)).moves
      · intro hundecided
        have hundecided' : s.undecided id = true := by
          simp only [undecided, modify_same] at hundecided
          exact hundecided
        simp [decides, hundecided']
      · rw [modify_same]
        rfl
  | destroy id =>
    simp only [step] at hs
    split at hs
    · cases hs
    · cases hs
      refine (turns_destroyDuplex (fun _ hundecided => ?_) rfl).moves
      simp [decides, hundecided]
  | decide id =>
    simp only [step] at hs
    split at hs
    · rename_i hdeciding
      cases hs
      exact (turns_decideRollback (by simp [Duplex.waiting, Duplex.decided, hdeciding]) rfl rfl).moves
    · cases hs
  | finalRelease id =>
    simp only [step] at hs
    split at hs
    · cases hs
      have hdone : Turns s.owes (s.decides (.finalRelease id)) s
          (s.modify id fun d => { d with finalWaits := false }) :=
        turns_same (fun h => h) rfl
      split
      · exact hdone.moves
      · exact ((hdone.trans turns_release).trans (turns_same (fun h => h) rfl)).moves
    · cases hs
  | destroyCancel id =>
    simp only [step] at hs
    split at hs
    · cases hs
      exact (Turns.trans (turns_same (f := fun d => { d with destroyWaits := false }) (fun h => h) rfl)
        turns_cancel).moves
    · cases hs
  | terminateRelease id =>
    simp only [step] at hs
    split at hs
    · cases hs
      have hdrain : Turns s.owes (s.decides (.terminateRelease id)) s
          (s.modify id fun d => { d with drain := .active }) :=
        turns_same (fun h => h) rfl
      exact ((hdrain.trans turns_release).trans (turns_same (fun h => h) rfl)).moves
    · cases hs

/-- The duplex that ends its rollback in this step without a ROLLBACK, or with the answer to it. -/
def skipsRollback (s : System ι) : Action ι → Option ι
  | .queryRollback id false => some id
  | .rolledBack _ => s.running.map Call.id
  | a => (s.decides a).filter fun id => !((s.duplex id).inTransaction && s.mayUse id)

private theorem skips_of_decides {a : Action ι} (h : s.decides a = some id) (howes : s.owes id = false) :
    s.skipsRollback a = some id := by
  have hfilter : (s.decides a).filter (fun id => !((s.duplex id).inTransaction && s.mayUse id)) = some id := by
    rw [h, Option.filter_some, if_pos]
    exact congrArg Bool.not howes
  cases a with
  | queryRollback => cases h
  | rolledBack => cases h
  | _ => exact hfilter

/-- No step but a decision, a failed `query` or an answered ROLLBACK ends a rollback, and none reopens it. -/
private theorem step_rollback {a : Action ι} (h : WellScheduled s)
    (hrecovering : ∀ call ∈ s.running, call.recovering = true → call.kind ≠ .rollback) (hs : s.step a = some s') :
    RollbackStep (s.skipsRollback a) s s' := by
  have hmoves := step_moves h hrecovering hs
  constructor
  · intro id hsettled
    cases hmoves.move id with
    | turn hturn =>
      cases hturn with
      | same hsame => exact hsame.trans hsettled
      | wait hwaiting => simp [Duplex.waiting, Duplex.decided, hsettled] at hwaiting
      | decide hwaiting => simp [Duplex.waiting, Duplex.decided, hsettled] at hwaiting
    | query ok ha hquery => rw [hsettled] at hquery; cases hquery
    | start hrolling => simp [Duplex.rolling, hsettled] at hrolling
    | answer ok ha hrun hrolling hsettled' => exact hsettled'
  · intro id hsettled
    cases hmoves.move id with
    | turn hturn =>
      cases hturn with
      | same hsame => exact Or.inl (hsame.symm.trans hsettled)
      | wait _ hwaiting => rcases hwaiting with hw | hw <;> rw [hw] at hsettled <;> cases hsettled
      | decide _ hmine hdecided =>
        right
        have howes : s.owes id = false := by
          by_contra howes
          rw [Bool.not_eq_false] at howes
          rw [hdecided, howes] at hsettled
          cases hsettled
        exact skips_of_decides hmine howes
    | query ok ha hquery hasked =>
      right
      cases ok with
      | true => rw [hasked] at hsettled; cases hsettled
      | false => rw [ha]; rfl
    | start _ hrunning => rw [hrunning] at hsettled; cases hsettled
    | answer ok ha hrun => exact Or.inr (by rw [ha]; exact hrun)

/-! ### What is left open -/

/-- A bare Sync is answered by one ReadyForQuery at most, and only inside a transaction by one that is not idle. -/
def BareSync (s : System ι) (id : ι) (response : List ResponseFrame) : Prop :=
  response.countP ResponseFrame.isReadyForQuery ≤ 1 ∧ ((∃ fr ∈ response, fr.opens = true) → s.session = some id)

/-- A ROLLBACK succeeds, and a recovery Sync is answered as a bare Sync. -/
def Answers (s : System ι) : Action ι → Prop
  | .queryRollback id ok => ok = true ∨ s.session ≠ some id
  | .rolledBack ok => ok = true ∨ ∀ call ∈ s.running, s.session ≠ some call.id
  | .start response => ∀ entry ∈ s.mutex.head?, entry.2 = .recovery → s.BareSync entry.1 response
  | _ => True

/-- A teardown that finds the session in its duplex's transaction or portal also reads T or E, as the owner, and its
ROLLBACK succeeds. -/
def Truthful (s : System ι) (a : Action ι) : Prop :=
  (∀ id ∈ s.decides a, s.session = some id → (s.duplex id).inTransaction = true ∧ s.mayUse id = true) ∧
    s.Answers a

instance (s : System ι) (id : ι) (response : List ResponseFrame) : Decidable (s.BareSync id response) := by
  unfold BareSync; infer_instance

instance (s : System ι) : (a : Action ι) → Decidable (s.Answers a)
  | .queryRollback id ok => inferInstanceAs (Decidable (ok = true ∨ s.session ≠ some id))
  | .rolledBack ok => inferInstanceAs (Decidable (ok = true ∨ ∀ call ∈ s.running, s.session ≠ some call.id))
  | .start response =>
    inferInstanceAs (Decidable (∀ entry ∈ s.mutex.head?, entry.2 = .recovery → s.BareSync entry.1 response))
  | .write .. | .deliver .. | .process _ | .tail _ | .pgliteReady _ | .pgliteNotReady _ | .recoveryReady _
  | .recoveryNotReady _ | .frame | .flush | .recovered _ | .throw | .releaseAbandonedPortalHold _ | .final _
  | .destroy _ | .decide _ | .finalRelease _ | .destroyCancel _ | .terminateRelease _ => isTrue trivial

instance (s : System ι) (a : Action ι) : Decidable (s.Truthful a) := by unfold Truthful; infer_instance

structure Closing (s : System ι) : Prop where
  settled : ∀ id, (s.duplex id).rollback = .settled → s.session ≠ some id
  bare : ∀ call ∈ s.running, call.kind = .recovery → s.BareSync call.id call.response
  empty : ∀ call ∈ s.running, call.kind = .rollback → call.response = []
  recovering : ∀ call ∈ s.running, call.recovering = true → ∃ mode, call.kind = .batch mode

private theorem Truthful.skips {a : Action ι} (h : s.Truthful a) (hskips : s.skipsRollback a = some id) :
    s.session ≠ some id ∨ a = .rolledBack true := by
  obtain ⟨hdecides, hfails⟩ := h
  -- the decisions come first, then the two failures of the ROLLBACK
  have hdecided : (s.decides a).filter (fun id => !((s.duplex id).inTransaction && s.mayUse id)) = some id →
      s.session ≠ some id := by
    intro hfilter hsession
    rw [Option.filter_eq_some_iff] at hfilter
    obtain ⟨hdec, hno⟩ := hfilter
    obtain ⟨hin, hmay⟩ := hdecides id hdec hsession
    simp [hin, hmay] at hno
  unfold skipsRollback at hskips
  split at hskips
  · cases hskips
    exact Or.inl (hfails.resolve_left Bool.false_ne_true)
  · rename_i ok
    cases ok with
    | true => exact Or.inr rfl
    | false =>
      rw [Option.map_eq_some_iff] at hskips
      obtain ⟨call, hrun, rfl⟩ := hskips
      exact Or.inl (hfails.resolve_left Bool.false_ne_true call hrun)
  · exact Or.inl (hdecided hskips)

section CallSteps

variable {call : Call ι} {response : List ResponseFrame} {fr : ResponseFrame}

theorem finishCall_session (s : System ι) (call : Call ι) :
    (s.finishCall call).session = s.session ∧ (s.finishCall call).running = none := by
  unfold finishCall
  split <;> exact ⟨rfl, rfl⟩

private theorem settlePortal_session (s : System ι) (call : Call ι) (synced : Bool) :
    (s.settlePortal call synced).session = s.session ∨
    (s.settlePortal call synced).session = none ∨ (s.settlePortal call synced).session = some call.id := by
  unfold settlePortal
  dsimp only
  split
  · exact Or.inr (Or.inr rfl)
  · split
    · rw [local_release.session]
      dsimp only
      split
      · exact Or.inr (Or.inl rfl)
      · exact Or.inl rfl
    · exact Or.inl rfl

private theorem flushHeld_session : (s.flushHeld call).session = s.session := by
  unfold flushHeld
  split <;> rfl

/-- Only a Flush batch opens the session when it returns. -/
theorem flushCall_session (s : System ι) (call : Call ι) :
    ((s.flushCall call).session = s.session ∨ (s.flushCall call).session = none ∨
      (s.flushCall call).session = some call.id ∧ call.kind.mode = .flushBoundary) ∧
    ((s.flushCall call).running = none ∨
      (s.flushCall call).running = some { call with recovering := true } ∧ call.kind.mode = .flushBoundary) := by
  unfold flushCall
  dsimp only
  split
  · rename_i hmode
    split
    · exact ⟨Or.inl flushHeld_session, Or.inr ⟨rfl, hmode⟩⟩
    · refine ⟨?_, Or.inl (finishCall_session _ _).2⟩
      rw [(finishCall_session _ _).1]
      rcases settlePortal_session (s.flushHeld call) call true with h | h | h
      · exact Or.inl (h.trans flushHeld_session)
      · exact Or.inr (Or.inl h)
      · exact Or.inr (Or.inr ⟨h, hmode⟩)
  · refine ⟨Or.inl ?_, Or.inl (finishCall_session _ _).2⟩
    rw [(finishCall_session _ _).1]
    exact flushHeld_session

theorem recoveredCall_session (s : System ι) (call : Call ι) (ok : Bool) :
    ((s.recoveredCall call ok).session = s.session ∨
      (s.recoveredCall call ok).session = none ∨ (s.recoveredCall call ok).session = some call.id) ∧
    (s.recoveredCall call ok).running = none := by
  have hlocal : Local none s (if ok then s else s.destroyDuplex call.id) := by
    split
    · exact .refl s
    · exact local_destroyDuplex
  unfold recoveredCall
  dsimp only
  refine ⟨?_, (finishCall_session _ _).2⟩
  rw [(finishCall_session _ _).1, ← hlocal.session]
  exact settlePortal_session _ call ok

theorem throwCall_session (s : System ι) (call : Call ι) :
    (s.throwCall call).session = s.session ∧ (s.throwCall call).running = none := by
  unfold throwCall
  split
  · exact ⟨rfl, rfl⟩
  · dsimp only
    split
    · exact ⟨rfl, rfl⟩
    · have hlocal : ∀ t : System ι, Local none t (t.destroyDuplex call.id) := fun _ => local_destroyDuplex
      exact ⟨(hlocal _).session, (hlocal _).running⟩
  · exact ⟨rfl, rfl⟩

/-- A frame records the session only if it is a ReadyForQuery. -/
theorem receive_session {f : ResponseFrame} (call : Call ι) (response : List ResponseFrame) :
    (s.receive call response f).session =
      (match f with
        | .readyForQuery status => if status = RFQ_STATUS_IDLE then none else some call.id
        | _ => s.session) ∧
    ∃ held, (s.receive call response f).running = some { call with response, held } := by
  cases f with
  | errorResponse => exact ⟨rfl, _, rfl⟩
  | other => exact ⟨rfl, _, rfl⟩
  | readyForQuery status =>
    have hnoted : (s.noteReadyForQuery call response status).session =
          (if status = RFQ_STATUS_IDLE then none else some call.id) ∧
        (s.noteReadyForQuery call response status).running =
          some { call with response, held := if call.kind.mode.suppresses then some status else none } := by
      unfold noteReadyForQuery
      exact ⟨(local_updateStatus status).session, (local_updateStatus status).running⟩
    rw [receive_readyForQuery]
    split
    · exact ⟨hnoted.1, _, hnoted.2⟩
    · exact ⟨hnoted.1, _, hnoted.2⟩

private theorem startCall_session (s : System ι) (id : ι) (kind : CallKind) (response : List ResponseFrame) :
    (s.startCall id kind response).session = s.session := by
  unfold startCall
  cases kind <;> dsimp only
  · split <;> rfl
  · split <;> rfl
  · rfl

/-- The call that has just been started, if the callback did not return at once. -/
theorem startCall_call (hidle : s.running = none) (id : ι) (kind : CallKind) (response : List ResponseFrame) :
    ∀ call ∈ (s.startCall id kind response).running, call.id = id ∧ call.kind = kind ∧ call.recovering = false ∧
      call.response = (if kind = .rollback then [] else response) := by
  intro call hrun
  unfold startCall at hrun
  cases kind with
  | rollback =>
    cases hrun
    exact ⟨rfl, rfl, rfl, rfl⟩
  | batch mode =>
    dsimp only at hrun
    split at hrun
    · cases hrun
      exact ⟨rfl, rfl, rfl, rfl⟩
    · rw [modify_running, hidle] at hrun
      cases hrun
  | recovery =>
    dsimp only at hrun
    split at hrun
    · cases hrun
      exact ⟨rfl, rfl, rfl, rfl⟩
    · rw [modify_running, hidle] at hrun
      cases hrun

end CallSteps

namespace Closing

variable {call : Call ι} {a : Action ι}

omit [DecidableEq ι] in
/-- What is not open any more when its rollback is settled. -/
private theorem settled_step {skips : Option ι} (h : Closing s) (hr : RollbackStep skips s s')
    (hskips : ∀ id, skips = some id → s.session ≠ some id) (hsession : s'.session = s.session) :
    ∀ id, (s'.duplex id).rollback = .settled → s'.session ≠ some id := by
  intro id hset
  rw [hsession]
  rcases hr.skips id hset with hset | hskip
  · exact h.settled id hset
  · exact hskips id hskip

omit [DecidableEq ι] in
/-- A step that settles no rollback may open the session for a duplex whose rollback is not settled. -/
private theorem settled_kept (h : Closing s) (hr : RollbackStep none s s')
    (hsession : s'.session = s.session ∨ s'.session = none ∨
      ∃ id, s'.session = some id ∧ (s.duplex id).rollback ≠ .settled) :
    ∀ id, (s'.duplex id).rollback = .settled → s'.session ≠ some id := by
  intro id hset hopen
  have hset' : (s.duplex id).rollback = .settled := (hr.skips id hset).resolve_right (by simp)
  rcases hsession with hsame | hnone | ⟨other, hother, hnot⟩
  · rw [hsame] at hopen
    exact h.settled id hset' hopen
  · rw [hnone] at hopen
    cases hopen
  · rw [hother] at hopen
    obtain rfl := Option.some.inj hopen
    exact hnot hset'

omit [DecidableEq ι] in
/-- A batch that runs belongs to a duplex that has not decided. -/
private theorem batch_undecided {mode : RfqMode} (hw : WellScheduled s) (hrun : s.running = some call)
    (hkind : call.kind = .batch mode) : (s.duplex call.id).rollback ≠ .settled := by
  intro hset
  have hdec : (s.duplex call.id).decided = true := by
    rw [Duplex.decided, hset]
    rfl
  have hnone := hw.decided (call.id, call.kind) (by rw [runningOp, hrun]; rfl) hdec
  rw [hkind] at hnone
  cases hnone

omit [DecidableEq ι] in
private theorem of_stopped (hset : ∀ id, (s.duplex id).rollback = .settled → s.session ≠ some id)
    (hrun : s.running = none) : Closing s := by
  refine ⟨hset, ?_, ?_, ?_⟩ <;>
  · intro call hcall
    rw [hrun] at hcall
    cases hcall

/-- After a frame: the rest of a bare Sync's response is that of a bare Sync. -/
private theorem bareSync_receive {response : List ResponseFrame} {fr : ResponseFrame}
    (h : s.BareSync call.id (fr :: response)) : (s.receive call response fr).BareSync call.id response := by
  obtain ⟨hcount, hopens⟩ := h
  have hsession := (receive_session (s := s) (f := fr) call response).1
  rw [List.countP_cons] at hcount
  refine ⟨by omega, fun hrest => ?_⟩
  obtain ⟨fr', hmem, hfr'⟩ := hrest
  have hcons : s.session = some call.id := hopens ⟨fr', List.mem_cons_of_mem _ hmem, hfr'⟩
  cases fr with
  | errorResponse => exact hsession.trans hcons
  | other => exact hsession.trans hcons
  | readyForQuery status =>
    -- no second ReadyForQuery follows
    have hrfq : fr'.isReadyForQuery = true := by
      cases fr' with
      | readyForQuery status' => rfl
      | errorResponse => cases hfr'
      | other => cases hfr'
    have hpos : 0 < response.countP ResponseFrame.isReadyForQuery := List.countP_pos_iff.2 ⟨fr', hmem, hrfq⟩
    simp only [ResponseFrame.isReadyForQuery, if_true] at hcount
    omega

private theorem step (h : Closing s) (hw : WellScheduled s) (htruth : s.Truthful a) (hs : s.step a = some s') :
    Closing s' := by
  have hrecovering : ∀ call ∈ s.running, call.recovering = true → call.kind ≠ .rollback := by
    intro call hrun hrec hkind
    obtain ⟨mode, hmode⟩ := h.recovering call hrun hrec
    rw [hmode] at hkind
    cases hkind
  have hr := step_rollback hw hrecovering hs
  cases hin : a.inPglite with
  | false =>
    have hlocal := step_local hin hs
    refine ⟨?_, ?_, ?_, ?_⟩
    · refine h.settled_step hr (fun id hskip => ?_) hlocal.session
      rcases htruth.skips hskip with hs | rfl
      · exact hs
      · cases hin
    · rw [hlocal.running]
      intro call hrun hkind
      rw [BareSync, hlocal.session]
      exact h.bare call hrun hkind
    · rw [hlocal.running]
      exact h.empty
    · rw [hlocal.running]
      exact h.recovering
  | true =>
    cases a with
    | start response =>
      simp only [System.step] at hs
      split at hs
      · rename_i id kind mutex hidle hmutex
        cases hs
        have hcall := startCall_call (s := { s with mutex }) hidle id kind response
        have hsession := startCall_session (s := { s with mutex }) id kind response
        refine ⟨h.settled_kept hr (Or.inl hsession), ?_, ?_, ?_⟩
        · intro call hrun hkind
          obtain ⟨hid, hk, _, hresp⟩ := hcall call hrun
          have hbare := htruth.2 (id, kind) (by rw [hmutex]; rfl) (hk.symm.trans hkind)
          have hnot : kind ≠ .rollback := by
            simp [← hk, hkind]
          rw [hid, hresp, if_neg hnot, BareSync, hsession]
          exact hbare
        · intro call hrun hkind
          obtain ⟨_, hk, _, hresp⟩ := hcall call hrun
          rw [hresp, ← hk, hkind]
          rfl
        · intro call hrun hrec
          obtain ⟨_, _, hno, _⟩ := hcall call hrun
          rw [hno] at hrec
          cases hrec
      · cases hs
    | frame =>
      simp only [System.step] at hs
      split at hs
      · rename_i call hrun
        split at hs
        · rename_i fr response hresp
          cases hs
          obtain ⟨hsession, held, hrun'⟩ := receive_session (s := s) (f := fr) call response
          refine ⟨h.settled_kept hr ?_, ?_, ?_, ?_⟩
          · cases fr with
            | errorResponse => exact Or.inl hsession
            | other => exact Or.inl hsession
            | readyForQuery status =>
              dsimp only at hsession
              by_cases hidle : status = RFQ_STATUS_IDLE
              · rw [if_pos hidle] at hsession
                exact Or.inr (Or.inl hsession)
              · rw [if_neg hidle] at hsession
                refine Or.inr (Or.inr ⟨call.id, hsession, fun hset => ?_⟩)
                cases hkind : call.kind with
                | batch mode => exact batch_undecided hw hrun hkind hset
                | rollback =>
                  rw [h.empty call hrun hkind] at hresp
                  cases hresp
                | recovery =>
                  -- a transaction the bare Sync tells of was open before
                  refine h.settled call.id hset ((h.bare call hrun hkind).2 ⟨.readyForQuery status, ?_, ?_⟩)
                  · rw [hresp]
                    exact List.mem_cons_self ..
                  · simp [ResponseFrame.opens, hidle]
          · intro call' hcall' hkind
            rw [hrun'] at hcall'
            cases hcall'
            have hbare := h.bare call hrun hkind
            rw [hresp] at hbare
            exact bareSync_receive hbare
          · intro call' hcall' hkind
            rw [hrun'] at hcall'
            cases hcall'
            have hempty := h.empty call hrun hkind
            rw [hresp] at hempty
            cases hempty
          · intro call' hcall' hrec
            rw [hrun'] at hcall'
            cases hcall'
            exact h.recovering call hrun hrec
        · cases hs
      · cases hs
    | flush =>
      simp only [System.step] at hs
      split at hs
      · rename_i call hrun
        split at hs
        · cases hs
        · rename_i hguard
          cases hs
          obtain ⟨hsession, hrun'⟩ := flushCall_session s call
          have hbatch : call.kind.mode = .flushBoundary → ∃ mode, call.kind = .batch mode := by
            intro hmode
            cases hkind : call.kind with
            | batch mode => exact ⟨mode, rfl⟩
            | recovery =>
              rw [hkind] at hmode
              cases hmode
            | rollback =>
              rw [hkind] at hmode
              cases hmode
          have hsettled := h.settled_kept hr (by
            rcases hsession with hsame | hnone | ⟨hopen, hmode⟩
            · exact Or.inl hsame
            · exact Or.inr (Or.inl hnone)
            · obtain ⟨mode, hkind⟩ := hbatch hmode
              exact Or.inr (Or.inr ⟨call.id, hopen, batch_undecided hw hrun hkind⟩))
          rcases hrun' with hrun' | ⟨hrun', hmode⟩
          · exact of_stopped hsettled hrun'
          · obtain ⟨mode, hkind⟩ := hbatch hmode
            refine ⟨hsettled, ?_, ?_, ?_⟩
            · intro call' hcall' hkind'
              rw [hrun'] at hcall'
              cases hcall'
              rw [hkind] at hkind'
              cases hkind'
            · intro call' hcall' hkind'
              rw [hrun'] at hcall'
              cases hcall'
              rw [hkind] at hkind'
              cases hkind'
            · intro call' hcall' _
              rw [hrun'] at hcall'
              cases hcall'
              exact ⟨mode, hkind⟩
      · cases hs
    | recovered ok =>
      simp only [System.step] at hs
      split at hs
      · rename_i call hrun
        split at hs
        · rename_i hrec
          cases hs
          obtain ⟨mode, hkind⟩ := h.recovering call hrun hrec
          obtain ⟨hsession, hrun'⟩ := recoveredCall_session s call ok
          refine of_stopped (h.settled_kept hr ?_) hrun'
          rcases hsession with hsame | hnone | hopen
          · exact Or.inl hsame
          · exact Or.inr (Or.inl hnone)
          · exact Or.inr (Or.inr ⟨call.id, hopen, batch_undecided hw hrun hkind⟩)
        · cases hs
      · cases hs
    | throw =>
      simp only [System.step] at hs
      split at hs
      · rename_i call hrun
        split at hs
        · cases hs
        · cases hs
          obtain ⟨hsession, hrun'⟩ := throwCall_session s call
          refine of_stopped (h.settled_step hr (fun id hskip => ?_) hsession) hrun'
          rcases htruth.skips hskip with hs | hs
          · exact hs
          · cases hs
      · cases hs
    | rolledBack ok =>
      simp only [System.step] at hs
      split at hs
      · rename_i call hrun
        split at hs
        · cases hs
          obtain ⟨hsession, hrun'⟩ := finishCall_session s call
          cases ok with
          | true => exact of_stopped (fun _ _ h => by cases h) hrun'
          | false =>
            refine of_stopped (h.settled_step hr (fun id hskip => ?_) hsession) hrun'
            rcases htruth.skips hskip with hs | hs
            · exact hs
            · cases hs
        · cases hs
      · cases hs
    | _ => cases hin

end Closing

/-! ### Every run -/

omit [DecidableEq ι] in
private theorem closing_initial (locked : Bool) (cap : ι → Nat) : Closing (initial locked cap) :=
  Closing.of_stopped (fun _ hr => by cases hr) rfl

theorem closing {locked : Bool} {cap : ι → Nat} (run : Run step Truthful (initial locked cap) s) :
    Closing s ∧ WellScheduled s := by
  induction run with
  | refl => exact ⟨closing_initial locked cap, wellScheduled_initial locked cap⟩
  | snoc _ htruth hs ih => exact ⟨ih.1.step ih.2 htruth hs, ih.2.step hs⟩

/-- A teardown hands over the session only behind its rollback. -/
theorem handsOver_settled {a : Action ι} (hhand : handsOver a = some id) (hs : s.step a = some s') :
    (s.duplex id).rollback = .settled := by
  cases a with
  | finalRelease other =>
    cases hhand
    simp only [step] at hs
    split at hs
    · rename_i hguard
      exact hguard.2
    · cases hs
  | destroyCancel other =>
    cases hhand
    simp only [step] at hs
    split at hs
    · rename_i hguard
      exact hguard.2
    · cases hs
  | terminateRelease other =>
    cases hhand
    simp only [step] at hs
    split at hs
    · rename_i hguard
      exact hguard.2
    · cases hs
  | _ => cases hhand

/-- When a teardown hands over the session, it is in no transaction or portal of that duplex, and it never is again. -/
theorem teardown_closes {locked : Bool} {cap : ι → Nat} {a : Action ι} {t : System ι}
    (run : Run step Truthful (initial locked cap) s) (hhand : handsOver a = some id) (htruth : s.Truthful a)
    (hs : s.step a = some s') (after : Run step Truthful s' t) : s.session ≠ some id ∧ t.session ≠ some id := by
  obtain ⟨hclosing, _⟩ := closing run
  have hsettled := handsOver_settled hhand hs
  refine ⟨hclosing.settled id hsettled, ?_⟩
  -- a settled rollback stays settled
  have hkept : ∀ u, Run step Truthful s u → (u.duplex id).rollback = .settled := by
    intro u hu
    induction hu with
    | refl => exact hsettled
    | snoc hrun _ hstep ih =>
      obtain ⟨hc, hw⟩ := closing (run.trans hrun)
      have hr := step_rollback hw (fun call hcall hrec hkind => by
        obtain ⟨mode, hmode⟩ := hc.recovering call hcall hrec
        rw [hmode] at hkind
        cases hkind) hstep
      exact hr.keeps id ih
  have hall := (Run.refl.snoc htruth hs).trans after
  exact (closing (run.trans hall)).1.settled id (hkept t hall)

/-! ### Runs -/

/-- A cursor is read once and its stream destroyed while a second client waits. -/
def destroyedCursor : List (Action Bool) :=
  served false startupPacket 1 [.other, readyForQueryIdle] ++
  served false cursorRead 4 [.other, .other, .other, .other] ++
    [.write true startupPacket, .deliver true 1, .process true, .destroy false]

/-- The status is still idle, so the second client gets the session with the first one's portal open. -/
theorem destroyedCursor_open :
    ¬∀ (s s' : System Bool) (a : Action Bool) (id : Bool),
      Run step (fun _ _ => True) (initial true fun _ => MAX_MESSAGE_LENGTH) s → handsOver a = some id →
      s.step a = some s' → s.session ≠ some id := by
  intro h
  obtain ⟨s, run, hopen, hstep⟩ : ∃ s : System Bool,
      Run step (fun _ _ => True) (initial true fun _ => MAX_MESSAGE_LENGTH) s ∧ s.session = some false ∧
        (s.step (.destroyCancel false)).isSome = true :=
    exists_run destroyedCursor (by decide)
  obtain ⟨s', hs⟩ := Option.isSome_iff_exists.1 hstep
  exact h s s' _ false run rfl hs hopen

def beginQuery : Bytes := encodeMessage QUERY [0x42, 0x45, 0x47, 0x49, 0x4e, 0]

/-- A client is destroyed inside an explicit transaction: the ROLLBACK ends it before the hand-over. -/
theorem teardown_closes_transaction : ∃ s : System Bool,
    (s.step (.destroyCancel false)).isSome = true ∧ s.session ≠ some false := by
  obtain ⟨s, run, hstep, htruth⟩ : ∃ s : System Bool,
      Run step Truthful (initial true fun _ => MAX_MESSAGE_LENGTH) s ∧
        (s.step (.destroyCancel false)).isSome = true ∧ s.Truthful (.destroyCancel false) :=
    exists_run (served false startupPacket 1 [.other, readyForQueryIdle] ++
      served false beginQuery 1 [.other, .readyForQuery RFQ_STATUS_IN_TRANSACTION] ++
      [.destroy false, .queryRollback false true, .start [], .rolledBack true]) (by decide)
  obtain ⟨s', hs⟩ := Option.isSome_iff_exists.1 hstep
  exact ⟨s, hstep, (teardown_closes run rfl htruth hs .refl).1⟩

end System

end PgliteBridge
