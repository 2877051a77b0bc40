import PgliteBridge.Duplex
import Mathlib.Logic.Function.Basic

/-!
# The duplexes of one PGlite

Any number of duplexes, the lock they share, and PGlite with its `runExclusive` queue.  An action is what happens
between two awaits: a write, a turn of a drain loop, a step of a protocol call, a release, a step of a teardown.
`session` records whose transaction or suspended portal the one PostgreSQL session is in, as the ReadyForQuery bytes
and the batches tell.
-/

namespace PgliteBridge

/-- What runs under `runExclusive`. -/
inductive CallKind
  | batch (mode : RfqMode)
  | recovery
  | rollback
deriving DecidableEq, Repr

def CallKind.mode : CallKind → RfqMode
  | batch mode => mode
  | _ => .passthrough

/-- The call that PGlite is executing: the response still to come, the ReadyForQuery withheld by the framer, and
whether it is in `recoverySync`. -/
structure Call (ι : Type) where
  id : ι
  kind : CallKind
  response : List ResponseFrame := []
  held : Option UInt8 := none
  recovering : Bool := false
deriving DecidableEq, Repr

structure System (ι : Type) where
  duplex : ι → Duplex
  lock : Option (SessionLock ι)
  mutex : List (ι × CallKind) := []
  running : Option (Call ι) := none
  session : Option ι := none

inductive Action (ι : Type)
  /-- the client writes to the stream -/
  | write (d : ι) (chunk : Bytes)
  /-- the stream hands `count` chunks to `_write` or `_writev` -/
  | deliver (d : ι) (count : Nat)
  /-- the drain loop goes on -/
  | process (d : ι)
  /-- the end of a drain's `finally` -/
  | tail (d : ι)
  | pgliteReady (d : ι)
  | pgliteNotReady (d : ι)
  | recoveryReady (d : ι)
  | recoveryNotReady (d : ι)
  /-- `pglite.query('ROLLBACK')` reaches `runExclusive`, or rejects before -/
  | queryRollback (d : ι) (ok : Bool)
  /-- the first callback in the queue of `runExclusive` is called; `response` is what PGlite will answer -/
  | start (response : List ResponseFrame)
  | frame
  | flush
  | recovered (ok : Bool)
  | throw
  | rolledBack (ok : Bool)
  | releaseAbandonedPortalHold (d : ι)
  | final (d : ι)
  | destroy (d : ι)
  /-- `runRollback` after the awaited call -/
  | decide (d : ι)
  | finalRelease (d : ι)
  | destroyCancel (d : ι)
  | terminateRelease (d : ι)
deriving DecidableEq, Repr

namespace System

variable {ι : Type} [DecidableEq ι]

def initial (locked : Bool) (cap : ι → Nat) : System ι where
  duplex id := { copyAggregateCapBytes := cap id }
  lock := if locked then some {} else none

def modify (s : System ι) (id : ι) (f : Duplex → Duplex) : System ι :=
  { s with duplex := Function.update s.duplex id (f (s.duplex id)) }

/-! ### The lock -/

/-- A settled `acquire` lets the operation that awaits it go on. -/
def settleOne (s : System ι) : Settlement ι → System ι
  | .resolved id => s.modify id fun d =>
    match d.drain with
    | .busy op => { d with drain := .busy { op with stage := .admitted } }
    | _ => d
  | .rejected id => s.modify id fun d => { d with drain := .failing }

def applyLock (s : System ι) (outcome : SessionLock.Outcome ι) : System ι :=
  outcome.settled.foldl settleOne { s with lock := some outcome.lock }

/-- `sessionLock === undefined || sessionLock.isOwner(id)`. -/
def mayUse (s : System ι) (id : ι) : Bool :=
  match s.lock with
  | some l => l.isOwner id
  | none => true

def release (s : System ι) (id : ι) : System ι :=
  match s.lock with
  | some l => s.applyLock (l.release id)
  | none => s

def cancel (s : System ι) (id : ι) : System ι :=
  match s.lock with
  | some l => s.applyLock (l.cancel id)
  | none => s

def updateStatus (s : System ι) (id : ι) (status : UInt8) : System ι :=
  match s.lock with
  | some l => if (s.duplex id).phase = .terminated then s else s.applyLock (l.updateStatus id status)
  | none => s

/-- `acquireSession` for a batch of the drain loop. -/
def acquireSession (s : System ι) (id : ι) (batch : Bytes) (mode : RfqMode) : System ι :=
  let s := s.modify id fun d => { d with drain := .busy { batch, mode, stage := .acquiring } }
  match s.lock with
  | some l => s.applyLock (l.acquire id)
  | none => s.settleOne (.resolved id)

/-! ### Teardown -/

/-- Whether the call PGlite executes is `currentPGliteCall` of the duplex. -/
def inCall (s : System ι) (id : ι) : Bool :=
  s.running.any fun call => decide (call.id = id) && decide (call.kind ≠ .rollback)

/-- `runRollback` behind its first `await`. -/
def decideRollback (s : System ι) (id : ι) : System ι :=
  s.modify id fun d => { d with rollback := if d.inTransaction && s.mayUse id then .querying else .settled }

def rollbackIfInTransaction (s : System ι) (id : ι) : System ι :=
  if (s.duplex id).rollback = .notStarted then
    if s.inCall id then s.modify id fun d => { d with rollback := .awaitingCall }
    else s.decideRollback id
  else s

/-- The synchronous part of `_destroy`; the stream drops what it had buffered. -/
def tearDown (d : Duplex) : Duplex :=
  { d with
    tornDown := true
    pipeline := []
    copyCapture := none
    input := []
    writable := []
    destroyWaits := true }

/-- `destroy()`, up to the first `await` of `_destroy`. -/
def destroyDuplex (s : System ι) (id : ι) : System ι :=
  if (s.duplex id).tornDown then s else (s.modify id tearDown).rollbackIfInTransaction id

/-! ### The drain loop -/

def processNext (s : System ι) (id : ι) (d : Duplex) : Duplex.Next → System ι
  | .again => s.modify id fun _ => d
  | .run batch mode => (s.modify id fun _ => d).acquireSession id batch mode
  | .terminate => (s.modify id fun _ => { d with drain := .terminating }).rollbackIfInTransaction id
  | .throw _ => s.modify id fun _ => { d with drain := .failing }

/-- A message that was taken from the input. -/
def processTaken (s : System ι) (id : ι) (message rest : Bytes) : System ι :=
  let d := { s.duplex id with input := rest }
  if d.phase = .preStartup then s.processNext id d (.run message .passthrough)
  else s.processNext id (d.processMessage message).1 (d.processMessage message).2

def process (s : System ι) (id : ι) : Option (System ι) :=
  match (s.duplex id).drain with
  | .active =>
    match (s.duplex id).nextMessage with
    | .incomplete => some (s.modify id fun d => { d with drain := .idle, tails := d.tails + 1 })
    | .malformed _ => some (s.modify id fun d => { d with drain := .failing })
    | .message message rest => some (s.processTaken id message rest)
  | .failing =>
    some ((s.modify id fun d =>
      { d with drain := .idle, tails := d.tails + 1, portalRecoveryRequested := false }).destroyDuplex id)
  | _ => none

/-! ### The abandoned portal -/

def deliverRecoverySync (s : System ι) (id : ι) : System ι :=
  if (s.duplex id).phase = .terminated ∨ (s.duplex id).recovery.isSome then s
  else if s.mayUse id then s.modify id fun d => { d with recovery := some .admitted }
  else s.modify id fun d => { d with portalSuspended := false }

def releasePortal (s : System ι) (id : ι) : System ι :=
  if (s.duplex id).phase = .terminated then s
  else if (s.duplex id).portalSuspended then s.deliverRecoverySync id
  else if (s.duplex id).draining ∨ (s.duplex id).input ≠ [] then
    s.modify id fun d => { d with portalRecoveryRequested := true }
  else s

/-- The judgment at the end of a drain's `finally`. -/
def judgePortal (s : System ι) (id : ι) : System ι :=
  if (s.duplex id).portalRecoveryRequested ∧ !(s.duplex id).draining then
    let s := s.modify id fun d => { d with portalRecoveryRequested := false }
    if (s.duplex id).portalSuspended then s.deliverRecoverySync id else s
  else s

/-! ### Protocol calls -/

/-- The operation of the drain loop is over. -/
def batchDone (d : Duplex) : Duplex :=
  { d with drain := .active, phase := if d.phase = .preStartup then .ready else d.phase }

/-- `currentPGliteCall = undefined`. -/
def callDone (d : Duplex) : Duplex :=
  { d with rollback := if d.rollback = .awaitingCall then .deciding else d.rollback }

/-- The callback that was called: it starts its operation, or returns at once after a teardown. -/
def startCall (s : System ι) (id : ι) (kind : CallKind) (response : List ResponseFrame) : System ι :=
  match kind with
  | .rollback =>
    { s.modify id (fun d => { d with rollback := .running }) with running := some { id, kind } }
  | .batch _ =>
    if (s.duplex id).live then { s.modify id Duplex.startCall with running := some { id, kind, response } }
    else s.modify id batchDone
  | .recovery =>
    if (s.duplex id).live then
      { s.modify id (fun d => { d.startCall with recovery := some .running }) with
        running := some { id, kind, response } }
    else s.modify id fun d => { d with recovery := none }

/-- The next message of the response. -/
def receive (s : System ι) (call : Call ι) (response : List ResponseFrame) (fr : ResponseFrame) : System ι :=
  let suppressed := call.kind.mode.suppresses
  match fr with
  | .errorResponse =>
    { s.modify call.id (fun d => d.onErrorResponse.onChunk fr) with
      running := some { call with response, held := none } }
  | .readyForQuery status =>
    let s := { s.modify call.id (fun d => d.onReadyForQuery status) with
      running := some { call with response, held := if suppressed then some status else none }
      session := if status = RFQ_STATUS_IDLE then none else some call.id }.updateStatus call.id status
    if suppressed then s else s.modify call.id fun d => d.onChunk fr
  | .other =>
    { s.modify call.id (fun d => d.onChunk fr) with running := some { call with response, held := none } }

/-- A call returns: `runExclusive` is free again. -/
def finishCall (s : System ι) (call : Call ι) : System ι :=
  let s := { s with running := none }
  match call.kind with
  | .batch _ => s.modify call.id fun d => callDone (batchDone d)
  | .recovery => s.modify call.id fun d => callDone { d with recovery := none }
  | .rollback => s.modify call.id fun d => { d with rollback := .settled }

/-- A clean flush-boundary batch leaves the portal suspended; an errored one dooms it. -/
def settlePortal (s : System ι) (call : Call ι) (synced : Bool) : System ι :=
  let d := s.duplex call.id
  if !d.errSeen then { s.modify call.id (fun d => { d with portalSuspended := true }) with session := some call.id }
  else
    let s := s.modify call.id fun d => { d with portalSuspended := false }
    if !d.rfqSeenInCall && !d.inTransaction then
      { s with session := if synced ∧ s.session = some call.id then none else s.session }.release call.id
    else s

/-- The framer's `flush`: the withheld ReadyForQuery is emitted or dropped. -/
def flushHeld (s : System ι) (call : Call ι) : System ι :=
  match call.held with
  | some status =>
    s.modify call.id fun d =>
      if d.tornDown || (call.kind.mode == .flushBoundary && !d.errSeen) then d else d.onChunk (.readyForQuery status)
  | none => s

/-- The response is complete. -/
def flushCall (s : System ι) (call : Call ι) : System ι :=
  let s := s.flushHeld call
  if call.kind.mode = .flushBoundary then
    if (s.duplex call.id).errSeen then { s with running := some { call with recovering := true } }
    else (s.settlePortal call true).finishCall call
  else s.finishCall call

/-- After `recoverySync`. -/
def recoveredCall (s : System ι) (call : Call ι) (ok : Bool) : System ι :=
  let s := if ok then s else s.destroyDuplex call.id
  (s.settlePortal call ok).finishCall call

/-- The operation threw. -/
def throwCall (s : System ι) (call : Call ι) : System ι :=
  let s := { s with running := none }
  match call.kind with
  | .batch _ => s.modify call.id fun d => callDone { d with drain := .failing }
  | .recovery =>
    let s := s.modify call.id fun d => callDone { d with recovery := none }
    if (s.duplex call.id).phase = .terminated then s else s.destroyDuplex call.id
  | .rollback => s.modify call.id fun d => { d with rollback := .settled }

/-! ### Steps -/

/-- A batch of the drain loop that has been admitted, once PGlite is ready or has failed. -/
def admitted (s : System ι) (id : ι) : Option Op :=
  match (s.duplex id).drain with
  | .busy op => if op.stage = .admitted then some op else none
  | _ => none

def step (s : System ι) : Action ι → Option (System ι)
  | .write id chunk =>
    if (s.duplex id).tornDown ∨ (s.duplex id).ended then none
    else some (s.modify id fun d => { d with writable := d.writable ++ [chunk] })
  | .deliver id count =>
    if (s.duplex id).tornDown ∨ (s.duplex id).drain ≠ .idle ∨ count = 0 ∨
      (s.duplex id).writable.length < count then none
    else if (s.duplex id).phase = .terminated then
      some (s.modify id fun d => { d with writable := d.writable.drop count })
    else
      some (s.modify id fun d =>
        { d with
          writable := d.writable.drop count
          input := d.input ++ (d.writable.take count).flatten
          drain := .active })
  | .process id => s.process id
  | .tail id =>
    if (s.duplex id).tails = 0 then none
    else some ((s.modify id fun d => { d with tails := d.tails - 1 }).judgePortal id)
  | .pgliteReady id =>
    match s.admitted id with
    | some op =>
      some { s.modify id (fun d => { d with drain := .busy { op with stage := .queued } }) with
        mutex := s.mutex ++ [(id, .batch op.mode)] }
    | none => none
  | .pgliteNotReady id =>
    match s.admitted id with
    | some _ => some (s.modify id fun d => { d with drain := .failing })
    | none => none
  | .recoveryReady id =>
    if (s.duplex id).recovery = some .admitted then
      some { s.modify id (fun d => { d with recovery := some .queued }) with mutex := s.mutex ++ [(id, .recovery)] }
    else none
  | .recoveryNotReady id =>
    if (s.duplex id).recovery = some .admitted then
      let s := s.modify id fun d => { d with recovery := none }
      some (if (s.duplex id).phase = .terminated then s else s.destroyDuplex id)
    else none
  | .queryRollback id ok =>
    if (s.duplex id).rollback = .querying then
      some (if ok then
        { s.modify id (fun d => { d with rollback := .queued }) with mutex := s.mutex ++ [(id, .rollback)] }
        else s.modify id fun d => { d with rollback := .settled })
    else none
  | .start response =>
    match s.running, s.mutex with
    | none, (id, kind) :: mutex => some ({ s with mutex }.startCall id kind response)
    | _, _ => none
  | .frame =>
    match s.running with
    | some call =>
      match call.response with
      | fr :: response => some (s.receive call response fr)
      | [] => none
    | none => none
  | .flush =>
    match s.running with
    | some call =>
      if call.kind = .rollback ∨ call.recovering ∨ call.response ≠ [] then none else some (s.flushCall call)
    | none => none
  | .recovered ok =>
    match s.running with
    | some call => if call.recovering then some (s.recoveredCall call ok) else none
    | none => none
  | .throw =>
    match s.running with
    | some call => if call.kind = .rollback ∨ call.recovering then none else some (s.throwCall call)
    | none => none
  | .rolledBack ok =>
    match s.running with
    | some call =>
      if call.kind = .rollback then
        let s := s.finishCall call
        some (if ok then
          { s.modify call.id (fun d => { d with lastSeenRfqStatus := some RFQ_STATUS_IDLE }) with session := none }
          else s)
      else none
    | none => none
  | .releaseAbandonedPortalHold id => some (s.releasePortal id)
  | .final id =>
    if (s.duplex id).ended ∨ (s.duplex id).tornDown ∨ (s.duplex id).drain ≠ .idle ∨
      (s.duplex id).writable ≠ [] then none
    else some ((s.modify id fun d => { d with ended := true, finalWaits := true }).rollbackIfInTransaction id)
  | .destroy id => if (s.duplex id).tornDown then none else some (s.destroyDuplex id)
  | .decide id => if (s.duplex id).rollback = .deciding then some (s.decideRollback id) else none
  | .finalRelease id =>
    if (s.duplex id).finalWaits ∧ (s.duplex id).rollback = .settled then
      let s := s.modify id fun d => { d with finalWaits := false }
      some (if (s.duplex id).phase = .terminated then s else (s.release id).modify id fun d => d.push .eof)
    else none
  | .destroyCancel id =>
    if (s.duplex id).destroyWaits ∧ (s.duplex id).rollback = .settled then
      some ((s.modify id fun d => { d with destroyWaits := false }).cancel id)
    else none
  | .terminateRelease id =>
    if (s.duplex id).drain = .terminating ∧ (s.duplex id).rollback = .settled then
      some (((s.modify id fun d => { d with drain := .active }).release id).modify id fun d => d.push .eof)
    else none

/-! ### The state after an update -/

section Update

variable {s : System ι} {id : ι} {f : Duplex → Duplex}

def owner (s : System ι) : Option ι := s.lock.bind SessionLock.owner

omit [DecidableEq ι] in
theorem owner_of_lock {l : SessionLock ι} (hl : s.lock = some l) : s.owner = l.owner := by
  rw [owner, hl]
  rfl

@[simp] theorem modify_same : (s.modify id f).duplex id = f (s.duplex id) := Function.update_self ..

@[simp] theorem modify_other {other : ι} (h : other ≠ id) : (s.modify id f).duplex other = s.duplex other :=
  Function.update_of_ne h ..

@[simp] theorem modify_lock : (s.modify id f).lock = s.lock := rfl
@[simp] theorem modify_mutex : (s.modify id f).mutex = s.mutex := rfl
@[simp] theorem modify_running : (s.modify id f).running = s.running := rfl
@[simp] theorem modify_session : (s.modify id f).session = s.session := rfl
@[simp] theorem modify_owner : (s.modify id f).owner = s.owner := rfl

theorem settleOne_owner (settlement : Settlement ι) : (s.settleOne settlement).owner = s.owner := by
  cases settlement <;> rfl

/-- The running call and the session after a step of it. -/
def setCall (s : System ι) (call : Call ι) (session : Option ι) : System ι := { s with running := some call, session }

theorem receive_errorResponse {call : Call ι} {response : List ResponseFrame} :
    s.receive call response .errorResponse =
      (s.modify call.id fun d => d.onErrorResponse.onChunk .errorResponse).setCall
        { call with response, held := none } s.session := rfl

theorem receive_other {call : Call ι} {response : List ResponseFrame} :
    s.receive call response .other =
      (s.modify call.id fun d => d.onChunk .other).setCall { call with response, held := none } s.session := rfl

/-- The frame is recorded, and its status goes to the lock. -/
def noteReadyForQuery (s : System ι) (call : Call ι) (response : List ResponseFrame) (status : UInt8) : System ι :=
  ((s.modify call.id fun d => d.onReadyForQuery status).setCall
    { call with response, held := if call.kind.mode.suppresses then some status else none }
    (if status = RFQ_STATUS_IDLE then none else some call.id)).updateStatus call.id status

theorem receive_readyForQuery {call : Call ι} {response : List ResponseFrame} {status : UInt8} :
    s.receive call response (.readyForQuery status) =
      if call.kind.mode.suppresses then s.noteReadyForQuery call response status
      else (s.noteReadyForQuery call response status).modify call.id fun d => d.onChunk (.readyForQuery status) := rfl

end Update

end System

end PgliteBridge
