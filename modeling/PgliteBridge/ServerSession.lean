import PgliteBridge.SessionLock
import PgliteBridge.Wire
import Mathlib.Logic.Function.Basic

/-!
# Sessions of the server

`listen`, `#withSession` and `#doClose` of `PGliteServer` (`pglite-server/index.ts`).  Snapshot calls and the duplexes
of the connected sockets share one session lock, and their statements one PGlite.  An action is what happens between
two awaits; a call whose `acquire` has been resolved stays a listed waiter until its continuation runs (`granted`).  The
timer of a call is a task of its own, so no continuation is pending when it fires.
-/

namespace PgliteBridge.PGliteServer

/-! ### Data -/

/-- `resetDb`, `snapshotDb` or `resetSnapshot`. -/
structure SnapshotCall where
  method : String
  timeoutMs : Int := 5000
deriving DecidableEq, Repr

inductive SessionError
  | listenClosed
  | listenPgliteClosed
  | closed (method : String)
  | closedWhileWaiting
  | pgliteClosed (method : String)
  | openTransactions (method : String) (count : Nat)
  | timedOut (method : String) (timeoutMs : Int)
deriving DecidableEq, Repr

def SessionError.code : SessionError → String
  | listenClosed => "SERVER_CLOSED"
  | listenPgliteClosed => "SERVER_PGLITE_CLOSED"
  | closed _ => "SERVER_CLOSED"
  | closedWhileWaiting => "SERVER_CLOSED"
  | pgliteClosed _ => "SERVER_PGLITE_CLOSED"
  | openTransactions _ _ => "SERVER_NOT_IDLE"
  | timedOut _ _ => "SERVER_NOT_IDLE"

def SessionError.message : SessionError → String
  | listenClosed => "PGliteServer is closed — create a new instance to listen again."
  | listenPgliteClosed => "PGliteServer requires an open PGlite instance; got a closed one."
  | closed method => s!"{method}() was called on a closed PGliteServer."
  | closedWhileWaiting => "PGliteServer closed while waiting for the session."
  | pgliteClosed method => s!"{method}() requires an open PGlite instance; got a closed one."
  | openTransactions method count => s!"{method}() requires no open transaction on any connection; got {count}. " ++
      "Finish the request (COMMIT or ROLLBACK) before calling."
  | timedOut method timeoutMs =>
    s!"{method}() timed out after {timeoutMs}ms waiting for the session; a connection is still busy."

/-- Where a call stands: behind `acquire`, with its `acquire` or its timer settled and its continuation pending, in its
body, behind its body, or refused. -/
inductive CallStage
  | uncalled
  | waiting (call : SnapshotCall)
  | granted (call : SnapshotCall)
  | rejecting (error : SessionError)
  | running (started : Bool)
  | finished
  | rejected (error : SessionError)
deriving DecidableEq, Repr

inductive BatchStage
  | idle
  | acquiring
  | admitted
  | running
deriving DecidableEq, Repr

inductive RollbackStage
  | none
  | queued
  | running
deriving DecidableEq, Repr

/-- A connection and its duplex, as far as the lock and PGlite see it. -/
structure Traffic where
  accepted : Bool := false
  /-- `socket.duplex` is there -/
  bridged : Bool := false
  batch : BatchStage := .idle
  rollback : RollbackStage := .none
  inTransaction : Bool := false
  /-- from `destroy`, `_final` or a Terminate on -/
  leaving : Bool := false
  /-- `_destroy` has given up the claim on the session -/
  cancelled : Bool := false
  /-- `onClose` has resolved -/
  closed : Bool := false
deriving DecidableEq, Repr

/-- `#listening` and node's listener. -/
inductive Listener
  | unbound
  | binding
  | bound
  | closing
  | closed
deriving DecidableEq, Repr

/-- `close()`: not called, before its sweep, waiting for the operations, waiting for the listener and the sockets it has
destroyed, or done. -/
inductive Closing (κ δ : Type)
  | no
  | called
  | swept (ops : List κ)
  | destroying (sockets : List δ)
  | done (sockets : List δ)
deriving DecidableEq, Repr

structure Server (κ δ : Type) where
  lock : SessionLock (κ ⊕ δ) := {}
  call : κ → CallStage := fun _ => .uncalled
  traffic : δ → Traffic := fun _ => {}
  sockets : List δ := []
  sessionWaiters : List κ := []
  sessionOps : List κ := []
  listener : Listener := .unbound
  closing : Closing κ δ := .no
  ownsPglite : Bool := true
  pgliteClosed : Bool := false
  /-- whose statement, batch or ROLLBACK PGlite executes -/
  busy : Option (κ ⊕ δ) := none
  /-- the calls of the statements that PGlite has started -/
  statements : List κ := []

inductive ServerAction (κ δ : Type)
  | listen
  /-- the bind has succeeded, or not -/
  | bind (ok : Bool)
  | withSession (c : κ) (call : SnapshotCall)
  /-- the continuation of `await Promise.race([acquired, expiry])` -/
  | resume (c : κ)
  | expire (c : κ)
  | startStatement (c : κ)
  | finishStatement (c : κ)
  /-- the body has settled -/
  | finishBody (c : κ)
  | untrack (c : κ)
  | close
  /-- `#doClose` behind `await this.#listening` -/
  | sweep
  | destroySockets
  | listenerDown
  | closePglite
  | closeInstance
  | accept (d : δ)
  /-- `#initDuplex` -/
  | bridge (d : δ)
  /-- the `'close'` of a socket -/
  | disconnect (d : δ)
  | acquire (d : δ)
  | startBatch (d : δ)
  | readyForQuery (d : δ) (status : UInt8)
  | finishBatch (d : δ)
  | failBatch (d : δ)
  | leave (d : δ)
  /-- a teardown has read an open transaction, as the owner -/
  | decideRollback (d : δ)
  | startRollback (d : δ)
  | finishRollback (d : δ) (ok : Bool)
  | release (d : δ)
  | cancel (d : δ)
  /-- the `'close'` of a duplex -/
  | closeDuplex (d : δ)
deriving DecidableEq, Repr

namespace Server

variable {κ δ : Type}

section Calls

variable [DecidableEq κ]

def setCall (s : Server κ δ) (c : κ) (stage : CallStage) : Server κ δ :=
  { s with call := Function.update s.call c stage }

@[simp] theorem setCall_lock (s : Server κ δ) (c : κ) (stage : CallStage) : (s.setCall c stage).lock = s.lock := rfl
@[simp] theorem setCall_traffic (s : Server κ δ) (c : κ) (stage : CallStage) :
    (s.setCall c stage).traffic = s.traffic := rfl
@[simp] theorem setCall_sessionWaiters (s : Server κ δ) (c : κ) (stage : CallStage) :
    (s.setCall c stage).sessionWaiters = s.sessionWaiters := rfl
@[simp] theorem setCall_sessionOps (s : Server κ δ) (c : κ) (stage : CallStage) :
    (s.setCall c stage).sessionOps = s.sessionOps := rfl
@[simp] theorem setCall_closing (s : Server κ δ) (c : κ) (stage : CallStage) :
    (s.setCall c stage).closing = s.closing := rfl
@[simp] theorem setCall_busy (s : Server κ δ) (c : κ) (stage : CallStage) : (s.setCall c stage).busy = s.busy := rfl
@[simp] theorem setCall_statements (s : Server κ δ) (c : κ) (stage : CallStage) :
    (s.setCall c stage).statements = s.statements := rfl

theorem setCall_call (s : Server κ δ) (c c' : κ) (stage : CallStage) :
    (s.setCall c stage).call c' = if c' = c then stage else s.call c' :=
  Function.update_apply ..

end Calls

section Traffic

variable [DecidableEq δ]

def setTraffic (s : Server κ δ) (d : δ) (f : Traffic → Traffic) : Server κ δ :=
  { s with traffic := Function.update s.traffic d (f (s.traffic d)) }

@[simp] theorem setTraffic_lock (s : Server κ δ) (d : δ) (f : Traffic → Traffic) :
    (s.setTraffic d f).lock = s.lock := rfl
@[simp] theorem setTraffic_call (s : Server κ δ) (d : δ) (f : Traffic → Traffic) :
    (s.setTraffic d f).call = s.call := rfl
@[simp] theorem setTraffic_sessionWaiters (s : Server κ δ) (d : δ) (f : Traffic → Traffic) :
    (s.setTraffic d f).sessionWaiters = s.sessionWaiters := rfl
@[simp] theorem setTraffic_sessionOps (s : Server κ δ) (d : δ) (f : Traffic → Traffic) :
    (s.setTraffic d f).sessionOps = s.sessionOps := rfl
@[simp] theorem setTraffic_closing (s : Server κ δ) (d : δ) (f : Traffic → Traffic) :
    (s.setTraffic d f).closing = s.closing := rfl
@[simp] theorem setTraffic_busy (s : Server κ δ) (d : δ) (f : Traffic → Traffic) :
    (s.setTraffic d f).busy = s.busy := rfl
@[simp] theorem setTraffic_statements (s : Server κ δ) (d : δ) (f : Traffic → Traffic) :
    (s.setTraffic d f).statements = s.statements := rfl

theorem setTraffic_traffic (s : Server κ δ) (d d' : δ) (f : Traffic → Traffic) :
    (s.setTraffic d f).traffic d' = if d' = d then f (s.traffic d) else s.traffic d' :=
  Function.update_apply ..

end Traffic

variable [DecidableEq κ] [DecidableEq δ]

/-! ### The lock -/

/-- A settled `acquire`; `error` is what a cancelled one is rejected with. -/
def settleOne (error : SessionError) (s : Server κ δ) : Settlement (κ ⊕ δ) → Server κ δ
  | .resolved (.inl c) =>
    match s.call c with
    | .waiting call => s.setCall c (.granted call)
    | _ => s
  | .rejected (.inl c) => s.setCall c (.rejecting error)
  | .resolved (.inr d) => s.setTraffic d fun t => { t with batch := .admitted }
  | .rejected (.inr d) => s.setTraffic d fun t => { t with batch := .idle }

def applyLock (s : Server κ δ) (error : SessionError) (outcome : SessionLock.Outcome (κ ⊕ δ)) : Server κ δ :=
  outcome.settled.foldl (settleOne error) { s with lock := outcome.lock }

/-- An operation that rejects no call. -/
def granting (s : Server κ δ) (outcome : SessionLock.Outcome (κ ⊕ δ)) : Server κ δ :=
  s.applyLock .closedWhileWaiting outcome

/-! ### `listen` -/

/-- The memoized bind is not started twice. -/
def listen (s : Server κ δ) : Except SessionError (Server κ δ) :=
  if s.closing ≠ .no then .error .listenClosed
  else if s.listener ≠ .unbound then .ok s
  else if s.pgliteClosed then .error .listenPgliteClosed
  else .ok { s with listener := .binding }

/-! ### `#withSession` -/

/-- `inTransaction` of a duplex that has last seen this status. -/
def inTransactionStatus (status : UInt8) : Bool := status == RFQ_STATUS_IN_TRANSACTION || status == RFQ_STATUS_FAILED

def openTransactions (s : Server κ δ) : Nat := (s.sockets.filter fun d => (s.traffic d).inTransaction).length

/-- Up to the `await`. -/
def withSession (s : Server κ δ) (c : κ) (call : SnapshotCall) : Server κ δ :=
  if s.closing ≠ .no then s.setCall c (.rejected (.closed call.method))
  else if s.pgliteClosed then s.setCall c (.rejected (.pgliteClosed call.method))
  else if 0 < s.openTransactions then s.setCall c (.rejected (.openTransactions call.method s.openTransactions))
  else
    let s := { s.setCall c (.waiting call) with sessionWaiters := s.sessionWaiters ++ [c] }
    s.granting (s.lock.acquire (.inl c))

/-- From the `finally` to the first `await` of the body. -/
def resume (s : Server κ δ) (c : κ) : Option (Server κ δ) :=
  match s.call c with
  | .granted call =>
    let s := { s with sessionWaiters := s.sessionWaiters.filter (· ≠ c), sessionOps := s.sessionOps ++ [c] }
    some (if 0 < s.openTransactions then
      (s.setCall c (.rejected (.openTransactions call.method s.openTransactions))).granting (s.lock.release (.inl c))
      else s.setCall c (.running false))
  | .rejecting error => some { s.setCall c (.rejected error) with sessionWaiters := s.sessionWaiters.filter (· ≠ c) }
  | _ => none

/-- The timer. -/
def expire (s : Server κ δ) (c : κ) : Option (Server κ δ) :=
  match s.call c with
  | .waiting call =>
    let error := SessionError.timedOut call.method call.timeoutMs
    some ((s.applyLock error (s.lock.cancel (.inl c))).setCall c (.rejecting error))
  | _ => none

def startStatement (s : Server κ δ) (c : κ) : Option (Server κ δ) :=
  match s.call c, s.busy with
  | .running _, none =>
    some { s.setCall c (.running true) with busy := some (.inl c), statements := s.statements ++ [c] }
  | _, _ => none

def finishBody (s : Server κ δ) (c : κ) : Option (Server κ δ) :=
  match s.call c with
  | .running _ =>
    if s.busy = some (.inl c) then none else some ((s.setCall c .finished).granting (s.lock.release (.inl c)))
  | _ => none

/-! ### `#doClose` -/

/-- `for (const id of this.#sessionWaiters) this.#sessionLock.cancel(id, …)`. -/
def cancelWaiters (s : Server κ δ) : Server κ δ :=
  s.sessionWaiters.foldl (fun s c => s.applyLock .closedWhileWaiting (s.lock.cancel (.inl c))) s

def sweep (s : Server κ δ) : Option (Server κ δ) :=
  match s.closing with
  | .called =>
    if s.listener = .binding then none
    else some { s.cancelWaiters with closing := .swept s.cancelWaiters.sessionOps }
  | _ => none

/-- Behind `Promise.allSettled`. -/
def destroySockets (s : Server κ δ) : Option (Server κ δ) :=
  match s.closing with
  | .swept ops =>
    if ops.all fun c => s.call c != .running true && s.call c != .running false then
      some { s with
        closing := .destroying s.sockets
        listener := if s.listener = .bound then .closing else s.listener }
    else none
  | _ => none

/-- Behind `await listenerClosed` and `Promise.all`. -/
def closePglite (s : Server κ δ) : Option (Server κ δ) :=
  match s.closing with
  | .destroying sockets =>
    if s.listener ≠ .closing ∧ sockets.all fun d => !(s.traffic d).bridged || (s.traffic d).closed then
      some { s with closing := .done sockets, pgliteClosed := s.pgliteClosed || s.ownsPglite }
    else none
  | _ => none

/-! ### The connections -/

def accept (s : Server κ δ) (d : δ) : Option (Server κ δ) :=
  if s.listener = .bound ∧ !(s.traffic d).accepted then
    let s := s.setTraffic d fun t => { t with accepted := true }
    some (if s.closing = .no then { s with sockets := s.sockets ++ [d] } else s)
  else none

/-- A destroyed socket has no `'data'` event. -/
def bridge (s : Server κ δ) (d : δ) : Option (Server κ δ) :=
  match s.closing with
  | .destroying _ => none
  | .done _ => none
  | _ =>
    if d ∈ s.sockets ∧ !(s.traffic d).bridged then some (s.setTraffic d fun t => { t with bridged := true }) else none

def disconnect (s : Server κ δ) (d : δ) : Option (Server κ δ) :=
  if d ∈ s.sockets then
    some { s.setTraffic d (fun t => { t with leaving := t.leaving || t.bridged }) with
      sockets := s.sockets.filter (· ≠ d) }
  else none

/-- The callback of `runExclusive`: the batch of a duplex that is torn down is dropped. -/
def startBatch (s : Server κ δ) (d : δ) : Option (Server κ δ) :=
  if (s.traffic d).batch = .admitted ∧ s.busy = none then
    some (if (s.traffic d).leaving then s.setTraffic d fun t => { t with batch := .idle }
      else { s.setTraffic d (fun t => { t with batch := .running }) with busy := some (.inr d) })
  else none

def step (s : Server κ δ) : ServerAction κ δ → Option (Server κ δ)
  | .listen => some ((s.listen).toOption.getD s)
  | .bind ok => if s.listener = .binding then some { s with listener := if ok then .bound else .unbound } else none
  | .withSession c call => if s.call c = .uncalled then some (s.withSession c call) else none
  | .resume c => s.resume c
  | .expire c => s.expire c
  | .startStatement c => s.startStatement c
  | .finishStatement c => if s.busy = some (.inl c) then some { s with busy := none } else none
  | .finishBody c => s.finishBody c
  | .untrack c =>
    if s.call c = .running true ∨ s.call c = .running false then none
    else some { s with sessionOps := s.sessionOps.filter (· ≠ c) }
  | .close => some (if s.closing = .no then { s with closing := .called } else s)
  | .sweep => s.sweep
  | .destroySockets => s.destroySockets
  | .listenerDown =>
    if s.listener = .closing ∧ s.sockets = [] then some { s with listener := .closed } else none
  | .closePglite => s.closePglite
  | .closeInstance => some { s with pgliteClosed := true }
  | .accept d => s.accept d
  | .bridge d => s.bridge d
  | .disconnect d => s.disconnect d
  | .acquire d =>
    if (s.traffic d).bridged ∧ (s.traffic d).batch = .idle ∧ !(s.traffic d).leaving then
      some ((s.setTraffic d fun t => { t with batch := .acquiring }).granting (s.lock.acquire (.inr d)))
    else none
  | .startBatch d => s.startBatch d
  | .readyForQuery d status =>
    if (s.traffic d).batch = .running then
      some ((s.setTraffic d fun t => { t with inTransaction := inTransactionStatus status }).granting
        (s.lock.updateStatus (.inr d) status))
    else none
  | .finishBatch d =>
    if (s.traffic d).batch = .running then
      some { s.setTraffic d (fun t => { t with batch := .idle }) with busy := none }
    else none
  | .failBatch d =>
    match (s.traffic d).batch with
    | .admitted => some (s.setTraffic d fun t => { t with batch := .idle, leaving := true })
    | .running => some { s.setTraffic d (fun t => { t with batch := .idle, leaving := true }) with busy := none }
    | _ => none
  | .leave d => if (s.traffic d).bridged then some (s.setTraffic d fun t => { t with leaving := true }) else none
  | .decideRollback d =>
    if (s.traffic d).leaving ∧ (s.traffic d).batch ≠ .running ∧ (s.traffic d).rollback = .none ∧
        s.lock.isOwner (.inr d) then
      some (s.setTraffic d fun t => { t with rollback := .queued })
    else none
  | .startRollback d =>
    if (s.traffic d).rollback = .queued ∧ s.busy = none then
      some { s.setTraffic d (fun t => { t with rollback := .running }) with busy := some (.inr d) }
    else none
  | .finishRollback d ok =>
    if (s.traffic d).rollback = .running then
      some { s.setTraffic d (fun t => { t with rollback := .none, inTransaction := t.inTransaction && !ok }) with
        busy := none }
    else none
  | .release d =>
    if (s.traffic d).leaving ∧ (s.traffic d).batch = .idle ∧ (s.traffic d).rollback = .none then
      some (s.granting (s.lock.release (.inr d)))
    else none
  | .cancel d =>
    if (s.traffic d).leaving ∧ (s.traffic d).batch ≠ .running ∧ (s.traffic d).rollback = .none then
      some ((s.setTraffic d fun t => { t with cancelled := true }).granting (s.lock.cancel (.inr d)))
    else none
  | .closeDuplex d =>
    if (s.traffic d).cancelled then some (s.setTraffic d fun t => { t with closed := true }) else none

end Server

end PgliteBridge.PGliteServer
