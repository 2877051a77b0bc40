import PgliteBridge.EventLoop
import PgliteBridge.TransitionSystem

/-!
# The submission chain of a client

`PgBridgeClient.query` hands queries to pg's own `query` in call order: an ordinary query runs behind the promise in
`querySubmissionChain` and leaves its own tail there, a Submittable only waits for that promise.  An action is a call
made by running JavaScript, the return of a function that hooks run under, a completion, or a microtask.  Queries are
numbered in the order of the calls, cleanup links among them; whatever runs on the stack may call `query`.
-/

namespace PgliteBridge

/-- The promises that a call creates, by the number of the call. -/
inductive PromiseId
  /-- what pg's own `query` returns -/
  | result (q : Nat)
  /-- `rawQueryPromise`, where it is not pg's -/
  | raw (q : Nat)
  /-- `executionPromise` behind an eviction -/
  | execution (q : Nat)
  /-- the race of a query against its timeout -/
  | race (q : Nat)
  /-- the settled ROLLBACK of a cleanup link -/
  | rollback (q : Nat)
  | reservation (q : Nat)
  /-- `reservationTail` and `chainTail` -/
  | tail (q : Nat)
  /-- what a `then` of the program returns -/
  | reaction (n : Nat)
deriving DecidableEq, Repr

/-- The reactions. -/
inductive Handler
  | execute (q : Nat)
  | admitSubmittable (q : Nat)
  | cleanup (q : Nat)
  /-- the job that follows a promise returned by a reaction -/
  | adopt (p : PromiseId) (q : Nat)
  | forward (q : Nat)
  | evict (q : Nat)
  | clearTimer (q : Nat)
  | settleRace (q : Nat)
  | rolledBack (q : Nat)
  | resolveReservation (q : Nat)
  | releaseTail (q : Nat)
  /-- a reaction of the program -/
  | resume (n : Nat)
deriving DecidableEq, Repr

/-- An ordinary query: `query_timeout` of the owned config if there is one, whether its text is a DEALLOCATE or DISCARD
ALL, and whether it was called in the callback form. -/
structure OrdinaryQuery where
  queryTimeout : Option Nat := none
  dealloc : Bool := false
  callback : Bool := false
deriving DecidableEq, Repr

inductive Link
  | ordinary (query : OrdinaryQuery)
  | submittable
  | cleanup
deriving DecidableEq, Repr

def Link.isQuery : Link → Bool
  | .cleanup => false
  | _ => true

/-- What is running on the stack. -/
inductive Frame
  /-- the main program, an event handler, a timer or a tick -/
  | event
  /-- a reaction of the program -/
  | resume (n : Nat)
  /-- `admit` -/
  | admission (q : Nat)
  /-- `execute` called by `query`, with the timeouts it will restore -/
  | submission (q : Nat) (query : OrdinaryQuery) (saved : Option (Option Nat × Nat))
  /-- `execute` called as a reaction -/
  | execution (q : Nat) (saved : Option (Option Nat × Nat))
deriving DecidableEq, Repr

structure PgBridgeClient where
  loop : EventLoop PromiseId Handler Bool := {}
  stack : List Frame := []
  querySubmissionChain : Option PromiseId := none
  /-- `connectionParameters.query_timeout` -/
  connectionTimeout : Nat := 0
  suppressedConnectionQueryTimeout : Option Nat := none
  /-- `query_timeout` of the owned configs -/
  configTimeout : Nat → Option Nat := fun _ => none
  /-- the calls of `query` and `#chainRollbackCleanup` -/
  links : List Link := []
  /-- the submissions that pg's own `query` received -/
  received : List Nat := []
  /-- the queries whose timeout fired before their turn -/
  expired : List Nat := []
  /-- the cleanup links that submitted a ROLLBACK -/
  rollbacks : List Nat := []
  timed : Nat → Bool := fun _ => false
  armed : Nat → Bool := fun _ => false
  fired : Nat → Bool := fun _ => false
  /-- the promises that `query` returned to the program -/
  returned : Nat → Option PromiseId := fun _ => none
  continuations : Nat := 0
  /-- the duplex is not destroyed and in a transaction -/
  inTransaction : Bool := false

inductive ClientAction
  | event
  /-- the function on top of the stack returns, or throws -/
  | leave (ok : Bool)
  | query (link : Link)
  | chainRollbackCleanup
  /-- `then` on the promise of a query, or of an earlier `then` -/
  | thenQuery (q : Nat)
  | thenReaction (n : Nat)
  /-- pg settles the promise of a query -/
  | complete (q : Nat) (ok : Bool)
  | fire (q : Nat)
  | setTransaction (inTransaction : Bool)
  | job
deriving DecidableEq, Repr

namespace PgBridgeClient

def initial (connectionTimeout : Nat) : PgBridgeClient := { connectionTimeout }

/-- `a || b` on timeouts, where 0 and `undefined` are falsy. -/
def orTimeout (a b : Nat) : Nat := if a = 0 then b else a

def effectiveQueryTimeout (c : PgBridgeClient) (query : OrdinaryQuery) : Nat :=
  orTimeout (query.queryTimeout.getD 0)
    (orTimeout c.connectionTimeout (c.suppressedConnectionQueryTimeout.getD 0))

/-- `execute` up to the call of pg's own `query`: the timeouts to restore, and the client without pg's timers. -/
def execute (c : PgBridgeClient) (q : Nat) : Option (Option Nat × Nat) × PgBridgeClient :=
  if c.timed q then
    (some (c.configTimeout q, c.connectionTimeout),
      { c with
        configTimeout := Function.update c.configTimeout q ((c.configTimeout q).map fun _ => 0)
        suppressedConnectionQueryTimeout := some c.connectionTimeout
        connectionTimeout := 0
        received := c.received ++ [q] })
  else (none, { c with received := c.received ++ [q] })

/-- The `finally` of `execute`. -/
def restore (c : PgBridgeClient) (q : Nat) : Option (Option Nat × Nat) → PgBridgeClient
  | none => c
  | some (perQueryTimeout, connectionTimeout) =>
    { c with
      configTimeout := Function.update c.configTimeout q perQueryTimeout
      suppressedConnectionQueryTimeout := none
      connectionTimeout := connectionTimeout }

def executionPromise (query : OrdinaryQuery) (raw : PromiseId) (q : Nat) : PromiseId :=
  if query.dealloc then .execution q else raw

/-- The reactions of `query` itself on the promises of an ordinary query. -/
def observe (c : PgBridgeClient) (q : Nat) (query : OrdinaryQuery) (raw : PromiseId) : PgBridgeClient :=
  let loop := if query.dealloc then c.loop.react raw (.evict q) else c.loop
  let execution := executionPromise query raw q
  if c.timed q then { c with loop := (loop.react execution (.clearTimer q)).react execution (.settleRace q) }
  else { c with loop }

/-- `query` returns `publicPromise`, or calls the callback behind it. -/
def returnPromise (c : PgBridgeClient) (q : Nat) (query : OrdinaryQuery) (raw : PromiseId) : PgBridgeClient :=
  let publicPromise := if c.timed q then .race q else executionPromise query raw q
  if query.callback then
    { c with loop := c.loop.react publicPromise (.resume c.continuations), continuations := c.continuations + 1 }
  else { c with returned := Function.update c.returned q (some publicPromise) }

/-- The rest of `query` behind `prior`. -/
def chain (c : PgBridgeClient) (q : Nat) (query : OrdinaryQuery) (prior : PromiseId) : PgBridgeClient :=
  let c := { c with loop := c.loop.react prior (.execute q) }
  let c := c.observe q query (.raw q)
  let c := { c with
    loop := c.loop.react (executionPromise query (.raw q) q) (.releaseTail q)
    querySubmissionChain := some (.tail q) }
  c.returnPromise q query (.raw q)

/-- The rest of `query` after its own `execute`. -/
def submitted (c : PgBridgeClient) (q : Nat) (query : OrdinaryQuery) (ok : Bool) : PgBridgeClient :=
  let raw := if ok then PromiseId.result q else .raw q
  let c := if ok then c else { c with loop := c.loop.settle (.raw q) false }
  let c := c.observe q query raw
  let c := { c with loop := c.loop.react (executionPromise query raw q) (.resolveReservation q) }
  c.returnPromise q query raw

def query (c : PgBridgeClient) (link : Link) : PgBridgeClient :=
  let q := c.links.length
  let c := { c with links := c.links ++ [link] }
  match link with
  | .submittable =>
    match c.querySubmissionChain with
    | none => { c with received := c.received ++ [q], stack := .admission q :: c.stack }
    | some prior => { c with loop := c.loop.react prior (.admitSubmittable q) }
  | .ordinary query =>
    let timed := c.effectiveQueryTimeout query != 0
    let c := { c with
      configTimeout := Function.update c.configTimeout q query.queryTimeout
      timed := Function.update c.timed q timed
      armed := Function.update c.armed q timed }
    match c.querySubmissionChain with
    | none =>
      let c := { c with
        loop := c.loop.react (.reservation q) (.releaseTail q)
        querySubmissionChain := some (.tail q) }
      let (saved, c) := c.execute q
      { c with stack := .submission q query saved :: c.stack }
    | some prior => c.chain q query prior
  | .cleanup => c

def chainRollbackCleanup (c : PgBridgeClient) : PgBridgeClient :=
  let q := c.links.length
  let loop := match c.querySubmissionChain with
    | none => c.loop.enqueue (.cleanup q) true
    | some prior => c.loop.react prior (.cleanup q)
  { c with
    links := c.links ++ [.cleanup]
    loop := loop.react (.raw q) (.releaseTail q)
    querySubmissionChain := some (.tail q) }

/-- A promise of the program's own, settled by its reaction to `p`. -/
def follow (c : PgBridgeClient) (p : PromiseId) : PgBridgeClient :=
  { c with loop := c.loop.react p (.resume c.continuations), continuations := c.continuations + 1 }

def runJob (c : PgBridgeClient) (ok : Bool) : Handler → PgBridgeClient
  | .execute q =>
    if c.fired q then
      -- the promise returned is `Promise.reject(timeout.error)`
      { c with
        expired := c.expired ++ [q]
        loop := (c.loop.settle (.result q) false).enqueue (.adopt (.result q) q) true }
    else
      let (saved, c) := c.execute q
      { c with stack := .execution q saved :: c.stack }
  | .admitSubmittable q => { c with received := c.received ++ [q], stack := .admission q :: c.stack }
  | .cleanup q =>
    let c := if c.inTransaction then
        { c with rollbacks := c.rollbacks ++ [q], loop := c.loop.react (.result q) (.rolledBack q) }
      else { c with loop := c.loop.settle (.rollback q) true }
    { c with loop := c.loop.enqueue (.adopt (.rollback q) q) true }
  | .adopt p q => { c with loop := c.loop.react p (.forward q) }
  | .forward q => { c with loop := c.loop.settle (.raw q) ok }
  | .evict q => { c with loop := c.loop.settle (.execution q) ok }
  | .clearTimer q => { c with armed := Function.update c.armed q false }
  | .settleRace q => { c with loop := c.loop.settle (.race q) ok }
  | .rolledBack q => { c with loop := c.loop.settle (.rollback q) true }
  | .resolveReservation q => { c with loop := c.loop.settle (.reservation q) true }
  | .releaseTail q =>
    { c with
      querySubmissionChain := if c.querySubmissionChain = some (.tail q) then none else c.querySubmissionChain
      loop := c.loop.settle (.tail q) true }
  | .resume n => { c with stack := .resume n :: c.stack }

def leave (c : PgBridgeClient) (ok : Bool) : Frame → PgBridgeClient
  | .event => c
  | .resume n => { c with loop := c.loop.settle (.reaction n) ok }
  | .admission _ => c
  | .submission q query saved => (c.restore q saved).submitted q query ok
  | .execution q saved =>
    let c := c.restore q saved
    if ok then { c with loop := c.loop.enqueue (.adopt (.result q) q) true }
    else { c with loop := c.loop.settle (.raw q) false }

def step (c : PgBridgeClient) : ClientAction → Option PgBridgeClient
  | .event => if c.stack = [] then some { c with stack := [.event] } else none
  | .leave ok =>
    match c.stack with
    | [] => none
    | frame :: stack => some ({ c with stack }.leave ok frame)
  | .query link => if c.stack ≠ [] ∧ link.isQuery then some (c.query link) else none
  | .chainRollbackCleanup => if c.stack ≠ [] then some c.chainRollbackCleanup else none
  | .thenQuery q =>
    match c.stack, c.returned q with
    | _ :: _, some p => some (c.follow p)
    | _, _ => none
  | .thenReaction n => if c.stack ≠ [] ∧ n < c.continuations then some (c.follow (.reaction n)) else none
  | .complete q ok =>
    if c.stack.head? = some .event ∧ (q ∈ c.received ∨ q ∈ c.rollbacks) then
      some { c with loop := c.loop.settle (.result q) ok }
    else none
  | .fire q =>
    if c.stack = [] ∧ c.armed q then
      some { c with
        armed := Function.update c.armed q false
        fired := Function.update c.fired q true
        loop := c.loop.enqueue (.settleRace q) false }
    else none
  | .setTransaction inTransaction => if c.stack.head? = some .event then some { c with inTransaction } else none
  | .job =>
    match c.stack, c.loop.jobs with
    | [], (handler, ok) :: jobs => some ({ c with loop := { c.loop with jobs } }.runJob ok handler)
    | _, _ => none

/-- The calls of `query`, in order. -/
def calls (c : PgBridgeClient) : List Nat :=
  (List.range c.links.length).filter fun q => (c.links[q]?).any Link.isQuery

end PgBridgeClient

end PgliteBridge
