import PgliteBridge.StatementNames
import PgliteBridge.TransitionSystem
import Mathlib.Logic.Function.Basic

/-!
# The statement caches of the clients of one PGlite

Any number of `PgBridgeClient`s with their name generators, pg's `parsedStatements` and the fields cache, and the
prepared statements of the one session.  A call names its text, an execution flushes the evicted names and hands the
query to pg, pg writes the messages when it is ready, the backend executes them, pg processes the answers; all of these
are steps of their own.  A Submittable names no bridge statement; it only keeps pg busy.
-/

namespace PgliteBridge

/-- `ppb_<namespace>_<seq>`; no two generators share a namespace. -/
structure StatementName (ι : Type) where
  client : ι
  seq : Nat
deriving DecidableEq, Repr

/-- What a DEALLOCATE or DISCARD ALL removes. -/
inductive StatementCacheInvalidation (ι : Type)
  | all
  | name (name : StatementName ι)
deriving DecidableEq, Repr

def StatementCacheInvalidation.covers {ι : Type} [DecidableEq ι] (name : StatementName ι) :
    StatementCacheInvalidation ι → Bool
  | .all => true
  | .name name' => name = name'

/-- An ordinary query: its text, whether it is of a form that is given a name, whether it has the shape of a
`FastQuery`, and what fails in it on the client's side: `submit` returns an Error, a value does not serialise, a parser
is not resolved. -/
structure SqlQuery where
  text : SqlText
  injectable : Bool := true
  fast : Bool := true
  invalid : Bool := false
  bindThrows : Bool := false
  parserThrows : Bool := false
deriving DecidableEq, Repr

/-- A call of `query`.  A text that `decodeStatementCacheInvalidation` recognises is not cacheable. -/
inductive QueryCall (ι : Type)
  | sql (query : SqlQuery)
  | invalidation (scope : StatementCacheInvalidation ι)
deriving DecidableEq, Repr

inductive StatementSubmission (ι : Type)
  | named (name : StatementName ι) (query : SqlQuery)
  | unnamed (query : SqlQuery)
  | invalidation (scope : StatementCacheInvalidation ι)
deriving DecidableEq, Repr

inductive StatementMessage (ι : Type)
  | parse (name : StatementName ι) (text : SqlText)
  /-- the text is that of the query that binds -/
  | bind (name : StatementName ι) (text : SqlText)
  | describe
  | execute
  | close (name : StatementName ι)
  | sync
  | invalidate (scope : StatementCacheInvalidation ι)
  /-- a message about no bridge name -/
  | other
deriving DecidableEq, Repr

/-- What a client has written: an evicted name, or the messages of a query up to its Sync. -/
inductive WireItem (ι : Type)
  | close (name : StatementName ι)
  | train (messages : List (StatementMessage ι))
deriving DecidableEq, Repr

/-- The answers that pg or the bridge act on. -/
inductive StatementResponse (ι : Type)
  | parseComplete
  | rowDescription
  | errorResponse
  /-- the CommandComplete of a DEALLOCATE or DISCARD ALL -/
  | invalidated (scope : StatementCacheInvalidation ι)
  | readyForQuery
deriving DecidableEq, Repr

/-- pg's active query, with what `FastQuery` knows about its fields and whether its promise is settled. -/
inductive ActiveQuery (ι : Type)
  | none
  | query (submission : StatementSubmission ι) (describeSent fieldsReceived settled : Bool)
  /-- a Submittable, and whether an eviction could be armed on it -/
  | submittable (armed : Bool)
  /-- an error has been delivered, its ReadyForQuery not yet -/
  | failed
deriving DecidableEq, Repr

/-- A failed assumption about the session's statements: 26000, 42P05, or a Bind that meets another text. -/
inductive StatementViolation (ι : Type)
  | undefinedStatement (name : StatementName ι)
  | duplicateStatement (name : StatementName ι)
  | otherText (name : StatementName ι)
deriving DecidableEq, Repr

structure StatementClient (ι : Type) where
  live : Bool := true
  generator : NameGenerator
  pendingCloses : List (StatementName ι) := []
  parsedStatements : StatementName ι → Option SqlText := fun _ => none
  /-- the names with known result fields -/
  fieldsCache : StatementName ι → Bool := fun _ => false
  /-- the calls that wait on the submission chain -/
  queue : List (StatementSubmission ι) := []
  /-- an execution on the chain is not settled -/
  busy : Bool := false
  /-- in pg's queue -/
  admitted : Option (StatementSubmission ι) := none
  active : ActiveQuery ι := .none
  wire : List (WireItem ι) := []
  responses : List (StatementResponse ι) := []
  /-- the scope of the active query that is done -/
  confirmed : Option (StatementCacheInvalidation ι) := none
  /-- the confirmed scopes whose eviction is still to run -/
  evictions : List (StatementCacheInvalidation ι) := []

/-- pg's stock `Query`: what it writes for a named query, given the entry of the name in `parsedStatements` and whether
a value throws while Bind is serialised; `none` when `submit` returns an Error. -/
structure StockQuery where
  prepare : {ι : Type} → (previous : Option SqlText) → (bindThrows : Bool) → StatementName ι → SqlText →
    Option (List (StatementMessage ι))

/-- A named query is parsed unless its entry says so, then bound and executed. -/
structure StockQuery.Prepares (pg : StockQuery) : Prop where
  cold : ∀ {ι : Type} (name : StatementName ι) (text : SqlText),
    pg.prepare none false name text = some [.parse name text, .bind name text, .describe, .execute, .sync]
  warm : ∀ {ι : Type} (name : StatementName ι) (text : SqlText),
    pg.prepare (some text) false name text = some [.bind name text, .describe, .execute, .sync]

/-- After a throw, stock pg closes the statement that it may have parsed. -/
structure StockQuery.ClosesOnThrow (pg : StockQuery) : Prop where
  cold : ∀ {ι : Type} (name : StatementName ι) (text : SqlText),
    pg.prepare none true name text = some [.parse name text, .close name, .sync]
  warm : ∀ {ι : Type} (name : StatementName ι) (text : SqlText),
    pg.prepare (some text) true name text = some [.close name, .sync]

/-! ### The backend -/

abbrev Statements (ι : Type) := StatementName ι → Option SqlText

/-- The statements after a message, its answers, what it violates, and whether it fails. -/
structure MessageEffect (ι : Type) where
  server : Statements ι
  responses : List (StatementResponse ι) := []
  violations : List (StatementViolation ι) := []
  fails : Bool := false

variable {ι : Type} [DecidableEq ι]

/-- A message that meets no other error; `columns` tells whether the statement has result columns. -/
def execMessage (server : Statements ι) (columns : Bool) : StatementMessage ι → MessageEffect ι
  | .parse name text =>
    match server name with
    | none => { server := Function.update server name (some text), responses := [.parseComplete] }
    | some _ => { server, violations := [.duplicateStatement name], fails := true }
  | .bind name text =>
    match server name with
    | none => { server, violations := [.undefinedStatement name], fails := true }
    | some text' => { server, violations := if text' = text then [] else [.otherText name] }
  | .describe => { server, responses := if columns then [.rowDescription] else [] }
  | .execute => { server }
  | .close name => { server := Function.update server name none }
  | .sync => { server, responses := [.readyForQuery] }
  | .invalidate scope =>
    { server := fun name => if scope.covers name then none else server name, responses := [.invalidated scope] }
  | .other => { server }

/-- The messages of a query; the message number `fails` meets an error, unless it is a Close or the Sync, and after an
error the rest is skipped up to the Sync. -/
def execTrain (columns : Bool) (server : Statements ι) : List (StatementMessage ι) → Option Nat → MessageEffect ι
  | [], _ => { server }
  | .sync :: _, _ => { server, responses := [.readyForQuery] }
  | .close name :: messages, fails =>
    execTrain columns (Function.update server name none) messages (fails.map (· - 1))
  | _ :: _, some 0 => { server, responses := [.errorResponse, .readyForQuery] }
  | message :: messages, fails =>
    let effect := execMessage server columns message
    if effect.fails then { effect with responses := [.errorResponse, .readyForQuery] }
    else
      let rest := execTrain columns effect.server messages (fails.map (· - 1))
      { rest with
        responses := effect.responses ++ rest.responses
        violations := effect.violations ++ rest.violations }

/-! ### One client -/

namespace StatementClient

/-- `query` up to its turn on the submission chain. -/
def call (id : ι) (c : StatementClient ι) : QueryCall ι → StatementClient ι
  | .sql query =>
    if query.injectable then
      let naming := c.generator.next query.text
      { c with
        generator := naming.generator
        pendingCloses := c.pendingCloses ++ (naming.evicted.map fun seq => ⟨id, seq⟩).toList
        queue := c.queue ++ [match naming.name with
          | some seq => .named ⟨id, seq⟩ query
          | none => .unnamed query] }
    else { c with queue := c.queue ++ [.unnamed query] }
  | .invalidation scope => { c with queue := c.queue ++ [.invalidation scope] }

/-- `#flushPendingCloses`. -/
def flushPendingCloses (c : StatementClient ι) : StatementClient ι :=
  { c with
    pendingCloses := []
    wire := c.wire ++ c.pendingCloses.map .close
    parsedStatements := fun name => if name ∈ c.pendingCloses then none else c.parsedStatements name
    fieldsCache := fun name => c.fieldsCache name && decide (name ∉ c.pendingCloses) }

/-- `submitWithCloses` of the first call in the queue. -/
def execute (c : StatementClient ι) : Option (StatementClient ι) :=
  match c.busy, c.queue with
  | false, submission :: queue => some { c.flushPendingCloses with queue, busy := true, admitted := some submission }
  | _, _ => none

/-- A call whose timeout fired first is never submitted. -/
def expire (c : StatementClient ι) : Option (StatementClient ι) :=
  match c.busy, c.queue with
  | false, _ :: queue => some { c with queue }
  | _, _ => none

/-- What `FastQuery.submit` writes, and whether it asks for the fields; `none` when it returns an Error. -/
def fastSubmit (c : StatementClient ι) (name : StatementName ι) (query : SqlQuery) :
    Option (List (StatementMessage ι) × Bool) :=
  let previous := c.parsedStatements name
  if previous ≠ none ∧ previous ≠ some query.text then none
  else
    let parse := if previous ≠ some query.text then [.parse name query.text] else []
    let known := c.fieldsCache name
    if query.bindThrows then some (parse ++ [.sync], false)
    else if known && query.parserThrows then some (parse ++ [.bind name query.text, .sync], false)
    else if known then some (parse ++ [.bind name query.text, .execute, .sync], false)
    else some (parse ++ [.bind name query.text, .describe, .execute, .sync], true)

/-- pg writes the query it has in its queue. -/
def pulse (pg : StockQuery) (c : StatementClient ι) : Option (StatementClient ι) :=
  match c.active, c.admitted with
  | .none, some submission =>
    let c := { c with admitted := none }
    let write (messages : List (StatementMessage ι)) (describeSent settled : Bool) : StatementClient ι :=
      { c with
        wire := c.wire ++ [.train messages]
        active := .query submission describeSent false settled
        busy := !settled }
    match submission with
    | .unnamed query => some (if query.invalid then { c with busy := false } else write [.other, .sync] false false)
    | .invalidation scope => some (write [.invalidate scope, .sync] false false)
    | .named name query =>
      if query.invalid then some { c with busy := false }
      else if query.fast then
        match c.fastSubmit name query with
        | none => some { c with busy := false }
        | some (messages, describeSent) => some (write messages describeSent false)
      else
        match pg.prepare (c.parsedStatements name) query.bindThrows name query.text with
        | none => some { c with busy := false }
        -- a throw is delivered at once, while the query stays pg's active query
        | some messages => some (write messages false query.bindThrows)
  | _, _ => none

/-- pg writes a Submittable. -/
def pulseSubmittable (c : StatementClient ι) (scope : Option (StatementCacheInvalidation ι)) (armed : Bool) :
    Option (StatementClient ι) :=
  match c.active with
  | .none => some { c with
      wire := c.wire ++ [.train [(scope.map StatementMessage.invalidate).getD .other, .sync]]
      active := .submittable armed }
  | _ => none

/-- `handleReadyForQuery` of a `FastQuery` without rows. -/
def noData (submission : StatementSubmission ι) (describeSent fieldsReceived : Bool) (c : StatementClient ι) :
    StatementClient ι :=
  match submission with
  | .named name query =>
    if query.fast && describeSent && !fieldsReceived then
      { c with fieldsCache := Function.update c.fieldsCache name true }
    else c
  | _ => c

/-- pg processes an answer. -/
def receive (c : StatementClient ι) : StatementResponse ι → StatementClient ι
  | .parseComplete =>
    match c.active with
    | .query (.named name query) _ _ _ =>
      { c with parsedStatements := Function.update c.parsedStatements name (some query.text) }
    | _ => c
  | .rowDescription =>
    match c.active with
    | .query (.named name query) describeSent _ settled =>
      if query.fast then
        { c with
          fieldsCache := Function.update c.fieldsCache name true
          active := .query (.named name query) describeSent true settled }
      else c
    | _ => c
  | .errorResponse =>
    match c.active with
    | .query _ _ _ settled => { c with active := .failed, busy := settled && c.busy }
    | _ => { c with active := .failed }
  | .invalidated scope => { c with confirmed := some scope }
  | .readyForQuery =>
    match c.active with
    | .query submission describeSent fieldsReceived settled =>
      noData submission describeSent fieldsReceived { c with
        active := .none
        busy := settled && c.busy
        evictions := c.evictions ++ c.confirmed.toList
        confirmed := none }
    | .submittable armed =>
      { c with
        active := .none
        evictions := c.evictions ++ (if armed then c.confirmed.toList else [])
        confirmed := none }
    | _ => { c with active := .none }

/-- `#clearStatementCaches`. -/
def clearStatementCaches (c : StatementClient ι) (scope : StatementCacheInvalidation ι) : StatementClient ι :=
  { c with
    parsedStatements := fun name => if scope.covers name then none else c.parsedStatements name
    fieldsCache := fun name => c.fieldsCache name && !scope.covers name }

/-- Nothing is called, admitted, written, answered or to be evicted. -/
def drained (c : StatementClient ι) : Bool :=
  c.queue.isEmpty && c.admitted.isNone && decide (c.active = .none) && c.wire.isEmpty && c.responses.isEmpty &&
    c.evictions.isEmpty

end StatementClient

/-! ### The session -/

structure StatementSession (ι : Type) where
  client : ι → StatementClient ι
  server : Statements ι := fun _ => none
  violations : List (StatementViolation ι) := []

inductive StatementAction (ι : Type)
  | call (id : ι) (call : QueryCall ι)
  | execute (id : ι)
  | expire (id : ι)
  | pulse (id : ι)
  | pulseSubmittable (id : ι) (scope : Option (StatementCacheInvalidation ι)) (armed : Bool)
  /-- the backend executes what the client wrote first -/
  | serve (id : ι) (fails : Option Nat) (columns : Bool)
  | receive (id : ι)
  /-- the continuation of a confirmed DEALLOCATE -/
  | evict (id : ι)
  | deregister (id : ι)
deriving DecidableEq, Repr

namespace StatementSession

def initial (capacity minUsages : Nat) : StatementSession ι where
  client _ := { generator := { capacity, minUsages } }

def set (s : StatementSession ι) (id : ι) (c : StatementClient ι) : StatementSession ι :=
  { s with client := Function.update s.client id c }

/-- `#evictStatementCachesEverywhere`. -/
def evictStatementCachesEverywhere (s : StatementSession ι) (scope : StatementCacheInvalidation ι) :
    StatementSession ι :=
  { s with client := fun id => if (s.client id).live then (s.client id).clearStatementCaches scope else s.client id }

def serve (s : StatementSession ι) (id : ι) (fails : Option Nat) (columns : Bool) : Option (StatementSession ι) :=
  match (s.client id).wire with
  | [] => none
  | .close name :: wire =>
    some { s.set id { s.client id with wire } with server := Function.update s.server name none }
  | .train messages :: wire =>
    let effect := execTrain columns s.server messages fails
    some { s.set id { s.client id with wire, responses := (s.client id).responses ++ effect.responses } with
      server := effect.server
      violations := s.violations ++ effect.violations }

def step (pg : StockQuery) (s : StatementSession ι) : StatementAction ι → Option (StatementSession ι)
  | .call id call => if (s.client id).live then some (s.set id ((s.client id).call id call)) else none
  | .execute id => (s.client id).execute.map (s.set id)
  | .expire id => (s.client id).expire.map (s.set id)
  | .pulse id => ((s.client id).pulse pg).map (s.set id)
  | .pulseSubmittable id scope armed =>
    if (s.client id).live then ((s.client id).pulseSubmittable scope armed).map (s.set id) else none
  | .serve id fails columns => s.serve id fails columns
  | .receive id =>
    match (s.client id).responses with
    | [] => none
    | response :: responses => some (s.set id ({ s.client id with responses }.receive response))
  | .evict id =>
    match (s.client id).evictions with
    | [] => none
    | scope :: evictions =>
      some ((s.set id { s.client id with evictions }).evictStatementCachesEverywhere scope)
  | .deregister id =>
    if (s.client id).drained then some (s.set id { s.client id with live := false }) else none

end StatementSession

end PgliteBridge
