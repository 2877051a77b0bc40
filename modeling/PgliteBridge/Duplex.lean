import PgliteBridge.BackendFramer
import PgliteBridge.CopyIn
import PgliteBridge.SessionLock
import PgliteBridge.Utf8

/-!
# One duplex

The state of a `PGliteDuplex` (`duplex/index.ts`) and the parts of it that run without an `await`: framing the input,
`processMessages` on one complete message, and the callbacks of the backend framer on one backend message.  What the
operations in flight are waiting for (`drain`, `recovery`, `rollback`) is part of the state; the system of all duplexes
moves it.
-/

namespace PgliteBridge

/-! ### Data -/

inductive RfqMode
  | passthrough
  | suppress
  | flushBoundary
  | copyIn
deriving DecidableEq, Repr

inductive Phase
  | preStartup
  | ready
  | terminated
deriving DecidableEq, Repr

/-- A backend message, as far as the callbacks of the framer tell messages apart. -/
inductive ResponseFrame
  | errorResponse
  | readyForQuery (status : UInt8)
  | other
deriving DecidableEq, Repr

/-- What the duplex pushes to its client. -/
inductive Push
  | frame (fr : ResponseFrame)
  /-- what the framer emits, byte for byte -/
  | chunk (bytes : Bytes)
  | copyInResponse
  | error (code message : String)
  | readyForQuery (status : UInt8)
  | eof
deriving DecidableEq, Repr

structure CopyCapture where
  chunks : List Bytes := []
  total : Nat := 0
  discarding : Bool := false
deriving DecidableEq, Repr

/-- Where an operation stands on its way to PGlite: in `acquire`, in `waitPGliteReady`, in the queue of
`runExclusive`, or in PGlite. -/
inductive OpStage
  | acquiring
  | admitted
  | queued
  | running
deriving DecidableEq, Repr

structure Op where
  batch : Bytes
  mode : RfqMode
  stage : OpStage
deriving DecidableEq, Repr

/-- The drain loop: not running, between two awaits, awaiting an operation, awaiting the rollback of a Terminate, or
stopped by an error. -/
inductive Drain
  | idle
  | active
  | busy (op : Op)
  | terminating
  | failing
deriving DecidableEq, Repr

/-- `rollbackPromise`: not created, awaiting `currentPGliteCall`, about to read the status, with a ROLLBACK on its way
to PGlite, or settled. -/
inductive Rollback
  | notStarted
  | awaitingCall
  | deciding
  | querying
  | queued
  | running
  | settled
deriving DecidableEq, Repr

structure Duplex where
  copyAggregateCapBytes : Nat := 268435456
  phase : Phase := .preStartup
  tornDown : Bool := false
  input : Bytes := []
  pipeline : List Bytes := []
  copyCapture : Option CopyCapture := none
  lastSeenRfqStatus : Option UInt8 := none
  portalSuspended : Bool := false
  portalRecoveryRequested : Bool := false
  errSeen : Bool := false
  rfqSeenInCall : Bool := false
  pushed : List Push := []
  /-- chunks that were written to the stream and not yet handed to `_write` or `_writev` -/
  writable : List Bytes := []
  ended : Bool := false
  drain : Drain := .idle
  /-- completed drains whose `finally` has still to judge the portal -/
  tails : Nat := 0
  /-- the delivery of a recovery Sync, while `portalRecoveryInFlight` -/
  recovery : Option OpStage := none
  rollback : Rollback := .notStarted
  finalWaits : Bool := false
  destroyWaits : Bool := false
deriving DecidableEq, Repr

/-! ### Framing the input -/

inductive FramingError
  | malformedStartup (len : Nat)
  | startupExceedsSanityCap (len : Nat)
  | malformedFrontend (msgLen : Nat)
  | frontendExceedsSanityCap (msgLen : Nat)
deriving DecidableEq, Repr

def FramingError.message : FramingError → String
  | malformedStartup len => s!"Malformed startup message length: {len}"
  | startupExceedsSanityCap len => s!"Startup message length {len} exceeds sanity cap {MAX_MESSAGE_LENGTH}"
  | malformedFrontend msgLen => s!"Malformed frontend message length: {msgLen}"
  | frontendExceedsSanityCap msgLen => s!"Frontend message length {msgLen} exceeds sanity cap {MAX_MESSAGE_LENGTH}"

inductive Framing
  | incomplete
  | malformed (error : FramingError)
  | message (message rest : Bytes)
deriving DecidableEq, Repr

/-- The startup packet at the head of the input. -/
def takeStartup (input : Bytes) : Framing :=
  if input.length < 4 then .incomplete
  else
    let len := readUInt32BE input 0
    if len < 8 then .malformed (.malformedStartup len)
    else if len > MAX_MESSAGE_LENGTH then .malformed (.startupExceedsSanityCap len)
    else if input.length < len then .incomplete
    else .message (input.take len) (input.drop len)

/-- The typed message at the head of the input. -/
def takeMessage (input : Bytes) : Framing :=
  if input.length < 5 then .incomplete
  else
    let msgLen := readUInt32BE input 1
    if msgLen < 4 then .malformed (.malformedFrontend msgLen)
    else if msgLen > MAX_MESSAGE_LENGTH then .malformed (.frontendExceedsSanityCap msgLen)
    else if input.length < 1 + msgLen then .incomplete
    else .message (input.take (1 + msgLen)) (input.drop (1 + msgLen))

namespace Duplex

def nextMessage (d : Duplex) : Framing :=
  match d.phase with
  | .preStartup => takeStartup d.input
  | .ready => takeMessage d.input
  | .terminated => .incomplete

/-- `!this.tornDown && this.phase !== 'terminated'`. -/
def live (d : Duplex) : Bool := !d.tornDown && d.phase != .terminated

def inTransaction (d : Duplex) : Bool :=
  d.lastSeenRfqStatus == some RFQ_STATUS_IN_TRANSACTION || d.lastSeenRfqStatus == some RFQ_STATUS_FAILED

def draining (d : Duplex) : Bool := d.drain != .idle

/-! ### `processMessages`, one message -/

def push (d : Duplex) (p : Push) : Duplex := { d with pushed := d.pushed ++ [p] }

/-- What the loop does after a message: take the next one, await an operation, await the rollback of a Terminate, or
throw. -/
inductive Next
  | again
  | run (batch : Bytes) (mode : RfqMode)
  | terminate
  | throw (message : String)
deriving DecidableEq, Repr

def EQP_MESSAGES : List UInt8 := [PARSE, BIND, DESCRIBE, EXECUTE, CLOSE]

def queryText (message : Bytes) : List Char :=
  if message.length < 6 then [] else utf8Text (subarray message 5 (message.length - 1))

def appendCopyCapture (cap : Nat) (capture : CopyCapture) (message : Bytes) : CopyCapture :=
  if capture.discarding then capture
  else if cap < capture.total + message.length then
    { capture with discarding := true, chunks := [] }
  else { capture with total := capture.total + message.length, chunks := capture.chunks ++ [message] }

def pushSyntheticError (d : Duplex) (code message : String) : Duplex := d.push (.error code message)

def pushSyntheticReadyForQuery (d : Duplex) : Duplex :=
  d.push (.readyForQuery (d.lastSeenRfqStatus.getD RFQ_STATUS_IDLE))

/-- The Terminate branch up to its `await`. -/
def terminate (d : Duplex) : Duplex :=
  { d with
    phase := .terminated
    input := []
    pipeline := []
    copyCapture := none
    portalSuspended := false
    portalRecoveryRequested := false }

/-- A message during a capture. -/
def processCopy (d : Duplex) (capture : CopyCapture) (msgType : UInt8) (message : Bytes) : Duplex × Next :=
  if msgType = COPY_DATA then
    ({ d with copyCapture := some (appendCopyCapture d.copyAggregateCapBytes capture message) }, .again)
  else if msgType = COPY_DONE ∨ msgType = COPY_FAIL then
    let capture := appendCopyCapture d.copyAggregateCapBytes capture message
    let d := { d with copyCapture := none }
    if capture.discarding then
      ((d.pushSyntheticError "54000" (s!"COPY FROM STDIN payload exceeded the aggregate cap of " ++
        s!"{d.copyAggregateCapBytes} bytes; the copy was not executed")).pushSyntheticReadyForQuery, .again)
    else (d, .run capture.chunks.flatten .copyIn)
  else (d, .throw (s!"Protocol violation: unexpected frontend message " ++
    s!"0x{String.ofList (Nat.toDigits 16 msgType.toNat)} during COPY FROM STDIN capture"))

def processQuery (d : Duplex) (message : Bytes) : Duplex × Next :=
  match sniffCopyIn (queryText message) with
  | .capture =>
    ({ d with copyCapture := some (appendCopyCapture d.copyAggregateCapBytes {} message) }.push .copyInResponse, .again)
  | .rejectMulti =>
    ((d.pushSyntheticError "0A000" ("COPY FROM STDIN in a multi-statement simple query is not supported by " ++
      "prisma-pglite-bridge; issue it as a single statement")).pushSyntheticReadyForQuery, .again)
  | .notCopyIn => (d, .run message .passthrough)

def processMessage (d : Duplex) (message : Bytes) : Duplex × Next :=
  let msgType := message.getD 0 0
  if msgType = TERMINATE then (d.terminate, .terminate)
  else match d.copyCapture with
  | some capture => d.processCopy capture msgType message
  | none =>
    if msgType ∈ EQP_MESSAGES then ({ d with pipeline := d.pipeline ++ [message] }, .again)
    else if msgType = SYNC ∨ msgType = FLUSH then
      ({ d with pipeline := [] },
        .run (d.pipeline ++ [message]).flatten (if msgType = SYNC then .suppress else .flushBoundary))
    else if msgType = QUERY then d.processQuery message
    else (d, .run message .passthrough)

/-! ### The framer's callbacks -/

def onChunk (d : Duplex) (fr : ResponseFrame) : Duplex := if d.live then d.push (.frame fr) else d

def onErrorResponse (d : Duplex) : Duplex := { d with errSeen := true }

/-- `onReadyForQuery`, but for the session lock. -/
def onReadyForQuery (d : Duplex) (status : UInt8) : Duplex :=
  { d with rfqSeenInCall := true, lastSeenRfqStatus := some status, portalSuspended := false }

/-- `streamProtocol` up to `execProtocolRawStream`. -/
def startCall (d : Duplex) : Duplex := { d with errSeen := false, rfqSeenInCall := false }

end Duplex

/-- Whether the framer withholds ReadyForQuery frames. -/
def RfqMode.suppresses (mode : RfqMode) : Bool := mode == .suppress || mode == .flushBoundary

end PgliteBridge
