import PgliteBridge.Duplex

/-!
# The frontend reference

What the bridge does with the bytes of a client, said over whole messages: the stream is cut into the startup packet and
typed messages (`cut`), and the messages are answered one after the other (`Exchange.next`).  Extended messages are
collected for the Sync or Flush behind them, a COPY is captured up to its end, everything else is a call of its own.
-/

namespace PgliteBridge

/-! ### Calls -/

structure PGliteCall where
  batch : Bytes
  mode : RfqMode
deriving DecidableEq, Repr

/-- A call is answered, with the status of the last ReadyForQuery of the answer, or it fails and the connection with it.
`forwarded` is what the framer makes of the answer. -/
inductive CallOutcome
  | answered (status : Option UInt8) (forwarded : List Bytes := [])
  | failed (message : String) (forwarded : List Bytes := [])
deriving DecidableEq, Repr

/-- What PGlite makes of the last of these calls. -/
abbrev PGlite := List PGliteCall → CallOutcome

/-! ### Cutting the stream -/

theorem takeMessage_shorter {input message rest : Bytes} (h : takeMessage input = .message message rest) :
    rest.length < input.length := by
  unfold takeMessage at h
  split at h
  · cases h
  · dsimp only at h
    split at h
    · cases h
    · split at h
      · cases h
      · split at h
        · cases h
        · cases h
          rw [List.length_drop]
          omega

/-- The messages of a stream, the bytes of the last one if it is incomplete, and the error that ends the stream. -/
structure Cut where
  messages : List Bytes := []
  rest : Bytes := []
  error : Option FramingError := none
deriving DecidableEq, Repr

def cut (input : Bytes) : Cut :=
  match h : takeMessage input with
  | .incomplete => { rest := input }
  | .malformed error => { error := some error }
  | .message message rest =>
    have := takeMessage_shorter h
    { cut rest with messages := message :: (cut rest).messages }
termination_by input.length

theorem cut_incomplete {input : Bytes} (h : takeMessage input = .incomplete) : cut input = { rest := input } := by
  rw [cut]
  split
  · rfl
  · rename_i h'
    rw [h] at h'
    cases h'
  · rename_i h'
    rw [h] at h'
    cases h'

theorem cut_malformed {input : Bytes} {error : FramingError} (h : takeMessage input = .malformed error) :
    cut input = { error := some error } := by
  rw [cut]
  split
  · rename_i h'
    rw [h] at h'
    cases h'
  · rename_i h'
    rw [h] at h'
    cases h'
    rfl
  · rename_i h'
    rw [h] at h'
    cases h'

theorem cut_message {input message rest : Bytes} (h : takeMessage input = .message message rest) :
    cut input = { cut rest with messages := message :: (cut rest).messages } := by
  rw [cut]
  split
  · rename_i h'
    rw [h] at h'
    cases h'
  · rename_i h'
    rw [h] at h'
    cases h'
  · rename_i h'
    rw [h] at h'
    cases h'
    rfl

/-! ### Answering the messages -/

/-- What a message is to the bridge. -/
inductive MessageKind
  | terminate
  | extended
  | batchEnd (mode : RfqMode)
  | copyData
  | copyEnd
  | query (verdict : CopyInVerdict)
  | other
deriving DecidableEq, Repr

def messageKind (message : Bytes) : MessageKind :=
  let msgType := message.getD 0 0
  if msgType = TERMINATE then .terminate
  else if msgType ∈ Duplex.EQP_MESSAGES then .extended
  else if msgType = SYNC then .batchEnd .suppress
  else if msgType = FLUSH then .batchEnd .flushBoundary
  else if msgType = COPY_DATA then .copyData
  else if msgType = COPY_DONE ∨ msgType = COPY_FAIL then .copyEnd
  else if msgType = QUERY then .query (sniffCopyIn (Duplex.queryText message))
  else .other

/-- A connection after some messages. -/
structure Exchange where
  /-- the extended messages since the last Sync or Flush -/
  collected : List Bytes := []
  /-- the messages of the COPY that is being captured -/
  captured : Option (List Bytes) := none
  status : Option UInt8 := none
  calls : List PGliteCall := []
  pushed : List Push := []
  error : Option String := none
  ended : Bool := false
deriving DecidableEq, Repr

namespace Exchange

def stopped (r : Exchange) : Bool := r.error.isSome || r.ended

def fail (r : Exchange) (message : String) : Exchange := { r with error := some message }

def call (pglite : PGlite) (r : Exchange) (batch : Bytes) (mode : RfqMode) : Exchange :=
  let calls := r.calls ++ [{ batch, mode }]
  let r := { r with calls }
  match pglite calls with
  | .answered status forwarded =>
    { r with status := status <|> r.status, pushed := r.pushed ++ forwarded.map Push.chunk }
  | .failed message forwarded => { r with pushed := r.pushed ++ forwarded.map Push.chunk }.fail message

/-- An error that the bridge answers itself. -/
def refuse (r : Exchange) (code message : String) : Exchange :=
  { r with pushed := r.pushed ++ [.error code message, .readyForQuery (r.status.getD RFQ_STATUS_IDLE)] }

def next (cap : Nat) (pglite : PGlite) (r : Exchange) (message : Bytes) : Exchange :=
  match messageKind message, r.captured with
  | .terminate, _ => { r with pushed := r.pushed ++ [.eof], ended := true }
  | .copyData, some messages => { r with captured := some (messages ++ [message]) }
  | .copyEnd, some messages =>
    let batch := (messages ++ [message]).flatten
    let r := { r with captured := none }
    if cap < batch.length then
      r.refuse "54000"
        (s!"COPY FROM STDIN payload exceeded the aggregate cap of " ++ s!"{cap} bytes; the copy was not executed")
    else r.call pglite batch .copyIn
  | _, some _ => r.fail (s!"Protocol violation: unexpected frontend message " ++
      s!"0x{String.ofList (Nat.toDigits 16 (message.getD 0 0).toNat)} during COPY FROM STDIN capture")
  | .extended, none => { r with collected := r.collected ++ [message] }
  | .batchEnd mode, none => { r with collected := [] }.call pglite (r.collected ++ [message]).flatten mode
  | .query .capture, none => { r with captured := some [message], pushed := r.pushed ++ [.copyInResponse] }
  | .query .rejectMulti, none =>
    r.refuse "0A000" ("COPY FROM STDIN in a multi-statement simple query is not supported by " ++
      "prisma-pglite-bridge; issue it as a single statement")
  | _, none => r.call pglite message .passthrough

/-- The messages up to the one that ends the connection. -/
def fold (cap : Nat) (pglite : PGlite) (r : Exchange) (messages : List Bytes) : Exchange :=
  messages.foldl (fun r message => if r.stopped then r else r.next cap pglite message) r

/-- The messages of a stream, and its error if it is reached. -/
def run (cap : Nat) (pglite : PGlite) (r : Exchange) (c : Cut) : Exchange :=
  let r := r.fold cap pglite c.messages
  match c.error with
  | some error => if r.stopped then r else r.fail error.message
  | none => r

end Exchange

/-- A stream from its first byte on. -/
def reference (cap : Nat) (pglite : PGlite) (stream : Bytes) : Exchange :=
  match takeStartup stream with
  | .incomplete => {}
  | .malformed error => Exchange.fail {} error.message
  | .message packet rest =>
    let r := Exchange.call pglite {} packet .passthrough
    if r.stopped then r else r.run cap pglite (cut rest)

end PgliteBridge
