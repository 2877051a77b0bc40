import PgliteBridge.RowDescription

/-!
# The backend message framer

`BackendMessageFramer` (`duplex/backend-framer.ts`) as the bridge runs it: `reset`, `write` one chunk, `flush`.
A chunk is read by a loop whose body is `writeStep`: a frame that lies whole in the chunk is taken at once
(`writeWhole`), any other frame byte by byte through its type, header and payload.

The two consumers of the framer are part of the state: `emitted` collects the arguments of `onChunk` and `trace`
those of `onErrorResponse` and `onReadyForQuery`.  A `throw` keeps the state it happened in.
-/

namespace PgliteBridge

inductive CallbackEvent
  | errorResponse
  | readyForQuery (status : UInt8)
deriving DecidableEq, Repr

inductive FramerError
  | malformedLength (messageLength : Nat)
  | exceedsSanityCap (messageLength : Nat)
  | incomplete (expectedBytes : Option Nat) (receivedBytes : Nat)
  | offsetOutOfBounds
deriving DecidableEq, Repr

def FramerError.message : FramerError → String
  | malformedLength n => s!"Malformed backend message length: {n}"
  | exceedsSanityCap n => s!"Backend message length {n} exceeds sanity cap {MAX_MESSAGE_LENGTH}"
  | incomplete (some n) received => s!"Incomplete backend message: expected {n} bytes, received {received}"
  | incomplete none received => s!"Incomplete backend message: expected at least 5 bytes, received {received}"
  | offsetOutOfBounds => "offset is out of bounds"

structure Framer where
  suppressIntermediateReadyForQuery : Bool
  rewriteSystemCatalogCharOids : Bool
  headerScratch : Bytes := [0, 0, 0, 0]
  heldRfq : Bytes := [0, 0, 0, 0, 0, 0]
  messageType : Option UInt8 := none
  headerBytesRead : Nat := 0
  payloadBytesRemaining : Nat := 0
  rfqBytesRead : Nat := 0
  rfqFrame : Bool := false
  rowDescBuffer : Option Bytes := none
  rowDescOffset : Nat := 0
  dropNextCopyInResponse : Bool := false
  droppingMessage : Bool := false
  emitted : List Bytes := []
  trace : List CallbackEvent := []
deriving DecidableEq, Repr

namespace Framer

def reset (f : Framer) (suppressIntermediateReadyForQuery dropFirstCopyInResponse : Bool) : Framer :=
  { f with
    suppressIntermediateReadyForQuery
    messageType := none
    headerBytesRead := 0
    payloadBytesRemaining := 0
    rfqBytesRead := 0
    rfqFrame := false
    rowDescBuffer := none
    rowDescOffset := 0
    dropNextCopyInResponse := dropFirstCopyInResponse
    droppingMessage := false }

/-! ### Private methods -/

def onChunk (f : Framer) (chunk : Bytes) : Framer := { f with emitted := f.emitted ++ [chunk] }

/-- `if (msgType === ERROR_RESPONSE) this.onErrorResponse?.()`. -/
def noteError (f : Framer) (msgType : UInt8) : Framer :=
  { f with trace := if msgType = ERROR_RESPONSE then f.trace ++ [.errorResponse] else f.trace }

def onReadyForQuery (f : Framer) (status : UInt8) : Framer :=
  { f with trace := f.trace ++ [.readyForQuery status] }

def emitReadyForQuery (f : Framer) : Framer := f.onChunk (f.heldRfq.take 6)

def dropHeldReadyForQuery (f : Framer) : Framer := { f with rfqBytesRead := 0 }

def dropStaleHeldReadyForQuery (f : Framer) : Framer :=
  if f.suppressIntermediateReadyForQuery && f.rfqBytesRead == 6 then f.dropHeldReadyForQuery else f

def emitPrefix (f : Framer) : Framer := f.onChunk (f.messageType.getD 0 :: f.headerScratch)

def emitRewrittenRowDescription (f : Framer) (buf : Bytes) : Framer :=
  f.onChunk (rewriteRowDescriptionInPlace buf)

def emitChunkSlice (f : Framer) (slice : Bytes) : Framer :=
  if slice.isEmpty then f else f.onChunk slice

def finishMessage (f : Framer) : Framer :=
  { f with
    messageType := none
    headerBytesRead := 0
    payloadBytesRemaining := 0
    rfqFrame := false
    droppingMessage := false
    rfqBytesRead := if f.suppressIntermediateReadyForQuery then f.rfqBytesRead else 0 }

def finishReadyForQuery (f : Framer) : Framer :=
  let f := f.onReadyForQuery (f.heldRfq.getD 5 0)
  let f := if f.suppressIntermediateReadyForQuery then f else f.emitReadyForQuery
  f.finishMessage

/-! ### A whole frame -/

/-- The first `CopyInResponse`, dropped. -/
def takeDropped (f : Framer) : Framer :=
  { f.dropStaleHeldReadyForQuery with dropNextCopyInResponse := false }

/-- A ReadyForQuery: `frame` is its six bytes. -/
def takeReadyForQuery (f : Framer) (frame : Bytes) : Framer :=
  let f := { f.dropStaleHeldReadyForQuery with heldRfq := frame, rfqBytesRead := 6 }
  let f := f.onReadyForQuery (frame.getD 5 0)
  if f.suppressIntermediateReadyForQuery then f else { f.emitReadyForQuery with rfqBytesRead := 0 }

/-- A `RowDescription` the gate selected. -/
def takeRowDescription (f : Framer) (frame : Bytes) : Framer :=
  f.dropStaleHeldReadyForQuery.emitRewrittenRowDescription frame

/-! ### A frame that spans chunks -/

/-- `target.set(src, offset)`, which throws when `src` does not fit. -/
def setOrThrow (f : Framer) (target : Bytes) (offset : Nat) (src : Bytes) : Except (Framer × FramerError) Bytes :=
  if offset + src.length ≤ target.length then .ok (setBytes target offset src)
  else .error (f, .offsetOutOfBounds)

/-- The type byte. -/
def takeType (f : Framer) (messageType : UInt8) : Framer :=
  let f := f.dropStaleHeldReadyForQuery
  let dropping := messageType == COPY_IN_RESPONSE && f.dropNextCopyInResponse
  { f with
    messageType := some messageType
    headerBytesRead := 0
    payloadBytesRemaining := 0
    dropNextCopyInResponse := f.dropNextCopyInResponse && !dropping
    droppingMessage := f.droppingMessage || dropping
    rfqBytesRead := if messageType = READY_FOR_QUERY then 1 else 0
    heldRfq := if messageType = READY_FOR_QUERY then setBytes f.heldRfq 0 [messageType] else f.heldRfq }

/-- All four header bytes are there. -/
def decodeHeader (f : Framer) (messageType : UInt8) : Except (Framer × FramerError) Framer :=
  let messageLength := readUInt32BE f.headerScratch 0
  if messageLength < 4 then .error (f, .malformedLength messageLength)
  else if messageLength > MAX_MESSAGE_LENGTH then .error (f, .exceedsSanityCap messageLength)
  else
    let rfqFrame := messageType == READY_FOR_QUERY && messageLength == 5
    let f := { f with payloadBytesRemaining := messageLength - 4, rfqFrame }.noteError messageType
    if rfqFrame then .ok f
    else
      let f := f.dropHeldReadyForQuery
      if f.droppingMessage then .ok (if f.payloadBytesRemaining = 0 then f.finishMessage else f)
      else if messageType = ROW_DESCRIPTION ∧ f.rewriteSystemCatalogCharOids then
        .ok { f with
          rowDescBuffer := some (ROW_DESCRIPTION :: f.headerScratch ++ List.replicate f.payloadBytesRemaining 0)
          rowDescOffset := 5 }
      else
        let f := f.emitPrefix
        .ok (if f.payloadBytesRemaining = 0 then f.finishMessage else f)

def holdHeader (f : Framer) (messageType : UInt8) (headerChunk : Bytes) : Except (Framer × FramerError) Bytes :=
  if messageType = READY_FOR_QUERY then setOrThrow f f.heldRfq f.rfqBytesRead headerChunk else .ok f.heldRfq

/-- Header bytes. -/
def takeHeader (f : Framer) (messageType : UInt8) (headerChunk : Bytes) : Except (Framer × FramerError) Framer := do
  let headerScratch ← setOrThrow f f.headerScratch f.headerBytesRead headerChunk
  let heldRfq ← f.holdHeader messageType headerChunk
  let f := { f with
    headerScratch
    heldRfq
    rfqBytesRead := if messageType = READY_FOR_QUERY then f.rfqBytesRead + headerChunk.length else f.rfqBytesRead
    headerBytesRead := f.headerBytesRead + headerChunk.length }
  if f.headerBytesRead < 4 then pure f else f.decodeHeader messageType

/-- The payload of a ReadyForQuery. -/
def takeRfqPayload (f : Framer) (payloadChunk : Bytes) : Except (Framer × FramerError) Framer := do
  let heldRfq ← setOrThrow f f.heldRfq f.rfqBytesRead payloadChunk
  let f := { f with
    heldRfq
    rfqBytesRead := f.rfqBytesRead + payloadChunk.length
    payloadBytesRemaining := f.payloadBytesRemaining - payloadChunk.length }
  pure (if f.payloadBytesRemaining = 0 then f.finishReadyForQuery else f)

/-- The end of a frame: an accumulated `RowDescription` is rewritten and emitted. -/
def finishPayload (f : Framer) : Framer :=
  match f.rowDescBuffer with
  | some buf => (({ f with rowDescBuffer := none }).emitRewrittenRowDescription buf).finishMessage
  | none => f.finishMessage

def countPayload (f : Framer) (n : Nat) : Framer :=
  let f := { f with payloadBytesRemaining := f.payloadBytesRemaining - n }
  if f.payloadBytesRemaining = 0 then f.finishPayload else f

def storePayload (f : Framer) (payloadChunk : Bytes) : Except (Framer × FramerError) Framer :=
  if f.droppingMessage then .ok f
  else match f.rowDescBuffer with
  | some buf => do
    let buf ← setOrThrow f buf f.rowDescOffset payloadChunk
    .ok { f with rowDescBuffer := some buf, rowDescOffset := f.rowDescOffset + payloadChunk.length }
  | none => .ok (f.emitChunkSlice payloadChunk)

/-- Payload bytes of any other frame. -/
def takePayload (f : Framer) (payloadChunk : Bytes) : Except (Framer × FramerError) Framer := do
  let f ← f.storePayload payloadChunk
  pure (f.countPayload payloadChunk.length)

/-- How many bytes the message in flight still takes in its present part, header or payload. -/
def wantedBytes (f : Framer) : Nat :=
  if f.headerBytesRead < 4 then 4 - f.headerBytesRead else f.payloadBytesRemaining

def takeBytes (f : Framer) (messageType : UInt8) (bytes : Bytes) : Except (Framer × FramerError) Framer :=
  if f.headerBytesRead < 4 then f.takeHeader messageType bytes
  else if f.rfqFrame then f.takeRfqPayload bytes
  else f.takePayload bytes

end Framer

/-! ### `write` -/

/-- The local variables of `write`: the framer, `offset`, and `passthroughStart` (`none` for `-1`). -/
structure Cursor where
  framer : Framer
  offset : Nat
  passthroughStart : Option Nat
deriving DecidableEq, Repr

/-- `flushPassthrough(offset)`. -/
def Cursor.flushPassthrough (c : Cursor) (chunk : Bytes) : Cursor :=
  match c.passthroughStart with
  | some start =>
    if c.offset > start then
      { c with framer := c.framer.emitChunkSlice (subarray chunk start c.offset), passthroughStart := none }
    else c
  | none => c

/-- The fast path: a frame of `1 + messageLength` bytes lies whole in the chunk at `offset`. -/
def writeWhole (chunk : Bytes) (c : Cursor) (messageLength : Nat) : Cursor :=
  let msgType := chunk.getD c.offset 0
  let next := c.offset + (1 + messageLength)
  let frame := subarray chunk c.offset next
  let c := { c with framer := c.framer.noteError msgType }
  let flushed := c.flushPassthrough chunk
  if msgType = COPY_IN_RESPONSE ∧ c.framer.dropNextCopyInResponse then
    { flushed with framer := flushed.framer.takeDropped, offset := next }
  else if msgType = READY_FOR_QUERY ∧ messageLength = 5 then
    { flushed with framer := flushed.framer.takeReadyForQuery frame, offset := next }
  else if msgType = ROW_DESCRIPTION ∧ c.framer.rewriteSystemCatalogCharOids ∧
      rowDescriptionNeedsRewrite chunk c.offset next then
    { flushed with framer := flushed.framer.takeRowDescription frame, offset := next }
  else
    { framer := c.framer.dropStaleHeldReadyForQuery
      offset := next
      passthroughStart := some (c.passthroughStart.getD c.offset) }

/-- The slow path: the bytes of the chunk at `offset` continue the message in flight. -/
def writeContinued (chunk : Bytes) (c : Cursor) (messageType : UInt8) : Except (Framer × FramerError) Cursor := do
  let next := c.offset + min c.framer.wantedBytes (chunk.length - c.offset)
  let framer ← c.framer.takeBytes messageType (subarray chunk c.offset next)
  pure { c with framer, offset := next }

/-- The slow path starts: only the type byte is taken. -/
def writeType (chunk : Bytes) (c : Cursor) : Cursor :=
  let flushed := c.flushPassthrough chunk
  { flushed with framer := flushed.framer.takeType (chunk.getD c.offset 0), offset := c.offset + 1 }

/-- The body of the loop of `write`. -/
def writeStep (chunk : Bytes) (c : Cursor) : Except (Framer × FramerError) Cursor :=
  match c.framer.messageType with
  | none =>
    let available := chunk.length - c.offset
    if available ≥ 5 then
      let messageLength := readUInt32BE chunk (c.offset + 1)
      if messageLength < 4 then .error (c.framer, .malformedLength messageLength)
      else if messageLength > MAX_MESSAGE_LENGTH then .error (c.framer, .exceedsSanityCap messageLength)
      else if available ≥ 1 + messageLength then .ok (writeWhole chunk c messageLength)
      else .ok (writeType chunk c)
    else .ok (writeType chunk c)
  | some messageType => writeContinued chunk c messageType

/-! ### Termination of the loop

Every turn takes bytes of the chunk, or ends a message that has no byte left to take. -/

def Cursor.measure (chunk : Bytes) (c : Cursor) : Nat :=
  2 * (chunk.length - c.offset) + if c.framer.messageType.isSome then 1 else 0

private theorem measure_of_none {chunk : Bytes} {c : Cursor} (h : c.framer.messageType = none) :
    c.measure chunk = 2 * (chunk.length - c.offset) := by
  simp [Cursor.measure, h]

private theorem measure_of_some {chunk : Bytes} {c : Cursor} {t : UInt8} (h : c.framer.messageType = some t) :
    c.measure chunk = 2 * (chunk.length - c.offset) + 1 := by
  simp [Cursor.measure, h]

private theorem measure_le (chunk : Bytes) (c : Cursor) : c.measure chunk ≤ 2 * (chunk.length - c.offset) + 1 := by
  unfold Cursor.measure; split <;> omega

theorem flushPassthrough_messageType (c : Cursor) (chunk : Bytes) :
    (c.flushPassthrough chunk).framer.messageType = c.framer.messageType := by
  unfold Cursor.flushPassthrough
  split
  · split
    · unfold Framer.emitChunkSlice
      split <;> rfl
    · rfl
  · rfl

private theorem writeWhole_offset (chunk : Bytes) (c : Cursor) (n : Nat) :
    (writeWhole chunk c n).offset = c.offset + (1 + n) := by
  unfold writeWhole
  dsimp only
  split
  · rfl
  · split
    · rfl
    · split <;> rfl

private theorem takeRfqPayload_ends {f f' : Framer} {bytes : Bytes} (h : f.takeRfqPayload bytes = .ok f')
    (hend : f.payloadBytesRemaining ≤ bytes.length) : f'.messageType = none := by
  simp only [Framer.takeRfqPayload, bind, Except.bind] at h
  split at h
  · cases h
  · rw [if_pos (by simpa using Nat.sub_eq_zero_of_le hend)] at h
    cases h
    rfl

theorem finishPayload_ends (f : Framer) : f.finishPayload.messageType = none := by
  unfold Framer.finishPayload
  split <;> rfl

private theorem storePayload_remaining {f f' : Framer} {bytes : Bytes} (h : f.storePayload bytes = .ok f') :
    f'.payloadBytesRemaining = f.payloadBytesRemaining := by
  unfold Framer.storePayload at h
  split at h
  · cases h; rfl
  · split at h
    · simp only [bind, Except.bind] at h
      split at h
      · cases h
      · cases h; rfl
    · cases h
      unfold Framer.emitChunkSlice
      split <;> rfl

private theorem takePayload_ends {f f' : Framer} {bytes : Bytes} (h : f.takePayload bytes = .ok f')
    (hend : f.payloadBytesRemaining ≤ bytes.length) : f'.messageType = none := by
  simp only [Framer.takePayload, bind, Except.bind] at h
  split at h
  · cases h
  · rename_i g hg
    cases h
    unfold Framer.countPayload
    rw [if_pos (by simp only [storePayload_remaining hg]; omega)]
    exact finishPayload_ends _

private theorem takeBytes_ends {f f' : Framer} {t : UInt8} {bytes : Bytes} (h : f.takeBytes t bytes = .ok f')
    (hhead : ¬f.headerBytesRead < 4) (hend : f.payloadBytesRemaining ≤ bytes.length) : f'.messageType = none := by
  unfold Framer.takeBytes at h
  rw [if_neg hhead] at h
  split at h
  · exact takeRfqPayload_ends h hend
  · exact takePayload_ends h hend

private theorem writeContinued_measure {chunk : Bytes} {c c' : Cursor} {t : UInt8}
    (ht : c.framer.messageType = some t) (hlt : c.offset < chunk.length) (h : writeContinued chunk c t = .ok c') :
    c'.measure chunk < c.measure chunk := by
  simp only [writeContinued, bind, Except.bind] at h
  split at h
  · cases h
  · rename_i f hf
    cases h
    rw [measure_of_some ht]
    by_cases hmoved : 0 < c.framer.wantedBytes
    · refine Nat.lt_of_le_of_lt (measure_le _ _) ?_
      show 2 * (chunk.length - (c.offset + min c.framer.wantedBytes (chunk.length - c.offset))) + 1 < _
      omega
    · -- no byte was wanted: the message in flight has no payload left and ends here
      unfold Framer.wantedBytes at hmoved
      have hhead : ¬c.framer.headerBytesRead < 4 := by
        intro hh; rw [if_pos hh] at hmoved; omega
      rw [if_neg hhead] at hmoved
      have hends : f.messageType = none := takeBytes_ends hf hhead (by omega)
      rw [measure_of_none hends]
      dsimp only
      omega

theorem writeStep_measure {chunk : Bytes} {c c' : Cursor} (hlt : c.offset < chunk.length)
    (h : writeStep chunk c = .ok c') : c'.measure chunk < c.measure chunk := by
  have htype : (writeType chunk c).measure chunk < 2 * (chunk.length - c.offset) := by
    have := measure_le chunk (writeType chunk c)
    have hoff : (writeType chunk c).offset = c.offset + 1 := rfl
    omega
  unfold writeStep at h
  split at h
  · rename_i hm
    rw [measure_of_none hm]
    dsimp only at h
    split at h
    · split at h
      · cases h
      · split at h
        · cases h
        · split at h
          · cases h
            have := measure_le chunk (writeWhole chunk c (readUInt32BE chunk (c.offset + 1)))
            rw [writeWhole_offset] at this
            omega
          · cases h; exact htype
    · cases h; exact htype
  · rename_i t hm
    exact writeContinued_measure hm hlt h

/-- `while (offset < chunk.length) …`. -/
def writeLoop (chunk : Bytes) (c : Cursor) : Except (Framer × FramerError) Cursor :=
  if _hlt : c.offset < chunk.length then
    match _hstep : writeStep chunk c with
    | .ok c' => writeLoop chunk c'
    | .error e => .error e
  else .ok c
termination_by c.measure chunk
decreasing_by exact writeStep_measure _hlt _hstep

section

variable {chunk : Bytes} {c d : Cursor}

theorem writeLoop_step (hlt : c.offset < chunk.length) (hstep : writeStep chunk c = .ok d) :
    writeLoop chunk c = writeLoop chunk d := by
  rw [writeLoop, dif_pos hlt]
  split
  · rename_i d' hd'
    rw [hstep] at hd'
    cases hd'
    rfl
  · rename_i e he
    rw [hstep] at he
    cases he

theorem writeLoop_throws {e : Framer × FramerError} (hlt : c.offset < chunk.length)
    (hstep : writeStep chunk c = .error e) : writeLoop chunk c = .error e := by
  rw [writeLoop, dif_pos hlt]
  split
  · rename_i d' hd'
    rw [hstep] at hd'
    cases hd'
  · rename_i e' he
    rw [hstep] at he
    cases he
    rfl

theorem writeLoop_end (hend : ¬ c.offset < chunk.length) : writeLoop chunk c = .ok c := by
  rw [writeLoop, dif_neg hend]

end

namespace Framer

def write (f : Framer) (chunk : Bytes) : Except (Framer × FramerError) Framer := do
  if chunk.length = 0 then pure f
  else
    let c ← writeLoop chunk { framer := f, offset := 0, passthroughStart := none }
    pure (c.flushPassthrough chunk).framer

/-- The writes of one response, chunk after chunk. -/
def writeAll (f : Framer) (chunks : List Bytes) : Except (Framer × FramerError) Framer :=
  chunks.foldlM write f

/-- The number of bytes a frame in flight is known to have, once its header is complete. -/
def expectedBytes (f : Framer) : Option Nat :=
  if f.headerBytesRead = 4 then some (1 + readUInt32BE f.headerScratch 0) else none

def receivedBytes (f : Framer) : Nat :=
  match f.expectedBytes with
  | some totalBytes => totalBytes - f.payloadBytesRemaining
  | none => 1 + f.headerBytesRead

def flush (f : Framer) (dropHeldReadyForQuery : Bool := false) : Except (Framer × FramerError) Framer :=
  if f.messageType.isSome then .error (f, .incomplete f.expectedBytes f.receivedBytes)
  else if dropHeldReadyForQuery then .ok f.dropHeldReadyForQuery
  else if f.suppressIntermediateReadyForQuery && f.rfqBytesRead == 6 then
    .ok { f.emitReadyForQuery with rfqBytesRead := 0 }
  else .ok f

end Framer

end PgliteBridge
