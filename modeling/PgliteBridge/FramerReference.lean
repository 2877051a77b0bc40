import PgliteBridge.BackendFramer

/-!
# The framer against its frame-level reference

The reference works on complete frames and knows nothing of chunks: every frame is forwarded in order, except that
the first `CopyInResponse` is removed when dropping is armed, `RowDescription` frames are rewritten when rewriting
is on, and under suppression a ReadyForQuery is forwarded only when no frame follows it.

`Reads o goal f pending rem` says that a framer in state `f`, with the bytes `pending` accepted but not yet emitted,
has still to read `rem`, and that doing so and flushing must end with the output and the trace of the `goal`.  The
frames of the goal may be any, a `RowDescription` without its field count among them.
-/

namespace PgliteBridge

/-- A backend frame: a type byte and a payload whose declared length is within the sanity cap. -/
structure BackendFrame where
  type : UInt8
  payload : Bytes
  length_le : payload.length + 4 ≤ MAX_MESSAGE_LENGTH
deriving DecidableEq, Repr

namespace BackendFrame

def header (fr : BackendFrame) : Bytes := encodeUInt32BE (fr.payload.length + 4)

def bytes (fr : BackendFrame) : Bytes := fr.type :: (fr.header ++ fr.payload)

def isReadyForQuery (fr : BackendFrame) : Bool := fr.type == READY_FOR_QUERY && fr.payload.length == 1

/-- The callbacks a frame fires. -/
def events (fr : BackendFrame) : List CallbackEvent :=
  if fr.type = ERROR_RESPONSE then [.errorResponse]
  else if fr.isReadyForQuery then [.readyForQuery (fr.payload.getD 0 0)]
  else []

end BackendFrame

/-- A frame whose `RowDescription` has at least its field count. -/
structure CompleteFrame extends BackendFrame where
  fieldCount : type = ROW_DESCRIPTION → 2 ≤ payload.length

structure FramerOptions where
  suppressIntermediateReadyForQuery : Bool
  rewriteSystemCatalogCharOids : Bool
  dropFirstCopyInResponse : Bool
deriving DecidableEq, Repr

/-! ### The reference -/

/-- What is forwarded of a list of frames; `armed` while the first `CopyInResponse` is still to be dropped. -/
def referenceOutput (o : FramerOptions) : Bool → List CompleteFrame → Bytes
  | _, [] => []
  | armed, fr :: frames =>
    if fr.isReadyForQuery then
      (if o.suppressIntermediateReadyForQuery ∧ frames ≠ [] then [] else fr.bytes) ++
        referenceOutput o armed frames
    else if fr.type = COPY_IN_RESPONSE ∧ armed then referenceOutput o false frames
    else if fr.type = ROW_DESCRIPTION ∧ o.rewriteSystemCatalogCharOids then
      rewriteRowDescriptionInPlace fr.bytes ++ referenceOutput o armed frames
    else fr.bytes ++ referenceOutput o armed frames

def referenceTrace (frames : List CompleteFrame) : List CallbackEvent :=
  frames.flatMap fun fr => fr.events

def frameBytes (frames : List CompleteFrame) : Bytes := frames.flatMap fun fr => fr.bytes

/-! ### Any frames -/

/-- A `RowDescription` without payload, where the rewrite is on: on the slow path its header does not finish it. -/
def BackendFrame.BareRowDescription (o : FramerOptions) (fr : BackendFrame) : Prop :=
  fr.type = ROW_DESCRIPTION ∧ fr.payload = [] ∧ o.rewriteSystemCatalogCharOids = true

/-- What is left of a list of frames once the flush has resolved a held ReadyForQuery: frames are forwarded, rewritten
or dropped. -/
def resolvedOutput (o : FramerOptions) (dropHeld : Bool) : Bool → List BackendFrame → Bytes
  | _, [] => []
  | armed, fr :: frames =>
    if fr.isReadyForQuery then
      (if o.suppressIntermediateReadyForQuery ∧ (frames ≠ [] ∨ dropHeld) then [] else fr.bytes) ++
        resolvedOutput o dropHeld armed frames
    else if fr.type = COPY_IN_RESPONSE ∧ armed then resolvedOutput o dropHeld false frames
    else if fr.type = ROW_DESCRIPTION ∧ o.rewriteSystemCatalogCharOids then
      rewriteRowDescriptionInPlace fr.bytes ++ resolvedOutput o dropHeld armed frames
    else fr.bytes ++ resolvedOutput o dropHeld armed frames

def streamTrace (frames : List BackendFrame) : List CallbackEvent := frames.flatMap BackendFrame.events

def streamBytes (frames : List BackendFrame) : Bytes := frames.flatMap BackendFrame.bytes

theorem referenceOutput_eq (o : FramerOptions) (armed : Bool) (frames : List CompleteFrame) :
    referenceOutput o armed frames = resolvedOutput o false armed (frames.map CompleteFrame.toBackendFrame) := by
  induction frames generalizing armed with
  | nil => rfl
  | cons fr frames ih => simp only [referenceOutput, List.map_cons, resolvedOutput, ih, ne_eq, List.map_eq_nil_iff,
      Bool.false_eq_true, or_false]

theorem referenceTrace_eq (frames : List CompleteFrame) :
    referenceTrace frames = streamTrace (frames.map CompleteFrame.toBackendFrame) :=
  (List.flatMap_map ..).symm

theorem frameBytes_eq (frames : List CompleteFrame) :
    frameBytes frames = streamBytes (frames.map CompleteFrame.toBackendFrame) :=
  (List.flatMap_map ..).symm

/-! ### Frames as bytes -/

namespace BackendFrame

theorem length_header (fr : BackendFrame) : fr.header.length = 4 := rfl

theorem length_bytes (fr : BackendFrame) : fr.bytes.length = fr.payload.length + 5 := by
  simp only [bytes, List.length_cons, List.length_append, length_header]; omega

theorem readUInt32BE_header (fr : BackendFrame) : readUInt32BE fr.header 0 = fr.payload.length + 4 := by
  have := fr.length_le
  unfold MAX_MESSAGE_LENGTH at this
  exact readUInt32BE_encode (by omega)

theorem readUInt32BE_bytes (fr : BackendFrame) (rest : Bytes) :
    readUInt32BE (fr.bytes ++ rest) 1 = fr.payload.length + 4 := fr.readUInt32BE_header

theorem bytes_eq_take (fr : BackendFrame) (h : fr.payload.length = 1) :
    fr.bytes = fr.bytes.take 5 ++ [fr.payload.getD 0 0] := by
  obtain ⟨p, hp⟩ := List.length_eq_one_iff.1 h
  simp [bytes, header, encodeUInt32BE, hp]

end BackendFrame

theorem streamBytes_cons (fr : BackendFrame) (frames : List BackendFrame) :
    streamBytes (fr :: frames) = fr.bytes ++ streamBytes frames := by
  simp [streamBytes]

private theorem streamTrace_cons (fr : BackendFrame) (frames : List BackendFrame) :
    streamTrace (fr :: frames) = fr.events ++ streamTrace frames := by
  simp [streamTrace]

theorem streamBytes_eq_nil {frames : List BackendFrame} (h : streamBytes frames = []) : frames = [] := by
  cases frames with
  | nil => rfl
  | cons fr frames =>
    rw [streamBytes_cons] at h
    simp [BackendFrame.bytes] at h

/-! ### What is still to be read -/

/-- The ReadyForQuery that `flush` will emit. -/
def Framer.heldBytes (f : Framer) : Bytes :=
  if f.suppressIntermediateReadyForQuery && f.rfqBytesRead == 6 then f.heldRfq else []

/-- The part of it that the flush emits. -/
def Framer.resolvedBytes (dropHeld : Bool) (f : Framer) : Bytes := if dropHeld then [] else f.heldBytes

structure FramerWf (o : FramerOptions) (f : Framer) : Prop where
  suppress : f.suppressIntermediateReadyForQuery = o.suppressIntermediateReadyForQuery
  rewrite : f.rewriteSystemCatalogCharOids = o.rewriteSystemCatalogCharOids
  scratch : f.headerScratch.length = 4
  held : f.heldRfq.length = 6

/-- What is still to be emitted of a frame with `m` payload bytes read. -/
inductive Body (f : Framer) (fr : BackendFrame) (m : Nat) : Bytes → Prop
  | dropped (drop : f.droppingMessage = true) (row : f.rowDescBuffer = none) : Body f fr m []
  | rowDescription {buf : Bytes} (drop : f.droppingMessage = false) (row : f.rowDescBuffer = some buf)
      (length : buf.length = fr.bytes.length) (offset : f.rowDescOffset = 5 + m)
      (read : buf.take (5 + m) = fr.bytes.take (5 + m)) : Body f fr m (rewriteRowDescriptionInPlace fr.bytes)
  | plain (drop : f.droppingMessage = false) (row : f.rowDescBuffer = none) : Body f fr m (fr.payload.drop m)

/-- What a stream is to end with. -/
structure StreamGoal where
  dropHeld : Bool
  frames : List BackendFrame
  output : Bytes
  trace : List CallbackEvent

/-- These frames are an end of the stream, and were not heard yet. -/
structure StreamGoal.Heard (goal : StreamGoal) (trace : List CallbackEvent) (frames : List BackendFrame) : Prop where
  trace : trace ++ streamTrace frames = goal.trace
  whole : frames <:+ goal.frames

theorem StreamGoal.Heard.next {goal : StreamGoal} {trace : List CallbackEvent} {fr : BackendFrame}
    {frames : List BackendFrame} (h : goal.Heard trace (fr :: frames)) : goal.Heard (trace ++ fr.events) frames where
  trace := by
    rw [List.append_assoc, ← streamTrace_cons]
    exact h.trace
  whole := (List.suffix_cons fr frames).trans h.whole

inductive Reads (o : FramerOptions) (goal : StreamGoal) (f : Framer) :
    Bytes → Bytes → Prop
  | boundary {pending rem : Bytes} {frames : List BackendFrame} (hrem : rem = streamBytes frames)
      (wf : FramerWf o f) (type : f.messageType = none) (row : f.rowDescBuffer = none)
      (drop : f.droppingMessage = false)
      (rfq : f.rfqBytesRead = 0 ∨ o.suppressIntermediateReadyForQuery = true ∧ f.rfqBytesRead = 6)
      (hout : f.emitted.flatten ++ pending ++ (if frames = [] then f.resolvedBytes goal.dropHeld else []) ++
        resolvedOutput o goal.dropHeld f.dropNextCopyInResponse frames = goal.output)
      (heard : goal.Heard f.trace frames) : Reads o goal f pending rem
  | header {rem : Bytes} {fr : BackendFrame} {frames : List BackendFrame}
      (hrem : rem = fr.header.drop f.headerBytesRead ++ fr.payload ++ streamBytes frames)
      (wf : FramerWf o f) (type : f.messageType = some fr.type) (row : f.rowDescBuffer = none)
      (lt : f.headerBytesRead < 4)
      (scratch : f.headerScratch.take f.headerBytesRead = fr.header.take f.headerBytesRead)
      (rfq : fr.type = READY_FOR_QUERY → f.rfqBytesRead = 1 + f.headerBytesRead ∧
        f.heldRfq.take (1 + f.headerBytesRead) = fr.bytes.take (1 + f.headerBytesRead))
      (drop : f.droppingMessage = true → fr.type = COPY_IN_RESPONSE)
      (armed : fr.type = COPY_IN_RESPONSE → f.dropNextCopyInResponse = false)
      (hout : f.emitted.flatten ++
        resolvedOutput o goal.dropHeld (f.droppingMessage || f.dropNextCopyInResponse) (fr :: frames) = goal.output)
      (heard : goal.Heard f.trace (fr :: frames)) : Reads o goal f [] rem
  | readyForQuery {rem : Bytes} {fr : BackendFrame} {frames : List BackendFrame}
      (hrem : rem = fr.payload ++ streamBytes frames)
      (wf : FramerWf o f) (type : f.messageType = some fr.type) (row : f.rowDescBuffer = none)
      (drop : f.droppingMessage = false) (read : f.headerBytesRead = 4)
      (isRfq : fr.isReadyForQuery = true) (rfqFrame : f.rfqFrame = true) (remaining : f.payloadBytesRemaining = 1)
      (rfq : f.rfqBytesRead = 5) (held : f.heldRfq.take 5 = fr.bytes.take 5)
      (hout : f.emitted.flatten ++ resolvedOutput o goal.dropHeld f.dropNextCopyInResponse (fr :: frames) = goal.output)
      (heard : goal.Heard f.trace (fr :: frames)) : Reads o goal f [] rem
  | payload {rem : Bytes} {fr : BackendFrame} {frames : List BackendFrame} {m : Nat} {rest : Bytes}
      (hrem : rem = fr.payload.drop m ++ streamBytes frames)
      (wf : FramerWf o f) (type : f.messageType = some fr.type) (read : f.headerBytesRead = 4)
      (rfqFrame : f.rfqFrame = false) (rfq : f.rfqBytesRead = 0)
      (remaining : f.payloadBytesRemaining = fr.payload.length - m)
      (lt : m < fr.payload.length ∨ m = 0 ∧ fr.BareRowDescription o) (whole : fr :: frames <:+ goal.frames)
      (body : Body f fr m rest)
      (hout : f.emitted.flatten ++ rest ++ resolvedOutput o goal.dropHeld f.dropNextCopyInResponse frames = goal.output)
      (heard : goal.Heard f.trace frames) : Reads o goal f [] rem

end PgliteBridge
