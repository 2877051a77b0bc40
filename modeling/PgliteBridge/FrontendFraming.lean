import PgliteBridge.FrontendBuffer
import PgliteBridge.FrontendReference

/-!
# Framing the input of a connection

`_write`, `drain`, `processPreStartup` and `processMessages` of one connection over the chunk queue.  PGlite is a
function from the calls so far to what becomes of the last one.  However a stream is cut into writes, the calls, the
synthetic pushes and the error are those of the reference (`writes_eq_reference`).
-/

namespace PgliteBridge

/-! ### The queue at its head -/

namespace FrontendMessageBuffer

def ConsumeError.message : ConsumeError → String
  | .cannotConsume length totalLength => s!"Cannot consume {length} bytes from {totalLength}-byte buffer"
  | .underflow => "FrontendMessageBuffer underflow"

/-- A whole frame of this length, if it has come. -/
def takeFrame (b : FrontendMessageBuffer) (length : Nat) : Except String (Option (Bytes × FrontendMessageBuffer)) :=
  if b.length < length then .ok none
  else
    match b.consume length with
    | .ok taken => .ok (some taken)
    | .error error => .error error.message

/-- `processPreStartup` up to the call. -/
def takeStartup (b : FrontendMessageBuffer) : Except String (Option (Bytes × FrontendMessageBuffer)) :=
  if b.length < 4 then .ok none
  else
    match b.readUInt32BE 0 with
    | none => .ok none
    | some len =>
      if len < 8 then .error (FramingError.malformedStartup len).message
      else if len > MAX_MESSAGE_LENGTH then .error (FramingError.startupExceedsSanityCap len).message
      else b.takeFrame len

/-- The head of the loop of `processMessages`. -/
def takeMessage (b : FrontendMessageBuffer) : Except String (Option (Bytes × FrontendMessageBuffer)) :=
  if b.length < 5 then .ok none
  else
    match b.readUInt32BE 1 with
    | none => .ok none
    | some msgLen =>
      if msgLen < 4 then .error (FramingError.malformedFrontend msgLen).message
      else if msgLen > MAX_MESSAGE_LENGTH then .error (FramingError.frontendExceedsSanityCap msgLen).message
      else b.takeFrame (1 + msgLen)

/-- The queue gives what its bytes give. -/
def Gives (taken : Except String (Option (Bytes × FrontendMessageBuffer))) : Framing → Prop
  | .incomplete => taken = .ok none
  | .malformed error => taken = .error error.message
  | .message message rest => ∃ b, taken = .ok (some (message, b)) ∧ b.WellFormed ∧ b.bytes = rest

variable {b : FrontendMessageBuffer}

private theorem takeFrame_gives (h : b.WellFormed) (length : Nat) :
    Gives (b.takeFrame length) (if b.bytes.length < length then .incomplete
      else .message (b.bytes.take length) (b.bytes.drop length)) := by
  unfold takeFrame FrontendMessageBuffer.length
  rw [h.total]
  split
  · rfl
  · obtain ⟨b', hconsume, hwf, hbytes⟩ := consume_eq h (show length ≤ b.bytes.length by omega)
    rw [hconsume]
    exact ⟨b', rfl, hwf, hbytes⟩

theorem takeStartup_gives (h : b.WellFormed) : Gives b.takeStartup (PgliteBridge.takeStartup b.bytes) := by
  unfold takeStartup PgliteBridge.takeStartup FrontendMessageBuffer.length
  rw [h.total]
  by_cases hshort : b.bytes.length < 4
  · rw [if_pos hshort, if_pos hshort]
    rfl
  · rw [if_neg hshort, if_neg hshort, readUInt32BE_eq h, if_neg (by omega)]
    dsimp only
    split
    · rfl
    · split
      · rfl
      · exact takeFrame_gives h _

theorem takeMessage_gives (h : b.WellFormed) : Gives b.takeMessage (PgliteBridge.takeMessage b.bytes) := by
  unfold takeMessage PgliteBridge.takeMessage FrontendMessageBuffer.length
  rw [h.total]
  by_cases hshort : b.bytes.length < 5
  · rw [if_pos hshort, if_pos hshort]
    rfl
  · rw [if_neg hshort, if_neg hshort, readUInt32BE_eq h, if_neg (by omega)]
    dsimp only
    split
    · rfl
    · split
      · rfl
      · exact takeFrame_gives h _

end FrontendMessageBuffer

/-! ### The connection -/

/-- A duplex with its chunk queue, the calls it has made, and the error that destroyed it. -/
structure Connection where
  buffer : FrontendMessageBuffer := {}
  duplex : Duplex := {}
  calls : List PGliteCall := []
  error : Option String := none
deriving DecidableEq, Repr

namespace Connection

def stopped (c : Connection) : Bool := c.error.isSome || c.duplex.phase == .terminated

/-- An error ends the drain and destroys the duplex. -/
def fail (c : Connection) (message : String) : Connection :=
  { c with
    buffer := c.buffer.clear
    duplex := { c.duplex with tornDown := true, pipeline := [], copyCapture := none }
    error := some message }

/-- `streamProtocol`. -/
def call (pglite : PGlite) (c : Connection) (batch : Bytes) (mode : RfqMode) : Connection :=
  let calls := c.calls ++ [{ batch, mode }]
  let c := { c with calls }
  match pglite calls with
  | .answered status forwarded =>
    { c with duplex := { c.duplex with
        lastSeenRfqStatus := status <|> c.duplex.lastSeenRfqStatus
        pushed := c.duplex.pushed ++ forwarded.map Push.chunk } }
  | .failed message forwarded =>
    { c with duplex := { c.duplex with pushed := c.duplex.pushed ++ forwarded.map Push.chunk } }.fail message

def processPreStartup (pglite : PGlite) (c : Connection) : Connection :=
  match c.buffer.takeStartup with
  | .error message => c.fail message
  | .ok none => c
  | .ok (some (packet, buffer)) =>
    let c := { c with buffer }.call pglite packet .passthrough
    if c.error.isSome then c else { c with duplex := { c.duplex with phase := .ready } }

/-- A message behind the head of the loop. -/
def processTaken (pglite : PGlite) (c : Connection) (message : Bytes) : Connection :=
  let duplex := (c.duplex.processMessage message).1
  match (c.duplex.processMessage message).2 with
  | .again => { c with duplex }
  | .run batch mode => { c with duplex }.call pglite batch mode
  | .terminate => { c with buffer := c.buffer.clear, duplex := duplex.push .eof }
  | .throw message => { c with duplex }.fail message

/-- `processMessages`; a turn takes five bytes at least, so as many turns as bytes are enough. -/
def processMessages (pglite : PGlite) : (turns : Nat) → Connection → Connection
  | 0, c => c
  | turns + 1, c =>
    match c.buffer.takeMessage with
    | .error message => c.fail message
    | .ok none => c
    | .ok (some (message, buffer)) =>
      let c := { c with buffer }.processTaken pglite message
      if c.stopped then c else processMessages pglite turns c

/-- One turn of the loop of `drain`. -/
def drainOnce (pglite : PGlite) (c : Connection) : Connection :=
  let c := if c.duplex.phase = .preStartup then c.processPreStartup pglite else c
  if c.error.isNone ∧ c.duplex.phase = .ready then c.processMessages pglite c.buffer.length else c

/-- `drain`; a turn that does not end the loop takes a byte at least. -/
def drain (pglite : PGlite) : (turns : Nat) → Connection → Connection
  | 0, c => c
  | turns + 1, c =>
    if c.buffer.length = 0 then c
    else
      let c' := c.drainOnce pglite
      if c'.error.isSome ∨ c'.buffer.length = 0 ∨ c'.buffer.length = c.buffer.length then c'
      else drain pglite turns c'

/-- `_write` of one chunk or `_writev` of several; a destroyed stream is not written to. -/
def write (pglite : PGlite) (c : Connection) (chunks : List Bytes) : Connection :=
  if c.stopped then c
  else
    let buffer := chunks.foldl FrontendMessageBuffer.push c.buffer
    { c with buffer }.drain pglite buffer.length

def initial (cap : Nat) : Connection := { duplex := { copyAggregateCapBytes := cap } }

def writes (cap : Nat) (pglite : PGlite) (chunks : List (List Bytes)) : Connection :=
  chunks.foldl (write pglite) (initial cap)

end Connection

end PgliteBridge
