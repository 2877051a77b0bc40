import Mathlib.Algebra.Order.Ring.Rat
import PgliteBridge.Machine
import PgliteBridge.StatementKind

/-!
# The query trail

`QueryTrailRecorder` (`pool/query-trail.ts`).  Entries and arrays are shared by reference: a handle settles its entry
long after the ring dropped it, and `entries` copies the ring.  So both live in heaps, and the ring, the handles and the
arrays that were returned are places in them.
-/

namespace PgliteBridge.QueryTrail

open Deallocate

/-! ### Options -/

/-- A number, up to the precision of its finite values. -/
inductive JsNumber
  | finite (value : ℚ)
  | posInfinity
  | negInfinity
  | nan
deriving DecidableEq

namespace JsNumber

/-- `length >= n`. -/
def reachedBy (n : JsNumber) (length : Nat) : Bool :=
  match n with
  | finite value => value ≤ length
  | posInfinity => false
  | negInfinity => true
  | nan => false

/-- `length > n`. -/
def exceededBy (n : JsNumber) (length : Nat) : Bool :=
  match n with
  | finite value => value < length
  | posInfinity => false
  | negInfinity => true
  | nan => false

end JsNumber

/-- `text.slice(0, n)`, which cuts the fraction of `n` off. -/
def sliceTo (text : Text) : JsNumber → Text
  | .finite value =>
    if value ≤ -1 then text.take (text.length - (-value).floor.toNat) else text.take value.floor.toNat
  | .posInfinity => text
  | .negInfinity => []
  | .nan => []

def DEFAULT_TRAIL_MAX_ENTRIES : JsNumber := .finite 500
def DEFAULT_TRAIL_MAX_PARAM_CHARS : JsNumber := .finite 200
def TRAIL_SQL_MAX_CHARS : Nat := 2000
def ERROR_MESSAGE_MAX_CHARS : Nat := 500

/-- ` … [capped]` -/
def SQL_CAP_MARKER : Text := units " " ++ [0x2026] ++ units " [capped]"

def DISABLED_SENTINEL_SQL : Text := units "<trail capture disabled>"

structure QueryTrailOptions where
  maxEntries : Option JsNumber := none
  maxParamChars : Option JsNumber := none
  redactParams : Bool := false

/-! ### Previews -/

/-- A parameter as far as its preview sees it; `none` where the conversion throws. -/
inductive ParamValue
  | null
  | undefined
  | bytes (byteLength : Nat)
  | date (iso : Option Text)
  | string (text : Text)
  | other (rendered : Option Text)

def previewParam (value : ParamValue) (maxParamChars : JsNumber) : Option Text :=
  let capped := fun rendered : Text =>
    if maxParamChars.exceededBy rendered.length then sliceTo rendered maxParamChars else rendered
  match value with
  | .null => some (units "<null>")
  | .undefined => some (units "<undefined>")
  | .bytes byteLength => some (units "<bytes:" ++ units (toString byteLength) ++ units ">")
  | .date iso => iso
  | .string text => some (capped text)
  | .other rendered => rendered.map capped

def renderParams (redactParams : Bool) (maxParamChars : JsNumber) (values : Option (List ParamValue)) :
    Option (List Text) :=
  match values with
  | none => some []
  | some values =>
    if redactParams then some (values.map fun _ => units "<redacted>")
    else values.mapM fun value => previewParam value maxParamChars

def capSql (sql : Text) : Text :=
  if sql.length ≤ TRAIL_SQL_MAX_CHARS then sql
  else sql.take (TRAIL_SQL_MAX_CHARS - SQL_CAP_MARKER.length) ++ SQL_CAP_MARKER

structure QueryTrailError where
  code : Option Text
  message : Text
deriving DecidableEq, Repr

/-- What was thrown, as far as its preview sees it: `none` where reading it throws, and a code that is no string is
left out. -/
structure ThrownValue where
  rawMessage : Option Text
  code : Option (Option Text)

def previewError (error : ThrownValue) : Option QueryTrailError := do
  let rawMessage ← error.rawMessage
  let message :=
    if rawMessage.length > ERROR_MESSAGE_MAX_CHARS then rawMessage.take ERROR_MESSAGE_MAX_CHARS else rawMessage
  let code ← error.code
  some { code, message }

/-! ### The recorder -/

/-- Times in milliseconds; `roundHundredths` is `Math.round(x * 100) / 100`. -/
class Millis (δ : Type) extends Sub δ, Zero δ where
  roundHundredths : δ → δ

inductive EntryStatus
  | pending
  | settled
deriving DecidableEq, Repr

structure QueryTrailEntry (δ : Type) where
  seq : Nat
  atMs : δ
  clientId : Int
  sql : Text
  params : List Text
  kind : QueryTrailKind
  status : EntryStatus
  durationMs : Option δ := none
  rowCount : Option (Option Int) := none
  error : Option QueryTrailError := none

inductive TrailWarning
  | overflowed (maxEntries : JsNumber)
  | captureFailed
deriving DecidableEq

inductive QueryTrailHandle
  | entry (id : Nat)
  | inert
deriving DecidableEq, Repr

structure SettleOutcome where
  rowCount : Option (Option Int) := none
  error : Option ThrownValue := none

structure QueryTrailRecorder (δ : Type) where
  maxEntries : JsNumber
  maxParamChars : JsNumber
  redactParams : Bool
  startMs : δ
  /-- Where the ring is among the arrays. -/
  ring : Nat := 0
  nextSeq : Nat := 0
  nextClientId : Nat := 0
  droppedCount : Nat := 0
  overflowWarned : Bool := false
  disabledAfterSeq : Option Nat := none
  entryHeap : List (QueryTrailEntry δ) := []
  arrayHeap : List (List Nat) := [[]]
  stderr : List TrailWarning := []

namespace QueryTrailRecorder

variable {δ : Type} [Millis δ]

def create (options : QueryTrailOptions) (now : δ) : QueryTrailRecorder δ where
  maxEntries := options.maxEntries.getD DEFAULT_TRAIL_MAX_ENTRIES
  maxParamChars := options.maxParamChars.getD DEFAULT_TRAIL_MAX_PARAM_CHARS
  redactParams := options.redactParams
  startMs := now

/-- What an array holds. -/
def array (r : QueryTrailRecorder δ) (id : Nat) : List Nat := r.arrayHeap.getD id []

def ringEntries (r : QueryTrailRecorder δ) : List Nat := r.array r.ring

def modifyRing (r : QueryTrailRecorder δ) (f : List Nat → List Nat) : QueryTrailRecorder δ :=
  { r with arrayHeap := r.arrayHeap.modify r.ring f }

def push (r : QueryTrailRecorder δ) (entry : QueryTrailEntry δ) : QueryTrailRecorder δ :=
  let id := r.entryHeap.length
  let r := { r with entryHeap := r.entryHeap ++ [entry] }
  let r :=
    if r.maxEntries.reachedBy r.ringEntries.length then
      let r := { r.modifyRing List.tail with droppedCount := r.droppedCount + 1 }
      if r.overflowWarned then r
      else { r with overflowWarned := true, stderr := r.stderr ++ [.overflowed r.maxEntries] }
    else r
  r.modifyRing (· ++ [id])

def disable (r : QueryTrailRecorder δ) (now : δ) : QueryTrailRecorder δ × QueryTrailHandle :=
  let seq := r.nextSeq
  let r := { r with nextSeq := r.nextSeq + 1, disabledAfterSeq := some seq }
  let r := r.push
    { seq
      atMs := now - r.startMs
      clientId := -1
      sql := DISABLED_SENTINEL_SQL
      params := []
      kind := .query
      status := .settled
      durationMs := some 0 }
  ({ r with stderr := r.stderr ++ [.captureFailed] }, .inert)

def begin (r : QueryTrailRecorder δ) (clientId : Int) (sql : Text) (values : Option (List ParamValue)) (now : δ) :
    QueryTrailRecorder δ × QueryTrailHandle :=
  if r.disabledAfterSeq.isSome then (r, .inert)
  else match renderParams r.redactParams r.maxParamChars values with
  | none => r.disable now
  | some params =>
    (({ r with nextSeq := r.nextSeq + 1 } : QueryTrailRecorder δ).push
      { seq := r.nextSeq
        atMs := now - r.startMs
        clientId
        sql := capSql sql
        params
        kind := deriveKind sql
        status := .pending },
      .entry r.entryHeap.length)

/-- What `settle` makes of its entry. -/
def settleEntry (startMs : δ) (outcome : SettleOutcome) (now : δ) (entry : QueryTrailEntry δ) : QueryTrailEntry δ :=
  if entry.status = .settled then entry
  else
    { entry with
      status := .settled
      durationMs := some (Millis.roundHundredths (now - startMs - entry.atMs))
      rowCount := outcome.rowCount
      error := outcome.error.bind previewError }

/-- Whether the preview of the error throws out of `settle`. -/
def settleThrows (r : QueryTrailRecorder δ) (id : Nat) (outcome : SettleOutcome) : Bool :=
  (r.entryHeap[id]?.any fun entry => entry.status = .pending) &&
    outcome.error.any fun error => (previewError error).isNone

def settle (r : QueryTrailRecorder δ) (handle : QueryTrailHandle) (outcome : SettleOutcome) (now : δ) :
    QueryTrailRecorder δ :=
  match handle with
  | .inert => r
  | .entry id => { r with entryHeap := r.entryHeap.modify id (settleEntry r.startMs outcome now) }

/-- `[...this.#ring]`. -/
def entries (r : QueryTrailRecorder δ) : QueryTrailRecorder δ × Nat :=
  ({ r with arrayHeap := r.arrayHeap ++ [r.ringEntries] }, r.arrayHeap.length)

def clear (r : QueryTrailRecorder δ) (now : δ) : QueryTrailRecorder δ :=
  { r with
    arrayHeap := r.arrayHeap ++ [[]]
    ring := r.arrayHeap.length
    nextSeq := 0
    droppedCount := 0
    startMs := now
    overflowWarned := false
    disabledAfterSeq := none }

end QueryTrailRecorder

/-! ### Calls -/

inductive TrailCall (δ : Type)
  | registerClient
  | begin (clientId : Int) (sql : Text) (values : Option (List ParamValue)) (now : δ)
  | settle (handle : QueryTrailHandle) (outcome : SettleOutcome) (now : δ)
  | entries
  | trailMeta
  | clear (now : δ)

inductive TrailAnswer
  | client (ordinal : Nat)
  | handle (handle : QueryTrailHandle)
  | settled (threw : Bool)
  | array (id : Nat)
  | trailMeta (droppedCount : Nat) (disabledAfterSeq : Option Nat)
  | cleared
deriving DecidableEq, Repr

namespace QueryTrailRecorder

variable {δ : Type} [Millis δ]

def settles (r : QueryTrailRecorder δ) (handle : QueryTrailHandle) (outcome : SettleOutcome) : Bool :=
  match handle with
  | .inert => false
  | .entry id => r.settleThrows id outcome

def call : Machine (QueryTrailRecorder δ) (TrailCall δ) TrailAnswer
  | r, .registerClient => ({ r with nextClientId := r.nextClientId + 1 }, .client r.nextClientId)
  | r, .begin clientId sql values now =>
    ((r.begin clientId sql values now).1, .handle (r.begin clientId sql values now).2)
  | r, .settle handle outcome now => (r.settle handle outcome now, .settled (r.settles handle outcome))
  | r, .entries => (r.entries.1, .array r.entries.2)
  | r, .trailMeta => (r, .trailMeta r.droppedCount r.disabledAfterSeq)
  | r, .clear now => (r.clear now, .cleared)

end QueryTrailRecorder

end PgliteBridge.QueryTrail
