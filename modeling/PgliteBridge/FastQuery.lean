import PgliteBridge.Commands
import Mathlib.Logic.Function.Basic

/-!
# FastQuery

The Submittable that runs one named statement.  `submit` sends the extended-protocol messages, the handlers read what
comes back, and `settle` resolves or rejects the promise.

The types object, its parsers and the values are code of the caller: any call of `getTypeParser` or of a parser may
throw, and may do so because of the calls before it.
-/

namespace PgliteBridge.FastQuery

open Commands

structure FastQueryField where
  name : String
  dataTypeID : Nat
  format : Option String
deriving DecidableEq

/-- Errors: those that come from elsewhere, `new Error(text)`, and the `TypeError` for calling a missing parser. -/
inductive JsError (ε : Type)
  | given (error : ε)
  | message (text : String)
  | typeError
deriving DecidableEq

/-- What a `throw` throws. -/
inductive Thrown (ε : Type)
  | error (error : JsError ε)
  /-- Not an `Error`; `String` makes `text` of it. -/
  | value (text : String)
  /-- Not an `Error`, and `String` throws, as it does for `Object.create(null)`. -/
  | inconvertible (thrown : Thrown ε)
deriving DecidableEq

/-- A call of the types object or of one of its parsers. -/
inductive Consultation (π : Type)
  | getTypeParser (oid : Nat) (format : String)
  | parse (parser : π) (raw : String)
deriving DecidableEq

/-- What the calls come to may depend on the calls before. -/
structure Types (π ν ε : Type) where
  getTypeParser : List (Consultation π) → Nat → String → Except (Thrown ε) π
  parse : List (Consultation π) → π → String → Except (Thrown ε) ν

/-- What `prepareValue` makes of a value. -/
inductive Prepared
  | null
  | text (value : String)
  | buffer (bytes : List UInt8)
deriving DecidableEq

structure Config (β π ν ε : Type) where
  name : String
  text : String
  values : List β
  types : Types π ν ε
  prepareValue : β → Except (Thrown ε) Prepared

/-- The messages to the backend. -/
inductive Frontend
  | parse (text name : String)
  | bind (portal statement : String) (values : List Prepared)
  | describe (type : Char) (name : String)
  | execute (portal : String) (rows : Nat)
  | sync
  | copyFail (message : String)
deriving DecidableEq

/-- SQL NULL is `none`. -/
abbrev Row (ν : Type) := List (Option ν)

structure FastQueryResult (ν : Type) where
  rows : List (Row ν)
  fields : List FastQueryField
  rowCount : Option Nat
  command : Option String
  oid : Option Nat
deriving DecidableEq

inductive Settlement (ν ε : Type)
  | resolve (result : FastQueryResult ν)
  | reject (reason : JsError ε)
deriving DecidableEq

structure State (π ν ε : Type) where
  fields : List FastQueryField
  /-- An entry that is not set yet is `none`. -/
  parsers : List (Option π)
  rows : List (Row ν)
  rowCount : Option Nat
  command : Option String
  oid : Option Nat
  describeSent : Bool
  fieldsReceived : Bool
  bufferedError : Option (JsError ε)
  settled : Bool
  /-- The calls of `resolve` and `reject`. -/
  deferred : List (Settlement ν ε)
  fieldsCache : String → Option (List FastQueryField)
  parsedStatements : String → Option String
  sent : List Frontend
  /-- The depth of `cork`. -/
  corked : Nat
  consulted : List (Consultation π)

variable {β π ν ε : Type}

def State.initial (fieldsCache : String → Option (List FastQueryField)) (parsedStatements : String → Option String) :
    State π ν ε where
  fields := []
  parsers := []
  rows := []
  rowCount := none
  command := none
  oid := none
  describeSent := false
  fieldsReceived := false
  bufferedError := none
  settled := false
  deferred := []
  fieldsCache := fieldsCache
  parsedStatements := parsedStatements
  sent := []
  corked := 0
  consulted := []

abbrev Handler (π ν ε α : Type) := Command (State π ν ε) (Thrown ε) α

def get : Handler π ν ε (State π ν ε) := fun s => (.ok s, s)

def update (f : State π ν ε → State π ν ε) : Handler π ν ε Unit := fun s => (.ok (), f s)

def send (message : Frontend) : Handler π ν ε Unit := update fun s => { s with sent := s.sent ++ [message] }

/-! ### Calls of the caller's code -/

def getTypeParser (types : Types π ν ε) (oid : Nat) (format : String) : Handler π ν ε π := fun s =>
  (types.getTypeParser s.consulted oid format, { s with consulted := s.consulted ++ [.getTypeParser oid format] })

/-- `parsers[i](raw)` -/
def callParser (types : Types π ν ε) (parser : Option π) (raw : String) : Handler π ν ε ν := fun s =>
  match parser with
  | none => (.error (.error .typeError), s)
  | some parser => (types.parse s.consulted parser raw, { s with consulted := s.consulted ++ [.parse parser raw] })

/-- `err instanceof Error ? err : new Error(String(err))` -/
def Thrown.asError : Thrown ε → Except (Thrown ε) (JsError ε)
  | .error e => .ok e
  | .value text => .ok (.message text)
  | .inconvertible thrown => .error thrown

def buffer (err : Thrown ε) : Handler π ν ε Unit := fun s =>
  match err.asError with
  | .ok e => (.ok (), { s with bufferedError := some e })
  | .error thrown => (.error thrown, s)

/-- `this.bufferedError ??= …`: the right side is evaluated only where nothing is buffered. -/
def bufferFirst (err : Thrown ε) : Handler π ν ε Unit := do
  let s ← get
  if s.bufferedError.isSome then pure () else buffer err

def resolveParsers (types : Types π ν ε) : Nat → List FastQueryField → Handler π ν ε Unit
  | _, [] => pure ()
  | i, field :: fields => do
    let parser ← getTypeParser types field.dataTypeID (field.format.getD "text")
    update fun s => { s with parsers := s.parsers.set i (some parser) }
    resolveParsers types (i + 1) fields

def applyFields (types : Types π ν ε) (fields : List FastQueryField) : Handler π ν ε Unit := do
  update fun s => { s with fields := fields }
  update fun s => { s with parsers := List.replicate fields.length none }
  resolveParsers types 0 fields

/-! ### submit -/

/-- `connection.bind`; nothing is sent when a value cannot be serialized. -/
def bind (config : Config β π ν ε) : Handler π ν ε Unit := fun s =>
  match config.values.mapM config.prepareValue with
  | .ok values => (.ok (), { s with sent := s.sent ++ [.bind "" config.name values] })
  | .error e => (.error e, s)

/-- What both catches of `submit` do: the recovery. -/
def recover (err : Thrown ε) : Handler π ν ε Bool := do
  buffer err
  send .sync
  pure false

/-- The columns are asked for, or their parsers are resolved if they are known. -/
def describe (config : Config β π ν ε) : Option (List FastQueryField) → Handler π ν ε Bool
  | none => do
    update fun s => { s with describeSent := true }
    send (.describe 'P' "")
    pure true
  | some fields => tryCatch (do applyFields config.types fields; pure true) recover

/-- What follows the Parse in the `try` of `submit`. -/
def bindAndExecute (config : Config β π ν ε) (cachedFields : Option (List FastQueryField)) : Handler π ν ε Unit := do
  let bound ← tryCatch (do bind config; pure true) recover
  if bound then
    let described ← describe config cachedFields
    if described then
      send (.execute "" 0)
      send .sync
    else pure ()
  else pure ()

/-- The `try` of `submit`. -/
def sendQuery (config : Config β π ν ε) (previous : Option String) (cachedFields : Option (List FastQueryField)) :
    Handler π ν ε Unit := do
  if previous = some config.text then pure () else send (.parse config.text config.name)
  bindAndExecute config cachedFields

/-- `try { c } finally { last }`, where `last` does not throw. -/
def ensuring (c : Handler π ν ε Unit) (last : State π ν ε → State π ν ε) : Handler π ν ε Unit := fun s =>
  ((c s).1, last (c s).2)

def notUnique (name : String) : String :=
  "Prepared statements must be unique - '" ++ name ++ "' was used for a different statement"

def submit (config : Config β π ν ε) : Handler π ν ε (Option (JsError ε)) := do
  let s ← get
  let previous := s.parsedStatements config.name
  if previous.isSome && previous != some config.text then pure (some (.message (notUnique config.name)))
  else
    let cachedFields := s.fieldsCache config.name
    update fun s => { s with corked := s.corked + 1 }
    ensuring (sendQuery config previous cachedFields) fun s => { s with corked := s.corked - 1 }
    pure none

/-! ### Handlers -/

def resolve (result : FastQueryResult ν) : Handler π ν ε Unit :=
  update fun s => { s with deferred := s.deferred ++ [.resolve result] }

def reject (reason : JsError ε) : Handler π ν ε Unit :=
  update fun s => { s with deferred := s.deferred ++ [.reject reason] }

def settle (error : Option (JsError ε)) : Handler π ν ε Unit := do
  let s ← get
  if s.settled then pure ()
  else
    update fun s => { s with settled := true }
    match error with
    | some error =>
      update fun s => { s with rows := [] }
      reject error
    | none => resolve { rows := s.rows, fields := s.fields, rowCount := s.rowCount, command := s.command, oid := s.oid }

def handleRowDescription (config : Config β π ν ε) (fields : List FastQueryField) : Handler π ν ε Unit := do
  update fun s => { s with fieldsReceived := true }
  update fun s => { s with fieldsCache := Function.update s.fieldsCache config.name (some fields) }
  tryCatch (applyFields config.types fields) bufferFirst

/-- The loop of `handleDataRow`, over the cells and their parsers. -/
def parseRow (types : Types π ν ε) : List (Option π) → List (Option String) → Handler π ν ε (Row ν)
  | _, [] => pure []
  | parsers, none :: data => do
    let row ← parseRow types parsers.tail data
    pure (none :: row)
  | parsers, some raw :: data => do
    let cell ← callParser types parsers.head?.join raw
    let row ← parseRow types parsers.tail data
    pure (some cell :: row)

def handleDataRow (config : Config β π ν ε) (data : List (Option String)) : Handler π ν ε Unit := do
  let s ← get
  if s.settled || s.bufferedError.isSome then pure ()
  else tryCatch (do
      let row ← parseRow config.types s.parsers data
      update fun s => { s with rows := s.rows ++ [row] }) buffer

/-- `Number.parseInt(digits, 10)` -/
def parseInt (digits : List Char) : Nat := digits.foldl (fun n d => 10 * n + (d.toNat - '0'.toNat)) 0

/-- `(?: (\d+))?` and what follows it. -/
def numberGroup : List Char → Option (List Char) × List Char
  | ' ' :: rest =>
    if (rest.takeWhile Char.isDigit).isEmpty then (none, ' ' :: rest)
    else (some (rest.takeWhile Char.isDigit), rest.dropWhile Char.isDigit)
  | chars => (none, chars)

structure CommandTag where
  command : String
  number : Option (List Char)
  second : Option (List Char)

/-- `COMMAND_TAG.exec` -/
def execCommandTag (text : String) : Option CommandTag :=
  let letters := text.toList.takeWhile Char.isAlpha
  if letters.isEmpty then none
  else
    let first := numberGroup (text.toList.dropWhile Char.isAlpha)
    some { command := String.ofList letters, number := first.1, second := (numberGroup first.2).1 }

def handleCommandComplete (text : String) : Handler π ν ε Unit :=
  match execCommandTag text with
  | none => pure ()
  | some tag => do
    update fun s => { s with command := some tag.command }
    match tag.number, tag.second with
    | some oid, some rowCount =>
      update fun s => { s with oid := some (parseInt oid), rowCount := some (parseInt rowCount) }
    | some rowCount, none => update fun s => { s with rowCount := some (parseInt rowCount) }
    | none, _ => pure ()

def handleEmptyQuery : Handler π ν ε Unit := pure ()

def handlePortalSuspended : Handler π ν ε Unit :=
  bufferFirst (.error (.message "FastQuery received an unexpected PortalSuspended"))

def handleCopyInResponse : Handler π ν ε Unit := send (.copyFail "No source stream defined")

def handleCopyData (_chunk : List UInt8) : Handler π ν ε Unit := pure ()

def handleError (error : JsError ε) : Handler π ν ε Unit := do
  let s ← get
  settle (some (s.bufferedError.getD error))

def handleReadyForQuery (config : Config β π ν ε) : Handler π ν ε Unit := do
  let s ← get
  match s.bufferedError with
  | some e => settle (some e)
  | none =>
    if s.describeSent && !s.fieldsReceived && !s.settled then
      update fun s => { s with fieldsCache := Function.update s.fieldsCache config.name (some []) }
    else pure ()
    settle none

/-! ### What arrives -/

inductive Message (ε : Type)
  | rowDescription (fields : List FastQueryField)
  | dataRow (data : List (Option String))
  | commandComplete (text : String)
  | emptyQuery
  | portalSuspended
  | copyInResponse
  | copyData (chunk : List UInt8)
  | error (error : JsError ε)
  | readyForQuery
deriving DecidableEq

def receive (config : Config β π ν ε) : Message ε → Handler π ν ε Unit
  | .rowDescription fields => handleRowDescription config fields
  | .dataRow data => handleDataRow config data
  | .commandComplete text => handleCommandComplete text
  | .emptyQuery => handleEmptyQuery
  | .portalSuspended => handlePortalSuspended
  | .copyInResponse => handleCopyInResponse
  | .copyData chunk => handleCopyData chunk
  | .error error => handleError error
  | .readyForQuery => handleReadyForQuery config

end PgliteBridge.FastQuery
