import PgliteBridge.JsonRoundTrip
import PgliteBridge.QueryTrailRing

/-!
# Printing the query trail

`pool/query-trail-format.ts`, and the failure hook that prints a trail (`testing/query-trail-hook.ts`).  The JSON format
is read back line by line (`readTrail`): whatever was captured, a text cut within a surrogate pair included, the reader
has it again, and knows how many entries came before.
-/

namespace PgliteBridge.QueryTrail

open Deallocate

/-- How a time is written as a number, and read again. -/
class JsonMillis (δ : Type) where
  numeral : δ → Json.Numeral
  read : Json.Numeral → Option δ
  read_numeral : ∀ x, read (numeral x) = some x

/-! ### The format -/

def TRAIL_FORMAT_VERSION : Int := 1

inductive TrailFormat
  | human
  | json
deriving DecidableEq, Repr

structure FormatQueryTrailOptions where
  testName : Option Text := none
  format : Option TrailFormat := none

structure QueryTrailMeta where
  droppedCount : Nat
  disabledAfterSeq : Option Nat
deriving DecidableEq, Repr

def QueryTrailKind.text : QueryTrailKind → Text
  | .query => units "query"
  | .begin => units "begin"
  | .commit => units "commit"
  | .rollback => units "rollback"
  | .rollbackTo => units "rollback-to"
  | .savepoint => units "savepoint"
  | .release => units "release"

def EntryStatus.text : EntryStatus → Text
  | .pending => units "pending"
  | .settled => units "settled"

section Format

variable {δ : Type} [JsonMillis δ]

def humanHeader (count : Nat) (trailMeta : QueryTrailMeta) (testName : Option Text) : Text :=
  units "pglite-bridge query trail " ++ [0x2014] ++ units " " ++ Json.decimal count ++ units " queries" ++
    (if trailMeta.droppedCount > 0 then units ", " ++ Json.decimal trailMeta.droppedCount ++ units " dropped"
      else []) ++
    (match trailMeta.disabledAfterSeq with
      | some seq => units ", disabled after entry " ++ Json.decimal seq
      | none => []) ++
    (match testName with
      | some name => units " " ++ [0x2014] ++ units " test \"" ++ name ++ units "\""
      | none => [])

/-- ` · ` -/
def SEPARATOR : Text := units " " ++ [0xb7] ++ units " "

def humanEntryLine (entry : QueryTrailEntry δ) : Text :=
  let duration :=
    if entry.status = .pending then units "pending"
    else (entry.durationMs.elim (units "undefined") fun ms => (JsonMillis.numeral ms).text) ++ units "ms"
  let kind := entry.kind.text.map upper
  let base := units "#" ++ Json.decimal entry.seq ++ units " c" ++ Json.integerText entry.clientId ++ units " " ++
    duration ++ units " " ++ kind ++ SEPARATOR ++ entry.sql
  if entry.params.isEmpty then base
  else base ++ SEPARATOR ++ units "[" ++ (units ", ").intercalate entry.params ++ units "]"

def humanErrorLine (error : QueryTrailError) : Text :=
  units "    " ++ [0x21b3] ++ units " error" ++ (error.code.elim [] fun code => units " " ++ code) ++ units ": " ++
    error.message

def formatHuman (entries : List (QueryTrailEntry δ)) (trailMeta : QueryTrailMeta) (testName : Option Text) : Text :=
  [lineFeed].intercalate (humanHeader entries.length trailMeta testName ::
    entries.flatMap fun entry => humanEntryLine entry :: (entry.error.map humanErrorLine).toList)

def headerProperties (trailMeta : QueryTrailMeta) (testName : Option Text) : List (Text × Option Json.Value) :=
  [(units "type", some (.string (units "trail-header"))),
    (units "formatVersion", some (.number (.ofInt TRAIL_FORMAT_VERSION))),
    (units "testName", testName.map .string),
    (units "droppedCount", some (.number (.ofInt trailMeta.droppedCount))),
    (units "disabled", some (match trailMeta.disabledAfterSeq with
      | none => .bool false
      | some seq => .number (.ofInt seq)))]

def errorProperties (error : QueryTrailError) : List (Text × Option Json.Value) :=
  [(units "code", error.code.map .string), (units "message", some (.string error.message))]

/-- The properties of an entry in the order in which `begin` and `settle` make them. -/
def entryProperties (entry : QueryTrailEntry δ) : List (Text × Option Json.Value) :=
  [(units "seq", some (.number (.ofInt entry.seq))),
    (units "atMs", some (.number (JsonMillis.numeral entry.atMs))),
    (units "clientId", some (.number (.ofInt entry.clientId))),
    (units "sql", some (.string entry.sql)),
    (units "params", some (.array (entry.params.map .string))),
    (units "kind", some (.string entry.kind.text)),
    (units "status", some (.string entry.status.text)),
    (units "durationMs", entry.durationMs.map fun ms => .number (JsonMillis.numeral ms)),
    (units "rowCount", entry.rowCount.map fun count => count.elim .null fun count => .number (.ofInt count)),
    (units "error", entry.error.map fun error => .record (errorProperties error))]

def formatJson (entries : List (QueryTrailEntry δ)) (trailMeta : QueryTrailMeta) (testName : Option Text) : Text :=
  [lineFeed].intercalate ((Json.Value.record (headerProperties trailMeta testName) ::
    entries.map fun entry => .record (entryProperties entry)).map Json.stringify)

def formatQueryTrail (entries : List (QueryTrailEntry δ)) (trailMeta : QueryTrailMeta)
    (options : FormatQueryTrailOptions) : Text :=
  if options.format = some .json then formatJson entries trailMeta options.testName
  else formatHuman entries trailMeta options.testName

/-- The entries that the ring refers to. -/
def QueryTrailRecorder.contents (r : QueryTrailRecorder δ) : List (QueryTrailEntry δ) :=
  r.ringEntries.filterMap fun id => r.entryHeap[id]?

def QueryTrailRecorder.trailMeta (r : QueryTrailRecorder δ) : QueryTrailMeta where
  droppedCount := r.droppedCount
  disabledAfterSeq := r.disabledAfterSeq

/-- What the hook of `registerTrailFailureHook` writes to stderr. -/
def failureReport (r : QueryTrailRecorder δ) (format : TrailFormat) (taskName : Text) : Text :=
  formatQueryTrail r.contents r.trailMeta { testName := some taskName, format := some format } ++ [lineFeed]

end Format

/-! ### Reading a trail -/

structure TrailHeader where
  testName : Option Text
  trailMeta : QueryTrailMeta
deriving DecidableEq, Repr

def readText : Json.Value → Option Text
  | .string s => some s
  | _ => none

def readInt : Json.Value → Option Int
  | .number n => Json.readInteger n.text
  | _ => none

def readNat (v : Json.Value) : Option Nat :=
  match readInt v with
  | some (.ofNat n) => some n
  | _ => none

def readTexts : Json.Value → Option (List Text)
  | .array items => items.mapM readText
  | _ => none

def readKind (v : Json.Value) : Option QueryTrailKind := do
  let text ← readText v
  [.query, .begin, .commit, .rollback, .rollbackTo, .savepoint, .release].find? fun kind => kind.text = text

def readStatus (v : Json.Value) : Option EntryStatus := do
  let text ← readText v
  [.pending, .settled].find? fun status => status.text = text

def readRowCount : Json.Value → Option (Option Int)
  | .null => some none
  | v => (readInt v).map some

def readError (v : Json.Value) : Option QueryTrailError := do
  let code ← (v.property (units "code")).mapM readText
  let message ← (v.property (units "message")).bind readText
  some { code, message }

def readDisabled : Json.Value → Option (Option Nat)
  | .bool false => some none
  | v => (readNat v).map some

def readHeader (v : Json.Value) : Option TrailHeader := do
  let type ← (v.property (units "type")).bind readText
  let formatVersion ← (v.property (units "formatVersion")).bind readInt
  let testName ← (v.property (units "testName")).mapM readText
  let droppedCount ← (v.property (units "droppedCount")).bind readNat
  let disabledAfterSeq ← (v.property (units "disabled")).bind readDisabled
  if type = units "trail-header" ∧ formatVersion = TRAIL_FORMAT_VERSION then
    some { testName, trailMeta := { droppedCount, disabledAfterSeq } }
  else none

section Read

variable {δ : Type} [JsonMillis δ]

def readMillis : Json.Value → Option δ
  | .number n => JsonMillis.read n
  | _ => none

def readEntry (v : Json.Value) : Option (QueryTrailEntry δ) := do
  let seq ← (v.property (units "seq")).bind readNat
  let atMs ← (v.property (units "atMs")).bind readMillis
  let clientId ← (v.property (units "clientId")).bind readInt
  let sql ← (v.property (units "sql")).bind readText
  let params ← (v.property (units "params")).bind readTexts
  let kind ← (v.property (units "kind")).bind readKind
  let status ← (v.property (units "status")).bind readStatus
  let durationMs ← (v.property (units "durationMs")).mapM readMillis
  let rowCount ← (v.property (units "rowCount")).mapM readRowCount
  let error ← (v.property (units "error")).mapM readError
  some { seq, atMs, clientId, sql, params, kind, status, durationMs, rowCount, error }

/-- `text.split('\n')`, and `JSON.parse` of every line. -/
def readTrail (text : Text) : Option (TrailHeader × List (QueryTrailEntry δ)) :=
  match text.splitOn lineFeed with
  | [] => none
  | header :: lines => do
    let header ← (Json.parse header).bind readHeader
    let entries ← lines.mapM fun line => (Json.parse line).bind readEntry
    some (header, entries)

/-! ### What was printed -/

private theorem readInt_ofInt (i : Int) : readInt (.number (.ofInt i)) = some i := Json.readInteger_ofInt i

private theorem readNat_ofInt (n : Nat) : readNat (.number (.ofInt n)) = some n := by
  unfold readNat
  rw [readInt_ofInt]

private theorem readMillis_numeral (x : δ) : readMillis (.number (JsonMillis.numeral x)) = some x :=
  JsonMillis.read_numeral x

/-- What is written of each is read of each. -/
private theorem mapM_map_list {α β : Type} {f : α → β} {g : β → Option α} (h : ∀ a, g (f a) = some a) (l : List α) :
    (l.map f).mapM g = some l := by
  induction l with
  | nil => rfl
  | cons a l ih =>
    rw [List.map_cons, List.mapM_cons, h, ih]
    rfl

private theorem readTexts_strings (texts : List Text) : readTexts (.array (texts.map .string)) = some texts := by
  have htext : ∀ text, readText (.string text) = some text := fun _ => rfl
  exact mapM_map_list htext texts

private theorem readKind_text (kind : QueryTrailKind) : readKind (.string kind.text) = some kind := by
  cases kind <;> decide

private theorem readStatus_text (status : EntryStatus) : readStatus (.string status.text) = some status := by
  cases status <;> decide

private theorem readRowCount_number (count : Option Int) :
    readRowCount (count.elim .null fun count => .number (.ofInt count)) = some count := by
  cases count with
  | none => rfl
  | some count => exact congrArg (Option.map some) (readInt_ofInt count)

private theorem readDisabled_value (disabledAfterSeq : Option Nat) : readDisabled (match disabledAfterSeq with
    | none => .bool false
    | some seq => .number (.ofInt seq)) = some disabledAfterSeq := by
  cases disabledAfterSeq with
  | none => rfl
  | some seq => exact congrArg (Option.map some) (readNat_ofInt seq)

/-- What is written where there is something is read where it is. -/
private theorem mapM_map {α : Type} {f : α → Json.Value} {g : Json.Value → Option α} (h : ∀ a, g (f a) = some a)
    (o : Option α) : (o.map f).mapM g = some o := by
  cases o with
  | none => rfl
  | some a =>
    simp [h]

private theorem readError_record (error : QueryTrailError) :
    readError (.record (errorProperties error)) = some error := by
  have hnodup : ((errorProperties error).map Prod.fst).Nodup := by
    change [units "code", units "message"].Nodup
    decide
  have hcode : (Json.Value.record (errorProperties error)).property (units "code") = error.code.map .string :=
    Json.property_record hnodup _
  have hmessage : (Json.Value.record (errorProperties error)).property (units "message") =
      some (.string error.message) := Json.property_record hnodup _
  unfold readError
  rw [hcode, hmessage, mapM_map (g := readText) fun _ => rfl]
  rfl

private theorem readHeader_record (trailMeta : QueryTrailMeta) (testName : Option Text) :
    readHeader (.record (headerProperties trailMeta testName)) = some { testName, trailMeta } := by
  have hnodup : ((headerProperties trailMeta testName).map Prod.fst).Nodup := by
    change [units "type", units "formatVersion", units "testName", units "droppedCount", units "disabled"].Nodup
    decide
  have hproperty := Json.property_record hnodup
  have htype : (Json.Value.record (headerProperties trailMeta testName)).property (units "type") =
      some (.string (units "trail-header")) := hproperty _
  have hversion : (Json.Value.record (headerProperties trailMeta testName)).property (units "formatVersion") =
      some (.number (.ofInt TRAIL_FORMAT_VERSION)) := hproperty _
  have hname : (Json.Value.record (headerProperties trailMeta testName)).property (units "testName") =
      testName.map .string := hproperty _
  have hdropped : (Json.Value.record (headerProperties trailMeta testName)).property (units "droppedCount") =
      some (.number (.ofInt trailMeta.droppedCount)) := hproperty _
  have hdisabled : (Json.Value.record (headerProperties trailMeta testName)).property (units "disabled") =
      some (match trailMeta.disabledAfterSeq with
        | none => .bool false
        | some seq => .number (.ofInt seq)) := hproperty _
  unfold readHeader
  rw [htype, hversion, hname, hdropped, hdisabled, mapM_map (g := readText) fun _ => rfl]
  simp only [Option.bind_some, readInt_ofInt, readNat_ofInt, readDisabled_value, Option.bind_eq_bind, readText,
    and_self, ↓reduceIte]

private theorem readEntry_record (entry : QueryTrailEntry δ) :
    readEntry (.record (entryProperties entry)) = some entry := by
  have hnodup : ((entryProperties entry).map Prod.fst).Nodup := by
    change [units "seq", units "atMs", units "clientId", units "sql", units "params", units "kind", units "status",
      units "durationMs", units "rowCount", units "error"].Nodup
    decide
  have hproperty := Json.property_record hnodup
  have hseq : (Json.Value.record (entryProperties entry)).property (units "seq") =
      some (.number (.ofInt entry.seq)) := hproperty _
  have hatMs : (Json.Value.record (entryProperties entry)).property (units "atMs") =
      some (.number (JsonMillis.numeral entry.atMs)) := hproperty _
  have hclient : (Json.Value.record (entryProperties entry)).property (units "clientId") =
      some (.number (.ofInt entry.clientId)) := hproperty _
  have hsql : (Json.Value.record (entryProperties entry)).property (units "sql") = some (.string entry.sql) :=
    hproperty _
  have hparams : (Json.Value.record (entryProperties entry)).property (units "params") =
      some (.array (entry.params.map .string)) := hproperty _
  have hkind : (Json.Value.record (entryProperties entry)).property (units "kind") =
      some (.string entry.kind.text) := hproperty _
  have hstatus : (Json.Value.record (entryProperties entry)).property (units "status") =
      some (.string entry.status.text) := hproperty _
  have hduration : (Json.Value.record (entryProperties entry)).property (units "durationMs") =
      entry.durationMs.map fun ms => .number (JsonMillis.numeral ms) := hproperty _
  have hcount : (Json.Value.record (entryProperties entry)).property (units "rowCount") =
      entry.rowCount.map fun count => count.elim .null fun count => .number (.ofInt count) := hproperty _
  have herror : (Json.Value.record (entryProperties entry)).property (units "error") =
      entry.error.map fun error => .record (errorProperties error) := hproperty _
  unfold readEntry
  rw [hseq, hatMs, hclient, hsql, hparams, hkind, hstatus, hduration, hcount, herror,
    mapM_map (g := readMillis) readMillis_numeral, mapM_map readRowCount_number, mapM_map readError_record]
  simp only [Option.bind_some, readInt_ofInt, readNat_ofInt, readMillis_numeral, readTexts_strings, readKind_text,
    readStatus_text, Option.bind_eq_bind, readText]

private theorem not_lineFeed_mem (v : Json.Value) : lineFeed ∉ Json.stringify v := fun hmem =>
  (Json.printable_stringify v).plain lineFeed hmem (by decide)

private theorem readTrail_formatJson (entries : List (QueryTrailEntry δ)) (trailMeta : QueryTrailMeta)
    (testName : Option Text) :
    readTrail (formatJson entries trailMeta testName) = some ({ testName, trailMeta }, entries) := by
  have hline : ∀ entry : QueryTrailEntry δ,
      (Json.parse (Json.stringify (.record (entryProperties entry)))).bind readEntry = some entry := by
    intro entry
    rw [Json.parse_stringify, Option.bind_some, readEntry_record]
  have hlines : ((entries.map fun entry => .record (entryProperties entry)).map Json.stringify).mapM
      (fun line => (Json.parse line).bind readEntry) = some entries := by
    rw [List.map_map]
    exact mapM_map_list (g := fun line => (Json.parse line).bind readEntry) hline entries
  have hnot : ∀ line ∈ (Json.Value.record (headerProperties trailMeta testName) ::
      entries.map fun entry => .record (entryProperties entry)).map Json.stringify, lineFeed ∉ line := by
    intro line hmem
    obtain ⟨v, -, rfl⟩ := List.mem_map.mp hmem
    exact not_lineFeed_mem v
  unfold formatJson readTrail
  rw [List.splitOn_intercalate lineFeed hnot (by simp), List.map_cons]
  simp only [Json.parse_stringify, Option.bind_some, readHeader_record, Option.bind_eq_bind, hlines]

private theorem wellFormed_formatJson (entries : List (QueryTrailEntry δ)) (trailMeta : QueryTrailMeta)
    (testName : Option Text) : Json.wellFormed (formatJson entries trailMeta testName) = true := by
  refine Json.wellFormed_intercalate (by decide) fun line hmem => ?_
  obtain ⟨v, -, rfl⟩ := List.mem_map.mp hmem
  exact (Json.printable_stringify v).wellFormed

end Read

/-! ### The report of a run -/

variable {δ : Type} [Millis δ] [JsonMillis δ]

/-- What a reader has of the report on a failed test: the end of the trail, numbered from what was dropped on. -/
structure Reported (t : Trail) (r : QueryTrailRecorder δ) (taskName : Text) : Prop where
  read : ∃ text, failureReport r .json taskName = text ++ [lineFeed] ∧ Json.wellFormed text = true ∧
    readTrail text = some ({ testName := some taskName, trailMeta := r.trailMeta }, r.contents)
  numbered : r.contents.map QueryTrailEntry.seq = List.range' r.trailMeta.droppedCount r.contents.length
  balanced : r.trailMeta.droppedCount + r.contents.length = t.appended
  disabled : r.trailMeta.disabledAfterSeq.isSome = t.failed

omit [Millis δ] [JsonMillis δ] in
private theorem filterMap_of_map_some {heap : List (QueryTrailEntry δ)} {ids seqs : List Nat}
    (h : ids.map (fun id => heap[id]?.map QueryTrailEntry.seq) = seqs.map some) :
    (ids.filterMap fun id => heap[id]?).map QueryTrailEntry.seq = seqs := by
  induction ids generalizing seqs with
  | nil =>
    cases seqs with
    | nil => rfl
    | cons seq seqs => cases h
  | cons id ids ih =>
    cases seqs with
    | nil => cases h
    | cons seq seqs =>
      obtain ⟨hseq, hseqs⟩ := List.cons.inj h
      obtain ⟨entry, hentry, rfl⟩ := Option.map_eq_some_iff.mp hseq
      rw [List.filterMap_cons_some hentry, List.map_cons, ih hseqs]

private theorem reported_run {options : QueryTrailOptions} (hcapacity : LawfulCapacity options.maxEntries) (now : δ)
    (calls : List (TrailCall δ)) (taskName : Text) :
    Reported (trailOf options calls) (QueryTrailRecorder.call.run (QueryTrailRecorder.create options now) calls).1
      taskName := by
  have hlawful := (lawful_of_capacity hcapacity now calls).accounted
  generalize (QueryTrailRecorder.call.run (QueryTrailRecorder.create options now) calls).1 = r at hlawful ⊢
  obtain ⟨hnumbered, -, hbalanced, hdisabled⟩ := hlawful
  have hseqs : r.contents.map QueryTrailEntry.seq =
      List.range' ((trailOf options calls).appended - r.ringEntries.length) r.ringEntries.length :=
    filterMap_of_map_some hnumbered
  have hlength : r.contents.length = r.ringEntries.length := by
    simpa using congrArg List.length hseqs
  constructor
  · exact ⟨_, rfl, wellFormed_formatJson _ _ _, readTrail_formatJson _ _ _⟩
  · have hstart : (trailOf options calls).appended - r.ringEntries.length = r.trailMeta.droppedCount := by
      change _ = r.droppedCount
      omega
    rw [hseqs, hstart, hlength]
  · change r.droppedCount + r.contents.length = _
    rw [hlength]
    exact hbalanced
  · exact hdisabled

/-- The JSON format loses nothing, and the report of a failed test says which part of the trail it holds. -/
theorem trail_read_back :
    (∀ (entries : List (QueryTrailEntry δ)) (trailMeta : QueryTrailMeta) (testName : Option Text),
      let text := formatQueryTrail entries trailMeta { testName, format := some .json }
      Json.wellFormed text = true ∧ readTrail text = some ({ testName, trailMeta }, entries)) ∧
    ∀ options : QueryTrailOptions, LawfulCapacity options.maxEntries →
      ∀ (now : δ) (calls : List (TrailCall δ)) (taskName : Text), Reported (trailOf options calls)
        (QueryTrailRecorder.call.run (QueryTrailRecorder.create options now) calls).1 taskName := by
  constructor
  · intro entries trailMeta testName
    exact ⟨wellFormed_formatJson entries trailMeta testName, readTrail_formatJson entries trailMeta testName⟩
  · intro options hcapacity now calls taskName
    exact reported_run hcapacity now calls taskName

/-- Times that are whole milliseconds. -/
instance : JsonMillis Int where
  numeral := .ofInt
  read n := Json.readInteger n.text
  read_numeral := Json.readInteger_ofInt

/-- The second of two queries, in a ring of one; half a surrogate pair stands in its text. -/
theorem trail_read_back_overflow :
    Reported { appended := 2 } (QueryTrailRecorder.call.run
      (QueryTrailRecorder.create { maxEntries := some (.finite 1) } (0 : Int))
      [.begin 0 (units "SELECT 1") none 3, .begin 0 (units "SELECT '" ++ [0xd83d]) none 5]).1 (units "a test") :=
  trail_read_back.2 { maxEntries := some (.finite 1) } ⟨1, le_refl 1, rfl⟩ 0
    [.begin 0 (units "SELECT 1") none 3, .begin 0 (units "SELECT '" ++ [0xd83d]) none 5] (units "a test")

end PgliteBridge.QueryTrail
