import PgliteBridge.FastQuery

/-!
# The steps of a FastQuery

What each handler does, in terms of the calls of the caller's code that it makes: `Types.resolve` and `Types.read` are
these calls without the state around them.  `Step` lists the transitions of the handlers that do not throw.
-/

namespace PgliteBridge.FastQuery

open Commands

variable {β π ν ε : Type} {config : Config β π ν ε} {types : Types π ν ε} {s t : State π ν ε}

/-! ### The calls of the caller's code -/

structure Resolution (π ε : Type) where
  thrown : Option (Thrown ε)
  parsers : List (Option π)
  consulted : List (Consultation π)

/-- Asks for the parser of each column, up to the first call that throws. -/
def Types.resolve (types : Types π ν ε) : List (Consultation π) → List FastQueryField → Resolution π ε
  | log, [] => ⟨none, [], log⟩
  | log, field :: fields =>
    let asked := log ++ [.getTypeParser field.dataTypeID (field.format.getD "text")]
    match types.getTypeParser log field.dataTypeID (field.format.getD "text") with
    | .error e => ⟨some e, List.replicate (fields.length + 1) none, asked⟩
    | .ok parser =>
      let rest := types.resolve asked fields
      ⟨rest.thrown, some parser :: rest.parsers, rest.consulted⟩

/-- Parses the cells of a row, up to the first call that throws. -/
def Types.read (types : Types π ν ε) : List (Consultation π) → List (Option π) → List (Option String) →
    Except (Thrown ε) (Row ν) × List (Consultation π)
  | log, _, [] => (.ok [], log)
  | log, parsers, none :: data =>
    match types.read log parsers.tail data with
    | (.ok row, log') => (.ok (none :: row), log')
    | (.error e, log') => (.error e, log')
  | log, [], some _ :: _ => (.error (.error .typeError), log)
  | log, none :: _, some _ :: _ => (.error (.error .typeError), log)
  | log, some parser :: parsers, some raw :: data =>
    match types.parse log parser raw with
    | .error e => (.error e, log ++ [.parse parser raw])
    | .ok cell =>
      match types.read (log ++ [.parse parser raw]) parsers data with
      | (.ok row, log') => (.ok (some cell :: row), log')
      | (.error e, log') => (.error e, log')

/-- The state with the parsers for these columns. -/
def State.applied (s : State π ν ε) (types : Types π ν ε) (fields : List FastQueryField) : State π ν ε :=
  { s with
    fields := fields
    parsers := (types.resolve s.consulted fields).parsers
    consulted := (types.resolve s.consulted fields).consulted }

def outcome : Option (Thrown ε) → Except (Thrown ε) Unit
  | none => .ok ()
  | some e => .error e

private theorem set_append_replicate {α : Type} (done : List (Option α)) (n : Nat) (a : α) :
    (done ++ List.replicate (n + 1) none).set done.length (some a) = done ++ [some a] ++ List.replicate n none := by
  rw [List.set_append_right _ _ (Nat.le_refl _), Nat.sub_self, List.replicate_succ, List.set_cons_zero,
    List.append_assoc]
  rfl

private theorem resolveParsers_eq (fields : List FastQueryField) (done : List (Option π))
    (h : s.parsers = done ++ List.replicate fields.length none) :
    resolveParsers types done.length fields s =
      (outcome (types.resolve s.consulted fields).thrown,
        { s with
          parsers := done ++ (types.resolve s.consulted fields).parsers
          consulted := (types.resolve s.consulted fields).consulted }) := by
  induction fields generalizing done s with
  | nil =>
    obtain ⟨⟩ := s
    cases h
    rfl
  | cons field fields ih =>
    have hcall : getTypeParser types field.dataTypeID (field.format.getD "text") s =
        (types.getTypeParser s.consulted field.dataTypeID (field.format.getD "text"),
          { s with
            consulted := s.consulted ++ [.getTypeParser field.dataTypeID (field.format.getD "text")] }) := rfl
    cases hparser : types.getTypeParser s.consulted field.dataTypeID (field.format.getD "text") with
    | error e =>
      rw [hparser] at hcall
      unfold resolveParsers
      rw [bind_of_error hcall]
      simp only [Types.resolve, hparser, outcome]
      rw [h]
      rfl
    | ok parser =>
      rw [hparser] at hcall
      unfold resolveParsers
      rw [bind_of_ok hcall]
      have hset : s.parsers.set done.length (some parser) =
          (done ++ [some parser]) ++ List.replicate fields.length none := by
        rw [h]
        exact set_append_replicate done fields.length parser
      have hlength : (done ++ [some parser]).length = done.length + 1 := by simp
      have hrest := ih (s := { s with
        parsers := s.parsers.set done.length (some parser)
        consulted := s.consulted ++ [.getTypeParser field.dataTypeID (field.format.getD "text")] }) _ hset
      rw [hlength] at hrest
      refine hrest.trans ?_
      simp only [Types.resolve, hparser, List.append_assoc, List.singleton_append]

theorem applyFields_eq (types : Types π ν ε) (s : State π ν ε) (fields : List FastQueryField) :
    applyFields types fields s = (outcome (types.resolve s.consulted fields).thrown, s.applied types fields) :=
  resolveParsers_eq fields [] rfl

theorem parseRow_eq (types : Types π ν ε) (s : State π ν ε) (parsers : List (Option π)) (data : List (Option String)) :
    parseRow types parsers data s =
      ((types.read s.consulted parsers data).1, { s with consulted := (types.read s.consulted parsers data).2 }) := by
  induction data generalizing parsers s with
  | nil => rfl
  | cons cell data ih =>
    cases cell with
    | none =>
      have hrest := ih s parsers.tail
      simp only [Types.read]
      rcases hread : types.read s.consulted parsers.tail data with ⟨e | row, log⟩
      · rw [hread] at hrest
        exact bind_of_error hrest
      · rw [hread] at hrest
        exact bind_of_ok hrest
    | some raw =>
      rcases parsers with _ | ⟨_ | parser, parsers⟩
      · rfl
      · rfl
      · have hcall : callParser types (some parser) raw s =
            (types.parse s.consulted parser raw, { s with consulted := s.consulted ++ [.parse parser raw] }) := rfl
        simp only [Types.read]
        cases hparse : types.parse s.consulted parser raw with
        | error e =>
          rw [hparse] at hcall
          exact bind_of_error hcall
        | ok value =>
          rw [hparse] at hcall
          refine (bind_of_ok hcall).trans ?_
          have hrest := ih { s with consulted := s.consulted ++ [.parse parser raw] } parsers
          rcases hread : types.read (s.consulted ++ [.parse parser raw]) parsers data with ⟨e | row, log⟩
          · simp only [hread] at hrest ⊢
            exact bind_of_error hrest
          · simp only [hread] at hrest ⊢
            exact bind_of_ok hrest

/-! ### Transitions -/

/-- `String` does not throw. -/
def Thrown.Convertible (e : Thrown ε) : Prop := ∀ thrown, e ≠ .inconvertible thrown

/-- Where the handler has to make an `Error` of what the caller's code throws, it can. -/
def Convertible (types : Types π ν ε) (s : State π ν ε) : Message ε → Prop
  | .rowDescription fields =>
    s.bufferedError = none → ∀ e, (types.resolve s.consulted fields).thrown = some e → e.Convertible
  | .dataRow data =>
    s.settled = false → s.bufferedError = none →
      ∀ e, (types.read s.consulted s.parsers data).1 = .error e → e.Convertible
  | _ => True

/-- The state in which a row description is applied. -/
def State.described (s : State π ν ε) (config : Config β π ν ε) (fields : List FastQueryField) : State π ν ε :=
  { s with
    fieldsReceived := true
    fieldsCache := Function.update s.fieldsCache config.name (some fields) }

def State.result (s : State π ν ε) : FastQueryResult ν :=
  { rows := s.rows, fields := s.fields, rowCount := s.rowCount, command := s.command, oid := s.oid }

def State.rejected (s : State π ν ε) (reason : JsError ε) : State π ν ε :=
  { s with settled := true, rows := [], deferred := s.deferred ++ [.reject reason] }

def State.resolved (s : State π ν ε) : State π ν ε :=
  { s with settled := true, deferred := s.deferred ++ [.resolve s.result] }

/-- The cache of a ready-for-query without an error. -/
def State.noticed (s : State π ν ε) (name : String) : State π ν ε :=
  if s.describeSent && !s.fieldsReceived && !s.settled then
    { s with fieldsCache := Function.update s.fieldsCache name (some []) }
  else s

inductive Step (config : Config β π ν ε) (s : State π ν ε) : Message ε → State π ν ε → Prop
  | described {fields : List FastQueryField} :
    (s.bufferedError = none → (config.types.resolve s.consulted fields).thrown = none) →
    Step config s (.rowDescription fields) ((s.described config fields).applied config.types fields)
  | refused {fields : List FastQueryField} {e : Thrown ε} {reason : JsError ε} : s.bufferedError = none →
    (config.types.resolve s.consulted fields).thrown = some e → e.asError = .ok reason →
    Step config s (.rowDescription fields)
      { (s.described config fields).applied config.types fields with bufferedError := some reason }
  | dropped {data : List (Option String)} : (s.settled = true ∨ s.bufferedError ≠ none) →
    Step config s (.dataRow data) s
  | row {data : List (Option String)} {row : Row ν} {log : List (Consultation π)} : s.settled = false →
    s.bufferedError = none → config.types.read s.consulted s.parsers data = (.ok row, log) →
    Step config s (.dataRow data) { s with rows := s.rows ++ [row], consulted := log }
  | broken {data : List (Option String)} {e : Thrown ε} {reason : JsError ε} {log : List (Consultation π)} :
    s.settled = false → s.bufferedError = none → config.types.read s.consulted s.parsers data = (.error e, log) →
    e.asError = .ok reason →
    Step config s (.dataRow data) { s with bufferedError := some reason, consulted := log }
  | completed {text : String} (command : Option String) (rowCount oid : Option Nat) :
    Step config s (.commandComplete text) { s with command := command, rowCount := rowCount, oid := oid }
  | suspended : s.bufferedError = none →
    Step config s .portalSuspended { s with
      bufferedError := some (.message "FastQuery received an unexpected PortalSuspended") }
  | copyRefused : Step config s .copyInResponse { s with sent := s.sent ++ [.copyFail "No source stream defined"] }
  | ignored {m : Message ε} :
    (m = .emptyQuery ∨ (∃ chunk, m = .copyData chunk) ∨ m = .portalSuspended ∧ s.bufferedError ≠ none) →
    Step config s m s
  | late {m : Message ε} : s.settled = true → (m = .readyForQuery ∨ ∃ e, m = .error e) → Step config s m s
  | rejected {m : Message ε} {reason : JsError ε} : s.settled = false → s.bufferedError = some reason →
    (m = .readyForQuery ∨ ∃ e, m = .error e) → Step config s m (s.rejected reason)
  | fatal {reason : JsError ε} : s.settled = false → s.bufferedError = none →
    Step config s (.error reason) (s.rejected reason)
  | resolved : s.settled = false → s.bufferedError = none →
    Step config s .readyForQuery (s.noticed config.name).resolved

theorem asError_of_convertible {e : Thrown ε} (h : e.Convertible) : ∃ reason, e.asError = .ok reason := by
  cases e with
  | error reason => exact ⟨reason, rfl⟩
  | value text => exact ⟨.message text, rfl⟩
  | inconvertible thrown => exact absurd rfl (h thrown)

theorem buffer_of_ok {e : Thrown ε} {reason : JsError ε} (h : e.asError = .ok reason) :
    buffer e s = (.ok (), { s with bufferedError := some reason }) := by
  unfold buffer
  rw [h]

theorem buffer_of_error {e thrown : Thrown ε} (h : e.asError = .error thrown) : buffer e s = (.error thrown, s) := by
  unfold buffer
  rw [h]

theorem bufferFirst_of_none (e : Thrown ε) (h : s.bufferedError = none) : bufferFirst e s = buffer e s := by
  change (if s.bufferedError.isSome then pure () else buffer e : Handler π ν ε Unit) s = _
  rw [h]
  rfl

theorem bufferFirst_of_some (e : Thrown ε) {b : JsError ε} (h : s.bufferedError = some b) :
    bufferFirst e s = (.ok (), s) := by
  change (if s.bufferedError.isSome then pure () else buffer e : Handler π ν ε Unit) s = _
  rw [h]
  rfl

theorem settle_of_settled (error : Option (JsError ε)) (h : s.settled = true) : settle error s = (.ok (), s) := by
  change (if s.settled then pure () else _ : Handler π ν ε Unit) s = _
  rw [h]
  rfl

theorem settle_some (reason : JsError ε) (h : s.settled = false) :
    settle (some reason) s = (.ok (), s.rejected reason) := by
  change (if s.settled then pure () else _ : Handler π ν ε Unit) s = _
  rw [h]
  rfl

theorem settle_none (h : s.settled = false) : settle none s = (.ok (), s.resolved) := by
  change (if s.settled then pure () else _ : Handler π ν ε Unit) s = _
  rw [h]
  rfl

theorem handleDataRow_of_dropped (data : List (Option String)) (h : s.settled = true ∨ s.bufferedError ≠ none) :
    handleDataRow config data s = (.ok (), s) := by
  have hdrop : (s.settled || s.bufferedError.isSome) = true := by
    rw [Bool.or_eq_true, Option.isSome_iff_ne_none]
    exact h
  change (if s.settled || s.bufferedError.isSome then pure () else _ : Handler π ν ε Unit) s = _
  rw [hdrop]
  rfl

theorem handleDataRow_of_open (data : List (Option String)) (hsettled : s.settled = false)
    (hbuffered : s.bufferedError = none) :
    handleDataRow config data s = (tryCatch (do
      let row ← parseRow config.types s.parsers data
      update fun s => { s with rows := s.rows ++ [row] }) buffer : Handler π ν ε Unit) s := by
  change (if s.settled || s.bufferedError.isSome then pure () else _ : Handler π ν ε Unit) s = _
  rw [hsettled, hbuffered]
  rfl

theorem noticed_eq (s : State π ν ε) (name : String) :
    s.noticed name = { s with fieldsCache := (s.noticed name).fieldsCache } := by
  unfold State.noticed
  split
  · rfl
  · rfl

theorem handleReadyForQuery_of_some {b : JsError ε} (h : s.bufferedError = some b) :
    handleReadyForQuery config s = settle (some b) s := by
  unfold handleReadyForQuery
  rw [bind_of_ok (d := get) (b := s) (t := s) rfl, h]

theorem handleReadyForQuery_of_none (h : s.bufferedError = none) :
    handleReadyForQuery config s = settle none (s.noticed config.name) := by
  obtain ⟨_, _, _, _, _, _, describeSent, fieldsReceived, _, settled, _, _, _, _, _, _⟩ := s
  cases h
  cases describeSent <;> cases fieldsReceived <;> cases settled <;> rfl

private theorem handleReadyForQuery_of_settled (h : s.settled = true) : handleReadyForQuery config s = (.ok (), s) := by
  cases hbuffered : s.bufferedError with
  | some b => exact (handleReadyForQuery_of_some hbuffered).trans (settle_of_settled _ h)
  | none =>
    have hkept : s.noticed config.name = s := by
      unfold State.noticed
      rw [h, Bool.not_true, Bool.and_false]
      rfl
    rw [handleReadyForQuery_of_none hbuffered, hkept]
    exact settle_of_settled none h

/-- A handler that can convert what is thrown makes one of the steps and throws nothing. -/
theorem step_of_receive (config : Config β π ν ε) (m : Message ε) (h : Convertible config.types s m) :
    ∃ t, receive config m s = (.ok (), t) ∧ Step config s m t := by
  cases m with
  | rowDescription fields =>
    have happly := applyFields_eq config.types (s.described config fields) fields
    cases hthrown : (config.types.resolve s.consulted fields).thrown with
    | none =>
      refine ⟨_, ?_, .described fun _ => hthrown⟩
      refine tryCatch_of_ok (happly.trans ?_)
      change (outcome (config.types.resolve s.consulted fields).thrown, _) = _
      rw [hthrown]
      rfl
    | some e =>
      have hcaught : receive config (.rowDescription fields) s =
          bufferFirst e ((s.described config fields).applied config.types fields) := by
        refine tryCatch_of_error (happly.trans ?_)
        change (outcome (config.types.resolve s.consulted fields).thrown, _) = _
        rw [hthrown]
        rfl
      cases hbuffered : s.bufferedError with
      | none =>
        obtain ⟨reason, hreason⟩ := asError_of_convertible (h hbuffered e hthrown)
        have hnone : ((s.described config fields).applied config.types fields).bufferedError = none := hbuffered
        refine ⟨_, hcaught.trans ?_, .refused hbuffered hthrown hreason⟩
        exact (bufferFirst_of_none e hnone).trans (buffer_of_ok hreason)
      | some b =>
        have hsome : ((s.described config fields).applied config.types fields).bufferedError = some b := hbuffered
        refine ⟨_, hcaught.trans (bufferFirst_of_some e hsome), .described fun hnone => ?_⟩
        rw [hbuffered] at hnone
        cases hnone
  | dataRow data =>
    by_cases hdrop : s.settled = true ∨ s.bufferedError ≠ none
    · exact ⟨s, handleDataRow_of_dropped data hdrop, .dropped hdrop⟩
    · have hsettled : s.settled = false := by simpa using fun hs => hdrop (.inl hs)
      have hbuffered : s.bufferedError = none := not_not.mp fun hb => hdrop (.inr hb)
      have hparse := parseRow_eq config.types s s.parsers data
      rcases hread : config.types.read s.consulted s.parsers data with ⟨e | row, log⟩
      · rw [hread] at hparse
        obtain ⟨reason, hreason⟩ := asError_of_convertible (h hsettled hbuffered e (congrArg Prod.fst hread))
        refine ⟨_, (handleDataRow_of_open data hsettled hbuffered).trans ?_, .broken hsettled hbuffered hread hreason⟩
        exact (tryCatch_of_error (bind_of_error hparse)).trans (buffer_of_ok hreason)
      · rw [hread] at hparse
        refine ⟨_, (handleDataRow_of_open data hsettled hbuffered).trans ?_, .row hsettled hbuffered hread⟩
        exact tryCatch_of_ok (bind_of_ok hparse)
  | commandComplete text =>
    cases htag : execCommandTag text with
    | none =>
      refine ⟨s, ?_, .completed s.command s.rowCount s.oid⟩
      change handleCommandComplete text s = _
      unfold handleCommandComplete
      rw [htag]
      rfl
    | some tag =>
      obtain ⟨command, number, second⟩ := tag
      have hrun : receive config (.commandComplete text) s = handleCommandComplete text s := rfl
      unfold handleCommandComplete at hrun
      rw [htag] at hrun
      rcases number with _ | number
      · exact ⟨_, hrun, .completed (some command) s.rowCount s.oid⟩
      · rcases second with _ | second
        · exact ⟨_, hrun, .completed (some command) (some (parseInt number)) s.oid⟩
        · exact ⟨_, hrun, .completed (some command) (some (parseInt second)) (some (parseInt number))⟩
  | emptyQuery => exact ⟨s, rfl, .ignored (.inl rfl)⟩
  | portalSuspended =>
    cases hbuffered : s.bufferedError with
    | none => exact ⟨_, (bufferFirst_of_none _ hbuffered).trans (buffer_of_ok rfl), .suspended hbuffered⟩
    | some b =>
      refine ⟨s, bufferFirst_of_some _ hbuffered, .ignored (.inr (.inr ⟨rfl, ?_⟩))⟩
      rw [hbuffered]
      exact Option.some_ne_none b
  | copyInResponse => exact ⟨_, rfl, .copyRefused⟩
  | copyData chunk => exact ⟨s, rfl, .ignored (.inr (.inl ⟨chunk, rfl⟩))⟩
  | error error =>
    cases hsettled : s.settled with
    | true =>
      have hkept : settle (some (s.bufferedError.getD error)) s = (.ok (), s) := settle_of_settled _ hsettled
      exact ⟨s, hkept, .late hsettled (.inr ⟨error, rfl⟩)⟩
    | false =>
      cases hbuffered : s.bufferedError with
      | none =>
        refine ⟨_, ?_, .fatal hsettled hbuffered⟩
        change settle (some (s.bufferedError.getD error)) s = _
        rw [hbuffered]
        exact settle_some error hsettled
      | some b =>
        refine ⟨_, ?_, .rejected hsettled hbuffered (.inr ⟨error, rfl⟩)⟩
        change settle (some (s.bufferedError.getD error)) s = _
        rw [hbuffered]
        exact settle_some b hsettled
  | readyForQuery =>
    cases hsettled : s.settled with
    | true => exact ⟨s, handleReadyForQuery_of_settled hsettled, .late hsettled (.inl rfl)⟩
    | false =>
      cases hbuffered : s.bufferedError with
      | none =>
        refine ⟨_, (handleReadyForQuery_of_none hbuffered).trans (settle_none ?_), .resolved hsettled hbuffered⟩
        rw [noticed_eq s config.name]
        exact hsettled
      | some b =>
        exact ⟨_, (handleReadyForQuery_of_some hbuffered).trans (settle_some b hsettled),
          .rejected hsettled hbuffered (.inl rfl)⟩

private theorem exists_of_not_convertible {e : Thrown ε} (h : ¬ e.Convertible) :
    ∃ thrown, e.asError = .error thrown := by
  cases e with
  | error reason => exact absurd (fun _ he => by cases he) h
  | value text => exact absurd (fun _ he => by cases he) h
  | inconvertible thrown => exact ⟨thrown, rfl⟩

/-- The state that a handler leaves when it throws. -/
inductive Escape (config : Config β π ν ε) (s : State π ν ε) : Message ε → State π ν ε → Prop
  | columns {fields : List FastQueryField} :
    Escape config s (.rowDescription fields) ((s.described config fields).applied config.types fields)
  | row {data : List (Option String)} (log : List (Consultation π)) :
    Escape config s (.dataRow data) { s with consulted := log }

theorem escape_of_not_convertible (config : Config β π ν ε) (m : Message ε) (h : ¬ Convertible config.types s m) :
    ∃ thrown t, receive config m s = (.error thrown, t) ∧ Escape config s m t := by
  cases m with
  | rowDescription fields =>
    simp only [Convertible, not_forall] at h
    obtain ⟨hbuffered, e, hthrown, he⟩ := h
    obtain ⟨thrown, hconversion⟩ := exists_of_not_convertible he
    have happly := applyFields_eq config.types (s.described config fields) fields
    have hcaught : receive config (.rowDescription fields) s =
        bufferFirst e ((s.described config fields).applied config.types fields) := by
      refine tryCatch_of_error (happly.trans ?_)
      change (outcome (config.types.resolve s.consulted fields).thrown, _) = _
      rw [hthrown]
      rfl
    have hnone : ((s.described config fields).applied config.types fields).bufferedError = none := hbuffered
    exact ⟨thrown, _, hcaught.trans ((bufferFirst_of_none e hnone).trans (buffer_of_error hconversion)), .columns⟩
  | dataRow data =>
    simp only [Convertible, not_forall] at h
    obtain ⟨hsettled, hbuffered, e, hthrown, he⟩ := h
    obtain ⟨thrown, hconversion⟩ := exists_of_not_convertible he
    have hparse := parseRow_eq config.types s s.parsers data
    rw [hthrown] at hparse
    refine ⟨thrown, _, (handleDataRow_of_open data hsettled hbuffered).trans ?_,
      .row (config.types.read s.consulted s.parsers data).2⟩
    exact (tryCatch_of_error (bind_of_error hparse)).trans (buffer_of_error hconversion)
  | _ => exact absurd trivial h

/-! ### Submission -/

/-- The Parse of a statement that the connection does not have yet. -/
def parsing (config : Config β π ν ε) (s : State π ν ε) : List Frontend :=
  if s.parsedStatements config.name = some config.text then [] else [.parse config.text config.name]

def State.sending (s : State π ν ε) (messages : List Frontend) : State π ν ε :=
  { s with sent := s.sent ++ messages }

/-- What `submit` returns or throws, and the state that it leaves. -/
inductive Submission (config : Config β π ν ε) (s : State π ν ε) :
    Except (Thrown ε) (Option (JsError ε)) → State π ν ε → Prop
  | conflict {previous : String} : s.parsedStatements config.name = some previous → previous ≠ config.text →
    Submission config s (.ok (some (.message (notUnique config.name)))) s
  | unserializable {e : Thrown ε} {reason : JsError ε} : config.values.mapM config.prepareValue = .error e →
    e.asError = .ok reason →
    Submission config s (.ok none)
      { s.sending (parsing config s ++ [.sync]) with bufferedError := some reason }
  | escaped {e thrown : Thrown ε} : config.values.mapM config.prepareValue = .error e → e.asError = .error thrown →
    Submission config s (.error thrown) (s.sending (parsing config s))
  | cold {values : List Prepared} : config.values.mapM config.prepareValue = .ok values →
    s.fieldsCache config.name = none →
    Submission config s (.ok none)
      { s.sending (parsing config s ++ [.bind "" config.name values, .describe 'P' "", .execute "" 0, .sync]) with
        describeSent := true }
  | warm {values : List Prepared} {fields : List FastQueryField} :
    config.values.mapM config.prepareValue = .ok values → s.fieldsCache config.name = some fields →
    (config.types.resolve s.consulted fields).thrown = none →
    Submission config s (.ok none)
      ((s.sending (parsing config s ++ [.bind "" config.name values, .execute "" 0, .sync])).applied config.types
        fields)
  | unresolved {values : List Prepared} {fields : List FastQueryField} {e : Thrown ε} {reason : JsError ε} :
    config.values.mapM config.prepareValue = .ok values → s.fieldsCache config.name = some fields →
    (config.types.resolve s.consulted fields).thrown = some e → e.asError = .ok reason →
    Submission config s (.ok none)
      { (s.sending (parsing config s ++ [.bind "" config.name values, .sync])).applied config.types fields with
        bufferedError := some reason }
  | unresolvedEscaped {values : List Prepared} {fields : List FastQueryField} {e thrown : Thrown ε} :
    config.values.mapM config.prepareValue = .ok values → s.fieldsCache config.name = some fields →
    (config.types.resolve s.consulted fields).thrown = some e → e.asError = .error thrown →
    Submission config s (.error thrown)
      ((s.sending (parsing config s ++ [.bind "" config.name values])).applied config.types fields)

private theorem sendQuery_eq (cachedFields : Option (List FastQueryField)) :
    sendQuery config (s.parsedStatements config.name) cachedFields s =
      bindAndExecute config cachedFields (s.sending (parsing config s)) := by
  unfold sendQuery parsing
  split
  · have hsame : s.sending [] = s := by
      unfold State.sending
      rw [List.append_nil]
    exact (congrArg (bindAndExecute config cachedFields) hsame).symm
  · rfl

private theorem recover_of_ok {e : Thrown ε} {reason : JsError ε} (h : e.asError = .ok reason) :
    recover e s = (.ok false, { s.sending [.sync] with bufferedError := some reason }) :=
  bind_of_ok (buffer_of_ok h)

private theorem recover_of_error {e thrown : Thrown ε} (h : e.asError = .error thrown) :
    recover e s = (.error thrown, s) :=
  bind_of_error (buffer_of_error h)

section Binding

variable {cachedFields : Option (List FastQueryField)} {values : List Prepared}

private theorem bind_eq_ok (h : config.values.mapM config.prepareValue = .ok values) :
    bind config s = (.ok (), s.sending [.bind "" config.name values]) := by
  unfold bind
  rw [h]
  rfl

private theorem bind_eq_error {e : Thrown ε} (h : config.values.mapM config.prepareValue = .error e) :
    bind config s = (.error e, s) := by
  unfold bind
  rw [h]

private theorem bindAndExecute_of_error (cachedFields : Option (List FastQueryField)) {e : Thrown ε}
    {reason : JsError ε}
    (h : config.values.mapM config.prepareValue = .error e) (hreason : e.asError = .ok reason) :
    bindAndExecute config cachedFields s = (.ok (), { s.sending [.sync] with bufferedError := some reason }) :=
  bind_of_ok ((tryCatch_of_error (bind_of_error (bind_eq_error h))).trans (recover_of_ok hreason))

private theorem bindAndExecute_of_escape (cachedFields : Option (List FastQueryField)) {e thrown : Thrown ε}
    (h : config.values.mapM config.prepareValue = .error e) (hthrown : e.asError = .error thrown) :
    bindAndExecute config cachedFields s = (.error thrown, s) :=
  bind_of_error ((tryCatch_of_error (bind_of_error (bind_eq_error h))).trans (recover_of_error hthrown))

private theorem bindAndExecute_of_ok (h : config.values.mapM config.prepareValue = .ok values) :
    bindAndExecute config cachedFields s = (describe config cachedFields >>= fun described =>
      if described then (do send (.execute "" 0); send .sync) else pure () : Handler π ν ε Unit)
        (s.sending [.bind "" config.name values]) := by
  have hbound : (tryCatch (do bind config; pure true) recover : Handler π ν ε Bool) s =
      (.ok true, s.sending [.bind "" config.name values]) := tryCatch_of_ok (bind_of_ok (bind_eq_ok h))
  exact bind_of_ok hbound

private theorem bindAndExecute_cold (h : config.values.mapM config.prepareValue = .ok values) :
    bindAndExecute config none s = (.ok (),
      { s.sending [.bind "" config.name values, .describe 'P' "", .execute "" 0, .sync] with
        describeSent := true }) := by
  have hdescribe : describe config none (s.sending [.bind "" config.name values]) =
      (.ok true, { (s.sending [.bind "" config.name values]).sending [.describe 'P' ""] with
        describeSent := true }) := rfl
  rw [bindAndExecute_of_ok h, bind_of_ok hdescribe]
  refine congrArg (Prod.mk _) ?_
  simp only [State.sending, List.append_assoc, List.cons_append, List.nil_append]

section Known

variable {fields : List FastQueryField}

private theorem bindAndExecute_warm (h : config.values.mapM config.prepareValue = .ok values)
    (hthrown : (config.types.resolve s.consulted fields).thrown = none) :
    bindAndExecute config (some fields) s = (.ok (),
      (s.sending [.bind "" config.name values, .execute "" 0, .sync]).applied config.types fields) := by
  have happly := applyFields_eq config.types (s.sending [.bind "" config.name values]) fields
  have hresolve : outcome (config.types.resolve (s.sending [.bind "" config.name values]).consulted fields).thrown =
      .ok () := congrArg outcome hthrown
  rw [hresolve] at happly
  have hdescribe : describe config (some fields) (s.sending [.bind "" config.name values]) =
      (.ok true, (s.sending [.bind "" config.name values]).applied config.types fields) :=
    tryCatch_of_ok (bind_of_ok happly)
  rw [bindAndExecute_of_ok h, bind_of_ok hdescribe]
  refine congrArg (Prod.mk _) ?_
  simp only [State.applied, State.sending, List.append_assoc, List.cons_append, List.nil_append]

theorem applyFields_throws {e : Thrown ε} (hthrown : (config.types.resolve s.consulted fields).thrown = some e) :
    applyFields config.types fields s = (.error e, s.applied config.types fields) := by
  rw [applyFields_eq, hthrown]
  rfl

private theorem bindAndExecute_unresolved {e : Thrown ε} {reason : JsError ε}
    (h : config.values.mapM config.prepareValue = .ok values)
    (hthrown : (config.types.resolve s.consulted fields).thrown = some e) (hreason : e.asError = .ok reason) :
    bindAndExecute config (some fields) s = (.ok (),
      { (s.sending [.bind "" config.name values, .sync]).applied config.types fields with
        bufferedError := some reason }) := by
  have happly := applyFields_throws (s := s.sending [.bind "" config.name values]) hthrown
  have hdescribe : describe config (some fields) (s.sending [.bind "" config.name values]) =
      (.ok false, { ((s.sending [.bind "" config.name values]).applied config.types fields).sending [.sync] with
        bufferedError := some reason }) :=
    (tryCatch_of_error (bind_of_error happly)).trans (recover_of_ok hreason)
  rw [bindAndExecute_of_ok h, bind_of_ok hdescribe]
  refine congrArg (Prod.mk _) ?_
  simp only [State.applied, State.sending, List.append_assoc, List.cons_append, List.nil_append]

private theorem bindAndExecute_unresolved_escape {e thrown : Thrown ε}
    (h : config.values.mapM config.prepareValue = .ok values)
    (hthrown : (config.types.resolve s.consulted fields).thrown = some e) (hescape : e.asError = .error thrown) :
    bindAndExecute config (some fields) s =
      (.error thrown, (s.sending [.bind "" config.name values]).applied config.types fields) := by
  have happly := applyFields_throws (s := s.sending [.bind "" config.name values]) hthrown
  have hdescribe : describe config (some fields) (s.sending [.bind "" config.name values]) =
      (.error thrown, (s.sending [.bind "" config.name values]).applied config.types fields) :=
    (tryCatch_of_error (bind_of_error happly)).trans (recover_of_error hescape)
  rw [bindAndExecute_of_ok h, bind_of_error hdescribe]

end Known

end Binding

@[simp] theorem sending_sending (l m : List Frontend) : (s.sending l).sending m = s.sending (l ++ m) := by
  unfold State.sending
  rw [List.append_assoc]

/-! ### submit -/

/-- The state in the `try` of `submit`. -/
def State.cork (s : State π ν ε) : State π ν ε := { s with corked := s.corked + 1 }

def State.uncork (s : State π ν ε) : State π ν ε := { s with corked := s.corked - 1 }

def conflicts (config : Config β π ν ε) (s : State π ν ε) : Bool :=
  (s.parsedStatements config.name).isSome && s.parsedStatements config.name != some config.text

theorem submit_of_conflict (h : conflicts config s = true) :
    submit config s = (.ok (some (.message (notUnique config.name))), s) := by
  change (if conflicts config s then pure (some (.message (notUnique config.name))) else _ :
    Handler π ν ε (Option (JsError ε))) s = _
  rw [h]
  rfl

/-- The `finally` runs whether the `try` ends in a value or not. -/
private theorem submit_eq (h : conflicts config s = false) {r : Except (Thrown ε) Unit}
    (hsend : bindAndExecute config (s.fieldsCache config.name) (s.cork.sending (parsing config s)) = (r, t)) :
    submit config s = (r.map fun _ => none, t.uncork) := by
  have htry : sendQuery config (s.parsedStatements config.name) (s.fieldsCache config.name) s.cork = (r, t) :=
    (sendQuery_eq (s := s.cork) (s.fieldsCache config.name)).trans hsend
  have hensuring : ensuring (sendQuery config (s.parsedStatements config.name) (s.fieldsCache config.name))
      (fun s => { s with corked := s.corked - 1 }) s.cork = (r, t.uncork) := by
    unfold ensuring
    rw [htry]
    rfl
  change (if conflicts config s then _ else _ : Handler π ν ε (Option (JsError ε))) s = _
  rw [h]
  cases r with
  | error e => exact (bind_of_ok rfl).trans (bind_of_error hensuring)
  | ok u => exact (bind_of_ok rfl).trans (bind_of_ok hensuring)

section Submit

variable {values : List Prepared} {fields : List FastQueryField} {e : Thrown ε}

theorem submit_unserializable {reason : JsError ε} (h : conflicts config s = false)
    (hvalues : config.values.mapM config.prepareValue = .error e) (hreason : e.asError = .ok reason) :
    submit config s =
      (.ok none, { s.sending (parsing config s ++ [.sync]) with bufferedError := some reason }) := by
  have hsend := bindAndExecute_of_error (s := s.cork.sending (parsing config s)) (s.fieldsCache config.name) hvalues
    hreason
  rw [sending_sending] at hsend
  exact submit_eq h hsend

theorem submit_escaped {thrown : Thrown ε} (h : conflicts config s = false)
    (hvalues : config.values.mapM config.prepareValue = .error e) (hthrown : e.asError = .error thrown) :
    submit config s = (.error thrown, s.sending (parsing config s)) :=
  submit_eq h (bindAndExecute_of_escape _ hvalues hthrown)

theorem submit_cold (h : conflicts config s = false) (hvalues : config.values.mapM config.prepareValue = .ok values)
    (hcached : s.fieldsCache config.name = none) :
    submit config s = (.ok none,
      { s.sending (parsing config s ++ [.bind "" config.name values, .describe 'P' "", .execute "" 0, .sync]) with
        describeSent := true }) := by
  have hsend := bindAndExecute_cold (s := s.cork.sending (parsing config s)) hvalues
  rw [← hcached, sending_sending] at hsend
  exact submit_eq h hsend

theorem submit_warm (h : conflicts config s = false) (hvalues : config.values.mapM config.prepareValue = .ok values)
    (hcached : s.fieldsCache config.name = some fields)
    (hthrown : (config.types.resolve s.consulted fields).thrown = none) :
    submit config s = (.ok none,
      (s.sending (parsing config s ++ [.bind "" config.name values, .execute "" 0, .sync])).applied config.types
        fields) := by
  have hsend := bindAndExecute_warm (s := s.cork.sending (parsing config s)) hvalues hthrown
  rw [← hcached, sending_sending] at hsend
  exact submit_eq h hsend

theorem submit_unresolved {reason : JsError ε} (h : conflicts config s = false)
    (hvalues : config.values.mapM config.prepareValue = .ok values) (hcached : s.fieldsCache config.name = some fields)
    (hthrown : (config.types.resolve s.consulted fields).thrown = some e) (hreason : e.asError = .ok reason) :
    submit config s = (.ok none,
      { (s.sending (parsing config s ++ [.bind "" config.name values, .sync])).applied config.types fields with
        bufferedError := some reason }) := by
  have hsend := bindAndExecute_unresolved (s := s.cork.sending (parsing config s)) hvalues hthrown hreason
  rw [← hcached, sending_sending] at hsend
  exact submit_eq h hsend

private theorem submit_unresolved_escaped {thrown : Thrown ε} (h : conflicts config s = false)
    (hvalues : config.values.mapM config.prepareValue = .ok values) (hcached : s.fieldsCache config.name = some fields)
    (hthrown : (config.types.resolve s.consulted fields).thrown = some e) (hescape : e.asError = .error thrown) :
    submit config s = (.error thrown,
      (s.sending (parsing config s ++ [.bind "" config.name values])).applied config.types fields) := by
  have hsend := bindAndExecute_unresolved_escape (s := s.cork.sending (parsing config s)) hvalues hthrown hescape
  rw [← hcached, sending_sending] at hsend
  exact submit_eq h hsend

end Submit

theorem submission_of_submit (config : Config β π ν ε) (s : State π ν ε) :
    Submission config s (submit config s).1 (submit config s).2 := by
  cases hconflict : conflicts config s with
  | true =>
    rw [submit_of_conflict hconflict]
    have hprevious := (Bool.and_eq_true_iff.mp hconflict).1
    obtain ⟨previous, hsome⟩ := Option.isSome_iff_exists.mp hprevious
    refine .conflict hsome fun he => ?_
    have hne := (Bool.and_eq_true_iff.mp hconflict).2
    rw [hsome, he, bne_self_eq_false] at hne
    cases hne
  | false =>
    cases hvalues : config.values.mapM config.prepareValue with
    | error e =>
      cases hreason : e.asError with
      | ok reason =>
        rw [submit_unserializable hconflict hvalues hreason]
        exact .unserializable hvalues hreason
      | error thrown =>
        rw [submit_escaped hconflict hvalues hreason]
        exact .escaped hvalues hreason
    | ok values =>
      cases hcached : s.fieldsCache config.name with
      | none =>
        rw [submit_cold hconflict hvalues hcached]
        exact .cold hvalues hcached
      | some fields =>
        cases hthrown : (config.types.resolve s.consulted fields).thrown with
        | none =>
          rw [submit_warm hconflict hvalues hcached hthrown]
          exact .warm hvalues hcached hthrown
        | some e =>
          cases hreason : e.asError with
          | ok reason =>
            rw [submit_unresolved hconflict hvalues hcached hthrown hreason]
            exact .unresolved hvalues hcached hthrown hreason
          | error thrown =>
            rw [submit_unresolved_escaped hconflict hvalues hcached hthrown hreason]
            exact .unresolvedEscaped hvalues hcached hthrown hreason

end PgliteBridge.FastQuery
