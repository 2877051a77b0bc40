import PgliteBridge.FastQuerySettlement

/-!
# Warm and cold executions

After any executions of a statement, its entry in the cache is what the server would describe (`entry_of_history`).  An
execution with this entry and one without it then come to the same, up to the Describe, if the server answers the
Describe (`warm_eq_cold`).  If it rejects the statement before that, the cold execution asks for no parser.
-/

namespace PgliteBridge.FastQuery

open Commands

variable {β π ν ε : Type}

/-- Messages of a server on which the statement has these columns; without columns it answers a Describe by NoData. -/
structure Conforms (columns : Option (List FastQueryField)) (x : Execution β π ν ε) (ms : List (Message ε)) : Prop where
  description : ∀ fields, .rowDescription fields ∈ ms → columns = some fields
  /-- A Describe that is sent is answered, if nothing fails. -/
  answered : ∀ before behind, ms = before ++ .readyForQuery :: behind → .describe 'P' "" ∈ x.start.sent →
    (∀ e, .error e ∉ before) → ∀ fields, columns = some fields → .rowDescription fields ∈ before

/-- The cache of a client after executions of the statement. -/
inductive History (β π ν ε : Type) (columns : Option (List FastQueryField)) (name text : String) :
    (String → Option (List FastQueryField)) → Prop
  | start {cache : String → Option (List FastQueryField)} : cache name = none → History β π ν ε columns name text cache
  | execution {x : Execution β π ν ε} {ms : List (Message ε)} : History β π ν ε columns name text x.fieldsCache →
    x.config.name = name → x.config.text = text → Conforms columns x ms →
    History β π ν ε columns name text (x.state ms).fieldsCache

/-- What the server answers to Execute and in the end. -/
structure Backend (ε : Type) where
  columns : Option (List FastQueryField)
  executed : List (Message ε)
  last : Message ε
  onlyDescribed : ∀ fields, .rowDescription fields ∉ executed
  final : last = .readyForQuery ∨ ∃ e, last = .error e

/-- The answers to what was sent. -/
def Backend.answer (backend : Backend ε) (sent : List Frontend) : List (Message ε) :=
  (if .describe 'P' "" ∈ sent then backend.columns.toList.map .rowDescription else []) ++
    (if .execute "" 0 ∈ sent then backend.executed else []) ++ [backend.last]

/-- An execution and the same one with an empty cache. -/
structure Warm (β π ν ε : Type) where
  config : Config β π ν ε
  fieldsCache : String → Option (List FastQueryField)
  parsedStatements : String → Option String

def Warm.warm (w : Warm β π ν ε) : Execution β π ν ε := ⟨w.config, w.fieldsCache, w.parsedStatements, true⟩

def Warm.cold (w : Warm β π ν ε) : Execution β π ν ε :=
  ⟨w.config, Function.update w.fieldsCache w.config.name none, w.parsedStatements, true⟩

def withoutDescribe (sent : List Frontend) : List Frontend := sent.filter (· ≠ .describe 'P' "")

section Facts

variable {columns : Option (List FastQueryField)} {name text : String} {config : Config β π ν ε} {s t : State π ν ε}
  {x : Execution β π ν ε} {before ms : List (Message ε)} {m : Message ε}

/-! ### The entry of the cache -/

/-- The entry that the cache may have. -/
def Truthful (columns : Option (List FastQueryField)) (entry : Option (List FastQueryField)) : Prop :=
  entry = none ∨ entry = some (columns.getD [])

/-- What the cache rests on after the calls `before`. -/
structure Cached (columns : Option (List FastQueryField)) (x : Execution β π ν ε) (before : List (Message ε))
    (s : State π ν ε) : Prop where
  entry : Truthful columns (s.fieldsCache x.config.name)
  described : ∀ fields, .rowDescription fields ∈ before → s.fieldsReceived = true
  noFatal : s.settled = false → ∀ e, .error e ∉ before
  asked : s.describeSent = true → .describe 'P' "" ∈ x.start.sent

private theorem cached_start (x : Execution β π ν ε) (h : Truthful columns (x.fieldsCache x.config.name)) :
    Cached columns x [] x.start where
  entry := by
    rw [(start_frame x).2.2.1]
    exact h
  described _ hmem := by cases hmem
  noFatal _ _ hmem := by cases hmem
  asked := (sound_start x).asked

private theorem Cached.append (h : Cached columns x before s) (hentry : Truthful columns (t.fieldsCache x.config.name))
    (hreceived : t.fieldsReceived = s.fieldsReceived) (hdescribe : t.describeSent = s.describeSent)
    (hsettled : t.settled = false → s.settled = false ∧ ∀ e, m ≠ .error e)
    (hdescription : ∀ fields, m ≠ .rowDescription fields) : Cached columns x (before ++ [m]) t where
  entry := hentry
  described fields hmem := by
    rw [hreceived]
    rcases List.mem_append.mp hmem with hbefore | hlast
    · exact h.described fields hbefore
    · exact absurd (List.mem_singleton.mp hlast).symm (hdescription fields)
  noFatal hs e := not_mem_append_singleton (h.noFatal (hsettled hs).1 e) ((hsettled hs).2 e).symm
  asked hs := h.asked (hdescribe ▸ hs)

private theorem Cached.append_description {fields : List FastQueryField} (h : Cached columns x before s)
    (hcolumns : columns = some fields)
    (hcache : t.fieldsCache = Function.update s.fieldsCache x.config.name (some fields))
    (hreceived : t.fieldsReceived = true) (hdescribe : t.describeSent = s.describeSent)
    (hsettled : t.settled = s.settled) : Cached columns x (before ++ [.rowDescription fields]) t where
  entry := by
    rw [hcache, Function.update_self, hcolumns]
    exact .inr rfl
  described _ _ := hreceived
  noFatal hs e := not_mem_append_singleton (h.noFatal (hsettled ▸ hs) e) (by simp)
  asked hs := h.asked (hdescribe ▸ hs)

private theorem Cached.step (h : Cached columns x before s) (hstep : Step x.config s m t)
    (hdescription : ∀ fields, m = .rowDescription fields → columns = some fields)
    (hanswered : m = .readyForQuery → .describe 'P' "" ∈ x.start.sent → (∀ e, .error e ∉ before) →
      ∀ fields, columns = some fields → .rowDescription fields ∈ before) : Cached columns x (before ++ [m]) t := by
  cases hstep with
  | @described fields _ => exact h.append_description (hdescription fields rfl) rfl rfl rfl rfl
  | @refused fields _ _ _ _ _ => exact h.append_description (hdescription fields rfl) rfl rfl rfl rfl
  | dropped _ => exact h.append h.entry rfl rfl (fun hs => ⟨hs, by simp⟩) (by simp)
  | row _ _ _ => exact h.append h.entry rfl rfl (fun hs => ⟨hs, by simp⟩) (by simp)
  | broken _ _ _ _ => exact h.append h.entry rfl rfl (fun hs => ⟨hs, by simp⟩) (by simp)
  | completed _ _ _ => exact h.append h.entry rfl rfl (fun hs => ⟨hs, by simp⟩) (by simp)
  | suspended _ => exact h.append h.entry rfl rfl (fun hs => ⟨hs, by simp⟩) (by simp)
  | copyRefused => exact h.append h.entry rfl rfl (fun hs => ⟨hs, by simp⟩) (by simp)
  | ignored hm =>
    obtain rfl | ⟨chunk, rfl⟩ | ⟨rfl, _⟩ := hm
    · exact h.append h.entry rfl rfl (fun hs => ⟨hs, by simp⟩) (by simp)
    · exact h.append h.entry rfl rfl (fun hs => ⟨hs, by simp⟩) (by simp)
    · exact h.append h.entry rfl rfl (fun hs => ⟨hs, by simp⟩) (by simp)
  | late hsettled hm =>
    refine h.append h.entry rfl rfl (fun hs => ?_) (by rcases hm with rfl | ⟨e, rfl⟩ <;> simp)
    rw [hsettled] at hs
    cases hs
  | rejected _ _ hm =>
    refine h.append h.entry rfl rfl (fun hs => ?_) (by rcases hm with rfl | ⟨e, rfl⟩ <;> simp)
    cases hs
  | fatal _ _ => exact h.append h.entry rfl rfl (fun hs => by cases hs) (by simp)
  | resolved hsettled hb =>
    have hfields : ((s.noticed x.config.name).resolved).fieldsReceived = s.fieldsReceived ∧
        ((s.noticed x.config.name).resolved).describeSent = s.describeSent := by
      rw [noticed_eq]
      exact ⟨rfl, rfl⟩
    refine h.append ?_ hfields.1 hfields.2 (fun hs => by cases hs) (by simp)
    change Truthful columns ((s.noticed x.config.name).fieldsCache x.config.name)
    unfold State.noticed
    split
    · rename_i hnotice
      simp only [Bool.and_eq_true, Bool.not_eq_true'] at hnotice
      obtain ⟨⟨hdescribe, hreceived⟩, _⟩ := hnotice
      have hnone : columns = none := by
        refine Option.eq_none_iff_forall_ne_some.mpr fun fields hsome => ?_
        have htrue := h.described fields (hanswered rfl (h.asked hdescribe) (h.noFatal hsettled) fields hsome)
        rw [hreceived] at htrue
        cases htrue
      rw [hnone]
      exact .inr (Function.update_self ..)
    · exact h.entry

private theorem Cached.escape (h : Cached columns x before s) (hescape : Escape x.config s m t)
    (hdescription : ∀ fields, m = .rowDescription fields → columns = some fields) :
    Cached columns x (before ++ [m]) t := by
  cases hescape with
  | @columns fields => exact h.append_description (hdescription fields rfl) rfl rfl rfl rfl
  | row log => exact h.append h.entry rfl rfl (fun hs => ⟨hs, by simp⟩) (by simp)

private theorem cached_state (hentry : Truthful columns (x.fieldsCache x.config.name)) (h : Conforms columns x ms) :
    Cached columns x ms (x.state ms) := by
  suffices hsplit : ∀ behind before, ms = before ++ behind → Cached columns x before (x.state before) →
      Cached columns x ms (x.state ms) from hsplit ms [] rfl (cached_start x hentry)
  intro behind
  induction behind with
  | nil =>
    intro before hms hcached
    rw [hms, List.append_nil]
    exact hcached
  | cons m behind ih =>
    intro before hms hcached
    have hdescription : ∀ fields, m = .rowDescription fields → columns = some fields := by
      intro fields hm
      refine h.description fields ?_
      rw [hms, hm]
      exact List.mem_append_right _ List.mem_cons_self
    refine ih (before ++ [m]) (by rw [hms, List.append_assoc]; rfl) ?_
    rw [Execution.state_append]
    by_cases hconvertible : Convertible x.config.types (x.state before) m
    · obtain ⟨t, hreceive, hstep⟩ := step_of_receive x.config m hconvertible
      rw [hreceive]
      refine hcached.step hstep hdescription fun hm => ?_
      subst hm
      exact h.answered before behind hms
    · obtain ⟨thrown, t, hreceive, hescape⟩ := escape_of_not_convertible x.config m hconvertible
      rw [hreceive]
      exact hcached.escape hescape hdescription

theorem entry_of_history {cache : String → Option (List FastQueryField)}
    (h : History β π ν ε columns name text cache) : Truthful columns (cache name) := by
  induction h with
  | start hnone => exact .inl hnone
  | @execution x ms _ hname _ hconforms ih =>
    subst hname
    exact (cached_state ih hconforms).entry

/-! ### States that agree -/

/-- Equal but for the cache, the Describe and what comes of it. -/
structure Agree (s t : State π ν ε) : Prop where
  fields : s.fields = t.fields
  parsers : s.parsers = t.parsers
  rows : s.rows = t.rows
  rowCount : s.rowCount = t.rowCount
  command : s.command = t.command
  oid : s.oid = t.oid
  bufferedError : s.bufferedError = t.bufferedError
  settled : s.settled = t.settled
  deferred : s.deferred = t.deferred
  consulted : s.consulted = t.consulted
  sent : withoutDescribe s.sent = withoutDescribe t.sent

section DataRow

variable {data : List (Option String)} {log : List (Consultation π)}

private theorem handleDataRow_row {row : Row ν} (hsettled : s.settled = false) (hbuffered : s.bufferedError = none)
    (hread : config.types.read s.consulted s.parsers data = (.ok row, log)) :
    (handleDataRow config data s).2 = { s with rows := s.rows ++ [row], consulted := log } := by
  have hparse := parseRow_eq config.types s s.parsers data
  rw [hread] at hparse
  rw [handleDataRow_of_open data hsettled hbuffered]
  refine congrArg Prod.snd (tryCatch_of_ok (b := ()) (t := { s with rows := s.rows ++ [row], consulted := log }) ?_)
  exact bind_of_ok hparse

private theorem handleDataRow_broken {e : Thrown ε} (hsettled : s.settled = false) (hbuffered : s.bufferedError = none)
    (hread : config.types.read s.consulted s.parsers data = (.error e, log)) :
    (handleDataRow config data s).2 = (buffer e { s with consulted := log }).2 := by
  have hparse := parseRow_eq config.types s s.parsers data
  rw [hread] at hparse
  rw [handleDataRow_of_open data hsettled hbuffered]
  exact congrArg Prod.snd (tryCatch_of_error (bind_of_error hparse))

end DataRow

private theorem Agree.buffer (h : Agree s t) (e : Thrown ε) :
    Agree (FastQuery.buffer e s).2 (FastQuery.buffer e t).2 := by
  cases hreason : e.asError with
  | ok reason =>
    rw [buffer_of_ok hreason, buffer_of_ok hreason]
    exact { h with bufferedError := rfl }
  | error thrown =>
    rw [buffer_of_error hreason, buffer_of_error hreason]
    exact h

private theorem Agree.dataRow (h : Agree s t) (data : List (Option String)) :
    Agree (handleDataRow config data s).2 (handleDataRow config data t).2 := by
  by_cases hdrop : s.settled = true ∨ s.bufferedError ≠ none
  · rw [handleDataRow_of_dropped data hdrop]
    rw [h.settled, h.bufferedError] at hdrop
    rw [handleDataRow_of_dropped data hdrop]
    exact h
  · have hsettled : s.settled = false := by simpa using fun hs => hdrop (.inl hs)
    have hbuffered : s.bufferedError = none := not_not.mp fun hb => hdrop (.inr hb)
    have hsame : config.types.read t.consulted t.parsers data = config.types.read s.consulted s.parsers data := by
      rw [h.consulted, h.parsers]
    rcases hread : config.types.read s.consulted s.parsers data with ⟨e | row, log⟩
    · rw [handleDataRow_broken hsettled hbuffered hread,
        handleDataRow_broken (h.settled ▸ hsettled) (h.bufferedError ▸ hbuffered) (hsame.trans hread)]
      have hlog : Agree { s with consulted := log } { t with consulted := log } := { h with consulted := rfl }
      exact hlog.buffer e
    · rw [handleDataRow_row hsettled hbuffered hread,
        handleDataRow_row (h.settled ▸ hsettled) (h.bufferedError ▸ hbuffered) (hsame.trans hread)]
      exact { h with
        rows := congrArg (· ++ [row]) h.rows
        consulted := rfl }

private theorem Agree.commandComplete (h : Agree s t) (text : String) :
    Agree (handleCommandComplete text s).2 (handleCommandComplete text t).2 := by
  unfold handleCommandComplete
  rcases execCommandTag text with _ | ⟨command, _ | number, second⟩
  · exact h
  · exact { h with command := rfl }
  · cases second with
    | none =>
      exact { h with
        command := rfl
        rowCount := rfl }
    | some second =>
      exact { h with
        command := rfl
        oid := rfl
        rowCount := rfl }

private theorem Agree.send (h : Agree s t) (message : Frontend) :
    Agree (FastQuery.send message s).2 (FastQuery.send message t).2 := by
  have hsent : withoutDescribe (s.sent ++ [message]) = withoutDescribe (t.sent ++ [message]) := by
    unfold withoutDescribe at *
    rw [List.filter_append, List.filter_append]
    exact congrArg (· ++ _) h.sent
  exact { h with sent := hsent }

private theorem Agree.settle (h : Agree s t) (error : Option (JsError ε)) :
    Agree (FastQuery.settle error s).2 (FastQuery.settle error t).2 := by
  cases hsettled : s.settled with
  | true =>
    rw [settle_of_settled error hsettled, settle_of_settled error (h.settled ▸ hsettled)]
    exact h
  | false =>
    cases error with
    | some reason =>
      rw [settle_some reason hsettled, settle_some reason (h.settled ▸ hsettled)]
      exact { h with
        rows := rfl
        settled := rfl
        deferred := congrArg (· ++ [Settlement.reject reason]) h.deferred }
    | none =>
      rw [settle_none hsettled, settle_none (h.settled ▸ hsettled)]
      have hresult : s.result = t.result := by
        unfold State.result
        rw [h.rows, h.fields, h.rowCount, h.command, h.oid]
      exact { h with
        settled := rfl
        deferred := by
          change s.deferred ++ [.resolve s.result] = t.deferred ++ [.resolve t.result]
          rw [h.deferred, hresult] }

/-- The messages other than a row description do not look at what the states do not agree about. -/
private theorem Agree.receive (h : Agree s t) (m : Message ε) (hdescription : ∀ fields, m ≠ .rowDescription fields) :
    Agree (FastQuery.receive config m s).2 (FastQuery.receive config m t).2 := by
  cases m with
  | rowDescription fields => exact absurd rfl (hdescription fields)
  | dataRow data => exact h.dataRow data
  | commandComplete text => exact h.commandComplete text
  | emptyQuery => exact h
  | portalSuspended =>
    have hrun : ∀ u : State π ν ε, FastQuery.receive config .portalSuspended u =
        bufferFirst (.error (.message "FastQuery received an unexpected PortalSuspended")) u := fun _ => rfl
    rw [hrun, hrun]
    cases hb : s.bufferedError with
    | none =>
      rw [bufferFirst_of_none _ hb, bufferFirst_of_none _ (h.bufferedError ▸ hb)]
      exact h.buffer _
    | some e =>
      rw [bufferFirst_of_some _ hb, bufferFirst_of_some _ (h.bufferedError ▸ hb)]
      exact h
  | copyInResponse => exact h.send _
  | copyData chunk => exact h
  | error error =>
    change Agree (FastQuery.settle (some (s.bufferedError.getD error)) s).2
      (FastQuery.settle (some (t.bufferedError.getD error)) t).2
    rw [← h.bufferedError]
    exact h.settle _
  | readyForQuery =>
    have hrun : ∀ u : State π ν ε, FastQuery.receive config .readyForQuery u = handleReadyForQuery config u :=
      fun _ => rfl
    rw [hrun, hrun]
    cases hb : s.bufferedError with
    | some e =>
      rw [handleReadyForQuery_of_some hb, handleReadyForQuery_of_some (h.bufferedError ▸ hb)]
      exact h.settle _
    | none =>
      rw [handleReadyForQuery_of_none hb, handleReadyForQuery_of_none (h.bufferedError ▸ hb), noticed_eq s,
        noticed_eq t]
      have hcache : Agree { s with fieldsCache := (s.noticed config.name).fieldsCache }
          { t with fieldsCache := (t.noticed config.name).fieldsCache } := { h with }
      exact hcache.settle none

def State.after (config : Config β π ν ε) (s : State π ν ε) (ms : List (Message ε)) : State π ν ε :=
  ms.foldl (fun s m => (FastQuery.receive config m s).2) s

private theorem Agree.after (h : Agree s t) (config : Config β π ν ε)
    (hdescription : ∀ fields, .rowDescription fields ∉ ms) :
    Agree (s.after config ms) (t.after config ms) := by
  induction ms generalizing s t with
  | nil => exact h
  | cons m ms ih =>
    refine ih (h.receive m fun fields hm => hdescription fields ?_) fun fields hmem =>
      hdescription fields (.tail _ hmem)
    rw [hm]
    exact List.mem_cons_self

/-- A query that an error is buffered for, and that has been rejected with it if it is settled. -/
structure Failing (reason : JsError ε) (log : List (Consultation π)) (s : State π ν ε) : Prop where
  buffered : s.bufferedError = some reason
  consulted : s.consulted = log
  pending : s.settled = false → s.deferred = []
  rejected : s.settled = true → s.deferred = [.reject reason]

private theorem Failing.receive {reason : JsError ε} {log : List (Consultation π)} (h : Failing reason log s)
    (config : Config β π ν ε) (m : Message ε) (hdescription : ∀ fields, m ≠ .rowDescription fields) :
    Failing reason log (FastQuery.receive config m s).2 ∧
      ((m = .readyForQuery ∨ ∃ e, m = .error e) → (FastQuery.receive config m s).2.settled = true) := by
  have hnone : s.bufferedError ≠ none := by
    rw [h.buffered]
    exact Option.some_ne_none reason
  have hconvertible : Convertible config.types s m := by
    cases m with
    | rowDescription fields => exact absurd rfl (hdescription fields)
    | dataRow data => exact fun _ hb => absurd hb hnone
    | _ => trivial
  obtain ⟨t, hreceive, hstep⟩ := step_of_receive config m hconvertible
  rw [hreceive]
  cases hstep with
  | described _ => exact absurd rfl (hdescription _)
  | refused hb _ _ => exact absurd hb hnone
  | dropped _ => exact ⟨h, by simp⟩
  | row _ hb _ => exact absurd hb hnone
  | broken _ hb _ _ => exact absurd hb hnone
  | completed _ _ _ => exact ⟨⟨h.buffered, h.consulted, h.pending, h.rejected⟩, by simp⟩
  | suspended hb => exact absurd hb hnone
  | copyRefused => exact ⟨⟨h.buffered, h.consulted, h.pending, h.rejected⟩, by simp⟩
  | ignored hm =>
    obtain rfl | ⟨chunk, rfl⟩ | ⟨rfl, _⟩ := hm
    · exact ⟨h, by simp⟩
    · exact ⟨h, by simp⟩
    · exact ⟨h, by simp⟩
  | late hsettled _ => exact ⟨h, fun _ => hsettled⟩
  | @rejected _ other hsettled hb _ =>
    have hother : other = reason := Option.some.inj (hb.symm.trans h.buffered)
    subst hother
    refine ⟨⟨h.buffered, h.consulted, (fun hs => by cases hs), fun _ => ?_⟩, fun _ => rfl⟩
    change s.deferred ++ [Settlement.reject other] = _
    rw [h.pending hsettled]
    rfl
  | fatal _ hb => exact absurd hb hnone
  | resolved _ hb => exact absurd hb hnone

private theorem Failing.after {reason : JsError ε} {log : List (Consultation π)} (h : Failing reason log s)
    (config : Config β π ν ε) (hdescription : ∀ fields, .rowDescription fields ∉ ms) :
    Failing reason log (s.after config ms) := by
  induction ms generalizing s with
  | nil => exact h
  | cons m ms ih =>
    refine ih (h.receive config m fun fields hm => hdescription fields ?_).1 fun fields hmem =>
      hdescription fields (.tail _ hmem)
    rw [hm]
    exact List.mem_cons_self

private theorem after_append (behind : List (Message ε)) :
    s.after config (ms ++ behind) = (s.after config ms).after config behind :=
  List.foldl_append

/-- Once the last message is there, a failing query is rejected. -/
private theorem Failing.ends {reason : JsError ε} {log : List (Consultation π)} (h : Failing reason log s)
    (config : Config β π ν ε) (hdescription : ∀ fields, .rowDescription fields ∉ ms)
    (hm : m = .readyForQuery ∨ ∃ e, m = .error e) :
    (s.after config (ms ++ [m])).deferred = [.reject reason] ∧ (s.after config (ms ++ [m])).consulted = log := by
  have hlast : ∀ fields, m ≠ .rowDescription fields := by
    intro fields hfields
    rw [hfields] at hm
    simp at hm
  have hdone := (h.after config hdescription).receive config m hlast
  rw [after_append]
  exact ⟨hdone.1.rejected (hdone.2 hm), hdone.1.consulted⟩

/-- What a message is answered by. -/
def reply : Message ε → List Frontend
  | .copyInResponse => [.copyFail "No source stream defined"]
  | _ => []

/-- A settled query only answers a CopyInResponse. -/
private theorem receive_of_settled (hsettled : s.settled = true) (config : Config β π ν ε) (m : Message ε)
    (hdescription : ∀ fields, m ≠ .rowDescription fields) :
    (receive config m s).2.settled = true ∧ (receive config m s).2.deferred = s.deferred ∧
      (receive config m s).2.consulted = s.consulted ∧
      (receive config m s).2.sent = s.sent ++ reply m := by
  have hopen : ∀ {p : Prop}, s.settled = false → p := by
    intro p hs
    rw [hsettled] at hs
    cases hs
  have hconvertible : Convertible config.types s m := by
    cases m with
    | rowDescription fields => exact absurd rfl (hdescription fields)
    | dataRow data => exact fun hs => hopen hs
    | _ => trivial
  obtain ⟨t, hreceive, hstep⟩ := step_of_receive config m hconvertible
  rw [hreceive]
  cases hstep with
  | described _ => exact absurd rfl (hdescription _)
  | refused _ _ _ => exact absurd rfl (hdescription _)
  | row hs _ _ => exact hopen hs
  | broken hs _ _ _ => exact hopen hs
  | rejected hs _ _ => exact hopen hs
  | fatal hs _ => exact hopen hs
  | resolved hs _ => exact hopen hs
  | copyRefused => exact ⟨hsettled, rfl, rfl, rfl⟩
  | dropped _ => exact ⟨hsettled, rfl, rfl, (List.append_nil _).symm⟩
  | completed _ _ _ => exact ⟨hsettled, rfl, rfl, (List.append_nil _).symm⟩
  | suspended _ => exact ⟨hsettled, rfl, rfl, (List.append_nil _).symm⟩
  | ignored hm =>
    refine ⟨hsettled, rfl, rfl, ?_⟩
    obtain rfl | ⟨chunk, rfl⟩ | ⟨rfl, _⟩ := hm
    · exact (List.append_nil _).symm
    · exact (List.append_nil _).symm
    · exact (List.append_nil _).symm
  | late _ hm =>
    refine ⟨hsettled, rfl, rfl, ?_⟩
    obtain rfl | ⟨e, rfl⟩ := hm
    · exact (List.append_nil _).symm
    · exact (List.append_nil _).symm

/-- Two settled queries stay as they are, and send the same. -/
private theorem after_of_settled (hs : s.settled = true) (ht : t.settled = true)
    (hsent : withoutDescribe s.sent = withoutDescribe t.sent) (config : Config β π ν ε)
    (hdescription : ∀ fields, .rowDescription fields ∉ ms) :
    (s.after config ms).deferred = s.deferred ∧ (t.after config ms).deferred = t.deferred ∧
      (s.after config ms).consulted = s.consulted ∧
      withoutDescribe (s.after config ms).sent = withoutDescribe (t.after config ms).sent := by
  induction ms generalizing s t with
  | nil => exact ⟨rfl, rfl, rfl, hsent⟩
  | cons m ms ih =>
    have hother : ∀ fields, m ≠ .rowDescription fields := by
      intro fields hm
      refine hdescription fields ?_
      rw [hm]
      exact List.mem_cons_self
    obtain ⟨hs', hsdeferred, hsconsulted, hssent⟩ := receive_of_settled hs config m hother
    obtain ⟨ht', htdeferred, _, htsent⟩ := receive_of_settled ht config m hother
    have hnext := ih hs' ht' ?_ fun fields hmem => hdescription fields (.tail _ hmem)
    · rw [hsdeferred, htdeferred, hsconsulted] at hnext
      exact hnext
    · unfold withoutDescribe at *
      rw [hssent, htsent, List.filter_append, List.filter_append, hsent]

end Facts

/-- The two executions come to the same. -/
structure Same (w : Warm β π ν ε) (cold warm : List (Message ε)) : Prop where
  settlement : (w.cold.state cold).deferred = (w.warm.state warm).deferred
  consultations : (w.cold.state cold).consulted = (w.warm.state warm).consulted
  messages : (∀ e, w.config.values.mapM w.config.prepareValue ≠ .error e) →
    (∀ fields, w.fieldsCache w.config.name = some fields → (w.config.types.resolve [] fields).thrown = none) →
    withoutDescribe (w.cold.state cold).sent = withoutDescribe (w.warm.state warm).sent

section Comparison

variable {w : Warm β π ν ε} {s t : State π ν ε} {ms : List (Message ε)}

private theorem Same.of_agree (h : Agree w.cold.start w.warm.start)
    (hdescription : ∀ fields, .rowDescription fields ∉ ms) :
    Same w ms ms := by
  have hafter := h.after w.config hdescription
  exact ⟨hafter.deferred, hafter.consulted, fun _ _ => hafter.sent⟩

private theorem answer_of_unsent (backend : Backend ε) {sent : List Frontend} (hdescribe : .describe 'P' "" ∉ sent)
    (hexecute : .execute "" 0 ∉ sent) : backend.answer sent = [backend.last] := by
  unfold Backend.answer
  rw [if_neg hdescribe, if_neg hexecute]
  rfl

private theorem not_description_last (backend : Backend ε) (fields : List FastQueryField) :
    .rowDescription fields ∉ [backend.last] := by
  rw [List.mem_singleton]
  intro he
  rcases backend.final with hlast | ⟨e, hlast⟩
  · rw [hlast] at he
    cases he
  · rw [hlast] at he
    cases he

private theorem not_mem_parsing (config : Config β π ν ε) (s : State π ν ε) {message : Frontend}
    (h : ∀ text name, message ≠ .parse text name) : message ∉ parsing config s := by
  unfold parsing
  split
  · exact List.not_mem_nil
  · rw [List.mem_singleton]
    exact h _ _

private theorem not_mem_sent (x : Execution β π ν ε) {message : Frontend} {rest : List Frontend}
    (hparse : ∀ text name, message ≠ .parse text name) (hrest : message ∉ rest) :
    message ∉ x.fresh.sent ++ (parsing x.config x.fresh ++ rest) := by
  rw [List.mem_append, List.mem_append]
  exact not_or.mpr ⟨List.not_mem_nil, not_or.mpr ⟨not_mem_parsing _ _ hparse, hrest⟩⟩

private theorem agree_fresh (w : Warm β π ν ε) : Agree w.cold.fresh w.warm.fresh :=
  ⟨rfl, rfl, rfl, rfl, rfl, rfl, rfl, rfl, rfl, rfl, rfl⟩

private theorem cold_eq_warm (h : w.fieldsCache w.config.name = none) : w.cold = w.warm := by
  unfold Warm.cold Warm.warm
  rw [← h, Function.update_eq_self]

/-- Nothing is sent but a Parse and a Sync, and the executions are the same. -/
private theorem same_of_unsent (h : Agree w.cold.start w.warm.start) (hsent : w.cold.start.sent = w.warm.start.sent)
    (hdescribe : .describe 'P' "" ∉ w.cold.start.sent) (hexecute : .execute "" 0 ∉ w.cold.start.sent)
    (backend : Backend ε) : Same w (backend.answer w.cold.start.sent) (backend.answer w.warm.start.sent) := by
  rw [← hsent, answer_of_unsent backend hdescribe hexecute]
  exact Same.of_agree h (not_description_last backend)

/-- Where no Bind is sent, the cache is not looked at. -/
private theorem agree_of_no_bind (h : conflicts w.config w.cold.fresh = true ∨
      ∃ e, w.config.values.mapM w.config.prepareValue = .error e) :
    Agree w.cold.start w.warm.start ∧ w.cold.start.sent = w.warm.start.sent ∧
      .describe 'P' "" ∉ w.cold.start.sent ∧ .execute "" 0 ∉ w.cold.start.sent := by
  cases hconflict : conflicts w.config w.cold.fresh with
  | true =>
    have hcold : w.cold.start = w.cold.fresh := congrArg Prod.snd (submit_of_conflict hconflict)
    have hwarm : w.warm.start = w.warm.fresh := congrArg Prod.snd (submit_of_conflict (s := w.warm.fresh) hconflict)
    rw [hcold, hwarm]
    exact ⟨agree_fresh w, rfl, List.not_mem_nil, List.not_mem_nil⟩
  | false =>
    obtain ⟨e, hvalues⟩ := h.resolve_left (by rw [hconflict]; exact Bool.false_ne_true)
    cases hreason : e.asError with
    | ok reason =>
      have hcold : w.cold.start = _ := congrArg Prod.snd (submit_unserializable hconflict hvalues hreason)
      have hwarm : w.warm.start = _ :=
        congrArg Prod.snd (submit_unserializable (s := w.warm.fresh) hconflict hvalues hreason)
      rw [hcold, hwarm]
      refine ⟨⟨rfl, rfl, rfl, rfl, rfl, rfl, rfl, rfl, rfl, rfl, rfl⟩, rfl, ?_, ?_⟩
      · exact not_mem_sent w.cold (by simp) (by simp)
      · exact not_mem_sent w.cold (by simp) (by simp)
    | error thrown =>
      have hcold : w.cold.start = _ := congrArg Prod.snd (submit_escaped hconflict hvalues hreason)
      have hwarm : w.warm.start = _ := congrArg Prod.snd (submit_escaped (s := w.warm.fresh) hconflict hvalues hreason)
      rw [hcold, hwarm]
      refine ⟨⟨rfl, rfl, rfl, rfl, rfl, rfl, rfl, rfl, rfl, rfl, rfl⟩, rfl, ?_, ?_⟩
      · exact not_mem_parsing w.config w.cold.fresh (by simp)
      · exact not_mem_parsing w.config w.cold.fresh (by simp)

private theorem bound_of_not (h : ¬ (conflicts w.config w.cold.fresh = true ∨
      ∃ e, w.config.values.mapM w.config.prepareValue = .error e)) :
    conflicts w.config w.cold.fresh = false ∧ ∃ values, w.config.values.mapM w.config.prepareValue = .ok values := by
  obtain ⟨hconflict, hvalues⟩ := not_or.mp h
  refine ⟨Bool.eq_false_iff.mpr hconflict, ?_⟩
  cases hprepared : w.config.values.mapM w.config.prepareValue with
  | error e => exact absurd ⟨e, hprepared⟩ hvalues
  | ok values => exact ⟨values, rfl⟩

/-! ### Executions that send a Bind -/

section Bound

variable {values : List Prepared} {fields : List FastQueryField}

private theorem cold_start (h : conflicts w.config w.cold.fresh = false)
    (hvalues : w.config.values.mapM w.config.prepareValue = .ok values) :
    w.cold.start = { w.cold.fresh.sending (parsing w.config w.cold.fresh ++
      [.bind "" w.config.name values, .describe 'P' "", .execute "" 0, .sync]) with describeSent := true } :=
  congrArg Prod.snd (submit_cold h hvalues (Function.update_self ..))

private theorem cold_answer (h : conflicts w.config w.cold.fresh = false)
    (hvalues : w.config.values.mapM w.config.prepareValue = .ok values) (backend : Backend ε) :
    backend.answer w.cold.start.sent =
      backend.columns.toList.map .rowDescription ++ (backend.executed ++ [backend.last]) := by
  have hdescribe : .describe 'P' "" ∈ w.cold.start.sent := by
    rw [cold_start h hvalues]
    exact List.mem_append_right _ (List.mem_append_right _ (by simp))
  have hexecute : .execute "" 0 ∈ w.cold.start.sent := by
    rw [cold_start h hvalues]
    exact List.mem_append_right _ (List.mem_append_right _ (by simp))
  unfold Backend.answer
  rw [if_pos hdescribe, if_pos hexecute, List.append_assoc]

private theorem warm_start (h : conflicts w.config w.cold.fresh = false)
    (hvalues : w.config.values.mapM w.config.prepareValue = .ok values)
    (hcached : w.fieldsCache w.config.name = some fields) (hthrown : (w.config.types.resolve [] fields).thrown = none) :
    w.warm.start = (w.warm.fresh.sending (parsing w.config w.warm.fresh ++
      [.bind "" w.config.name values, .execute "" 0, .sync])).applied w.config.types fields :=
  congrArg Prod.snd (submit_warm (s := w.warm.fresh) h hvalues hcached hthrown)

private theorem warm_answer (h : conflicts w.config w.cold.fresh = false)
    (hvalues : w.config.values.mapM w.config.prepareValue = .ok values)
    (hcached : w.fieldsCache w.config.name = some fields) (hthrown : (w.config.types.resolve [] fields).thrown = none)
    (backend : Backend ε) : backend.answer w.warm.start.sent = backend.executed ++ [backend.last] := by
  have hdescribe : .describe 'P' "" ∉ w.warm.start.sent := by
    rw [warm_start h hvalues hcached hthrown]
    exact not_mem_sent w.warm (by simp) (by simp)
  have hexecute : .execute "" 0 ∈ w.warm.start.sent := by
    rw [warm_start h hvalues hcached hthrown]
    exact List.mem_append_right _ (List.mem_append_right _ (by simp))
  unfold Backend.answer
  rw [if_neg hdescribe, if_pos hexecute]
  rfl

/-- The state of the cold execution once its columns are described. -/
def Warm.described (w : Warm β π ν ε) (columns : Option (List FastQueryField)) : State π ν ε :=
  w.cold.start.after w.config (columns.toList.map .rowDescription)

private theorem withoutDescribe_sent (w : Warm β π ν ε) (values : List Prepared) :
    withoutDescribe (parsing w.config w.cold.fresh ++
        [.bind "" w.config.name values, .describe 'P' "", .execute "" 0, .sync]) =
      withoutDescribe (parsing w.config w.warm.fresh ++ [.bind "" w.config.name values, .execute "" 0, .sync]) := by
  unfold withoutDescribe
  rw [List.filter_append, List.filter_append]
  rfl

private theorem agree_described (h : conflicts w.config w.cold.fresh = false)
    (hvalues : w.config.values.mapM w.config.prepareValue = .ok values) {columns : Option (List FastQueryField)}
    (hcached : w.fieldsCache w.config.name = some (columns.getD []))
    (hthrown : (w.config.types.resolve [] (columns.getD [])).thrown = none) :
    Agree (w.described columns) w.warm.start := by
  rw [warm_start h hvalues hcached hthrown]
  cases columns with
  | none =>
    change Agree w.cold.start _
    rw [cold_start h hvalues]
    exact ⟨rfl, rfl, rfl, rfl, rfl, rfl, rfl, rfl, rfl, rfl, withoutDescribe_sent w values⟩
  | some fields =>
    have happly := applyFields_eq w.config.types (w.cold.start.described w.config fields) fields
    have hconsulted : w.cold.start.consulted = [] := by
      rw [cold_start h hvalues]
      rfl
    have hok : (outcome (w.config.types.resolve (w.cold.start.described w.config fields).consulted fields).thrown :
        Except (Thrown ε) Unit) = .ok () := by
      change outcome (w.config.types.resolve w.cold.start.consulted fields).thrown = _
      rw [hconsulted]
      exact congrArg outcome hthrown
    rw [hok] at happly
    have hdescribed : w.described (some fields) =
        (w.cold.start.described w.config fields).applied w.config.types fields :=
      congrArg Prod.snd (tryCatch_of_ok happly)
    rw [hdescribed, cold_start h hvalues]
    exact ⟨rfl, rfl, rfl, rfl, rfl, rfl, rfl, rfl, rfl, rfl, withoutDescribe_sent w values⟩

/-- The parsers of the columns cannot be resolved: both executions end in the same error. -/
private theorem same_of_unresolved (h : conflicts w.config w.cold.fresh = false)
    (hvalues : w.config.values.mapM w.config.prepareValue = .ok values) {backend : Backend ε} {e : Thrown ε}
    {reason : JsError ε} (hcached : w.fieldsCache w.config.name = some (backend.columns.getD []))
    (hthrown : (w.config.types.resolve [] (backend.columns.getD [])).thrown = some e)
    (hreason : e.asError = .ok reason) :
    Same w (backend.answer w.cold.start.sent) (backend.answer w.warm.start.sent) := by
  have hwarm : w.warm.start = { (w.warm.fresh.sending (parsing w.config w.warm.fresh ++
      [.bind "" w.config.name values, .sync])).applied w.config.types (backend.columns.getD []) with
        bufferedError := some reason } :=
    congrArg Prod.snd (submit_unresolved (s := w.warm.fresh) h hvalues hcached hthrown hreason)
  have hwarmAnswer : backend.answer w.warm.start.sent = [] ++ [backend.last] := by
    rw [hwarm]
    refine answer_of_unsent backend ?_ ?_
    · exact not_mem_sent w.warm (by simp) (by simp)
    · exact not_mem_sent w.warm (by simp) (by simp)
  obtain ⟨fields, hcolumns⟩ : ∃ fields, backend.columns = some fields := by
    cases hcolumns : backend.columns with
    | none =>
      rw [hcolumns] at hthrown
      cases hthrown
    | some fields => exact ⟨fields, rfl⟩
  rw [hcolumns, Option.getD_some] at hthrown
  have hdescribed : w.cold.start.after w.config (backend.columns.toList.map .rowDescription) =
      { (w.cold.start.described w.config fields).applied w.config.types fields with bufferedError := some reason } := by
    have hconsulted : (w.cold.start.described w.config fields).consulted = [] := by
      rw [cold_start h hvalues]
      rfl
    have happly := applyFields_throws (s := w.cold.start.described w.config fields) (hconsulted.symm ▸ hthrown)
    have hnone : ((w.cold.start.described w.config fields).applied w.config.types fields).bufferedError = none := by
      rw [cold_start h hvalues]
      rfl
    rw [hcolumns]
    exact congrArg Prod.snd ((tryCatch_of_error happly).trans
      ((bufferFirst_of_none e hnone).trans (buffer_of_ok hreason)))
  have hlog : ((w.cold.start.described w.config fields).applied w.config.types fields).consulted =
      (w.config.types.resolve [] fields).consulted := by
    rw [cold_start h hvalues]
    rfl
  have hcoldFailing : Failing reason (w.config.types.resolve [] fields).consulted
      (w.cold.start.after w.config (backend.columns.toList.map .rowDescription)) := by
    rw [hdescribed]
    refine ⟨rfl, hlog, fun _ => ?_, fun hs => ?_⟩
    · rw [cold_start h hvalues]
      rfl
    · rw [cold_start h hvalues] at hs
      cases hs
  have hwarmFailing : Failing reason (w.config.types.resolve [] fields).consulted w.warm.start := by
    rw [hwarm, hcolumns]
    exact ⟨rfl, rfl, fun _ => rfl, fun hs => by cases hs⟩
  have hcoldEnd := hcoldFailing.ends w.config backend.onlyDescribed backend.final
  have hnothing : ∀ fields, Message.rowDescription fields ∉ ([] : List (Message ε)) := fun _ => List.not_mem_nil
  have hwarmEnd := hwarmFailing.ends w.config hnothing backend.final
  rw [← after_append, ← cold_answer h hvalues] at hcoldEnd
  rw [← hwarmAnswer] at hwarmEnd
  refine ⟨hcoldEnd.1.trans hwarmEnd.1.symm, hcoldEnd.2.trans hwarmEnd.2.symm, fun _ hresolved => ?_⟩
  have hnone := hresolved _ hcached
  rw [hcolumns, Option.getD_some, hthrown] at hnone
  cases hnone

private theorem same_of_resolved (h : conflicts w.config w.cold.fresh = false)
    (hvalues : w.config.values.mapM w.config.prepareValue = .ok values) {backend : Backend ε}
    (hcached : w.fieldsCache w.config.name = some (backend.columns.getD []))
    (hthrown : (w.config.types.resolve [] (backend.columns.getD [])).thrown = none) :
    Same w (backend.answer w.cold.start.sent) (backend.answer w.warm.start.sent) := by
  have hdescription : ∀ fields, .rowDescription fields ∉ backend.executed ++ [backend.last] := by
    intro fields
    rw [List.mem_append]
    exact not_or.mpr ⟨backend.onlyDescribed fields, not_description_last backend fields⟩
  have hagree := (agree_described h hvalues hcached hthrown).after w.config hdescription
  have hcold : w.cold.state (backend.answer w.cold.start.sent) =
      (w.described backend.columns).after w.config (backend.executed ++ [backend.last]) := by
    rw [cold_answer h hvalues]
    exact after_append _
  have hwarm : w.warm.state (backend.answer w.warm.start.sent) =
      w.warm.start.after w.config (backend.executed ++ [backend.last]) := by
    rw [warm_answer h hvalues hcached hthrown]
    rfl
  rw [← hcold, ← hwarm] at hagree
  exact ⟨hagree.deferred, hagree.consulted, fun _ _ => hagree.sent⟩

end Bound

private theorem same_of_eq (h : w.cold = w.warm) (backend : Backend ε) :
    Same w (backend.answer w.cold.start.sent) (backend.answer w.warm.start.sent) := by
  constructor
  · rw [h]
  · rw [h]
  · rw [h]
    exact fun _ _ => rfl

/-! ### An execution that is rejected before it is described -/

private theorem receive_error (s : State π ν ε) (config : Config β π ν ε) (reason : JsError ε) :
    (receive config (.error reason) s).2.settled = true ∧ (receive config (.error reason) s).2.consulted = s.consulted ∧
      (receive config (.error reason) s).2.sent = s.sent ∧
      (s.settled = false → (receive config (.error reason) s).2.deferred =
        s.deferred ++ [.reject (s.bufferedError.getD reason)]) := by
  have hrun : receive config (.error reason) s = settle (some (s.bufferedError.getD reason)) s := rfl
  rw [hrun]
  cases hsettled : s.settled with
  | true =>
    rw [settle_of_settled _ hsettled]
    exact ⟨hsettled, rfl, rfl, fun hs => by cases hs⟩
  | false =>
    rw [settle_some _ hsettled]
    exact ⟨rfl, rfl, rfl, fun _ => rfl⟩

private theorem Submission.consulted_of_cold {config : Config β π ν ε} {r : Except (Thrown ε) (Option (JsError ε))}
    (h : Submission config s r t) (hnone : s.fieldsCache config.name = none) : t.consulted = s.consulted := by
  cases h with
  | warm _ hcached _ => rw [hnone] at hcached; cases hcached
  | unresolved _ hcached _ _ => rw [hnone] at hcached; cases hcached
  | unresolvedEscaped _ hcached _ _ => rw [hnone] at hcached; cases hcached
  | _ => rfl

private theorem cold_consulted (w : Warm β π ν ε) : w.cold.start.consulted = [] :=
  (submission_of_submit w.config w.cold.fresh).consulted_of_cold (Function.update_self ..)

/-- The warm execution has found its parsers in `submit`: it binds, and there is an entry. -/
def Warm.Resolves (w : Warm β π ν ε) : Prop :=
  conflicts w.config w.warm.fresh = false ∧ (∃ values, w.config.values.mapM w.config.prepareValue = .ok values) ∧
    w.fieldsCache w.config.name ≠ none

/-- A rejection before the description asks for nothing more. -/
private theorem consulted_of_rejected (x : Execution β π ν ε) (reason : JsError ε)
    (hdescription : ∀ fields, .rowDescription fields ∉ ms) :
    (x.state (.error reason :: ms)).consulted = x.start.consulted := by
  obtain ⟨hsettled, hconsulted, _, _⟩ := receive_error x.start x.config reason
  have hafter := (after_of_settled hsettled hsettled rfl x.config hdescription).2.2.1
  exact hafter.trans hconsulted

/-- What the warm execution has asked for when `submit` returns. -/
private theorem warm_consulted {columns : Option (List FastQueryField)}
    (hentry : Truthful columns (w.fieldsCache w.config.name))
    (hconvertible : ∀ e, (w.config.types.resolve [] (columns.getD [])).thrown = some e → e.Convertible) :
    (w.Resolves → w.warm.start.consulted = (w.config.types.resolve [] (columns.getD [])).consulted) ∧
      (¬ w.Resolves → w.warm.start.consulted = []) := by
  constructor
  · rintro ⟨hconflict, ⟨values, hvalues⟩, hsome⟩
    have hcached := hentry.resolve_left hsome
    -- resolved or not, the parsers of the cached columns have been asked for
    cases hthrown : (w.config.types.resolve [] (columns.getD [])).thrown with
    | none =>
      rw [warm_start hconflict hvalues hcached hthrown]
      rfl
    | some e =>
      obtain ⟨reason, hreason⟩ := asError_of_convertible (hconvertible e hthrown)
      have hsubmit := submit_unresolved (s := w.warm.fresh) hconflict hvalues hcached hthrown hreason
      exact congrArg (fun result => result.2.consulted) hsubmit
  · intro hnot
    -- nothing is bound, or there is no entry and the two executions are one
    by_cases hbind : conflicts w.config w.cold.fresh = true ∨
        ∃ e, w.config.values.mapM w.config.prepareValue = .error e
    · exact (agree_of_no_bind hbind).1.consulted.symm.trans (cold_consulted w)
    · obtain ⟨hconflict, hvalues⟩ := bound_of_not hbind
      have hnone : w.fieldsCache w.config.name = none := by
        by_contra hsome
        exact hnot ⟨hconflict, hvalues, hsome⟩
      rw [← cold_eq_warm hnone]
      exact cold_consulted w

private theorem same_of_rejected (w : Warm β π ν ε) (reason : JsError ε)
    (hdescription : ∀ fields, .rowDescription fields ∉ ms)
    (hbuffered : w.cold.start.bufferedError = w.warm.start.bufferedError)
    (hsent : withoutDescribe w.cold.start.sent = withoutDescribe w.warm.start.sent) :
    (w.cold.state (.error reason :: ms)).deferred = (w.warm.state (.error reason :: ms)).deferred ∧
      withoutDescribe (w.cold.state (.error reason :: ms)).sent =
        withoutDescribe (w.warm.state (.error reason :: ms)).sent := by
  obtain ⟨hcold, _, hcoldSent, hcoldDeferred⟩ := receive_error w.cold.start w.config reason
  obtain ⟨hwarm, _, hwarmSent, hwarmDeferred⟩ := receive_error w.warm.start w.config reason
  obtain ⟨hcoldOpen, hcoldStart, _, _⟩ := start_frame w.cold
  obtain ⟨hwarmOpen, hwarmStart, _, _⟩ := start_frame w.warm
  have hsame : withoutDescribe (receive w.config (.error reason) w.cold.start).2.sent =
      withoutDescribe (receive w.config (.error reason) w.warm.start).2.sent := by
    rw [hcoldSent, hwarmSent]
    exact hsent
  obtain ⟨hcoldAfter, hwarmAfter, _, hsentAfter⟩ := after_of_settled hcold hwarm hsame w.config hdescription
  refine ⟨?_, hsentAfter⟩
  refine hcoldAfter.trans (Eq.trans ?_ hwarmAfter.symm)
  rw [hcoldDeferred hcoldOpen, hwarmDeferred hwarmOpen, hcoldStart, hwarmStart, hbuffered]

/-- What the executions start with, if the parsers can be resolved. -/
private theorem start_of_resolved (w : Warm β π ν ε)
    (hresolved : ∀ fields, w.fieldsCache w.config.name = some fields →
      (w.config.types.resolve [] fields).thrown = none) :
    w.cold.start.bufferedError = w.warm.start.bufferedError ∧
      withoutDescribe w.cold.start.sent = withoutDescribe w.warm.start.sent := by
  cases hcached : w.fieldsCache w.config.name with
  | none =>
    rw [cold_eq_warm hcached]
    exact ⟨rfl, rfl⟩
  | some fields =>
    by_cases hbind : conflicts w.config w.cold.fresh = true ∨
        ∃ e, w.config.values.mapM w.config.prepareValue = .error e
    · have hagree := (agree_of_no_bind hbind).1
      exact ⟨hagree.bufferedError, hagree.sent⟩
    · obtain ⟨hconflict, values, hvalues⟩ := bound_of_not hbind
      rw [cold_start hconflict hvalues, warm_start hconflict hvalues hcached (hresolved fields hcached)]
      exact ⟨rfl, withoutDescribe_sent w values⟩

end Comparison

/-- An execution with the entry that earlier ones left comes to the same as one without, if the statement is described;
if it is rejected before that, they differ in the calls of the types object only: the warm one has made them. -/
theorem warm_eq_cold (w : Warm β π ν ε) (columns : Option (List FastQueryField))
    (history : History β π ν ε columns w.config.name w.config.text w.fieldsCache)
    (hconvertible : ∀ e, (w.config.types.resolve [] (columns.getD [])).thrown = some e → e.Convertible) :
    (∀ backend : Backend ε, backend.columns = columns →
      Same w (backend.answer w.cold.start.sent) (backend.answer w.warm.start.sent)) ∧
    ∀ reason ms, (∀ fields, .rowDescription fields ∉ ms) →
      (w.cold.state (.error reason :: ms)).consulted = [] ∧
      (w.Resolves → (w.warm.state (.error reason :: ms)).consulted =
        (w.config.types.resolve [] (columns.getD [])).consulted) ∧
      (¬ w.Resolves → (w.warm.state (.error reason :: ms)).consulted = []) ∧
      ((w.config.types.resolve [] (columns.getD [])).thrown = none →
        (w.cold.state (.error reason :: ms)).deferred = (w.warm.state (.error reason :: ms)).deferred ∧
        withoutDescribe (w.cold.state (.error reason :: ms)).sent =
          withoutDescribe (w.warm.state (.error reason :: ms)).sent) := by
  have hentry := entry_of_history history
  constructor
  · intro backend hcolumns
    subst hcolumns
    rcases hentry with hnone | hcached
    · exact same_of_eq (cold_eq_warm hnone) backend
    · by_cases hbind : conflicts w.config w.cold.fresh = true ∨
          ∃ e, w.config.values.mapM w.config.prepareValue = .error e
      · obtain ⟨hagree, hsent, hdescribe, hexecute⟩ := agree_of_no_bind hbind
        exact same_of_unsent hagree hsent hdescribe hexecute backend
      · obtain ⟨hconflict, values, hvalues⟩ := bound_of_not hbind
        cases hthrown : (w.config.types.resolve [] (backend.columns.getD [])).thrown with
        | none => exact same_of_resolved hconflict hvalues hcached hthrown
        | some e =>
          obtain ⟨reason, hreason⟩ := asError_of_convertible (hconvertible e hthrown)
          exact same_of_unresolved hconflict hvalues hcached hthrown hreason
  · intro reason ms hdescription
    obtain ⟨hresolves, hcannot⟩ := warm_consulted hentry hconvertible
    have hcold := consulted_of_rejected w.cold reason hdescription
    have hwarm := consulted_of_rejected w.warm reason hdescription
    refine ⟨hcold.trans (cold_consulted w), fun h => hwarm.trans (hresolves h), fun h => hwarm.trans (hcannot h),
      fun hthrown => ?_⟩
    have hresolved : ∀ fields, w.fieldsCache w.config.name = some fields →
        (w.config.types.resolve [] fields).thrown = none := by
      intro fields hcached
      rcases hentry with hnone | hsome
      · rw [hnone] at hcached
        cases hcached
      · rw [hsome] at hcached
        rw [← Option.some.inj hcached]
        exact hthrown
    obtain ⟨hbuffered, hsent⟩ := start_of_resolved w hresolved
    exact same_of_rejected w reason hdescription hbuffered hsent

/-! ### A column of integers -/

def int4Column : List FastQueryField := [⟨"?column?", 23, none⟩]

/-- A query for the column, with these answers of `getTypeParser`. -/
def int4Query (parser : Except (Thrown Unit) Unit) : Config Unit Unit String Unit where
  name := "s1"
  text := "SELECT 1"
  values := []
  types := {
    getTypeParser := fun _ _ _ => parser
    parse := fun _ _ raw => .ok raw }
  prepareValue := fun _ => .ok .null

def firstExecution : Execution Unit Unit String Unit := ⟨int4Query (.ok ()), fun _ => none, fun _ => none, true⟩

def describedOnly : List (Message Unit) := [.rowDescription int4Column, .readyForQuery]

/-- The next execution of the statement, which the connection has parsed. -/
def nextExecution (parser : Except (Thrown Unit) Unit) : Warm Unit Unit String Unit :=
  ⟨int4Query parser, (firstExecution.state describedOnly).fieldsCache, fun _ => some "SELECT 1"⟩

private theorem history_first : History Unit Unit String Unit (some int4Column) "s1" "SELECT 1"
    (firstExecution.state describedOnly).fieldsCache := by
  refine .execution (.start rfl) rfl rfl ⟨fun fields hmem => ?_, fun before behind hsplit _ _ fields hfields => ?_⟩
  · simp only [describedOnly, List.mem_cons, Message.rowDescription.injEq, List.not_mem_nil, or_false,
      reduceCtorEq] at hmem
    rw [hmem]
  · cases hfields
    rcases before with _ | ⟨m, before⟩
    · cases hsplit
    · rw [← (List.cons.inj hsplit).1]
      exact List.mem_cons_self

def oneRow : Backend Unit where
  columns := some int4Column
  executed := [.dataRow [some "1"], .commandComplete "SELECT 1"]
  last := .readyForQuery
  onlyDescribed := by simp
  final := .inl rfl

theorem warm_eq_cold_next : Same (nextExecution (.ok ())) (oneRow.answer (nextExecution (.ok ())).cold.start.sent)
    (oneRow.answer (nextExecution (.ok ())).warm.start.sent) :=
  (warm_eq_cold (nextExecution (.ok ())) (some int4Column) history_first (fun _ h => by cases h)).1 oneRow rfl

/-- The Bind is rejected. -/
def rejection : List (Message Unit) := [.error (.given ()), .readyForQuery]

private theorem conforms_rejection (x : Execution Unit Unit String Unit) : Conforms (some int4Column) x rejection := by
  refine ⟨fun fields hmem => ?_, fun before behind hsplit _ hfatal => ?_⟩
  · simp [rejection] at hmem
  · rcases before with _ | ⟨m, before⟩
    · cases hsplit
    · refine absurd ?_ (hfatal (.given ()))
      rw [← (List.cons.inj hsplit).1]
      exact List.mem_cons_self

/-- Only the warm execution asks for a parser, and it is rejected because there is none. -/
theorem warm_ne_cold_of_rejection :
    let w := nextExecution (.error (.value "no parser"))
    History Unit Unit String Unit (some int4Column) w.config.name w.config.text w.fieldsCache ∧
      Conforms (some int4Column) w.cold rejection ∧ Conforms (some int4Column) w.warm rejection ∧
      (w.cold.state rejection).consulted = [] ∧ (w.warm.state rejection).consulted = [.getTypeParser 23 "text"] ∧
      (w.cold.state rejection).deferred = [.reject (.given ())] ∧
      (w.warm.state rejection).deferred = [.reject (.message "no parser")] := by
  refine ⟨history_first, conforms_rejection _, conforms_rejection _, ?_, ?_, ?_, ?_⟩
  · decide
  · decide
  · decide
  · decide

end PgliteBridge.FastQuery
