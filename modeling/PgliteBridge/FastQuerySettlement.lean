import PgliteBridge.FastQuerySteps
import Mathlib.Data.List.Forall2
import Mathlib.Data.List.Induction

/-!
# Settlement of a FastQuery

`Lawful` says what every call of a handler may do after any calls before it.  A call is lawful exactly if the caller's
code does not throw, where the handler has to make an `Error` of it, a value that `String` cannot convert
(`lawful_iff_convertible`).
-/

namespace PgliteBridge.FastQuery

variable {β π ν ε : Type}

/-- A query from its construction on; `pg.Client` may drop it before it submits it. -/
structure Execution (β π ν ε : Type) where
  config : Config β π ν ε
  fieldsCache : String → Option (List FastQueryField)
  parsedStatements : String → Option String
  submitted : Bool

namespace Execution

def fresh (x : Execution β π ν ε) : State π ν ε := .initial x.fieldsCache x.parsedStatements

/-- The state in which the first handler is called. -/
def start (x : Execution β π ν ε) : State π ν ε := if x.submitted then (submit x.config x.fresh).2 else x.fresh

def state (x : Execution β π ν ε) (ms : List (Message ε)) : State π ν ε :=
  ms.foldl (fun s m => (receive x.config m s).2) x.start

/-- The data rows, each with the state in which it arrives. -/
def received (x : Execution β π ν ε) : List (Message ε) → State π ν ε → List (State π ν ε × List (Option String))
  | [], _ => []
  | .dataRow data :: ms, s => (s, data) :: x.received ms (receive x.config (.dataRow data) s).2
  | m :: ms, s => x.received ms (receive x.config m s).2

end Execution

/-- The row that the parsers make of the cells. -/
inductive Image (types : Types π ν ε) :
    List (Consultation π) → List (Option π) → List (Option String) → Row ν → Prop
  | nil {log : List (Consultation π)} {parsers : List (Option π)} : Image types log parsers [] []
  | null {log : List (Consultation π)} {parsers : List (Option π)} {data : List (Option String)} {row : Row ν} :
    Image types log parsers.tail data row → Image types log parsers (none :: data) (none :: row)
  | cell {log : List (Consultation π)} {parser : π} {parsers : List (Option π)} {raw : String} {value : ν}
    {data : List (Option String)} {row : Row ν} : types.parse log parser raw = .ok value →
    Image types (log ++ [.parse parser raw]) parsers data row →
    Image types log (some parser :: parsers) (some raw :: data) (some value :: row)

/-- A parser that is set is the answer of `getTypeParser` for the column. -/
def Answers (types : Types π ν ε) (field : FastQueryField) (parser : Option π) : Prop :=
  ∀ p, parser = some p → ∃ log, types.getTypeParser log field.dataTypeID (field.format.getD "text") = .ok p

/-- The errors that a call has to buffer. -/
inductive Buffers (types : Types π ν ε) (s : State π ν ε) : Message ε → JsError ε → Prop
  | columns {fields : List FastQueryField} {e : Thrown ε} {reason : JsError ε} :
    (types.resolve s.consulted fields).thrown = some e → e.asError = .ok reason →
    Buffers types s (.rowDescription fields) reason
  | row {data : List (Option String)} {e : Thrown ε} {reason : JsError ε} : s.settled = false →
    (types.read s.consulted s.parsers data).1 = .error e → e.asError = .ok reason →
    Buffers types s (.dataRow data) reason
  | suspended : Buffers types s .portalSuspended (.message "FastQuery received an unexpected PortalSuspended")

/-- A settlement by the call of a handler after the calls `before`. -/
inductive Settles (x : Execution β π ν ε) (before : List (Message ε)) : Message ε → Settlement ν ε → Prop
  | resolve {result : FastQueryResult ν} : (x.state before).bufferedError = none → (∀ e, .error e ∉ before) →
    List.Forall₂ (fun arrival row => Image x.config.types arrival.1.consulted arrival.1.parsers arrival.2 row)
      (x.received before x.start) result.rows →
    List.Forall₂ (Answers x.config.types) result.fields (x.state before).parsers →
    Settles x before .readyForQuery (.resolve result)
  | buffered {m : Message ε} {reason : JsError ε} : (x.state before).bufferedError = some reason →
    (m = .readyForQuery ∨ ∃ e, m = .error e) → Settles x before m (.reject reason)
  | fatal {reason : JsError ε} : (x.state before).bufferedError = none →
    Settles x before (.error reason) (.reject reason)

/-- The call `m` of a handler after the calls `before`. -/
structure LawfulCall (x : Execution β π ν ε) (before : List (Message ε)) (m : Message ε) : Prop where
  quiet : (receive x.config m (x.state before)).1 = .ok ()
  settles : (x.state (before ++ [m])).deferred = (x.state before).deferred ∨
    (x.state before).deferred = [] ∧
      ∃ settlement, (x.state (before ++ [m])).deferred = [settlement] ∧ Settles x before m settlement
  /-- The first error stays. -/
  keeps : ∀ e, (x.state before).bufferedError = some e → (x.state (before ++ [m])).bufferedError = some e
  buffers : (x.state before).bufferedError = none →
    ∀ e, (x.state (before ++ [m])).bufferedError = some e ↔ Buffers x.config.types (x.state before) m e
  cache : (x.state (before ++ [m])).fieldsCache = (x.state before).fieldsCache ∨
    (∃ fields, m = .rowDescription fields ∧ (x.state (before ++ [m])).fieldsCache =
      Function.update (x.state before).fieldsCache x.config.name (some fields)) ∨
    m = .readyForQuery ∧ (x.state before).bufferedError = none ∧ (∀ e, .error e ∉ before) ∧
      .describe 'P' "" ∈ (x.state before).sent ∧ (∀ fields, .rowDescription fields ∉ before) ∧
      (x.state (before ++ [m])).fieldsCache = Function.update (x.state before).fieldsCache x.config.name (some [])

structure Lawful (x : Execution β π ν ε) (ms : List (Message ε)) : Prop where
  submitSettlesNothing : x.start.deferred = []
  submitKeepsCache : x.start.fieldsCache = x.fieldsCache
  call : ∀ before m behind, ms = before ++ m :: behind → LawfulCall x before m
  once : (x.state ms).deferred.length ≤ 1

section Facts

variable {config : Config β π ν ε} {types : Types π ν ε} {s t : State π ν ε} {x : Execution β π ν ε}
  {before ms : List (Message ε)} {m : Message ε}

namespace Execution

theorem state_append (x : Execution β π ν ε) (before : List (Message ε)) (m : Message ε) :
    x.state (before ++ [m]) = (receive x.config m (x.state before)).2 := by
  unfold state
  rw [List.foldl_append]
  rfl

private theorem received_append (x : Execution β π ν ε) (before behind : List (Message ε)) (s : State π ν ε) :
    x.received (before ++ behind) s =
      x.received before s ++ x.received behind (before.foldl (fun s m => (receive x.config m s).2) s) := by
  induction before generalizing s with
  | nil => rfl
  | cons m before ih =>
    cases m with
    | dataRow data => exact congrArg ((s, data) :: ·) (ih _)
    | _ => exact ih _

end Execution

/-! ### The caller's code -/

private theorem image_of_read {log log' : List (Consultation π)} {parsers : List (Option π)}
    {data : List (Option String)}
    {row : Row ν} (h : types.read log parsers data = (.ok row, log')) : Image types log parsers data row := by
  induction data generalizing log parsers row with
  | nil =>
    cases h
    exact .nil
  | cons cell data ih =>
    cases cell with
    | none =>
      simp only [Types.read] at h
      rcases hread : types.read log parsers.tail data with ⟨e | rest, log''⟩
      · rw [hread] at h
        cases h
      · rw [hread] at h
        cases h
        exact .null (ih hread)
    | some raw =>
      rcases parsers with _ | ⟨_ | parser, parsers⟩
      · cases h
      · cases h
      · simp only [Types.read] at h
        cases hparse : types.parse log parser raw with
        | error e =>
          rw [hparse] at h
          cases h
        | ok value =>
          simp only [hparse] at h
          rcases hread : types.read (log ++ [.parse parser raw]) parsers data with ⟨e | rest, log''⟩
          · rw [hread] at h
            cases h
          · rw [hread] at h
            cases h
            exact .cell hparse (ih hread)

private theorem answers_none (types : Types π ν ε) (fields : List FastQueryField) :
    List.Forall₂ (Answers types) fields (List.replicate fields.length (none : Option π)) := by
  induction fields with
  | nil => exact .nil
  | cons field fields ih => exact .cons (fun p hp => by cases hp) ih

private theorem answers_resolve (types : Types π ν ε) (log : List (Consultation π)) (fields : List FastQueryField) :
    List.Forall₂ (Answers types) fields (types.resolve log fields).parsers := by
  induction fields generalizing log with
  | nil => exact .nil
  | cons field fields ih =>
    simp only [Types.resolve]
    cases hparser : types.getTypeParser log field.dataTypeID (field.format.getD "text") with
    | error e => exact answers_none types (field :: fields)
    | ok parser =>
      refine .cons (fun p hp => ⟨log, ?_⟩) (ih _)
      rw [hparser, Option.some.inj hp]

/-! ### What holds between the calls -/

/-- The state `s` after the calls `before`. -/
structure Sound (x : Execution β π ν ε) (before : List (Message ε)) (s : State π ν ε) : Prop where
  settledOnce : s.settled = true → s.deferred.length = 1
  pending : s.settled = false → s.deferred = []
  noFatal : s.settled = false → ∀ e, .error e ∉ before
  rows : s.settled = false → s.bufferedError = none →
    List.Forall₂ (fun arrival row => Image x.config.types arrival.1.consulted arrival.1.parsers arrival.2 row)
      (x.received before x.start) s.rows
  answers : List.Forall₂ (Answers x.config.types) s.fields s.parsers
  described : s.fieldsReceived = false → ∀ fields, .rowDescription fields ∉ before
  asked : s.describeSent = true → .describe 'P' "" ∈ s.sent

private theorem sound_fresh (x : Execution β π ν ε) : Sound x [] x.fresh where
  settledOnce hs := by cases hs
  pending _ := rfl
  noFatal _ _ := List.not_mem_nil
  rows _ _ := .nil
  answers := .nil
  described _ _ := List.not_mem_nil
  asked hs := by cases hs

/-- What `submit` may change. -/
private theorem Sound.submission (h : Sound x [] s) {r : Except (Thrown ε) (Option (JsError ε))}
    (hsubmit : Submission x.config s r t) : Sound x [] t := by
  cases hsubmit with
  | conflict _ _ => exact h
  | unserializable _ _ => exact ⟨h.settledOnce, h.pending, h.noFatal, (fun _ he => by cases he), h.answers, h.described,
      fun hs => List.mem_append_left _ (h.asked hs)⟩
  | escaped _ _ => exact ⟨h.settledOnce, h.pending, h.noFatal, h.rows, h.answers, h.described,
      fun hs => List.mem_append_left _ (h.asked hs)⟩
  | cold _ _ => exact ⟨h.settledOnce, h.pending, h.noFatal, h.rows, h.answers, h.described,
      fun _ => List.mem_append_right _ (List.mem_append_right _ (.tail _ (.head _)))⟩
  | warm _ _ _ => exact ⟨h.settledOnce, h.pending, h.noFatal, h.rows, answers_resolve _ _ _, h.described,
      fun hs => List.mem_append_left _ (h.asked hs)⟩
  | unresolved _ _ _ _ => exact ⟨h.settledOnce, h.pending, h.noFatal, (fun _ he => by cases he), answers_resolve _ _ _,
      h.described, fun hs => List.mem_append_left _ (h.asked hs)⟩
  | unresolvedEscaped _ _ _ _ => exact ⟨h.settledOnce, h.pending, h.noFatal, h.rows, answers_resolve _ _ _, h.described,
      fun hs => List.mem_append_left _ (h.asked hs)⟩

theorem sound_start (x : Execution β π ν ε) : Sound x [] x.start := by
  unfold Execution.start
  split
  · exact (sound_fresh x).submission (submission_of_submit x.config x.fresh)
  · exact sound_fresh x

theorem not_mem_append_singleton {a b : Message ε} (h : a ∉ before) (hne : a ≠ b) : a ∉ before ++ [b] := by
  rw [List.mem_append, List.mem_singleton, not_or]
  exact ⟨h, hne⟩

private theorem received_append_other (x : Execution β π ν ε) (before : List (Message ε)) (s : State π ν ε)
    (h : ∀ data, m ≠ .dataRow data) : x.received (before ++ [m]) s = x.received before s := by
  rw [Execution.received_append]
  cases m with
  | dataRow data => exact absurd rfl (h data)
  | _ => exact List.append_nil _

/-- A call that reads nothing new. -/
private theorem Sound.append (h : Sound x before s) (hfatal : ∀ e, m ≠ .error e) (hrow : ∀ data, m ≠ .dataRow data)
    (hdescription : ∀ fields, m ≠ .rowDescription fields) : Sound x (before ++ [m]) s where
  settledOnce := h.settledOnce
  pending := h.pending
  noFatal hs e := not_mem_append_singleton (h.noFatal hs e) (hfatal e).symm
  rows hs hb := by
    rw [received_append_other x before x.start hrow]
    exact h.rows hs hb
  answers := h.answers
  described hs fields := not_mem_append_singleton (h.described hs fields) (hdescription fields).symm
  asked := h.asked

/-- A call that settles or finds the query settled. -/
private theorem Sound.append_settled (h : Sound x before s) (hsettled : t.settled = true)
    (hlength : t.deferred.length = 1)
    (hfields : t.fields = s.fields) (hparsers : t.parsers = s.parsers) (hreceived : t.fieldsReceived = s.fieldsReceived)
    (hdescribe : t.describeSent = s.describeSent) (hsent : t.sent = s.sent)
    (hdescription : ∀ fields, m ≠ .rowDescription fields) : Sound x (before ++ [m]) t where
  settledOnce _ := hlength
  pending hs := by
    rw [hsettled] at hs
    cases hs
  noFatal hs := by
    rw [hsettled] at hs
    cases hs
  rows hs := by
    rw [hsettled] at hs
    cases hs
  answers := by
    rw [hfields, hparsers]
    exact h.answers
  described hs fields := not_mem_append_singleton (h.described (hreceived ▸ hs) fields) (hdescription fields).symm
  asked hs := by
    rw [hsent]
    exact h.asked (hdescribe ▸ hs)

private theorem received_append_row (x : Execution β π ν ε) (before : List (Message ε)) (data : List (Option String)) :
    x.received (before ++ [.dataRow data]) x.start = x.received before x.start ++ [(x.state before, data)] :=
  Execution.received_append x before [.dataRow data] x.start

/-- Every transition keeps what holds between the calls. -/
private theorem Sound.step (h : Sound x before s) (hstate : x.state before = s) (hstep : Step x.config s m t) :
    Sound x (before ++ [m]) t := by
  cases hstep with
  | @described fields hthrown =>
    have hother : Sound x (before ++ [.rowDescription fields]) { s with fieldsReceived := true } := {
      settledOnce := h.settledOnce
      pending := h.pending
      noFatal := fun hs e => not_mem_append_singleton (h.noFatal hs e) (by simp)
      rows := fun hs hb => by
        rw [received_append_other x before x.start (by simp)]
        exact h.rows hs hb
      answers := h.answers
      described := fun hs => by cases hs
      asked := h.asked }
    exact ⟨hother.settledOnce, hother.pending, hother.noFatal, hother.rows, answers_resolve _ _ _, hother.described,
      hother.asked⟩
  | @refused fields e reason hb hthrown hreason =>
    exact {
      settledOnce := h.settledOnce
      pending := h.pending
      noFatal := fun hs e => not_mem_append_singleton (h.noFatal hs e) (by simp)
      rows := fun _ he => by cases he
      answers := answers_resolve _ _ _
      described := fun hs => by cases hs
      asked := h.asked }
  | @dropped data hdrop =>
    exact {
      settledOnce := h.settledOnce
      pending := h.pending
      noFatal := fun hs e => not_mem_append_singleton (h.noFatal hs e) (by simp)
      rows := fun hs hb => (hdrop.elim (fun hd => by rw [hs] at hd; cases hd) fun hd => hd hb).elim
      answers := h.answers
      described := fun hs fields => not_mem_append_singleton (h.described hs fields) (by simp)
      asked := h.asked }
  | @row data row log hsettled hb hread =>
    exact {
      settledOnce := h.settledOnce
      pending := h.pending
      noFatal := fun hs e => not_mem_append_singleton (h.noFatal hs e) (by simp)
      rows := fun hs hb => by
        rw [received_append_row, hstate]
        exact List.rel_append (h.rows hs hb) (.cons (image_of_read hread) .nil)
      answers := h.answers
      described := fun hs fields => not_mem_append_singleton (h.described hs fields) (by simp)
      asked := h.asked }
  | @broken data e reason log hsettled hb hread hreason =>
    exact {
      settledOnce := h.settledOnce
      pending := h.pending
      noFatal := fun hs e => not_mem_append_singleton (h.noFatal hs e) (by simp)
      rows := fun _ he => by cases he
      answers := h.answers
      described := fun hs fields => not_mem_append_singleton (h.described hs fields) (by simp)
      asked := h.asked }
  | @completed text command rowCount oid =>
    have happend := h.append (m := .commandComplete text) (by simp) (by simp) (by simp)
    exact ⟨happend.settledOnce, happend.pending, happend.noFatal, happend.rows, happend.answers, happend.described,
      happend.asked⟩
  | suspended hb =>
    have happend := h.append (m := .portalSuspended) (by simp) (by simp) (by simp)
    exact ⟨happend.settledOnce, happend.pending, happend.noFatal, (fun _ he => by cases he), happend.answers,
      happend.described, happend.asked⟩
  | copyRefused =>
    have happend := h.append (m := .copyInResponse) (by simp) (by simp) (by simp)
    exact ⟨happend.settledOnce, happend.pending, happend.noFatal, happend.rows, happend.answers, happend.described,
      fun hs => List.mem_append_left _ (happend.asked hs)⟩
  | ignored hm =>
    obtain rfl | ⟨chunk, rfl⟩ | ⟨rfl, _⟩ := hm
    · exact h.append (by simp) (by simp) (by simp)
    · exact h.append (by simp) (by simp) (by simp)
    · exact h.append (by simp) (by simp) (by simp)
  | late hsettled hm =>
    exact h.append_settled hsettled (h.settledOnce hsettled) rfl rfl rfl rfl rfl
      (by rcases hm with rfl | ⟨e, rfl⟩ <;> simp)
  | @rejected _ reason hsettled hb hm =>
    have hlength : (s.rejected reason).deferred.length = 1 := by
      unfold State.rejected
      rw [h.pending hsettled]
      rfl
    exact h.append_settled rfl hlength rfl rfl rfl rfl rfl (by rcases hm with rfl | ⟨e, rfl⟩ <;> simp)
  | @fatal reason hsettled hb =>
    have hlength : (s.rejected reason).deferred.length = 1 := by
      unfold State.rejected
      rw [h.pending hsettled]
      rfl
    exact h.append_settled rfl hlength rfl rfl rfl rfl rfl (by simp)
  | resolved hsettled hb =>
    rw [noticed_eq s x.config.name]
    have hlength : (s.deferred ++ [Settlement.resolve s.result]).length = 1 := by
      rw [h.pending hsettled]
      rfl
    exact h.append_settled rfl hlength rfl rfl rfl rfl rfl (by simp)

/-! ### A lawful call -/

private theorem Step.keeps (hstep : Step config s m t) {e : JsError ε} (h : s.bufferedError = some e) :
    t.bufferedError = some e := by
  cases hstep with
  | refused hb _ _ => rw [h] at hb; cases hb
  | broken _ hb _ _ => rw [h] at hb; cases hb
  | suspended hb => rw [h] at hb; cases hb
  | resolved _ hb => rw [h] at hb; cases hb
  | _ => exact h

private theorem some_iff_columns {fields : List FastQueryField} {e : Thrown ε} {reason other : JsError ε}
    (h : (types.resolve s.consulted fields).thrown = some e) (hreason : e.asError = .ok reason) :
    some reason = some other ↔ Buffers types s (.rowDescription fields) other := by
  constructor
  · intro hsame
    cases hsame
    exact .columns h hreason
  · intro hbuffers
    cases hbuffers with
    | columns hthrown hother =>
      rw [h] at hthrown
      cases hthrown
      rw [hreason] at hother
      exact congrArg some (Except.ok.inj hother)

private theorem some_iff_row {data : List (Option String)} {e : Thrown ε} {reason other : JsError ε}
    (hsettled : s.settled = false) (h : (types.read s.consulted s.parsers data).1 = .error e)
    (hreason : e.asError = .ok reason) : some reason = some other ↔ Buffers types s (.dataRow data) other := by
  constructor
  · intro hsame
    cases hsame
    exact .row hsettled h hreason
  · intro hbuffers
    cases hbuffers with
    | row _ hthrown hother =>
      rw [h] at hthrown
      cases hthrown
      rw [hreason] at hother
      exact congrArg some (Except.ok.inj hother)

/-- The calls that leave no error buffered had none to buffer. -/
private theorem Step.buffers (hstep : Step config s m t) (h : s.bufferedError = none) (other : JsError ε) :
    t.bufferedError = some other ↔ Buffers config.types s m other := by
  have hnothing : (∀ e, ¬ Buffers config.types s m e) → t.bufferedError = none →
      (t.bufferedError = some other ↔ Buffers config.types s m other) := by
    intro hnone ht
    rw [ht]
    exact ⟨(fun he => by cases he), fun hbuffers => absurd hbuffers (hnone other)⟩
  cases hstep with
  | described hthrown =>
    refine hnothing (fun e hbuffers => ?_) h
    cases hbuffers with
    | columns hsome _ =>
      rw [hthrown h] at hsome
      cases hsome
  | refused _ hthrown hreason => exact some_iff_columns hthrown hreason
  | dropped hdrop =>
    refine hnothing (fun e hbuffers => ?_) h
    cases hbuffers with
    | row hsettled _ _ =>
      rcases hdrop with hd | hd
      · rw [hsettled] at hd
        cases hd
      · exact hd h
  | row _ _ hread =>
    refine hnothing (fun e hbuffers => ?_) h
    cases hbuffers with
    | row _ hthrown _ =>
      rw [hread] at hthrown
      cases hthrown
  | broken hsettled _ hread hreason => exact some_iff_row hsettled (congrArg Prod.fst hread) hreason
  | suspended _ =>
    constructor
    · intro hsame
      cases hsame
      exact .suspended
    · intro hbuffers
      cases hbuffers
      rfl
  | ignored hm =>
    refine hnothing (fun e hbuffers => ?_) h
    obtain rfl | ⟨chunk, rfl⟩ | ⟨rfl, hb⟩ := hm
    · cases hbuffers
    · cases hbuffers
    · exact hb h
  | late _ hm =>
    refine hnothing (fun e hbuffers => ?_) h
    obtain rfl | ⟨e, rfl⟩ := hm
    · cases hbuffers
    · cases hbuffers
  | rejected _ hb _ => rw [h] at hb; cases hb
  | resolved _ _ =>
    have hkept : (s.noticed config.name).resolved.bufferedError = none := by
      rw [noticed_eq]
      exact h
    exact hnothing (fun e hbuffers => by cases hbuffers) hkept
  | completed _ _ _ => exact hnothing (fun e hbuffers => by cases hbuffers) h
  | copyRefused => exact hnothing (fun e hbuffers => by cases hbuffers) h
  | fatal _ _ => exact hnothing (fun e hbuffers => by cases hbuffers) h

/-- A settlement is the first. -/
private theorem Step.settles (h : Sound x before (x.state before)) (hstep : Step x.config (x.state before) m t) :
    t.deferred = (x.state before).deferred ∨
      (x.state before).deferred = [] ∧ ∃ settlement, t.deferred = [settlement] ∧ Settles x before m settlement := by
  cases hstep with
  | @rejected _ reason hsettled hb hm =>
    have hpending := h.pending hsettled
    refine .inr ⟨hpending, .reject reason, ?_, .buffered hb hm⟩
    change (x.state before).deferred ++ [Settlement.reject reason] = _
    rw [hpending]
    rfl
  | @fatal reason hsettled hb =>
    have hpending := h.pending hsettled
    refine .inr ⟨hpending, .reject reason, ?_, .fatal hb⟩
    change (x.state before).deferred ++ [Settlement.reject reason] = _
    rw [hpending]
    rfl
  | resolved hsettled hb =>
    have hpending := h.pending hsettled
    refine .inr ⟨hpending, .resolve (x.state before).result, ?_,
      .resolve hb (h.noFatal hsettled) (h.rows hsettled hb) h.answers⟩
    rw [noticed_eq]
    change (x.state before).deferred ++ [Settlement.resolve (x.state before).result] = _
    rw [hpending]
    rfl
  | _ => exact .inl rfl

private theorem Step.cache (h : Sound x before (x.state before)) (hstep : Step x.config (x.state before) m t) :
    t.fieldsCache = (x.state before).fieldsCache ∨
      (∃ fields, m = .rowDescription fields ∧
        t.fieldsCache = Function.update (x.state before).fieldsCache x.config.name (some fields)) ∨
      m = .readyForQuery ∧ (x.state before).bufferedError = none ∧ (∀ e, .error e ∉ before) ∧
        .describe 'P' "" ∈ (x.state before).sent ∧ (∀ fields, .rowDescription fields ∉ before) ∧
        t.fieldsCache = Function.update (x.state before).fieldsCache x.config.name (some []) := by
  cases hstep with
  | @described fields _ => exact .inr (.inl ⟨fields, rfl, rfl⟩)
  | @refused fields _ _ _ _ _ => exact .inr (.inl ⟨fields, rfl, rfl⟩)
  | resolved hsettled hb =>
    cases hnotice : (x.state before).describeSent && !(x.state before).fieldsReceived && !(x.state before).settled with
    | false =>
      have hsame : (x.state before).noticed x.config.name = x.state before := by
        unfold State.noticed
        rw [hnotice]
        rfl
      rw [hsame]
      exact .inl rfl
    | true =>
      have hset : (x.state before).noticed x.config.name = { x.state before with
          fieldsCache := Function.update (x.state before).fieldsCache x.config.name (some []) } := by
        unfold State.noticed
        rw [hnotice]
        rfl
      simp only [Bool.and_eq_true, Bool.not_eq_true'] at hnotice
      obtain ⟨⟨hdescribe, hreceived⟩, _⟩ := hnotice
      rw [hset]
      exact .inr (.inr ⟨rfl, hb, h.noFatal hsettled, h.asked hdescribe, h.described hreceived, rfl⟩)
  | _ => exact .inl rfl

private theorem lawfulCall_of_convertible (h : Sound x before (x.state before))
    (hconvertible : Convertible x.config.types (x.state before) m) : LawfulCall x before m := by
  obtain ⟨t, hreceive, hstep⟩ := step_of_receive x.config m hconvertible
  have hafter : x.state (before ++ [m]) = t := by rw [Execution.state_append, hreceive]
  refine ⟨congrArg Prod.fst hreceive, ?_, ?_, ?_, ?_⟩
  · rw [hafter]
    exact hstep.settles h
  · rw [hafter]
    exact fun e he => hstep.keeps he
  · rw [hafter]
    exact fun hb e => hstep.buffers hb e
  · rw [hafter]
    exact hstep.cache h

private theorem sound_state
    (h : ∀ before m behind, ms = before ++ m :: behind → Convertible x.config.types (x.state before) m) :
    Sound x ms (x.state ms) := by
  induction ms using List.reverseRecOn with
  | nil => exact sound_start x
  | append_singleton before m ih =>
    have hbefore : Sound x before (x.state before) := by
      refine ih fun first n behind hsplit => h first n (behind ++ [m]) ?_
      rw [hsplit, List.append_assoc]
      rfl
    obtain ⟨t, hreceive, hstep⟩ := step_of_receive x.config m (h before m [] rfl)
    have hafter : x.state (before ++ [m]) = t := by rw [Execution.state_append, hreceive]
    rw [hafter]
    exact hbefore.step rfl hstep

/-- `submit` leaves the settlement, the cache and the depth of the cork alone. -/
private theorem Submission.frame {r : Except (Thrown ε) (Option (JsError ε))} (h : Submission config s r t) :
    t.settled = s.settled ∧ t.deferred = s.deferred ∧ t.fieldsCache = s.fieldsCache ∧ t.corked = s.corked := by
  cases h with
  | _ => exact ⟨rfl, rfl, rfl, rfl⟩

theorem start_frame (x : Execution β π ν ε) :
    x.start.settled = false ∧ x.start.deferred = [] ∧ x.start.fieldsCache = x.fieldsCache ∧ x.start.corked = 0 := by
  unfold Execution.start
  split
  · exact (submission_of_submit x.config x.fresh).frame
  · exact ⟨rfl, rfl, rfl, rfl⟩

end Facts

/-- The calls are lawful exactly if no call meets a throw of the caller's code that cannot be made an `Error`. -/
theorem lawful_iff_convertible (x : Execution β π ν ε) (ms : List (Message ε)) :
    Lawful x ms ↔ ∀ before m behind, ms = before ++ m :: behind → Convertible x.config.types (x.state before) m := by
  constructor
  · intro h before m behind hsplit
    by_contra hnot
    obtain ⟨thrown, t, hthrows, _⟩ := escape_of_not_convertible x.config m hnot
    have hquiet := (h.call before m behind hsplit).quiet
    rw [hthrows] at hquiet
    cases hquiet
  · intro h
    have hsound := sound_state h
    obtain ⟨_, hdeferred, hcache, _⟩ := start_frame x
    refine ⟨hdeferred, hcache, fun before m behind hsplit => ?_, ?_⟩
    · refine lawfulCall_of_convertible (sound_state fun first n rest hfirst => h first n (rest ++ m :: behind) ?_)
        (h before m behind hsplit)
      rw [hsplit, hfirst, List.append_assoc]
      rfl
    · cases hsettled : (x.state ms).settled with
      | true => exact Nat.le_of_eq (hsound.settledOnce hsettled)
      | false =>
        rw [hsound.pending hsettled]
        exact Nat.zero_le 1

/-- A query with a parser that throws `Object.create(null)`. -/
def spilling : Execution Unit Unit Unit Unit where
  config := {
    name := "s1"
    text := "SELECT 1"
    values := []
    types := {
      getTypeParser := fun _ _ _ => .ok ()
      parse := fun _ _ _ => .error (.inconvertible (.error .typeError)) }
    prepareValue := fun _ => .ok .null }
  fieldsCache := fun _ => none
  parsedStatements := fun _ => none
  submitted := true

def spilt : List (Message Unit) := [.rowDescription [⟨"?column?", 23, none⟩], .dataRow [some "1"], .readyForQuery]

/-- The handler throws, and the row is lost without an error. -/
theorem spilling_unlawful : ¬ Lawful spilling spilt ∧
    (spilling.state spilt).deferred = [.resolve ⟨[], [⟨"?column?", 23, none⟩], none, none, none⟩] := by
  refine ⟨fun h => ?_, rfl⟩
  have hquiet := (h.call [.rowDescription [⟨"?column?", 23, none⟩]] (.dataRow [some "1"]) [.readyForQuery] rfl).quiet
  cases hquiet

end PgliteBridge.FastQuery
