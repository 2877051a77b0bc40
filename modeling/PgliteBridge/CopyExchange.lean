import PgliteBridge.ArrivalOrder
import PgliteBridge.Responses

/-!
# COPY from the client

A client sends the Query, CopyData messages, and CopyDone or CopyFail.  The bridge answers the Query itself and keeps
the messages up to the last one, which hands all of them to PGlite as one call, or refuses the COPY if they exceed the
aggregate cap (`copy_captured`).
-/

namespace PgliteBridge

/-! ### Beginnings of a stream -/

/-- A message that is not complete is waited for. -/
private theorem takeMessage_beginning {message part : Bytes} (h : IsMessage message) (hpart : part <+: message)
    (hne : part ≠ message) : takeMessage part = .incomplete := by
  obtain ⟨more, hmore⟩ := hpart
  have hwhole : takeMessage message = .message message [] := h
  cases htake : takeMessage part with
  | incomplete => rfl
  | malformed error =>
    have hmalformed := takeMessage_append_malformed more htake
    rw [hmore, hwhole] at hmalformed
    cases hmalformed
  | message first rest =>
    have hfirst := takeMessage_append more htake
    rw [hmore, hwhole, Framing.message.injEq] at hfirst
    have hnil : more = [] := (List.append_eq_nil_iff.mp hfirst.2.symm).2
    rw [hnil, List.append_nil] at hmore
    exact absurd hmore hne

private theorem cut_messages {messages : List Bytes} (h : ∀ message ∈ messages, IsMessage message) (tail : Bytes) :
    cut (messages.flatten ++ tail) = { cut tail with messages := messages ++ (cut tail).messages } := by
  rw [cut_append, cut_flatten h]
  rfl

/-- What has come of a stream of messages: the first ones, and a part of the next. -/
private theorem beginning_of_flatten {messages : List Bytes} {part : Bytes} (h : part <+: messages.flatten)
    (hne : part ≠ messages.flatten) : ∃ done next later begun, messages = done ++ next :: later ∧
      part = done.flatten ++ begun ∧ begun <+: next ∧ begun ≠ next := by
  induction messages generalizing part with
  | nil => exact absurd (List.prefix_nil.mp h) hne
  | cons message messages ih =>
    rw [List.flatten_cons] at h hne
    by_cases hshort : part.length < message.length
    · have hinitial : part <+: message :=
        List.prefix_of_prefix_length_le h (List.prefix_append _ _) (Nat.le_of_lt hshort)
      refine ⟨[], message, messages, part, rfl, rfl, hinitial, ?_⟩
      rintro rfl
      omega
    · have hinitial : message <+: part := List.prefix_of_prefix_length_le (List.prefix_append _ _) h (by omega)
      obtain ⟨more, rfl⟩ := hinitial
      have hmore : more <+: messages.flatten := (List.prefix_append_right_inj message).mp h
      obtain ⟨done, next, later, begun, hmessages, hpart, hbegun, hnext⟩ := ih hmore fun he => hne (by rw [he])
      refine ⟨message :: done, next, later, begun, ?_, ?_, hbegun, hnext⟩
      · rw [hmessages, List.cons_append]
      · rw [hpart, List.flatten_cons, List.append_assoc]

/-! ### The messages of a COPY -/

/-- The Query that starts a COPY, and some of its data. -/
structure CopyOpening where
  query : Bytes
  data : List Bytes
  query_isMessage : IsMessage query
  query_type : query.getD 0 0 = QUERY
  query_capture : sniffCopyIn (Duplex.queryText query) = .capture
  data_isMessage : ∀ message ∈ data, IsMessage message
  data_type : ∀ message ∈ data, message.getD 0 0 = COPY_DATA

/-- A whole COPY. -/
structure CopyExchange extends CopyOpening where
  terminator : Bytes
  terminator_isMessage : IsMessage terminator
  terminator_type : terminator.getD 0 0 = COPY_DONE ∨ terminator.getD 0 0 = COPY_FAIL

namespace CopyOpening

def messages (x : CopyOpening) : List Bytes := x.query :: x.data

private theorem isMessage (x : CopyOpening) : ∀ message ∈ x.messages, IsMessage message := by
  intro message hmem
  rcases List.mem_cons.mp hmem with rfl | hmem
  · exact x.query_isMessage
  · exact x.data_isMessage message hmem

private theorem query_kind (x : CopyOpening) : messageKind x.query = .query .capture := by
  unfold messageKind
  rw [x.query_type, x.query_capture]
  rfl

end CopyOpening

namespace CopyExchange

def messages (x : CopyExchange) : List Bytes := x.toCopyOpening.messages ++ [x.terminator]

/-- The one call. -/
def batch (x : CopyExchange) : Bytes := x.messages.flatten

private theorem isMessage (x : CopyExchange) : ∀ message ∈ x.messages, IsMessage message := by
  intro message hmem
  rcases List.mem_append.mp hmem with hmem | hmem
  · exact x.toCopyOpening.isMessage message hmem
  · rw [List.mem_singleton.mp hmem]
    exact x.terminator_isMessage

/-- What the COPY leaves of a connection. -/
def answer (x : CopyExchange) (pglite : PGlite) (c : Connection) : Connection :=
  let c := { c with duplex := c.duplex.push .copyInResponse }
  if c.duplex.copyAggregateCapBytes < x.batch.length then
    { c with duplex := (c.duplex.pushSyntheticError "54000"
        (s!"COPY FROM STDIN payload exceeded the aggregate cap of " ++
          s!"{c.duplex.copyAggregateCapBytes} bytes; the copy was not executed")).pushSyntheticReadyForQuery }
  else c.call pglite x.batch .copyIn

end CopyExchange

/-! ### The reference during a COPY -/

private theorem messageKind_terminate {message : Bytes} :
    messageKind message = .terminate ↔ message.getD 0 0 = TERMINATE := by
  constructor
  · intro h
    unfold messageKind at h
    dsimp only at h
    repeat' split at h
    all_goals first | assumption | cases h
  · intro h
    unfold messageKind
    rw [h]
    rfl

namespace Exchange

variable {cap : Nat} {pglite : PGlite} {r : Exchange}

private theorem fold_copyData {messages data : List Bytes} (hlive : r.stopped = false)
    (hdata : ∀ message ∈ data, message.getD 0 0 = COPY_DATA) (hcaptured : r.captured = some messages) :
    r.fold cap pglite data = { r with captured := some (messages ++ data) } := by
  induction data generalizing r messages with
  | nil => rw [List.append_nil, ← hcaptured]; rfl
  | cons message data ih =>
    have hkind := messageKind_copyData.mpr (hdata message List.mem_cons_self)
    have hnext : r.next cap pglite message = { r with captured := some (messages ++ [message]) } := by
      unfold next
      rw [hkind, hcaptured]
    have hrest := fun other hmem => hdata other (List.mem_cons_of_mem _ hmem)
    have hlive' : ({ r with captured := some (messages ++ [message]) } : Exchange).stopped = false := hlive
    rw [fold_cons, if_neg (by rw [hlive]; decide), hnext, ih hlive' hrest rfl, List.append_assoc]
    rfl

/-- The Query is answered, and the data is kept. -/
private theorem fold_opening (x : CopyOpening) (hlive : r.stopped = false) (hcaptured : r.captured = none) :
    r.fold cap pglite x.messages =
      { r with captured := some x.messages, pushed := r.pushed ++ [.copyInResponse] } := by
  have hnext : r.next cap pglite x.query =
      { r with captured := some [x.query], pushed := r.pushed ++ [.copyInResponse] } := by
    unfold next
    rw [x.query_kind, hcaptured]
  rw [CopyOpening.messages, fold_cons, if_neg (by rw [hlive]; decide), hnext]
  let opened : Exchange := { r with captured := some [x.query], pushed := r.pushed ++ [.copyInResponse] }
  have hopened : opened.captured = some [x.query] := rfl
  exact fold_copyData (r := opened) hlive x.data_type hopened

/-- The message behind the data. -/
private theorem fold_behind (x : CopyOpening) (hlive : r.stopped = false) (hcaptured : r.captured = none)
    (message : Bytes) :
    r.fold cap pglite (x.messages ++ [message]) =
      next cap pglite { r with captured := some x.messages, pushed := r.pushed ++ [.copyInResponse] } message := by
  have hlive' : ({ r with captured := some x.messages, pushed := r.pushed ++ [.copyInResponse] } :
      Exchange).stopped = false := hlive
  rw [fold_append, fold_opening x hlive hcaptured, fold_cons, if_neg (by rw [hlive']; decide)]
  rfl

private theorem next_violation {messages : List Bytes} (hcaptured : r.captured = some messages) {message : Bytes}
    (hdata : message.getD 0 0 ≠ COPY_DATA) (hend : ¬ (message.getD 0 0 = COPY_DONE ∨ message.getD 0 0 = COPY_FAIL))
    (hterminate : message.getD 0 0 ≠ TERMINATE) : ∃ text, r.next cap pglite message = r.fail text := by
  unfold next
  rw [hcaptured]
  cases hkind : messageKind message with
  | terminate => exact absurd (messageKind_terminate.mp hkind) hterminate
  | copyData => exact absurd (messageKind_copyData.mp hkind) hdata
  | copyEnd => exact absurd (messageKind_copyEnd.mp hkind) hend
  | _ => exact ⟨_, rfl⟩

end Exchange

/-! ### Between two messages -/

/-- A connection between two messages and outside a COPY. -/
structure Connection.Fresh (c : Connection) : Prop where
  live : c.stopped = false
  ready : c.duplex.phase = .ready
  read : c.buffer.bytes = []
  idle : c.duplex.copyCapture = none

/-- Two connections that go on alike. -/
structure Connection.Alike (c c' : Connection) : Prop where
  calls : c.calls = c'.calls
  pushed : c.duplex.pushed = c'.duplex.pushed
  error : c.error = c'.error
  stopped : c.stopped = c'.stopped
  status : c.duplex.lastSeenRfqStatus = c'.duplex.lastSeenRfqStatus
  bytes : c.stopped = false → c.buffer.bytes = c'.buffer.bytes
  pipeline : c.stopped = false → c.duplex.pipeline = c'.duplex.pipeline
  capturing : c.stopped = false → (c.duplex.copyCapture = none ↔ c'.duplex.copyCapture = none)

section Reading

variable {cap : Nat} {pglite : PGlite} {stream : Bytes} {c c' : Connection}

private theorem Agrees.capturing_iff {r : Exchange} (h : Agrees cap c r) (hlive : r.stopped = false) :
    c.duplex.copyCapture = none ↔ r.captured = none := by
  constructor
  · intro hnone
    cases hcaptured : r.captured with
    | none => rfl
    | some messages =>
      obtain ⟨capture, hcapture, -⟩ := h.capturing hlive messages hcaptured
      rw [hnone] at hcapture
      cases hcapture
  · exact h.idle hlive

/-- Connections that have read the same bytes. -/
private theorem HasRead.alike (h : HasRead cap pglite stream c) (h' : HasRead cap pglite stream c') : c.Alike c' where
  calls := h.agrees.calls.trans h'.agrees.calls.symm
  pushed := h.agrees.pushed.trans h'.agrees.pushed.symm
  error := h.agrees.error.trans h'.agrees.error.symm
  stopped := h.agrees.stopped.trans h'.agrees.stopped.symm
  status := h.agrees.status.trans h'.agrees.status.symm
  bytes hlive := by
    have hlive := h.agrees.stopped.symm.trans hlive
    cases (h.waits hlive).2 with
    | startup _ htake hbytes =>
      cases (h'.waits hlive).2 with
      | startup _ _ hbytes' => exact hbytes.trans hbytes'.symm
      | message _ htake' => rw [htake] at htake'; cases htake'
    | message _ htake hbytes =>
      cases (h'.waits hlive).2 with
      | startup _ htake' => rw [htake] at htake'; cases htake'
      | message _ htake' hbytes' =>
        rw [htake, Framing.message.injEq] at htake'
        rw [hbytes, hbytes', htake'.2]
  pipeline hlive := by
    have hlive := h.agrees.stopped.symm.trans hlive
    exact (h.agrees.collected hlive).trans (h'.agrees.collected hlive).symm
  capturing hlive := by
    have hlive := h.agrees.stopped.symm.trans hlive
    exact (h.agrees.capturing_iff hlive).trans (h'.agrees.capturing_iff hlive).symm

/-- What comes behind the last whole message. -/
private theorem HasRead.behind (h : HasRead cap pglite stream c) (hfresh : c.Fresh) : ∃ packet rest,
    takeStartup stream = .message packet rest ∧ (cut rest).rest = [] ∧ (cut rest).error = none ∧
      ∀ more, reference cap pglite (stream ++ more) = (reference cap pglite stream).run cap pglite (cut more) := by
  have hlive := h.agrees.stopped.symm.trans hfresh.live
  cases (h.waits hlive).2 with
  | startup hphase =>
    rw [hfresh.ready] at hphase
    cases hphase
  | @message _ packet rest htake hbytes =>
    have hread : (cut rest).rest = [] := hbytes.symm.trans hfresh.read
    refine ⟨packet, rest, htake, hread, cut_error_of_live htake hlive, fun more => ?_⟩
    rw [reference_message htake] at hlive ⊢
    rw [reference_message (takeStartup_append more htake), Exchange.run_append, if_neg (by rw [hlive]; decide), hread,
      List.nil_append]

/-- A connection that has answered whole messages has read them. -/
private theorem HasRead.extend (h : HasRead cap pglite stream c) (hfresh : c.Fresh) {messages : List Bytes}
    (hmessages : ∀ message ∈ messages, IsMessage message)
    (hagrees : Agrees cap c' ((reference cap pglite stream).fold cap pglite messages))
    (hframe : c'.error = none → c'.buffer = c.buffer ∧ c'.duplex.phase = .ready) :
    HasRead cap pglite (stream ++ messages.flatten) c' := by
  obtain ⟨packet, rest, htake, hrest, herror, hbehind⟩ := h.behind hfresh
  have hreference : reference cap pglite (stream ++ messages.flatten) =
      (reference cap pglite stream).fold cap pglite messages := by
    rw [hbehind, cut_flatten hmessages]
    rfl
  rw [← hreference] at hagrees
  refine ⟨hagrees, fun hlive => ?_⟩
  obtain ⟨hbuffer, hphase⟩ := hframe (error_of_live hagrees hlive)
  have hwaits := h.waits (h.agrees.stopped.symm.trans hfresh.live)
  refine ⟨hbuffer ▸ hwaits.1, .message hphase (takeStartup_append _ htake) ?_⟩
  rw [hbuffer, hfresh.read, cut_append, herror, hrest, List.nil_append, cut_flatten hmessages]

/-- A COPY is answered as a whole. -/
private theorem HasRead.answer (h : HasRead cap pglite stream c) (hfresh : c.Fresh) (x : CopyExchange) :
    HasRead cap pglite (stream ++ x.batch) (x.answer pglite c) := by
  obtain rfl := h.agrees.limit
  have hlive := h.agrees.stopped.symm.trans hfresh.live
  have hcaptured := (h.agrees.capturing_iff hlive).mp hfresh.idle
  -- the announced COPY, which is not captured any more
  let r : Exchange := reference c.duplex.copyAggregateCapBytes pglite stream
  have hdone : Agrees c.duplex.copyAggregateCapBytes { c with duplex := c.duplex.push .copyInResponse }
      { r with captured := none, pushed := r.pushed ++ [.copyInResponse] } :=
    ⟨rfl, h.agrees.calls, by rw [← h.agrees.pushed]; rfl, h.agrees.error, h.agrees.ended, h.agrees.status,
      fun _ => h.agrees.collected hlive, fun _ _ => hfresh.idle, fun _ _ he => by cases he⟩
  have hkind := messageKind_copyEnd.mpr x.terminator_type
  have hbatch : (x.toCopyOpening.messages ++ [x.terminator]).flatten = x.batch := rfl
  refine h.extend hfresh x.isMessage ?_ ?_
  · rw [CopyExchange.messages, Exchange.fold_behind _ hlive hcaptured]
    unfold Exchange.next CopyExchange.answer
    have hlimit : (c.duplex.push .copyInResponse).copyAggregateCapBytes = c.duplex.copyAggregateCapBytes := rfl
    simp only [hkind, hbatch, hlimit]
    split
    · exact hdone.refuse "54000" _
    · exact hdone.call pglite x.batch .copyIn
  · intro herror
    unfold CopyExchange.answer at herror ⊢
    dsimp only at herror ⊢
    split
    · exact ⟨rfl, hfresh.ready⟩
    · rename_i hover
      rw [if_neg hover] at herror
      obtain ⟨hbuffer, hphase⟩ := call_frame_buffer _ _ _ herror
      exact ⟨hbuffer, hphase.trans hfresh.ready⟩

/-- A COPY that has come in part. -/
private theorem HasRead.arriving (h : HasRead cap pglite stream c) (hfresh : c.Fresh) (x : CopyExchange) {part : Bytes}
    (hpart : part <+: x.batch) (hne : part ≠ x.batch) (h' : HasRead cap pglite (stream ++ part) c') :
    c'.calls = c.calls ∧ c'.error = none ∧
      c'.duplex.pushed = c.duplex.pushed ++ if x.query.length ≤ part.length then [.copyInResponse] else [] := by
  have hlive := h.agrees.stopped.symm.trans hfresh.live
  have hcaptured := (h.agrees.capturing_iff hlive).mp hfresh.idle
  have herror := error_of_live h.agrees hlive
  obtain ⟨-, -, -, -, -, hbehind⟩ := h.behind hfresh
  obtain ⟨done, next, later, begun, hmessages, rfl, hbegun, hnext⟩ := beginning_of_flatten hpart hne
  have hwhole : ∀ message ∈ done ++ next :: later, IsMessage message := fun message hmem =>
    x.isMessage message (by rw [hmessages]; exact hmem)
  have hdone : ∀ message ∈ done, IsMessage message := fun message hmem =>
    hwhole message (List.mem_append_left _ hmem)
  have hincomplete := takeMessage_beginning (hwhole next (by simp)) hbegun hnext
  have hreference : reference cap pglite (stream ++ (done.flatten ++ begun)) =
      (reference cap pglite stream).fold cap pglite done := by
    rw [hbehind, cut_messages hdone, cut_incomplete hincomplete, List.append_nil]
    rfl
  have hagrees := h'.agrees
  rw [hreference] at hagrees
  have hordered : x.query :: (x.data ++ [x.terminator]) = done ++ next :: later := hmessages
  cases done with
  | nil =>
    have hquery : x.query = next := by simpa using (List.cons.inj hordered).1
    have hshort : begun.length < x.query.length := by
      rw [hquery]
      refine lt_of_le_of_ne hbegun.length_le fun he => hnext (hbegun.eq_of_length he)
    refine ⟨hagrees.calls.trans h.agrees.calls.symm, (hagrees.error.trans h.agrees.error.symm).trans herror, ?_⟩
    rw [if_neg (by simpa using hshort), List.append_nil]
    exact hagrees.pushed.trans h.agrees.pushed.symm
  | cons query data =>
    obtain ⟨rfl, hdata⟩ := List.cons.inj hordered
    have hinitial : data <+: x.data := by
      have hbegins : data <+: x.data ++ [x.terminator] := ⟨_, hdata.symm⟩
      refine (List.prefix_concat_iff.mp hbegins).resolve_left fun he => ?_
      have hlength := congrArg List.length hdata
      rw [he] at hlength
      simp at hlength
    let opening : CopyOpening :=
      ⟨x.query, data, x.query_isMessage, x.query_type, x.query_capture,
        fun message hmem => x.data_isMessage message (hinitial.subset hmem),
        fun message hmem => x.data_type message (hinitial.subset hmem)⟩
    have hopened : (reference cap pglite stream).fold cap pglite (x.query :: data) = _ :=
      Exchange.fold_opening opening hlive hcaptured
    rw [hopened] at hagrees
    refine ⟨hagrees.calls.trans h.agrees.calls.symm, (hagrees.error.trans h.agrees.error.symm).trans herror, ?_⟩
    rw [if_pos (by simp), hagrees.pushed, h.agrees.pushed]

/-- A message that has no place in a COPY. -/
private theorem HasRead.violated (h : HasRead cap pglite stream c) (hfresh : c.Fresh) (x : CopyOpening)
    {message after : Bytes} (hmessage : IsMessage message) (hdata : message.getD 0 0 ≠ COPY_DATA)
    (hend : ¬ (message.getD 0 0 = COPY_DONE ∨ message.getD 0 0 = COPY_FAIL)) (hterminate : message.getD 0 0 ≠ TERMINATE)
    (h' : HasRead cap pglite (stream ++ x.messages.flatten ++ message ++ after) c') :
    c'.calls = c.calls ∧ c'.error.isSome = true ∧ c'.duplex.pushed = c.duplex.pushed ++ [.copyInResponse] := by
  have hlive := h.agrees.stopped.symm.trans hfresh.live
  have hcaptured := (h.agrees.capturing_iff hlive).mp hfresh.idle
  obtain ⟨-, -, -, -, -, hbehind⟩ := h.behind hfresh
  have hwhole : ∀ other ∈ x.messages ++ [message], IsMessage other := by
    intro other hmem
    rcases List.mem_append.mp hmem with hmem | hmem
    · exact x.isMessage other hmem
    · rw [List.mem_singleton.mp hmem]
      exact hmessage
  have hflat : stream ++ x.messages.flatten ++ message ++ after =
      stream ++ (x.messages ++ [message]).flatten ++ after := by simp
  let r : Exchange := { reference cap pglite stream with
    captured := some x.messages, pushed := (reference cap pglite stream).pushed ++ [.copyInResponse] }
  have hcapturing : r.captured = some x.messages := rfl
  obtain ⟨text, hfailed⟩ : ∃ text, r.next cap pglite message = r.fail text :=
    Exchange.next_violation hcapturing hdata hend hterminate
  have hreference : reference cap pglite (stream ++ (x.messages ++ [message]).flatten) = r.fail text := by
    rw [hbehind, cut_flatten hwhole]
    exact (Exchange.fold_behind x hlive hcaptured message).trans hfailed
  have hstopped : (reference cap pglite (stream ++ (x.messages ++ [message]).flatten)).stopped = true := by
    rw [hreference]
    rfl
  have hagrees := h'.agrees
  rw [hflat, reference_append_stopped hstopped, hreference] at hagrees
  refine ⟨hagrees.calls.trans h.agrees.calls.symm, ?_, ?_⟩
  · rw [hagrees.error]
    rfl
  · rw [hagrees.pushed, h.agrees.pushed]
    rfl

end Reading

/-! ### The capture -/

/-- A COPY behind a stream that has left the connection `c`. -/
structure CopyExchange.Captured (x : CopyExchange) (cap : Nat) (rewrite : Bool) (backend : Backend) (stream : Bytes)
    (c : Connection) : Prop where
  /-- up to the last byte, the Query is answered and nothing else happens -/
  arriving : ∀ (chunks : List (List Bytes)) (part : Bytes), part <+: x.batch → part ≠ x.batch →
    chunks.flatten.flatten = stream ++ part →
      (Connection.writes cap (backend.pglite rewrite) chunks).calls = c.calls ∧
      (Connection.writes cap (backend.pglite rewrite) chunks).error = none ∧
      (Connection.writes cap (backend.pglite rewrite) chunks).duplex.pushed =
        c.duplex.pushed ++ if x.query.length ≤ part.length then [.copyInResponse] else []
  /-- then the COPY has been answered, and what follows is handled behind it -/
  answered : ∀ (chunks : List (List Bytes)) (after : Bytes), chunks.flatten.flatten = stream ++ x.batch ++ after →
    (Connection.writes cap (backend.pglite rewrite) chunks).Alike
      ((x.answer (backend.pglite rewrite) c).write (backend.pglite rewrite) [after])
  gone : (x.answer (backend.pglite rewrite) c).duplex.copyCapture = none
  within : x.batch.length ≤ cap →
    (x.answer (backend.pglite rewrite) c).calls = c.calls ++ [⟨x.batch, .copyIn⟩] ∧
    ∃ forwarded : List Bytes, (x.answer (backend.pglite rewrite) c).duplex.pushed =
      c.duplex.pushed ++ .copyInResponse :: forwarded.map Push.chunk
  forwarded : x.batch.length ≤ cap → ∀ frames, backend.Answers (c.calls ++ [⟨x.batch, .copyIn⟩]) frames →
    (x.answer (backend.pglite rewrite) c).Fresh ∧
    ∃ forwarded : List Bytes, (x.answer (backend.pglite rewrite) c).duplex.pushed =
        c.duplex.pushed ++ .copyInResponse :: forwarded.map Push.chunk ∧
      forwarded.flatten = referenceOutput ⟨false, rewrite, true⟩ true frames ∧
      ∀ before fr later, frames = before ++ fr :: later → (∀ other ∈ before, other.type ≠ COPY_IN_RESPONSE) →
        fr.type = COPY_IN_RESPONSE →
          forwarded.flatten = referenceOutput ⟨false, rewrite, true⟩ false (before ++ later)
  beyond : cap < x.batch.length →
    (x.answer (backend.pglite rewrite) c).Fresh ∧ (x.answer (backend.pglite rewrite) c).calls = c.calls ∧
    (x.answer (backend.pglite rewrite) c).duplex.pushed = c.duplex.pushed ++ [.copyInResponse,
      .error "54000" (s!"COPY FROM STDIN payload exceeded the aggregate cap of " ++
        s!"{cap} bytes; the copy was not executed"),
      .readyForQuery (c.duplex.lastSeenRfqStatus.getD RFQ_STATUS_IDLE)]
  violated : ∀ (chunks : List (List Bytes)) (message after : Bytes), IsMessage message →
    message.getD 0 0 ≠ COPY_DATA → ¬ (message.getD 0 0 = COPY_DONE ∨ message.getD 0 0 = COPY_FAIL) →
    message.getD 0 0 ≠ TERMINATE →
    chunks.flatten.flatten = stream ++ x.toCopyOpening.messages.flatten ++ message ++ after →
      (Connection.writes cap (backend.pglite rewrite) chunks).calls = c.calls ∧
      (Connection.writes cap (backend.pglite rewrite) chunks).error.isSome = true ∧
      (Connection.writes cap (backend.pglite rewrite) chunks).duplex.pushed = c.duplex.pushed ++ [.copyInResponse]

section Answer

variable {cap : Nat} {rewrite : Bool} {backend : Backend} {pglite : PGlite} {c : Connection} (x : CopyExchange)

private theorem call_pushed (pglite : PGlite) (c : Connection) (batch : Bytes) (mode : RfqMode) :
    ∃ forwarded : List Bytes,
      (c.call pglite batch mode).duplex.pushed = c.duplex.pushed ++ forwarded.map Push.chunk := by
  unfold Connection.call
  dsimp only
  split <;> exact ⟨_, rfl⟩

private theorem call_calls (pglite : PGlite) (c : Connection) (batch : Bytes) (mode : RfqMode) :
    (c.call pglite batch mode).calls = c.calls ++ [⟨batch, mode⟩] := by
  unfold Connection.call
  dsimp only
  split <;> rfl

private theorem call_copyCapture (pglite : PGlite) (h : c.duplex.copyCapture = none) (batch : Bytes) (mode : RfqMode) :
    (c.call pglite batch mode).duplex.copyCapture = none := by
  unfold Connection.call
  dsimp only
  split
  · exact h
  · rfl

private theorem answer_within (hwithin : x.batch.length ≤ c.duplex.copyAggregateCapBytes) : x.answer pglite c =
    ({ c with duplex := c.duplex.push .copyInResponse } : Connection).call pglite x.batch .copyIn := by
  unfold CopyExchange.answer
  dsimp only [Duplex.push]
  rw [if_neg (by omega)]

private theorem answer_over (hover : c.duplex.copyAggregateCapBytes < x.batch.length) : x.answer pglite c =
    { c with duplex := ((c.duplex.push .copyInResponse).pushSyntheticError "54000"
      (s!"COPY FROM STDIN payload exceeded the aggregate cap of " ++
        s!"{c.duplex.copyAggregateCapBytes} bytes; the copy was not executed")).pushSyntheticReadyForQuery } := by
  unfold CopyExchange.answer
  dsimp only [Duplex.push]
  rw [if_pos hover]

private theorem answer_copyCapture (h : c.duplex.copyCapture = none) :
    (x.answer pglite c).duplex.copyCapture = none := by
  by_cases hover : c.duplex.copyAggregateCapBytes < x.batch.length
  · rw [answer_over x hover]
    exact h
  · rw [answer_within x (by omega)]
    exact call_copyCapture (c := { c with duplex := c.duplex.push .copyInResponse }) pglite h _ _

/-- A COPY that the backend answers in whole frames. -/
private theorem answer_frames (hfresh : c.Fresh) (hwithin : x.batch.length ≤ c.duplex.copyAggregateCapBytes)
    {frames : List CompleteFrame} (h : backend.Answers (c.calls ++ [⟨x.batch, .copyIn⟩]) frames) :
    (x.answer (backend.pglite rewrite) c).Fresh ∧ ∃ forwarded : List Bytes,
      (x.answer (backend.pglite rewrite) c).duplex.pushed =
        c.duplex.pushed ++ .copyInResponse :: forwarded.map Push.chunk ∧
      forwarded.flatten = referenceOutput ⟨false, rewrite, true⟩ true frames := by
  obtain ⟨status, forwarded, hanswered, hforwarded⟩ : ∃ status forwarded,
      backend.pglite rewrite (c.calls ++ [⟨x.batch, .copyIn⟩]) = .answered status forwarded ∧
        forwarded.flatten = referenceOutput ⟨false, rewrite, true⟩ true frames := Backend.pglite_copyIn h
  have hcall : ({ c with duplex := c.duplex.push .copyInResponse } : Connection).call (backend.pglite rewrite) x.batch
      .copyIn = { c with
        calls := c.calls ++ [⟨x.batch, .copyIn⟩]
        duplex := { c.duplex with
          lastSeenRfqStatus := status <|> c.duplex.lastSeenRfqStatus
          pushed := c.duplex.pushed ++ [.copyInResponse] ++ forwarded.map Push.chunk } } := by
    unfold Connection.call
    simp only [hanswered, Duplex.push]
  rw [answer_within x hwithin, hcall]
  refine ⟨⟨hfresh.live, hfresh.ready, hfresh.read, hfresh.idle⟩, forwarded, ?_, hforwarded⟩
  rw [List.append_assoc]
  rfl

end Answer

/-- A COPY behind any stream that leaves the connection between two messages: a call with all of its messages if they
are within the cap, an error and a ReadyForQuery if not, and nothing but the CopyInResponse before its last byte. -/
theorem copy_captured (cap : Nat) (rewrite : Bool) (backend : Backend) {before : List (List Bytes)}
    (hfresh : (Connection.writes cap (backend.pglite rewrite) before).Fresh) (x : CopyExchange) :
    x.Captured cap rewrite backend before.flatten.flatten (Connection.writes cap (backend.pglite rewrite) before) := by
  have h := writes_reads cap (backend.pglite rewrite) before
  have hlimit := h.agrees.limit
  have hread : ∀ (chunks : List (List Bytes)) {stream : Bytes}, chunks.flatten.flatten = stream →
      HasRead cap (backend.pglite rewrite) stream (Connection.writes cap (backend.pglite rewrite) chunks) := by
    rintro chunks _ rfl
    exact writes_reads cap _ chunks
  exact {
    arriving := fun chunks part hpart hne hchunks => h.arriving hfresh x hpart hne (hread chunks hchunks)
    answered := fun chunks after hchunks => by
      have hanswer := (h.answer hfresh x).write [after]
      rw [List.flatten_singleton] at hanswer
      exact (hread chunks hchunks).alike hanswer
    gone := answer_copyCapture x hfresh.idle
    within := fun hwithin => by
      have hwithin' := hlimit.symm ▸ hwithin
      obtain ⟨forwarded, hpushed⟩ := call_pushed (backend.pglite rewrite)
        { Connection.writes cap (backend.pglite rewrite) before with
          duplex := (Connection.writes cap (backend.pglite rewrite) before).duplex.push .copyInResponse }
        x.batch .copyIn
      rw [answer_within x hwithin', call_calls, hpushed, Duplex.push]
      exact ⟨rfl, forwarded, List.append_assoc _ _ _⟩
    forwarded := fun hwithin frames hframes => by
      obtain ⟨hfresh', forwarded, hpushed, hforwarded⟩ := answer_frames x hfresh (hlimit.symm ▸ hwithin) hframes
      refine ⟨hfresh', forwarded, hpushed, hforwarded, fun first fr later hsplit hfirst hfr => ?_⟩
      rw [hforwarded, hsplit, referenceOutput_copyInResponse rewrite hfirst hfr]
    beyond := fun hover => by
      have hover' := hlimit.symm ▸ hover
      rw [answer_over x hover', hlimit]
      refine ⟨⟨hfresh.live, hfresh.ready, hfresh.read, hfresh.idle⟩, rfl, ?_⟩
      simp [Duplex.pushSyntheticError, Duplex.pushSyntheticReadyForQuery, Duplex.push]
    violated := fun chunks message after hmessage hdata hend hterminate hchunks =>
      h.violated hfresh x.toCopyOpening hmessage hdata hend hterminate (hread chunks hchunks) }

/-- One row. -/
def copyRow : CopyExchange where
  query := encodeMessage QUERY (ascii "COPY t FROM STDIN" ++ [0])
  data := [encodeMessage COPY_DATA (ascii "1")]
  terminator := encodeMessage COPY_DONE []
  query_isMessage := by decide
  query_type := rfl
  query_capture := by decide
  data_isMessage := by decide
  data_type := by decide
  terminator_isMessage := by decide
  terminator_type := .inl rfl

def copyInResponseFrame : CompleteFrame := ⟨⟨COPY_IN_RESPONSE, [0, 0, 0], by decide⟩, by decide⟩

def readyForQueryFrame : CompleteFrame := ⟨⟨READY_FOR_QUERY, [RFQ_STATUS_IDLE], by decide⟩, by decide⟩

/-- A backend that has its own CopyInResponse cut in two. -/
def copyBackend : Backend
  | [_, _] =>
    { chunks := [copyInResponseFrame.bytes.take 3, copyInResponseFrame.bytes.drop 3 ++ readyForQueryFrame.bytes] }
  | _ => {}

theorem copy_captured_row : ∃ forwarded : List Bytes,
    (copyRow.answer (copyBackend.pglite true)
      (Connection.writes 64 (copyBackend.pglite true) [[sslRequest]])).duplex.pushed =
        .copyInResponse :: forwarded.map Push.chunk ∧
      forwarded.flatten = readyForQueryFrame.bytes := by
  have hfresh : (Connection.writes 64 (copyBackend.pglite true) [[sslRequest]]).Fresh :=
    ⟨by decide, by decide, by decide, by decide⟩
  have hpushed : (Connection.writes 64 (copyBackend.pglite true) [[sslRequest]]).duplex.pushed = [] := by decide
  have hcalls : (Connection.writes 64 (copyBackend.pglite true) [[sslRequest]]).calls =
      [⟨sslRequest, .passthrough⟩] := by decide
  have hframes : copyBackend.Answers ((Connection.writes 64 (copyBackend.pglite true) [[sslRequest]]).calls ++
      [⟨copyRow.batch, .copyIn⟩]) [copyInResponseFrame, readyForQueryFrame] := by
    rw [hcalls]
    exact ⟨rfl, by decide⟩
  obtain ⟨-, forwarded, hanswer, -, hdropped⟩ :=
    (copy_captured 64 true copyBackend hfresh copyRow).forwarded (by decide) _ hframes
  refine ⟨forwarded, hanswer.trans (by rw [hpushed]; rfl), ?_⟩
  rw [hdropped [] copyInResponseFrame [readyForQueryFrame] rfl (fun _ hmem => by cases hmem) rfl]
  decide

end PgliteBridge
