import PgliteBridge.FrontendFraming

/-!
# The framing of the frontend refines the reference

A connection and an exchange agree (`Agrees`) when they have made the same calls and pushes and have the same messages
in hand.  One message keeps them in agreement (`processTaken_agrees`), hence what has come so far does, and a write only
adds to the bytes that the reference reads (`cut_append`).
-/

namespace PgliteBridge

/-! ### More bytes -/

private theorem readUInt32BE_append {input : Bytes} (more : Bytes) {offset : Nat} (h : offset + 4 ≤ input.length) :
    readUInt32BE (input ++ more) offset = readUInt32BE input offset := by
  have hget : ∀ i, i < input.length → (input ++ more).getD i 0 = input.getD i 0 := by
    intro i hi
    simp [List.getD_eq_getElem?_getD, List.getElem?_append_left hi]
  unfold readUInt32BE
  rw [hget offset (by omega), hget (offset + 1) (by omega), hget (offset + 2) (by omega), hget (offset + 3) (by omega)]

/-- The framing of a head that is complete or malformed does not depend on what follows. -/
private theorem takeFrame_append {input : Bytes} (more : Bytes) {length : Nat} (h : length ≤ input.length) :
    (input ++ more).take length = input.take length ∧ (input ++ more).drop length = input.drop length ++ more :=
  ⟨List.take_append_of_le_length h, List.drop_append_of_le_length h⟩

theorem takeMessage_append {input message rest : Bytes} (more : Bytes) (h : takeMessage input = .message message rest) :
    takeMessage (input ++ more) = .message message (rest ++ more) := by
  unfold takeMessage at h ⊢
  by_cases hshort : input.length < 5
  · rw [if_pos hshort] at h
    cases h
  · rw [if_neg hshort] at h
    rw [if_neg (by rw [List.length_append]; omega), readUInt32BE_append more (by omega)]
    dsimp only at h ⊢
    split at h
    · cases h
    · rename_i hsmall
      split at h
      · cases h
      · rename_i hlarge
        split at h
        · cases h
        · rename_i henough
          cases h
          obtain ⟨htake, hdrop⟩ := takeFrame_append more (show 1 + readUInt32BE input 1 ≤ input.length by omega)
          rw [if_neg hsmall, if_neg hlarge, if_neg (by rw [List.length_append]; omega), htake, hdrop]

theorem takeMessage_append_malformed {input : Bytes} {error : FramingError} (more : Bytes)
    (h : takeMessage input = .malformed error) : takeMessage (input ++ more) = .malformed error := by
  unfold takeMessage at h ⊢
  by_cases hshort : input.length < 5
  · rw [if_pos hshort] at h
    cases h
  · rw [if_neg hshort] at h
    rw [if_neg (by rw [List.length_append]; omega), readUInt32BE_append more (by omega)]
    dsimp only at h ⊢
    split at h
    · rename_i hsmall
      cases h
      rw [if_pos hsmall]
    · rename_i hsmall
      split at h
      · rename_i hlarge
        cases h
        rw [if_neg hsmall, if_pos hlarge]
      · split at h <;> cases h

theorem takeStartup_append {input packet rest : Bytes} (more : Bytes) (h : takeStartup input = .message packet rest) :
    takeStartup (input ++ more) = .message packet (rest ++ more) := by
  unfold takeStartup at h ⊢
  by_cases hshort : input.length < 4
  · rw [if_pos hshort] at h
    cases h
  · rw [if_neg hshort] at h
    rw [if_neg (by rw [List.length_append]; omega), readUInt32BE_append more (by omega)]
    dsimp only at h ⊢
    split at h
    · cases h
    · rename_i hsmall
      split at h
      · cases h
      · rename_i hlarge
        split at h
        · cases h
        · rename_i henough
          cases h
          obtain ⟨htake, hdrop⟩ := takeFrame_append more (show readUInt32BE input 0 ≤ input.length by omega)
          rw [if_neg hsmall, if_neg hlarge, if_neg (by rw [List.length_append]; omega), htake, hdrop]

private theorem takeStartup_append_malformed {input : Bytes} {error : FramingError} (more : Bytes)
    (h : takeStartup input = .malformed error) : takeStartup (input ++ more) = .malformed error := by
  unfold takeStartup at h ⊢
  by_cases hshort : input.length < 4
  · rw [if_pos hshort] at h
    cases h
  · rw [if_neg hshort] at h
    rw [if_neg (by rw [List.length_append]; omega), readUInt32BE_append more (by omega)]
    dsimp only at h ⊢
    split at h
    · rename_i hsmall
      cases h
      rw [if_pos hsmall]
    · rename_i hsmall
      split at h
      · rename_i hlarge
        cases h
        rw [if_neg hsmall, if_pos hlarge]
      · split at h <;> cases h

/-- The messages of a longer stream: those of its beginning, then those of what is left with what follows. -/
theorem cut_append (input more : Bytes) : cut (input ++ more) =
    match (cut input).error with
    | some _ => cut input
    | none => { cut ((cut input).rest ++ more) with
        messages := (cut input).messages ++ (cut ((cut input).rest ++ more)).messages } := by
  induction input using cut.induct with
  | case1 input htake =>
    rw [cut_incomplete htake]
    simp
  | case2 input error htake => rw [cut_malformed htake, cut_malformed (takeMessage_append_malformed more htake)]
  | case3 input message rest htake _ ih =>
    rw [cut_message htake, cut_message (takeMessage_append more htake), ih]
    cases (cut rest).error <;> simp

/-- What is left of a stream is the beginning of one message. -/
private theorem cut_rest {input : Bytes} (h : (cut input).error = none) :
    takeMessage (cut input).rest = .incomplete ∧ (cut input).rest.length ≤ input.length := by
  induction input using cut.induct with
  | case1 input htake =>
    rw [cut_incomplete htake]
    exact ⟨htake, Nat.le_refl _⟩
  | case2 input error htake =>
    rw [cut_malformed htake] at h
    cases h
  | case3 input message rest htake hshorter ih =>
    rw [cut_message htake] at h ⊢
    obtain ⟨hincomplete, hle⟩ := ih h
    exact ⟨hincomplete, Nat.le_trans hle (Nat.le_of_lt hshorter)⟩

/-! ### The exchange -/

namespace Exchange

variable {cap : Nat} {pglite : PGlite} {r : Exchange}

theorem fold_cons (r : Exchange) (message : Bytes) (messages : List Bytes) : r.fold cap pglite (message :: messages) =
    (if r.stopped then r else r.next cap pglite message).fold cap pglite messages := rfl

theorem fold_append (r : Exchange) (messages messages' : List Bytes) : r.fold cap pglite (messages ++ messages') =
    (r.fold cap pglite messages).fold cap pglite messages' := List.foldl_append ..

private theorem fold_stopped (h : r.stopped = true) (messages : List Bytes) : r.fold cap pglite messages = r := by
  induction messages with
  | nil => rfl
  | cons message messages ih => rw [fold_cons, if_pos h, ih]

private theorem run_stopped (h : r.stopped = true) (c : Cut) : r.run cap pglite c = r := by
  unfold run
  rw [fold_stopped h]
  cases c.error with
  | none => rfl
  | some error => simp [h]

/-- A stream is answered piece by piece. -/
theorem run_append (r : Exchange) (input more : Bytes) : r.run cap pglite (cut (input ++ more)) =
    if (r.run cap pglite (cut input)).stopped then r.run cap pglite (cut input)
    else (r.run cap pglite (cut input)).run cap pglite (cut ((cut input).rest ++ more)) := by
  rw [cut_append]
  cases herror : (cut input).error with
  | some error =>
    have hstopped : (r.run cap pglite (cut input)).stopped = true := by
      unfold run
      rw [herror]
      dsimp only
      split
      · assumption
      · rfl
    rw [if_pos hstopped]
  | none =>
    have hrun : r.run cap pglite (cut input) = r.fold cap pglite (cut input).messages := by
      unfold run
      rw [herror]
    rw [hrun]
    by_cases hstopped : (r.fold cap pglite (cut input).messages).stopped = true
    · rw [if_pos hstopped]
      simp only [run, fold_append, fold_stopped hstopped]
      cases (cut ((cut input).rest ++ more)).error with
      | none => rfl
      | some error => simp [hstopped]
    · rw [if_neg hstopped]
      simp only [run, fold_append]

end Exchange

/-! ### One message -/

/-- The capture holds the messages, or none of them if they exceed the cap. -/
structure Captures (cap : Nat) (capture : CopyCapture) (messages : List Bytes) : Prop where
  discarding : capture.discarding = decide (cap < messages.flatten.length)
  kept : messages.flatten.length ≤ cap → capture.chunks = messages ∧ capture.total = messages.flatten.length

private theorem captures_empty (cap : Nat) : Captures cap {} [] where
  discarding := by simp
  kept _ := ⟨rfl, rfl⟩

private theorem Captures.append {cap : Nat} {capture : CopyCapture} {messages : List Bytes}
    (h : Captures cap capture messages)
    (message : Bytes) : Captures cap (Duplex.appendCopyCapture cap capture message) (messages ++ [message]) := by
  have hlength : (messages ++ [message]).flatten.length = messages.flatten.length + message.length := by simp
  unfold Duplex.appendCopyCapture
  by_cases hover : cap < messages.flatten.length
  · have hdiscarding : capture.discarding = true := by
      rw [h.discarding]
      simpa using hover
    rw [if_pos hdiscarding]
    refine ⟨?_, fun hle => ?_⟩
    · rw [hdiscarding, hlength]
      symm
      rw [decide_eq_true_eq]
      omega
    · omega
  · have hdiscarding : capture.discarding = false := by
      rw [h.discarding]
      simpa using hover
    obtain ⟨hchunks, htotal⟩ := h.kept (by omega)
    rw [if_neg (by simp [hdiscarding]), htotal]
    by_cases hbreach : cap < messages.flatten.length + message.length
    · rw [if_pos hbreach]
      exact ⟨by simp only [hlength, hbreach, decide_true], fun hle => by omega⟩
    · rw [if_neg hbreach]
      refine ⟨?_, fun _ => ?_⟩
      · rw [hlength]
        simp only [hbreach, decide_false]
        exact hdiscarding
      · rw [hlength, hchunks]
        exact ⟨rfl, rfl⟩

/-- `processMessage` by the kind of the message. -/
private theorem processMessage_kind (d : Duplex) (message : Bytes) : d.processMessage message =
    match messageKind message, d.copyCapture with
    | .terminate, _ => (d.terminate, .terminate)
    | _, some capture => d.processCopy capture (message.getD 0 0) message
    | .extended, none => ({ d with pipeline := d.pipeline ++ [message] }, .again)
    | .batchEnd mode, none => ({ d with pipeline := [] }, .run (d.pipeline ++ [message]).flatten mode)
    | .query _, none => d.processQuery message
    | _, none => (d, .run message .passthrough) := by
  obtain ⟨msgType, htype⟩ : ∃ msgType, message.getD 0 0 = msgType := ⟨_, rfl⟩
  unfold Duplex.processMessage messageKind
  simp only [htype]
  by_cases hterminate : msgType = TERMINATE
  · rw [if_pos hterminate, if_pos hterminate]
  · rw [if_neg hterminate, if_neg hterminate]
    by_cases hextended : msgType ∈ Duplex.EQP_MESSAGES
    · simp only [if_pos hextended]
      cases d.copyCapture <;> rfl
    · simp only [if_neg hextended]
      by_cases hsync : msgType = SYNC
      · simp only [hsync, true_or, if_true]
        cases d.copyCapture <;> rfl
      · by_cases hflush : msgType = FLUSH
        · have hne : ¬ FLUSH = SYNC := by decide
          simp only [hflush, or_true, if_true, if_neg hne]
          cases d.copyCapture <;> rfl
        · have hbatch : ¬ (msgType = SYNC ∨ msgType = FLUSH) := fun he => he.elim hsync hflush
          simp only [if_neg hsync, if_neg hflush, if_neg hbatch]
          by_cases hquery : msgType = QUERY
          · have hdata : ¬ QUERY = COPY_DATA := by decide
            have hdone : ¬ (QUERY = COPY_DONE ∨ QUERY = COPY_FAIL) := by decide
            simp only [hquery, if_neg hdata, if_neg hdone, if_true]
            cases d.copyCapture <;> rfl
          · simp only [if_neg hquery]
            by_cases hdata : msgType = COPY_DATA
            · simp only [if_pos hdata]
              cases d.copyCapture <;> rfl
            · by_cases hdone : msgType = COPY_DONE ∨ msgType = COPY_FAIL
              · simp only [if_neg hdata, if_pos hdone]
                cases d.copyCapture <;> rfl
              · simp only [if_neg hdata, if_neg hdone]
                cases d.copyCapture <;> rfl

theorem messageKind_copyData {message : Bytes} : messageKind message = .copyData ↔ message.getD 0 0 = COPY_DATA := by
  constructor
  · intro h
    unfold messageKind at h
    dsimp only at h
    repeat' split at h
    all_goals first | assumption | cases h
  · intro h
    unfold messageKind
    rw [h]
    rfl

theorem messageKind_copyEnd {message : Bytes} :
    messageKind message = .copyEnd ↔ message.getD 0 0 = COPY_DONE ∨ message.getD 0 0 = COPY_FAIL := by
  constructor
  · intro h
    unfold messageKind at h
    dsimp only at h
    repeat' split at h
    all_goals first | assumption | cases h
  · intro h
    unfold messageKind
    rcases h with h | h
    · rw [h]
      rfl
    · rw [h]
      rfl

private theorem messageKind_query {message : Bytes} {verdict : CopyInVerdict}
    (h : messageKind message = .query verdict) :
    sniffCopyIn (Duplex.queryText message) = verdict := by
  unfold messageKind at h
  dsimp only at h
  repeat' split at h
  all_goals first | exact MessageKind.query.inj h | cases h

/-- A connection has done what an exchange has, and has the same in hand. -/
structure Agrees (cap : Nat) (c : Connection) (r : Exchange) : Prop where
  limit : c.duplex.copyAggregateCapBytes = cap
  calls : c.calls = r.calls
  pushed : c.duplex.pushed = r.pushed
  error : c.error = r.error
  ended : c.duplex.phase = .terminated ↔ r.ended = true
  status : c.duplex.lastSeenRfqStatus = r.status
  collected : r.stopped = false → c.duplex.pipeline = r.collected
  idle : r.stopped = false → r.captured = none → c.duplex.copyCapture = none
  capturing : r.stopped = false → ∀ messages, r.captured = some messages →
    ∃ capture, c.duplex.copyCapture = some capture ∧ Captures cap capture messages

variable {cap : Nat} {pglite : PGlite} {c : Connection} {r : Exchange}

theorem Agrees.stopped (h : Agrees cap c r) : c.stopped = r.stopped := by
  unfold Connection.stopped Exchange.stopped
  rw [h.error]
  congr 1
  rw [Bool.eq_iff_iff, beq_iff_eq]
  exact h.ended

private theorem Agrees.fail (h : Agrees cap c r) (message : String) : Agrees cap (c.fail message) (r.fail message) where
  limit := h.limit
  calls := h.calls
  pushed := h.pushed
  error := rfl
  ended := h.ended
  status := h.status
  collected hstopped := by cases hstopped
  idle hstopped := by cases hstopped
  capturing hstopped := by cases hstopped

theorem Agrees.call (pglite : PGlite) (h : Agrees cap c r) (batch : Bytes) (mode : RfqMode) :
    Agrees cap (c.call pglite batch mode) (r.call pglite batch mode) := by
  have hcalled : Agrees cap { c with calls := r.calls ++ [PGliteCall.mk batch mode] }
      { r with calls := r.calls ++ [PGliteCall.mk batch mode] } :=
    ⟨h.limit, rfl, h.pushed, h.error, h.ended, h.status, h.collected, h.idle, h.capturing⟩
  obtain ⟨outcome, houtcome⟩ : ∃ outcome, pglite (r.calls ++ [PGliteCall.mk batch mode]) = outcome := ⟨_, rfl⟩
  unfold Connection.call Exchange.call
  rw [h.calls]
  simp only [houtcome]
  cases outcome with
  | failed message forwarded =>
    have hpushed : Agrees cap { c with
          calls := r.calls ++ [PGliteCall.mk batch mode]
          duplex := { c.duplex with pushed := c.duplex.pushed ++ forwarded.map Push.chunk } }
        { r with
          calls := r.calls ++ [PGliteCall.mk batch mode]
          pushed := r.pushed ++ forwarded.map Push.chunk } :=
      ⟨h.limit, rfl, by rw [h.pushed], h.error, h.ended, h.status, h.collected, h.idle, h.capturing⟩
    exact hpushed.fail message
  | answered status forwarded =>
    refine ⟨h.limit, rfl, ?_, h.error, h.ended, ?_, h.collected, h.idle, h.capturing⟩
    · simp only [h.pushed]
    · simp only [h.status]

theorem Agrees.refuse (h : Agrees cap c r) (code message : String) :
    Agrees cap { c with duplex := (c.duplex.pushSyntheticError code message).pushSyntheticReadyForQuery }
      (r.refuse code message) := by
  refine ⟨h.limit, h.calls, ?_, h.error, h.ended, h.status, h.collected, h.idle, h.capturing⟩
  simp [Duplex.pushSyntheticError, Duplex.pushSyntheticReadyForQuery, Duplex.push, Exchange.refuse, h.pushed, h.status]

/-- A message during a capture. -/
private theorem Agrees.copy (h : Agrees cap c r) (hlive : r.stopped = false) {message : Bytes} {messages : List Bytes}
    (hcaptured : r.captured = some messages) (hterminate : messageKind message ≠ .terminate) :
    Agrees cap (c.processTaken pglite message) (r.next cap pglite message) := by
  obtain rfl := h.limit
  obtain ⟨capture, hcapture, hmessages⟩ := h.capturing hlive messages hcaptured
  have hprocess : c.duplex.processMessage message = c.duplex.processCopy capture (message.getD 0 0) message := by
    rw [processMessage_kind, hcapture]
    split <;> first | rfl | simp_all
  have happended := hmessages.append message
  unfold Connection.processTaken
  rw [hprocess]
  unfold Duplex.processCopy Exchange.next
  rw [hcaptured]
  by_cases hdata : message.getD 0 0 = COPY_DATA
  · have hkind := messageKind_copyData.mpr hdata
    rw [if_pos hdata, hkind]
    refine ⟨rfl, h.calls, h.pushed, h.error, h.ended, h.status, h.collected, fun _ he => (by cases he),
      fun _ messages' he => ?_⟩
    cases he
    exact ⟨_, rfl, happended⟩
  · by_cases hend : message.getD 0 0 = COPY_DONE ∨ message.getD 0 0 = COPY_FAIL
    · have hkind := messageKind_copyEnd.mpr hend
      rw [if_neg hdata, if_pos hend, hkind]
      have hdone : Agrees c.duplex.copyAggregateCapBytes { c with duplex := { c.duplex with copyCapture := none } }
          { r with captured := none } :=
        ⟨rfl, h.calls, h.pushed, h.error, h.ended, h.status, h.collected, fun _ _ => rfl, fun _ _ he => by cases he⟩
      dsimp only
      by_cases hover : c.duplex.copyAggregateCapBytes < (messages ++ [message]).flatten.length
      · have hdiscarding :
            (Duplex.appendCopyCapture c.duplex.copyAggregateCapBytes capture message).discarding = true := by
          rw [happended.discarding]
          simpa using hover
        rw [if_pos hdiscarding, if_pos hover]
        exact hdone.refuse _ _
      · have hkept : ¬ (Duplex.appendCopyCapture c.duplex.copyAggregateCapBytes capture message).discarding = true := by
          rw [happended.discarding]
          simpa using hover
        obtain ⟨hchunks, -⟩ := happended.kept (by omega)
        rw [if_neg hkept, if_neg hover, hchunks]
        exact hdone.call pglite _ .copyIn
    · rw [if_neg hdata, if_neg hend]
      have hdata' : messageKind message ≠ .copyData := fun he => hdata (messageKind_copyData.mp he)
      have hend' : messageKind message ≠ .copyEnd := fun he => hend (messageKind_copyEnd.mp he)
      have hviolation := h.fail (s!"Protocol violation: unexpected frontend message " ++
        s!"0x{String.ofList (Nat.toDigits 16 (message.getD 0 0).toNat)} during COPY FROM STDIN capture")
      cases hkind : messageKind message with
      | terminate => exact absurd hkind hterminate
      | copyData => exact absurd hkind hdata'
      | copyEnd => exact absurd hkind hend'
      | _ => exact hviolation

/-- One message. -/
private theorem Agrees.next (pglite : PGlite) (h : Agrees cap c r) (hlive : r.stopped = false) (message : Bytes) :
    Agrees cap (c.processTaken pglite message) (r.next cap pglite message) := by
  by_cases hterminate : messageKind message = .terminate
  · unfold Connection.processTaken Exchange.next
    rw [processMessage_kind, hterminate]
    exact ⟨h.limit, h.calls, by simp [Duplex.terminate, Duplex.push, h.pushed], h.error,
      by simp [Duplex.terminate, Duplex.push], h.status, fun hstopped => by simp [Exchange.stopped] at hstopped,
      fun hstopped => by simp [Exchange.stopped] at hstopped,
      fun hstopped => by simp [Exchange.stopped] at hstopped⟩
  · cases hcaptured : r.captured with
    | some messages => exact h.copy hlive hcaptured hterminate
    | none =>
      have hidle := h.idle hlive hcaptured
      unfold Connection.processTaken Exchange.next
      rw [processMessage_kind, hidle, hcaptured]
      cases hkind : messageKind message with
      | terminate => exact absurd hkind hterminate
      | extended =>
        refine ⟨h.limit, h.calls, h.pushed, h.error, h.ended, h.status, fun hstopped => ?_, fun _ _ => rfl,
          fun _ _ he => by cases he⟩
        simp only [h.collected hlive]
      | batchEnd mode =>
        have hsent : Agrees cap { c with duplex := { c.duplex with pipeline := [], copyCapture := none } }
            { r with collected := [], captured := none } :=
          ⟨h.limit, h.calls, h.pushed, h.error, h.ended, h.status, fun _ => rfl, fun _ _ => rfl,
            fun _ _ he => by cases he⟩
        rw [h.collected hlive]
        exact hsent.call pglite _ mode
      | query verdict =>
        dsimp only
        unfold Duplex.processQuery
        rw [messageKind_query hkind]
        cases verdict with
        | capture =>
          refine ⟨h.limit, h.calls, ?_, h.error, h.ended, h.status, h.collected, fun _ he => (by cases he),
            fun _ messages he => ?_⟩
          · simp [Duplex.push, h.pushed]
          · cases he
            exact ⟨_, rfl, h.limit.symm ▸ (captures_empty cap).append message⟩
        | rejectMulti => exact h.refuse _ _
        | notCopyIn => exact h.call pglite message .passthrough
      | copyData => exact h.call pglite message .passthrough
      | copyEnd => exact h.call pglite message .passthrough
      | other => exact h.call pglite message .passthrough

/-! ### The messages that have come -/

private theorem processMessage_phase (d : Duplex) (message : Bytes) :
    (d.processMessage message).1.phase = d.phase ∨ (d.processMessage message).1.phase = .terminated := by
  rw [processMessage_kind]
  split
  · exact Or.inr rfl
  · left
    unfold Duplex.processCopy
    dsimp only
    split
    · rfl
    · split
      · split <;> rfl
      · rfl
  · exact Or.inl rfl
  · exact Or.inl rfl
  · left
    unfold Duplex.processQuery
    split <;> rfl
  · exact Or.inl rfl

theorem call_frame_buffer (c : Connection) (batch : Bytes) (mode : RfqMode)
    (hlive : (c.call pglite batch mode).error = none) :
    (c.call pglite batch mode).buffer = c.buffer ∧ (c.call pglite batch mode).duplex.phase = c.duplex.phase := by
  unfold Connection.call at hlive ⊢
  dsimp only at hlive ⊢
  split at hlive
  · exact ⟨rfl, rfl⟩
  · cases hlive

/-- A message that does not stop the connection takes nothing more from the queue. -/
private theorem processTaken_frame (hready : c.duplex.phase = .ready) {message : Bytes}
    (hlive : (c.processTaken pglite message).stopped = false) :
    (c.processTaken pglite message).buffer = c.buffer ∧ (c.processTaken pglite message).duplex.phase = .ready := by
  have hphase := processMessage_phase c.duplex message
  simp only [Connection.stopped, Bool.or_eq_false_iff, Option.isSome_eq_false_iff, Option.isNone_iff_eq_none,
    beq_eq_false_iff_ne] at hlive
  obtain ⟨herror, hnot⟩ := hlive
  unfold Connection.processTaken at herror hnot ⊢
  dsimp only at herror hnot ⊢
  cases hnext : (c.duplex.processMessage message).2 with
  | again =>
    rw [hnext] at hnot
    exact ⟨rfl, (hphase.resolve_right hnot).trans hready⟩
  | run batch mode =>
    rw [hnext] at herror hnot
    dsimp only at herror hnot ⊢
    obtain ⟨hbuffer, hsame⟩ := call_frame_buffer _ batch mode herror
    rw [hsame] at hnot ⊢
    exact ⟨hbuffer, (hphase.resolve_right hnot).trans hready⟩
  | terminate =>
    have hterminated : (c.duplex.processMessage message).1.phase = .terminated := by
      rw [processMessage_kind] at hnext ⊢
      split at hnext
      · rfl
      · unfold Duplex.processCopy at hnext
        dsimp only at hnext
        split at hnext
        · cases hnext
        · split at hnext
          · split at hnext <;> cases hnext
          · cases hnext
      · cases hnext
      · cases hnext
      · unfold Duplex.processQuery at hnext
        split at hnext <;> cases hnext
      · cases hnext
    rw [hnext] at hnot
    exact absurd hterminated hnot
  | throw error =>
    rw [hnext] at herror
    cases herror

/-- The messages that have come are answered, and what is left of the bytes is kept. -/
private theorem processMessages_agrees (pglite : PGlite) (h : Agrees cap c r) (hlive : r.stopped = false)
    (hwf : c.buffer.WellFormed)
    (hready : c.duplex.phase = .ready) {turns : Nat} (hturns : c.buffer.bytes.length ≤ turns) :
    Agrees cap (c.processMessages pglite turns) (r.run cap pglite (cut c.buffer.bytes)) ∧
      ((r.run cap pglite (cut c.buffer.bytes)).stopped = false →
        (c.processMessages pglite turns).buffer.WellFormed ∧
        (c.processMessages pglite turns).buffer.bytes = (cut c.buffer.bytes).rest ∧
        (c.processMessages pglite turns).duplex.phase = .ready) := by
  induction turns generalizing c r with
  | zero =>
    have hnil : c.buffer.bytes = [] := List.length_eq_zero_iff.mp (by omega)
    have hcut : cut c.buffer.bytes = { rest := [] } := by
      rw [hnil]
      exact cut_incomplete rfl
    rw [hcut]
    exact ⟨h, fun _ => ⟨hwf, hnil, hready⟩⟩
  | succ turns ih =>
    have hgives := FrontendMessageBuffer.takeMessage_gives hwf
    cases htake : takeMessage c.buffer.bytes with
    | incomplete =>
      rw [htake] at hgives
      have htaken : c.buffer.takeMessage = .ok none := hgives
      rw [cut_incomplete htake]
      simp only [Connection.processMessages, htaken]
      exact ⟨h, fun _ => ⟨hwf, trivial, hready⟩⟩
    | malformed error =>
      rw [htake] at hgives
      have htaken : c.buffer.takeMessage = .error error.message := hgives
      rw [cut_malformed htake]
      simp only [Connection.processMessages, htaken]
      have hrun : r.run cap pglite { error := some error } = r.fail error.message := by
        simp [Exchange.run, Exchange.fold, hlive]
      rw [hrun]
      exact ⟨h.fail _, fun hstopped => by cases hstopped⟩
    | message message rest =>
      rw [htake] at hgives
      obtain ⟨b, htaken, hwf', hbytes⟩ := hgives
      have hshorter := takeMessage_shorter htake
      have htook : Agrees cap { c with buffer := b } r :=
        ⟨h.limit, h.calls, h.pushed, h.error, h.ended, h.status, h.collected, h.idle, h.capturing⟩
      have hnext := htook.next pglite hlive message
      have hrun : r.run cap pglite (cut c.buffer.bytes) = (r.next cap pglite message).run cap pglite (cut rest) := by
        rw [cut_message htake]
        simp only [Exchange.run, Exchange.fold_cons, hlive, Bool.false_eq_true, if_false]
      rw [hrun, cut_message htake]
      simp only [Connection.processMessages, htaken]
      by_cases hstopped : (r.next cap pglite message).stopped = true
      · rw [if_pos (hnext.stopped.trans hstopped), Exchange.run_stopped hstopped]
        exact ⟨hnext, fun hlive' => by rw [hstopped] at hlive'; cases hlive'⟩
      · rw [Bool.not_eq_true] at hstopped
        have hopen := hnext.stopped.trans hstopped
        rw [if_neg (by rw [hopen]; decide)]
        obtain ⟨hbuffer, hready'⟩ := processTaken_frame (c := { c with buffer := b }) hready hopen
        have hsame : (({ c with buffer := b } : Connection).processTaken pglite message).buffer.bytes = rest := by
          rw [hbuffer, hbytes]
        have hrest := ih hnext hstopped (hbuffer ▸ hwf') hready' (by rw [hsame]; omega)
        rw [hsame] at hrest
        exact hrest

/-! ### The writes -/

private theorem reference_incomplete {stream : Bytes} (h : takeStartup stream = .incomplete) :
    reference cap pglite stream = {} := by
  rw [reference, h]

theorem reference_message {stream packet rest : Bytes} (h : takeStartup stream = .message packet rest) :
    reference cap pglite stream =
      (Exchange.call pglite {} packet .passthrough).run cap pglite (cut rest) := by
  rw [reference, h]
  dsimp only
  split
  · rename_i hstopped
    exact (Exchange.run_stopped hstopped _).symm
  · rfl

/-- Which part of the stream is still in the queue. -/
inductive Waits (stream : Bytes) (c : Connection) : Prop
  | startup (hphase : c.duplex.phase = .preStartup) (htake : takeStartup stream = .incomplete)
      (hbytes : c.buffer.bytes = stream)
  | message (hphase : c.duplex.phase = .ready) {packet rest : Bytes}
      (htake : takeStartup stream = .message packet rest) (hbytes : c.buffer.bytes = (cut rest).rest)

/-- A connection to which a stream has been written. -/
structure HasRead (cap : Nat) (pglite : PGlite) (stream : Bytes) (c : Connection) : Prop where
  agrees : Agrees cap c (reference cap pglite stream)
  waits : (reference cap pglite stream).stopped = false → c.buffer.WellFormed ∧ Waits stream c

private theorem Agrees.withBuffer (h : Agrees cap c r) (buffer : FrontendMessageBuffer) :
    Agrees cap { c with buffer } r :=
  ⟨h.limit, h.calls, h.pushed, h.error, h.ended, h.status, h.collected, h.idle, h.capturing⟩

private theorem startup_ended (pglite : PGlite) (packet : Bytes) :
    (Exchange.call pglite {} packet .passthrough).ended = false := by
  unfold Exchange.call
  dsimp only
  split <;> rfl

/-- The startup packet. -/
private theorem processPreStartup_agrees (pglite : PGlite) (h : Agrees cap c {})
    (hwf : c.buffer.WellFormed) {packet rest : Bytes}
    (htake : takeStartup c.buffer.bytes = .message packet rest) :
    Agrees cap (c.processPreStartup pglite) (Exchange.call pglite {} packet .passthrough) ∧
      ((Exchange.call pglite {} packet .passthrough).stopped = false →
        (c.processPreStartup pglite).buffer.WellFormed ∧ (c.processPreStartup pglite).buffer.bytes = rest ∧
        (c.processPreStartup pglite).duplex.phase = .ready) := by
  have hgives := FrontendMessageBuffer.takeStartup_gives hwf
  rw [htake] at hgives
  obtain ⟨b, htaken, hwf', hbytes⟩ := hgives
  have hcalled := (h.withBuffer b).call pglite packet .passthrough
  have hended := startup_ended pglite packet
  unfold Connection.processPreStartup
  simp only [htaken]
  by_cases herror : (({ c with buffer := b } : Connection).call pglite packet .passthrough).error.isSome = true
  · rw [if_pos herror]
    refine ⟨hcalled, fun hlive => ?_⟩
    have hstopped := hcalled.stopped.trans hlive
    rw [Connection.stopped, herror] at hstopped
    cases hstopped
  · rw [if_neg herror]
    rw [Bool.not_eq_true, Option.isSome_eq_false_iff, Option.isNone_iff_eq_none] at herror
    obtain ⟨hbuffer, -⟩ := call_frame_buffer ({ c with buffer := b } : Connection) packet .passthrough herror
    refine ⟨⟨hcalled.limit, hcalled.calls, hcalled.pushed, hcalled.error, ?_, hcalled.status, hcalled.collected,
      hcalled.idle, hcalled.capturing⟩, fun _ => ⟨?_, ?_, rfl⟩⟩
    · rw [hended]
      exact ⟨fun he => (by cases he), fun he => (by cases he)⟩
    · simp only [hbuffer, hwf']
    · simp only [hbuffer, hbytes]

/-- The messages behind it. -/
private theorem processMessages_reads {stream packet rest : Bytes} (h : Agrees cap c r) (hlive : r.stopped = false)
    (hwf : c.buffer.WellFormed) (hready : c.duplex.phase = .ready) (htake : takeStartup stream = .message packet rest)
    (hrun : reference cap pglite stream = r.run cap pglite (cut c.buffer.bytes))
    (hrest : (reference cap pglite stream).stopped = false → (cut rest).rest = (cut c.buffer.bytes).rest) :
    HasRead cap pglite stream (c.processMessages pglite c.buffer.length) := by
  have hturns : c.buffer.bytes.length ≤ c.buffer.length := Nat.le_of_eq hwf.total.symm
  obtain ⟨hagrees, hopen⟩ := processMessages_agrees pglite h hlive hwf hready hturns
  rw [← hrun] at hagrees hopen
  refine ⟨hagrees, fun hlive' => ?_⟩
  obtain ⟨hwf', hbytes, hready'⟩ := hopen hlive'
  exact ⟨hwf', .message hready' htake (hbytes.trans (hrest hlive').symm)⟩

/-- The messages of a stream that is not stopped end without an error. -/
theorem cut_error_of_live {stream packet rest : Bytes} (htake : takeStartup stream = .message packet rest)
    (hlive : (reference cap pglite stream).stopped = false) : (cut rest).error = none := by
  cases herror : (cut rest).error with
  | none => rfl
  | some error =>
    rw [reference_message htake] at hlive
    unfold Exchange.run at hlive
    rw [herror] at hlive
    dsimp only at hlive
    split at hlive
    · rename_i hstopped
      rw [hstopped] at hlive
      cases hlive
    · cases hlive

theorem error_of_live (h : Agrees cap c r) (hlive : r.stopped = false) : c.error = none := by
  rw [h.error]
  simp only [Exchange.stopped, Bool.or_eq_false_iff, Option.isSome_eq_false_iff, Option.isNone_iff_eq_none] at hlive
  exact hlive.1

/-- One turn of the drain reads what was written. -/
private theorem HasRead.drainOnce {stream more : Bytes} {buffer : FrontendMessageBuffer}
    (h : HasRead cap pglite stream c)
    (hlive : (reference cap pglite stream).stopped = false) (hwf : buffer.WellFormed)
    (hbytes : buffer.bytes = c.buffer.bytes ++ more) :
    HasRead cap pglite (stream ++ more) ({ c with buffer }.drainOnce pglite) := by
  have hagrees := h.agrees.withBuffer buffer
  have herror := error_of_live h.agrees hlive
  unfold Connection.drainOnce
  cases (h.waits hlive).2 with
  | startup hphase htake hstart =>
    rw [reference_incomplete htake] at hagrees
    rw [hstart] at hbytes
    have hgives := FrontendMessageBuffer.takeStartup_gives hwf
    rw [hbytes] at hgives
    simp only [hphase, if_true]
    cases hmore : takeStartup (stream ++ more) with
    | incomplete =>
      rw [hmore] at hgives
      have htaken : buffer.takeStartup = .ok none := hgives
      have hsame : ({ c with buffer } : Connection).processPreStartup pglite = { c with buffer } := by
        simp only [Connection.processPreStartup, htaken]
      rw [hsame, if_neg (by simp [hphase])]
      refine ⟨?_, fun _ => ⟨hwf, .startup hphase hmore hbytes⟩⟩
      rw [reference_incomplete hmore]
      exact hagrees
    | malformed error =>
      rw [hmore] at hgives
      have htaken : buffer.takeStartup = .error error.message := hgives
      have hfail : ({ c with buffer } : Connection).processPreStartup pglite =
          ({ c with buffer } : Connection).fail error.message := by
        simp only [Connection.processPreStartup, htaken]
      have hreference : reference cap pglite (stream ++ more) = Exchange.fail {} error.message := by
        rw [reference, hmore]
      rw [hfail, if_neg (by simp [Connection.fail])]
      refine ⟨?_, fun hstopped => ?_⟩
      · rw [hreference]
        exact hagrees.fail _
      · rw [hreference] at hstopped
        cases hstopped
    | message packet rest =>
      rw [← hbytes] at hmore
      obtain ⟨hstarted, hopen⟩ := processPreStartup_agrees pglite hagrees hwf hmore
      rw [hbytes] at hmore
      by_cases hstopped : (Exchange.call pglite {} packet .passthrough).stopped = true
      · have hfailed : (({ c with buffer } : Connection).processPreStartup pglite).error.isNone = false := by
          rw [Exchange.stopped, startup_ended, Bool.or_false] at hstopped
          rw [hstarted.error, Option.isNone_eq_false_iff]
          exact hstopped
        rw [if_neg (by rw [hfailed]; simp)]
        have hreference : reference cap pglite (stream ++ more) = Exchange.call pglite {} packet .passthrough := by
          rw [reference_message hmore, Exchange.run_stopped hstopped]
        refine ⟨hreference ▸ hstarted, fun hlive' => ?_⟩
        rw [hreference, hstopped] at hlive'
        cases hlive'
      · rw [Bool.not_eq_true] at hstopped
        obtain ⟨hwf', hbytes', hready⟩ := hopen hstopped
        have herror' := error_of_live hstarted hstopped
        rw [if_pos ⟨by rw [herror']; rfl, hready⟩]
        refine processMessages_reads hstarted hstopped hwf' hready hmore ?_ fun _ => by rw [hbytes']
        rw [reference_message hmore, hbytes']
  | @message hphase packet rest htake hrest =>
    have hmore := takeStartup_append more htake
    have hcut := cut_error_of_live htake hlive
    rw [hrest] at hbytes
    have hne : ¬ c.duplex.phase = .preStartup := by
      rw [hphase]
      decide
    simp only [hne, if_false]
    rw [if_pos ⟨by rw [herror]; rfl, hphase⟩]
    refine processMessages_reads hagrees hlive hwf hphase hmore ?_ fun _ => ?_
    · rw [reference_message htake] at hlive ⊢
      rw [reference_message hmore, Exchange.run_append, hbytes, if_neg (by rw [hlive]; decide)]
    · rw [cut_append, hcut, hbytes]

/-- A connection that has read all it can, reads nothing more. -/
private theorem HasRead.drainOnce_again {stream : Bytes} (h : HasRead cap pglite stream c) (herror : c.error = none) :
    c.drainOnce pglite = c := by
  unfold Connection.drainOnce
  by_cases hlive : (reference cap pglite stream).stopped = true
  · have hterminated : c.duplex.phase = .terminated := by
      rw [← h.agrees.stopped, Connection.stopped, herror] at hlive
      simpa using hlive
    simp [hterminated]
  · rw [Bool.not_eq_true] at hlive
    obtain ⟨hwf, hwaits⟩ := h.waits hlive
    cases hwaits with
    | startup hphase htake hbytes =>
      have hgives := FrontendMessageBuffer.takeStartup_gives hwf
      rw [hbytes, htake] at hgives
      have htaken : c.buffer.takeStartup = .ok none := hgives
      simp [hphase, Connection.processPreStartup, htaken]
    | @message hphase packet rest htake hbytes =>
      have hgives := FrontendMessageBuffer.takeMessage_gives hwf
      rw [hbytes, (cut_rest (cut_error_of_live htake hlive)).1] at hgives
      have htaken : c.buffer.takeMessage = .ok none := hgives
      have hsame : c.processMessages pglite c.buffer.length = c := by
        cases c.buffer.length with
        | zero => rfl
        | succ turns => simp [Connection.processMessages, htaken]
      simp [hphase, hsame]

private theorem drain_again (h : c.drainOnce pglite = c) (turns : Nat) : c.drain pglite turns = c := by
  cases turns with
  | zero => rfl
  | succ turns =>
    unfold Connection.drain
    simp [h]

/-- The loop of the drain does nothing more than its first turn. -/
private theorem drain_eq {stream : Bytes} (h : HasRead cap pglite stream (c.drainOnce pglite))
    (hempty : c.buffer.length = 0 → c.drainOnce pglite = c) :
    c.drain pglite c.buffer.length = c.drainOnce pglite := by
  cases hlength : c.buffer.length with
  | zero => exact (hempty hlength).symm
  | succ turns =>
    unfold Connection.drain
    rw [if_neg (by omega)]
    dsimp only
    split
    · rfl
    · rename_i hmore
      have herror : (c.drainOnce pglite).error = none := by
        cases he : (c.drainOnce pglite).error with
        | none => rfl
        | some error => exact absurd (Or.inl (by rw [he]; rfl)) hmore
      exact drain_again (h.drainOnce_again herror) turns

private theorem foldl_push {b : FrontendMessageBuffer} (h : b.WellFormed) (chunks : List Bytes) :
    (chunks.foldl FrontendMessageBuffer.push b).WellFormed ∧
      (chunks.foldl FrontendMessageBuffer.push b).bytes = b.bytes ++ chunks.flatten := by
  induction chunks generalizing b with
  | nil => exact ⟨h, by simp⟩
  | cons chunk chunks ih =>
    obtain ⟨hwf, hbytes⟩ := h.push chunk
    obtain ⟨hwf', hbytes'⟩ := ih hwf
    refine ⟨hwf', ?_⟩
    rw [List.foldl_cons, hbytes', hbytes, List.flatten_cons, List.append_assoc]

theorem reference_append_stopped {stream : Bytes} (hstopped : (reference cap pglite stream).stopped = true)
    (more : Bytes) : reference cap pglite (stream ++ more) = reference cap pglite stream := by
  cases htake : takeStartup stream with
  | incomplete =>
    rw [reference_incomplete htake] at hstopped
    cases hstopped
  | malformed error =>
    rw [reference, reference, htake, takeStartup_append_malformed more htake]
  | message packet rest =>
    rw [reference_message htake] at hstopped ⊢
    rw [reference_message (takeStartup_append more htake), Exchange.run_append, if_pos hstopped]

/-- A write, corked or not. -/
theorem HasRead.write {stream : Bytes} (h : HasRead cap pglite stream c) (chunks : List Bytes) :
    HasRead cap pglite (stream ++ chunks.flatten) (c.write pglite chunks) := by
  unfold Connection.write
  by_cases hstopped : (reference cap pglite stream).stopped = true
  · rw [if_pos (h.agrees.stopped.trans hstopped)]
    have hsame := reference_append_stopped hstopped chunks.flatten
    refine ⟨hsame.symm ▸ h.agrees, fun hlive => ?_⟩
    rw [hsame, hstopped] at hlive
    cases hlive
  · rw [Bool.not_eq_true] at hstopped
    rw [if_neg (by rw [h.agrees.stopped, hstopped]; decide)]
    obtain ⟨hwf, hbytes⟩ := foldl_push (h.waits hstopped).1 chunks
    have hdrained := h.drainOnce hstopped hwf hbytes
    dsimp only
    have hempty : (chunks.foldl FrontendMessageBuffer.push c.buffer).length = 0 →
        ({ c with buffer := chunks.foldl FrontendMessageBuffer.push c.buffer } : Connection).drainOnce pglite =
          { c with buffer := chunks.foldl FrontendMessageBuffer.push c.buffer } := by
      intro hzero
      have hshort : (chunks.foldl FrontendMessageBuffer.push c.buffer).length < 4 := by omega
      have htaken : (chunks.foldl FrontendMessageBuffer.push c.buffer).takeStartup = .ok none := by
        unfold FrontendMessageBuffer.takeStartup
        rw [if_pos hshort]
      unfold Connection.drainOnce
      cases (h.waits hstopped).2 with
      | startup hphase => simp [hphase, Connection.processPreStartup, htaken]
      | message hphase => simp [hphase, hzero, Connection.processMessages]
    rw [drain_eq (c := { c with buffer := chunks.foldl FrontendMessageBuffer.push c.buffer }) hdrained hempty]
    exact hdrained

private theorem initial_reads (cap : Nat) (pglite : PGlite) : HasRead cap pglite [] (Connection.initial cap) := by
  have hempty : reference cap pglite [] = {} := reference_incomplete rfl
  refine ⟨?_, fun _ => ⟨FrontendMessageBuffer.wellFormed_empty, .startup rfl rfl rfl⟩⟩
  rw [hempty]
  exact ⟨rfl, rfl, rfl, rfl, ⟨fun he => (by cases he), fun he => (by cases he)⟩, rfl, fun _ => rfl, fun _ _ => rfl,
    fun _ _ he => by cases he⟩

theorem writes_reads (cap : Nat) (pglite : PGlite) (chunks : List (List Bytes)) :
    HasRead cap pglite chunks.flatten.flatten (Connection.writes cap pglite chunks) := by
  have hfold : ∀ (stream : Bytes) (c : Connection), HasRead cap pglite stream c →
      HasRead cap pglite (stream ++ chunks.flatten.flatten) (chunks.foldl (Connection.write pglite) c) := by
    induction chunks with
    | nil =>
      intro stream c h
      simpa using h
    | cons first rest ih =>
      intro stream c h
      have hrest := ih _ _ (h.write first)
      rw [List.flatten_cons, List.flatten_append, ← List.append_assoc]
      exact hrest
  have h := hfold [] _ (initial_reads cap pglite)
  rw [List.nil_append] at h
  exact h

/-- However a stream is cut into writes: the calls with their bytes and modes, the pushes and the error are those of the
reference. -/
theorem writes_eq_reference (cap : Nat) (pglite : PGlite) (chunks : List (List Bytes)) :
    (Connection.writes cap pglite chunks).calls = (reference cap pglite chunks.flatten.flatten).calls ∧
      (Connection.writes cap pglite chunks).duplex.pushed = (reference cap pglite chunks.flatten.flatten).pushed ∧
      (Connection.writes cap pglite chunks).error = (reference cap pglite chunks.flatten.flatten).error := by
  have h := (writes_reads cap pglite chunks).agrees
  exact ⟨h.calls, h.pushed, h.error⟩

end PgliteBridge
