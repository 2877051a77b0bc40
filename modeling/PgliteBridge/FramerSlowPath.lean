import PgliteBridge.FramerReference

/-!
# The slow path of the framer

A frame that spans chunks is read through its type byte, its header and its payload, each of them in as many pieces
as the chunks leave.  Every piece keeps `Reads`, and none of them throws (`takeBytes_reads`).
-/

namespace PgliteBridge

variable {o : FramerOptions} {goal : StreamGoal}

private theorem setOrThrow_ok {f : Framer} {target src : Bytes} {offset : Nat}
    (h : offset + src.length ≤ target.length) :
    f.setOrThrow target offset src = .ok (setBytes target offset src) := if_pos h

private theorem take_setBytes {target src whole : Bytes} {offset : Nat} (h : offset + src.length ≤ target.length)
    (hread : target.take offset = whole.take offset) (hsrc : src = (whole.drop offset).take src.length) :
    (setBytes target offset src).take (offset + src.length) = whole.take (offset + src.length) := by
  have hlen : (target.take offset ++ src).length = offset + src.length := by simp; omega
  rw [setBytes, ← hlen, List.take_left, hlen, List.take_add, ← hsrc, hread]

theorem dropStale_rfq {f : Framer} (wf : FramerWf o f)
    (rfq : f.rfqBytesRead = 0 ∨ o.suppressIntermediateReadyForQuery = true ∧ f.rfqBytesRead = 6) :
    f.dropStaleHeldReadyForQuery = { f with rfqBytesRead := 0 } := by
  unfold Framer.dropStaleHeldReadyForQuery
  rcases rfq with h | ⟨hs, h⟩
  · simp only [h]
    rw [if_neg (by simp)]
    rw [← h]
  · rw [if_pos (by simp [wf.suppress, hs, h])]
    rfl

/-- The type byte of the next frame. -/
theorem takeType_reads {f : Framer} {fr : BackendFrame} {frames : List BackendFrame} (wf : FramerWf o f)
    (row : f.rowDescBuffer = none) (drop : f.droppingMessage = false)
    (rfq : f.rfqBytesRead = 0 ∨ o.suppressIntermediateReadyForQuery = true ∧ f.rfqBytesRead = 6)
    (hout : f.emitted.flatten ++ resolvedOutput o goal.dropHeld f.dropNextCopyInResponse (fr :: frames) = goal.output)
    (heard : goal.Heard f.trace (fr :: frames)) :
    Reads o goal (f.takeType fr.type) [] (fr.header ++ fr.payload ++ streamBytes frames) := by
  unfold Framer.takeType
  rw [dropStale_rfq wf rfq]
  refine Reads.header rfl ⟨wf.suppress, wf.rewrite, wf.scratch, ?_⟩ rfl row (Nat.zero_lt_succ 3) rfl ?_ ?_ ?_ ?_ heard
  · dsimp only
    split
    · rw [length_setBytes (by simp [wf.held]), wf.held]
    · exact wf.held
  · intro hz
    simp only [hz, ↓reduceIte, true_and]
    simp [setBytes, BackendFrame.bytes, hz]
  · simp only [drop, Bool.false_or, Bool.and_eq_true, beq_iff_eq]
    exact fun h => h.1
  · intro hc
    simp [hc]
  · simp only [drop, Bool.false_or]
    rw [← hout]
    congr 2
    cases f.dropNextCopyInResponse <;> cases fr.type == COPY_IN_RESPONSE <;> rfl

private theorem events_of_notRfq {fr : BackendFrame} (h : fr.isReadyForQuery = false) :
    fr.events = if fr.type = ERROR_RESPONSE then [.errorResponse] else [] := by
  simp [BackendFrame.events, h]

theorem noteError_trace (f : Framer) {fr : BackendFrame} (h : fr.isReadyForQuery = false) :
    (f.noteError fr.type).trace = f.trace ++ fr.events := by
  rw [events_of_notRfq h]
  unfold Framer.noteError
  dsimp only
  split <;> simp

theorem type_of_isRfq {fr : BackendFrame} (h : fr.isReadyForQuery = true) :
    fr.type = READY_FOR_QUERY ∧ fr.payload.length = 1 := by
  simpa [BackendFrame.isReadyForQuery] using h

private theorem isRfq_eq (fr : BackendFrame) :
    (fr.type == READY_FOR_QUERY && fr.payload.length + 4 == 5) = fr.isReadyForQuery := by
  unfold BackendFrame.isReadyForQuery
  congr 1
  rw [Bool.eq_iff_iff, beq_iff_eq, beq_iff_eq]
  omega

/-- Between two frames, with no ReadyForQuery held. -/
theorem boundary_reads {f : Framer} {pending : Bytes} {frames : List BackendFrame} (wf : FramerWf o f)
    (type : f.messageType = none) (row : f.rowDescBuffer = none) (drop : f.droppingMessage = false)
    (rfq : f.rfqBytesRead = 0)
    (hout : f.emitted.flatten ++ pending ++ resolvedOutput o goal.dropHeld f.dropNextCopyInResponse frames =
      goal.output)
    (heard : goal.Heard f.trace frames) : Reads o goal f pending (streamBytes frames) := by
  refine Reads.boundary rfl wf type row drop (Or.inl rfq) ?_ heard
  have hheld : f.resolvedBytes goal.dropHeld = [] := by
    unfold Framer.resolvedBytes Framer.heldBytes
    simp [rfq]
  rw [hheld]
  simpa using hout

/-- A frame that ends leaves the framer at the start of the next one. -/
private theorem finishMessage_reads {f : Framer} {frames : List BackendFrame} (wf : FramerWf o f)
    (row : f.rowDescBuffer = none) (rfq : f.rfqBytesRead = 0)
    (hout : f.emitted.flatten ++ resolvedOutput o goal.dropHeld f.dropNextCopyInResponse frames = goal.output)
    (heard : goal.Heard f.trace frames) : Reads o goal f.finishMessage [] (streamBytes frames) := by
  have hzero : (if f.suppressIntermediateReadyForQuery then f.rfqBytesRead else 0) = 0 := by
    split <;> simp [rfq]
  exact boundary_reads ⟨wf.suppress, wf.rewrite, wf.scratch, wf.held⟩ rfl row rfl hzero
    (by simpa [Framer.finishMessage] using hout) heard

/-- A frame without payload ends with its header, any other frame is now at the start of its payload. -/
private theorem enterPayload_reads {f : Framer} {fr : BackendFrame} {frames : List BackendFrame} (rest : Bytes)
    (wf : FramerWf o f) (type : f.messageType = some fr.type) (read : f.headerBytesRead = 4)
    (rfqFrame : f.rfqFrame = false) (rfq : f.rfqBytesRead = 0) (remaining : f.payloadBytesRemaining = fr.payload.length)
    (row : f.rowDescBuffer = none) (whole : fr :: frames <:+ goal.frames) (body : Body f fr 0 rest)
    (hrest : fr.payload = [] → rest = [])
    (hout : f.emitted.flatten ++ rest ++ resolvedOutput o goal.dropHeld f.dropNextCopyInResponse frames = goal.output)
    (heard : goal.Heard f.trace frames) :
    Reads o goal (if f.payloadBytesRemaining = 0 then f.finishMessage else f) []
      (fr.payload ++ streamBytes frames) := by
  rw [remaining]
  split
  · rename_i hzero
    have hnil : fr.payload = [] := List.eq_nil_of_length_eq_zero hzero
    rw [hrest hnil, List.append_nil] at hout
    rw [hnil, List.nil_append]
    exact finishMessage_reads wf row rfq hout heard
  · refine Reads.payload rfl wf type read rfqFrame rfq ?_ (.inl ?_) whole body hout heard
    · simpa using remaining
    · omega

/-- The header is complete: the frame is a ReadyForQuery, has a payload to read, or ends here. -/
private theorem decodeHeader_reads {f : Framer} {fr : BackendFrame} {frames : List BackendFrame} (wf : FramerWf o f)
    (type : f.messageType = some fr.type) (row : f.rowDescBuffer = none) (read : f.headerBytesRead = 4)
    (scratch : f.headerScratch = fr.header)
    (rfq : fr.type = READY_FOR_QUERY → f.rfqBytesRead = 5 ∧ f.heldRfq.take 5 = fr.bytes.take 5)
    (drop : f.droppingMessage = true → fr.type = COPY_IN_RESPONSE)
    (armed : fr.type = COPY_IN_RESPONSE → f.dropNextCopyInResponse = false)
    (hout : f.emitted.flatten ++
      resolvedOutput o goal.dropHeld (f.droppingMessage || f.dropNextCopyInResponse) (fr :: frames) = goal.output)
    (heard : goal.Heard f.trace (fr :: frames)) :
    ∃ f', f.decodeHeader fr.type = .ok f' ∧ Reads o goal f' [] (fr.payload ++ streamBytes frames) := by
  have hlen : readUInt32BE f.headerScratch 0 = fr.payload.length + 4 := by
    rw [scratch, fr.readUInt32BE_header]
  have hle := fr.length_le
  unfold Framer.decodeHeader
  rw [hlen]
  dsimp only
  rw [if_neg (by omega), if_neg (by omega), isRfq_eq]
  cases hrfq : fr.isReadyForQuery
  · rw [if_neg (by simp)]
    have hwhole := heard.whole
    replace heard := noteError_trace f hrfq ▸ heard.next
    simp only [resolvedOutput, hrfq, Bool.false_eq_true, ↓reduceIte] at hout
    -- the state once the header is taken in, with the fields the rest of the frame depends on
    generalize hg : Framer.dropHeldReadyForQuery (Framer.noteError _ _) = g
    have wf' : FramerWf o g := by
      subst hg; exact ⟨wf.suppress, wf.rewrite, wf.scratch, wf.held⟩
    have heard' : goal.Heard g.trace frames := by subst hg; exact heard
    have hem : g.emitted = f.emitted := by subst hg; rfl
    have harm : g.dropNextCopyInResponse = f.dropNextCopyInResponse := by subst hg; rfl
    have hdrop : g.droppingMessage = f.droppingMessage := by subst hg; rfl
    have hscr : g.headerScratch = fr.header := by subst hg; exact scratch
    have hrem : g.payloadBytesRemaining = fr.payload.length := by subst hg; rfl
    have hrow : g.rowDescBuffer = none := by subst hg; exact row
    have htype : g.messageType = some fr.type := by subst hg; exact type
    have hread : g.headerBytesRead = 4 := by subst hg; exact read
    have hrf : g.rfqFrame = false := by subst hg; rfl
    have hrb : g.rfqBytesRead = 0 := by subst hg; rfl
    clear hg heard
    rw [← hem, ← harm, ← hdrop] at hout
    cases hd : g.droppingMessage
    · rw [if_neg (by simp)]
      rw [hd, Bool.false_or] at hout
      have hkeep : ¬(fr.type = COPY_IN_RESPONSE ∧ g.dropNextCopyInResponse = true) := by
        rintro ⟨hc, ha⟩
        rw [harm, armed hc] at ha
        cases ha
      rw [if_neg hkeep] at hout
      split
      · rename_i hrd
        rw [if_pos ⟨hrd.1, by rw [← wf'.rewrite]; exact hrd.2⟩] at hout
        have hlt : 0 < fr.payload.length ∨ fr.payload = [] := by
          rcases List.eq_nil_or_concat fr.payload with hnil | ⟨_, _, hcons⟩
          · exact .inr hnil
          · simp [hcons]
        refine ⟨_, rfl, @Reads.payload _ _ _ _ _ _ 0 _ rfl ⟨wf'.suppress, wf'.rewrite, wf'.scratch, wf'.held⟩ htype
          hread hrf hrb (by simpa using hrem) (hlt.imp_right fun h => ⟨rfl, hrd.1, h, ?_⟩) hwhole
          (.rowDescription rfl rfl ?_ rfl ?_) ?_ heard'⟩
        · rw [← wf'.rewrite]
          exact hrd.2
        · simp only [hscr, hrem, BackendFrame.length_bytes, List.length_append, List.length_cons,
            BackendFrame.length_header, List.length_replicate]
          omega
        · have hhead : ∀ l : Bytes, (fr.header ++ l).take 4 = fr.header := fun _ => List.take_left' fr.length_header
          simp [hscr, BackendFrame.bytes, hrd.1, hhead]
        · simpa using hout
      · rename_i hrd
        rw [if_neg (fun h => hrd ⟨h.1, by rw [wf'.rewrite]; exact h.2⟩)] at hout
        refine ⟨_, rfl, enterPayload_reads fr.payload ⟨wf'.suppress, wf'.rewrite, wf'.scratch, wf'.held⟩
          htype hread hrf hrb hrem hrow hwhole (.plain hd hrow) id ?_ heard'⟩
        rw [← hout]
        simp [Framer.emitPrefix, Framer.onChunk, htype, hscr, BackendFrame.bytes]
    · -- the first `CopyInResponse`, dropped
      have hcopy := drop (hdrop ▸ hd)
      rw [if_pos rfl]
      rw [hd, Bool.true_or, if_pos ⟨hcopy, rfl⟩] at hout
      have ha : g.dropNextCopyInResponse = false := by rw [harm]; exact armed hcopy
      refine ⟨_, rfl, enterPayload_reads [] wf' htype hread hrf hrb hrem hrow hwhole (.dropped hd hrow)
        (fun _ => rfl) ?_ heard'⟩
      rw [ha]
      simpa using hout
  · obtain ⟨hz, hp⟩ := type_of_isRfq hrfq
    obtain ⟨hread, hheld⟩ := rfq hz
    have hdrop : f.droppingMessage = false := by
      cases hd : f.droppingMessage
      · rfl
      · exact absurd (hz.symm.trans (drop hd)) (by decide)
    refine ⟨_, if_pos rfl, ?_⟩
    refine Reads.readyForQuery rfl ⟨wf.suppress, wf.rewrite, wf.scratch, wf.held⟩ type row hdrop read hrfq rfl
      (by simp [Framer.noteError, hp]) hread hheld ?_ ?_
    · simpa [Framer.noteError, hdrop] using hout
    · have hne : fr.type ≠ ERROR_RESPONSE := by rw [hz]; decide
      simpa [Framer.noteError, hne] using heard

private theorem holdHeader_ok {f : Framer} {fr : BackendFrame} {bytes : Bytes} (held : f.heldRfq.length = 6)
    (rfq : fr.type = READY_FOR_QUERY → f.rfqBytesRead = 1 + f.headerBytesRead ∧
      f.heldRfq.take (1 + f.headerBytesRead) = fr.bytes.take (1 + f.headerBytesRead))
    (hle : f.headerBytesRead + bytes.length ≤ 4)
    (hbytes : bytes = (fr.header.drop f.headerBytesRead).take bytes.length) :
    ∃ held, f.holdHeader fr.type bytes = .ok held ∧ held.length = 6 ∧
      (fr.type = READY_FOR_QUERY → held.take (1 + (f.headerBytesRead + bytes.length)) =
        fr.bytes.take (1 + (f.headerBytesRead + bytes.length))) := by
  unfold Framer.holdHeader
  split
  · rename_i hz
    obtain ⟨hread, htake⟩ := rfq hz
    have hfit : f.rfqBytesRead + bytes.length ≤ f.heldRfq.length := by omega
    have hsrc : bytes = (fr.bytes.drop (1 + f.headerBytesRead)).take bytes.length := by
      have hb : fr.bytes.drop (1 + f.headerBytesRead) = (fr.header ++ fr.payload).drop f.headerBytesRead := by
        rw [Nat.add_comm]; rfl
      rw [hb, List.drop_append_of_le_length (by rw [fr.length_header]; omega),
        List.take_append_of_le_length (by rw [List.length_drop, fr.length_header]; omega)]
      exact hbytes
    refine ⟨_, setOrThrow_ok hfit, by rw [length_setBytes hfit, held], fun _ => ?_⟩
    rw [hread] at hfit ⊢
    rw [← Nat.add_assoc]
    exact take_setBytes hfit htake hsrc
  · rename_i hz
    exact ⟨_, rfl, held, fun h => absurd h hz⟩

/-- Header bytes of the frame in flight. -/
private theorem takeHeader_reads {f : Framer} {fr : BackendFrame} {frames : List BackendFrame} (bytes : Bytes)
    (wf : FramerWf o f) (type : f.messageType = some fr.type) (row : f.rowDescBuffer = none)
    (scratch : f.headerScratch.take f.headerBytesRead = fr.header.take f.headerBytesRead)
    (rfq : fr.type = READY_FOR_QUERY → f.rfqBytesRead = 1 + f.headerBytesRead ∧
      f.heldRfq.take (1 + f.headerBytesRead) = fr.bytes.take (1 + f.headerBytesRead))
    (drop : f.droppingMessage = true → fr.type = COPY_IN_RESPONSE)
    (armed : fr.type = COPY_IN_RESPONSE → f.dropNextCopyInResponse = false)
    (hout : f.emitted.flatten ++
      resolvedOutput o goal.dropHeld (f.droppingMessage || f.dropNextCopyInResponse) (fr :: frames) = goal.output)
    (heard : goal.Heard f.trace (fr :: frames))
    (hle : f.headerBytesRead + bytes.length ≤ 4)
    (hbytes : bytes = (fr.header.drop f.headerBytesRead).take bytes.length) :
    ∃ f', f.takeHeader fr.type bytes = .ok f' ∧ Reads o goal f' []
      (fr.header.drop (f.headerBytesRead + bytes.length) ++ fr.payload ++ streamBytes frames) := by
  have hset : f.headerBytesRead + bytes.length ≤ f.headerScratch.length := by rw [wf.scratch]; exact hle
  have hscr := take_setBytes hset scratch hbytes
  obtain ⟨held, hheld, hlen, hz⟩ := holdHeader_ok wf.held rfq hle hbytes
  have wf' : ∀ g : Framer, g.suppressIntermediateReadyForQuery = f.suppressIntermediateReadyForQuery →
      g.rewriteSystemCatalogCharOids = f.rewriteSystemCatalogCharOids →
      g.headerScratch = setBytes f.headerScratch f.headerBytesRead bytes → g.heldRfq = held → FramerWf o g :=
    fun g h1 h2 h3 h4 => ⟨h1.trans wf.suppress, h2.trans wf.rewrite,
      by rw [h3, length_setBytes hset, wf.scratch], by rw [h4, hlen]⟩
  have hread : fr.type = READY_FOR_QUERY →
      (if fr.type = READY_FOR_QUERY then f.rfqBytesRead + bytes.length else f.rfqBytesRead) =
        1 + (f.headerBytesRead + bytes.length) := by
    intro h
    rw [if_pos h, (rfq h).1, Nat.add_assoc]
  simp only [Framer.takeHeader, bind, Except.bind, setOrThrow_ok hset, hheld]
  by_cases hfull : f.headerBytesRead + bytes.length < 4
  · rw [if_pos hfull]
    exact ⟨_, rfl, Reads.header rfl (wf' _ rfl rfl rfl rfl) type row hfull hscr (fun h => ⟨hread h, hz h⟩) drop armed
      hout heard⟩
  · have h4 : f.headerBytesRead + bytes.length = 4 := by omega
    rw [if_neg hfull]
    rw [h4] at hscr hread hz ⊢
    rw [List.take_of_length_le (Nat.le_of_eq ((length_setBytes hset).trans wf.scratch)),
      List.take_of_length_le (Nat.le_of_eq fr.length_header)] at hscr
    exact decodeHeader_reads (wf' _ rfl rfl rfl rfl) type row rfl hscr (fun h => ⟨hread h, hz h⟩) drop armed hout heard

private theorem events_of_isRfq {fr : BackendFrame} (h : fr.isReadyForQuery = true) :
    fr.events = [.readyForQuery (fr.payload.getD 0 0)] := by
  have hne : fr.type ≠ ERROR_RESPONSE := by rw [(type_of_isRfq h).1]; decide
  simp [BackendFrame.events, hne, h]

/-- After a ReadyForQuery, forwarded or held: the next frame starts. -/
theorem rfqTaken_reads (f : Framer) {g : Framer} {fr : BackendFrame} {frames : List BackendFrame}
    (isRfq : fr.isReadyForQuery = true) (wf : FramerWf o g) (type : g.messageType = none)
    (row : g.rowDescBuffer = none) (drop : g.droppingMessage = false)
    (armed : g.dropNextCopyInResponse = f.dropNextCopyInResponse)
    (hold : g.suppressIntermediateReadyForQuery = true →
      g.rfqBytesRead = 6 ∧ g.heldRfq = fr.bytes ∧ g.emitted = f.emitted)
    (emit : g.suppressIntermediateReadyForQuery = false →
      g.rfqBytesRead = 0 ∧ g.emitted = f.emitted ++ [fr.bytes])
    (trace : g.trace = f.trace ++ [.readyForQuery (fr.payload.getD 0 0)])
    (hout : f.emitted.flatten ++ resolvedOutput o goal.dropHeld f.dropNextCopyInResponse (fr :: frames) = goal.output)
    (heard : goal.Heard f.trace (fr :: frames)) : Reads o goal g [] (streamBytes frames) := by
  have heard' : goal.Heard g.trace frames := by
    rw [trace, ← events_of_isRfq isRfq]
    exact heard.next
  simp only [resolvedOutput, isRfq, ↓reduceIte] at hout
  cases hs : g.suppressIntermediateReadyForQuery
  · obtain ⟨hread, hem⟩ := emit hs
    refine Reads.boundary rfl wf type row drop (Or.inl hread) ?_ heard'
    rw [← hout, hem, armed]
    simp [Framer.resolvedBytes, Framer.heldBytes, hs, ← wf.suppress]
  · obtain ⟨hread, hheld, hem⟩ := hold hs
    refine Reads.boundary rfl wf type row drop (Or.inr ⟨wf.suppress ▸ hs, hread⟩) ?_ heard'
    rw [← hout, hem, armed]
    cases frames with
    | nil => simp [Framer.resolvedBytes, Framer.heldBytes, hs, hread, hheld, ← wf.suppress]
    | cons fr' frames => simp [hs, ← wf.suppress]

private theorem finishReadyForQuery_hold {f : Framer} (h : f.suppressIntermediateReadyForQuery = true) :
    f.finishReadyForQuery = (f.onReadyForQuery (f.heldRfq.getD 5 0)).finishMessage := by
  have h' : (f.onReadyForQuery (f.heldRfq.getD 5 0)).suppressIntermediateReadyForQuery = true := h
  simp only [Framer.finishReadyForQuery, h', ↓reduceIte]

private theorem finishReadyForQuery_emit {f : Framer} (h : f.suppressIntermediateReadyForQuery = false) :
    f.finishReadyForQuery = (f.onReadyForQuery (f.heldRfq.getD 5 0)).emitReadyForQuery.finishMessage := by
  have h' : (f.onReadyForQuery (f.heldRfq.getD 5 0)).suppressIntermediateReadyForQuery = false := h
  simp only [Framer.finishReadyForQuery, h', Bool.false_eq_true, ↓reduceIte]

theorem getD_status (fr : BackendFrame) : fr.bytes.getD 5 0 = fr.payload.getD 0 0 := by
  simp [BackendFrame.bytes, BackendFrame.header, encodeUInt32BE]

private theorem finishReadyForQuery_reads {f : Framer} {fr : BackendFrame} {frames : List BackendFrame}
    (wf : FramerWf o f) (row : f.rowDescBuffer = none) (isRfq : fr.isReadyForQuery = true)
    (rfq : f.rfqBytesRead = 6) (held : f.heldRfq = fr.bytes)
    (hout : f.emitted.flatten ++ resolvedOutput o goal.dropHeld f.dropNextCopyInResponse (fr :: frames) = goal.output)
    (heard : goal.Heard f.trace (fr :: frames)) :
    Reads o goal f.finishReadyForQuery [] (streamBytes frames) := by
  have hlen6 : f.heldRfq.length = 6 := wf.held
  have hstatus : f.trace ++ [.readyForQuery (f.heldRfq.getD 5 0)] =
      f.trace ++ [.readyForQuery (fr.payload.getD 0 0)] := by
    rw [held, getD_status]
  by_cases hs : f.suppressIntermediateReadyForQuery = true
  · rw [finishReadyForQuery_hold hs]
    exact rfqTaken_reads f isRfq ⟨wf.suppress, wf.rewrite, wf.scratch, hlen6⟩ rfl row rfl rfl
      (fun _ => ⟨(if_pos hs).trans rfq, held, rfl⟩) (fun h => absurd (hs.symm.trans h) (by decide)) hstatus hout heard
  · rw [finishReadyForQuery_emit (by simpa using hs)]
    refine rfqTaken_reads f isRfq ⟨wf.suppress, wf.rewrite, wf.scratch, hlen6⟩ rfl row rfl rfl
      (fun h => absurd h hs) (fun _ => ⟨if_neg hs, ?_⟩) hstatus hout heard
    show f.emitted ++ [f.heldRfq.take 6] = f.emitted ++ [fr.bytes]
    rw [List.take_of_length_le (Nat.le_of_eq hlen6), held]

/-- The status byte of a ReadyForQuery. -/
private theorem takeRfqPayload_reads {f : Framer} {fr : BackendFrame} {frames : List BackendFrame} (wf : FramerWf o f)
    (row : f.rowDescBuffer = none) (isRfq : fr.isReadyForQuery = true) (remaining : f.payloadBytesRemaining = 1)
    (rfq : f.rfqBytesRead = 5) (held : f.heldRfq.take 5 = fr.bytes.take 5)
    (hout : f.emitted.flatten ++ resolvedOutput o goal.dropHeld f.dropNextCopyInResponse (fr :: frames) = goal.output)
    (heard : goal.Heard f.trace (fr :: frames)) :
    ∃ f', f.takeRfqPayload fr.payload = .ok f' ∧ Reads o goal f' [] (streamBytes frames) := by
  have hp := (type_of_isRfq isRfq).2
  have hlen6 : fr.bytes.length = 6 := by rw [fr.length_bytes, hp]
  have hset : f.rfqBytesRead + fr.payload.length ≤ f.heldRfq.length := by
    have := wf.held
    omega
  have hheld : setBytes f.heldRfq f.rfqBytesRead fr.payload = fr.bytes := by
    obtain ⟨p, hpay⟩ := List.length_eq_one_iff.1 hp
    have hdrop : f.heldRfq.drop (f.rfqBytesRead + fr.payload.length) = [] :=
      List.drop_of_length_le (by have := wf.held; omega)
    rw [setBytes, hdrop, rfq, held, hpay, List.append_nil]
    conv => rhs; rw [fr.bytes_eq_take hp, hpay]
    rfl
  simp only [Framer.takeRfqPayload, bind, Except.bind, setOrThrow_ok hset, hheld]
  refine ⟨_, rfl, ?_⟩
  simp only [remaining, hp, rfq, ↓reduceIte]
  exact finishReadyForQuery_reads ⟨wf.suppress, wf.rewrite, wf.scratch, hlen6⟩ row isRfq rfl rfl hout heard

theorem Body.congr {f g : Framer} {fr : BackendFrame} {m : Nat} {rest : Bytes} (body : Body f fr m rest)
    (hdrop : g.droppingMessage = f.droppingMessage) (hrow : g.rowDescBuffer = f.rowDescBuffer)
    (hoff : g.rowDescOffset = f.rowDescOffset) : Body g fr m rest := by
  cases body with
  | dropped drop row => exact .dropped (hdrop.trans drop) (hrow.trans row)
  | rowDescription drop row length offset read =>
    exact .rowDescription (hdrop.trans drop) (hrow.trans row) length (hoff.trans offset) read
  | plain drop row => exact .plain (hdrop.trans drop) (hrow.trans row)

/-- Payload bytes are dropped, accumulated or emitted. -/
private theorem storePayload_body {f : Framer} {fr : BackendFrame} {m : Nat} {rest bytes : Bytes}
    (body : Body f fr m rest) (hle : m + bytes.length ≤ fr.payload.length)
    (hbytes : bytes = (fr.payload.drop m).take bytes.length) :
    ∃ e r p rest', f.storePayload bytes = .ok { f with emitted := e, rowDescBuffer := r, rowDescOffset := p } ∧
      Body { f with emitted := e, rowDescBuffer := r, rowDescOffset := p } fr (m + bytes.length) rest' ∧
      e.flatten ++ rest' = f.emitted.flatten ++ rest := by
  cases body with
  | dropped drop row =>
    exact ⟨f.emitted, f.rowDescBuffer, f.rowDescOffset, [], if_pos drop, .dropped drop row, rfl⟩
  | @rowDescription buf drop row length offset read =>
    have hset : f.rowDescOffset + bytes.length ≤ buf.length := by
      rw [length, fr.length_bytes]; omega
    have hsrc : bytes = (fr.bytes.drop (5 + m)).take bytes.length := by
      have hdrop : fr.bytes.drop (5 + m) = fr.payload.drop m := by
        rw [Nat.add_comm]
        show (fr.header ++ fr.payload).drop (m + 4) = _
        rw [Nat.add_comm, ← fr.length_header, List.drop_length_add_append]
      rw [hdrop]; exact hbytes
    refine ⟨f.emitted, some (setBytes buf f.rowDescOffset bytes), f.rowDescOffset + bytes.length, _, ?_,
      .rowDescription drop rfl ?_ ?_ ?_, rfl⟩
    · simp only [Framer.storePayload, drop, row, Bool.false_eq_true, ↓reduceIte, bind, Except.bind, setOrThrow_ok hset]
    · rw [length_setBytes hset, length]
    · rw [offset, Nat.add_assoc]
    · rw [← Nat.add_assoc, ← offset]
      rw [← offset] at read hsrc
      exact take_setBytes hset read hsrc
  | plain drop row =>
    have hrest : bytes ++ fr.payload.drop (m + bytes.length) = fr.payload.drop m := by
      conv => lhs; lhs; rw [hbytes]
      rw [← List.drop_drop, List.take_append_drop]
    by_cases hempty : bytes.isEmpty = true
    · refine ⟨f.emitted, f.rowDescBuffer, f.rowDescOffset, _, ?_, .plain drop row, ?_⟩
      · unfold Framer.storePayload
        rw [if_neg (by simp [drop])]
        split
        · rename_i buf hbuf
          rw [row] at hbuf
          cases hbuf
        · simp [Framer.emitChunkSlice, hempty]
      · rw [List.isEmpty_iff.1 hempty]; rfl
    · refine ⟨f.emitted ++ [bytes], none, f.rowDescOffset, _, ?_, .plain drop rfl, ?_⟩
      · simp [Framer.storePayload, drop, row, Framer.emitChunkSlice, Framer.onChunk, hempty]
      · rw [List.flatten_append, List.append_assoc, ← hrest]
        simp

/-- The last payload byte: an accumulated `RowDescription` is rewritten and emitted. -/
private theorem finishPayload_reads {f : Framer} {fr : BackendFrame} {frames : List BackendFrame} {m : Nat}
    {rest : Bytes} (wf : FramerWf o f) (rfq : f.rfqBytesRead = 0) (hm : m = fr.payload.length)
    (body : Body f fr m rest)
    (hout : f.emitted.flatten ++ rest ++ resolvedOutput o goal.dropHeld f.dropNextCopyInResponse frames = goal.output)
    (heard : goal.Heard f.trace frames) : Reads o goal f.finishPayload [] (streamBytes frames) := by
  unfold Framer.finishPayload
  cases body with
  | dropped drop row =>
    rw [row]
    exact finishMessage_reads wf row rfq (by simpa using hout) heard
  | @rowDescription buf drop row length offset read =>
    have hbuf : buf = fr.bytes := by
      have hfull : 5 + m = fr.bytes.length := by rw [fr.length_bytes, hm, Nat.add_comm]
      rw [hfull, List.take_length, ← length, List.take_length] at read
      exact read
    rw [row]
    refine finishMessage_reads ⟨wf.suppress, wf.rewrite, wf.scratch, wf.held⟩ rfl rfq ?_ heard
    rw [← hout, hbuf]
    simp [Framer.emitRewrittenRowDescription, Framer.onChunk]
  | plain drop row =>
    rw [row]
    refine finishMessage_reads wf row rfq ?_ heard
    rw [hm, List.drop_length, List.append_nil] at hout
    exact hout

/-- Payload bytes of any other frame. -/
private theorem takePayload_reads {f : Framer} {fr : BackendFrame} {frames : List BackendFrame} {m : Nat} {rest : Bytes}
    (bytes : Bytes) (wf : FramerWf o f) (type : f.messageType = some fr.type) (read : f.headerBytesRead = 4)
    (rfqFrame : f.rfqFrame = false) (rfq : f.rfqBytesRead = 0)
    (remaining : f.payloadBytesRemaining = fr.payload.length - m) (whole : fr :: frames <:+ goal.frames)
    (body : Body f fr m rest)
    (hout : f.emitted.flatten ++ rest ++ resolvedOutput o goal.dropHeld f.dropNextCopyInResponse frames = goal.output)
    (heard : goal.Heard f.trace frames)
    (hle : m + bytes.length ≤ fr.payload.length) (hbytes : bytes = (fr.payload.drop m).take bytes.length) :
    ∃ f', f.takePayload bytes = .ok f' ∧
      Reads o goal f' [] (fr.payload.drop (m + bytes.length) ++ streamBytes frames) := by
  obtain ⟨e, r, p, rest', hstore, hbody, hem⟩ := storePayload_body body hle hbytes
  rw [← hem] at hout
  refine ⟨_, by simp only [Framer.takePayload, hstore, bind, Except.bind]; rfl, ?_⟩
  simp only [Framer.countPayload, remaining]
  split
  · have hm : m + bytes.length = fr.payload.length := by omega
    rw [hm, List.drop_length, List.nil_append]
    exact finishPayload_reads ⟨wf.suppress, wf.rewrite, wf.scratch, wf.held⟩ rfq hm (hbody.congr rfl rfl rfl) hout heard
  · exact Reads.payload rfl ⟨wf.suppress, wf.rewrite, wf.scratch, wf.held⟩ type read rfqFrame rfq
      (Nat.sub_sub _ _ _) (.inl (by omega)) whole (hbody.congr rfl rfl rfl) hout heard

private theorem take_drop_part {part : Bytes} (rest : Bytes) {n : Nat} (h : n ≤ part.length) :
    (part ++ rest).take n = part.take n ∧ (part ++ rest).drop n = part.drop n ++ rest :=
  ⟨List.take_append_of_le_length h, List.drop_append_of_le_length h⟩

/-- In the middle of a frame, the next bytes of its present part are taken without error. -/
theorem takeBytes_reads {f : Framer} {rem : Bytes} {t : UInt8} (n : Nat) (h : Reads o goal f [] rem)
    (ht : f.messageType = some t) (hpos : n = 0 → f.wantedBytes = 0) (hn : n ≤ f.wantedBytes) :
    ∃ f', f.takeBytes t (rem.take n) = .ok f' ∧ Reads o goal f' [] (rem.drop n) := by
  unfold Framer.wantedBytes at hpos hn
  unfold Framer.takeBytes
  cases h with
  | boundary hrem wf type => rw [type] at ht; cases ht
  | @header _ fr frames hrem wf type row lt scratch rfq drop armed hout heard =>
    obtain rfl : fr.type = t := Option.some.inj (type.symm.trans ht)
    rw [if_pos lt] at hn ⊢
    have hpart : n ≤ (fr.header.drop f.headerBytesRead).length := by
      rw [List.length_drop, fr.length_header]; exact hn
    obtain ⟨htake, hdrop⟩ := take_drop_part (fr.payload ++ streamBytes frames) hpart
    have hlen : ((fr.header.drop f.headerBytesRead).take n).length = n := List.length_take_of_le hpart
    rw [hrem, List.append_assoc, htake, hdrop, List.drop_drop, ← List.append_assoc]
    have key := takeHeader_reads ((fr.header.drop f.headerBytesRead).take n) wf type row scratch rfq drop
      armed hout heard (by omega) (by rw [hlen])
    rw [hlen] at key
    exact key
  | @readyForQuery _ fr frames hrem wf type row drop read isRfq rfqFrame remaining rfq held hout heard =>
    have hp := (type_of_isRfq isRfq).2
    rw [if_neg (by omega), remaining] at hpos hn
    obtain rfl : n = 1 := by omega
    rw [if_neg (by omega), if_pos rfqFrame, hrem, ← hp, List.take_left, List.drop_left]
    exact takeRfqPayload_reads wf row isRfq remaining rfq held hout heard
  | @payload _ fr frames m rest hrem wf type read rfqFrame rfq remaining lt whole body hout heard =>
    rw [if_neg (by omega), remaining] at hn
    have hpart : n ≤ (fr.payload.drop m).length := by rw [List.length_drop]; exact hn
    have hm : m ≤ fr.payload.length := by
      rcases lt with hlt | ⟨rfl, -⟩
      · exact Nat.le_of_lt hlt
      · exact Nat.zero_le _
    obtain ⟨htake, hdrop⟩ := take_drop_part (streamBytes frames) hpart
    have hlen : ((fr.payload.drop m).take n).length = n := List.length_take_of_le hpart
    rw [if_neg (by omega), if_neg (by simp [rfqFrame]), hrem, htake, hdrop, List.drop_drop]
    have key := takePayload_reads ((fr.payload.drop m).take n) wf type read rfqFrame rfq remaining whole
      body hout heard (by rw [List.length_drop] at hpart; omega) (by rw [hlen])
    rw [hlen] at key
    exact key

end PgliteBridge
