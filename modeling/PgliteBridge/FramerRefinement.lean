import PgliteBridge.FramerSlowPath

/-!
# The framer computes its reference

Within a chunk, frames that lie whole in it are taken at once and passed through as one slice.  Every turn of the
loop keeps `Reads` (`writeStep_reads`), wherever the chunks are cut, so `write` and `flush` compute the reference
(`framer_eq_reference`).
-/

namespace PgliteBridge

/-! ### The fast path -/

section FastPath

variable {o : FramerOptions} {goal : StreamGoal}

/-- The bytes accepted by the fast path and not yet emitted. -/
def Cursor.pending (c : Cursor) (chunk : Bytes) : Bytes :=
  match c.passthroughStart with
  | some start => subarray chunk start c.offset
  | none => []

/-- Within a chunk, with the bytes `future` of the later chunks to come. -/
structure CursorReads (o : FramerOptions) (goal : StreamGoal) (chunk future : Bytes)
    (c : Cursor) : Prop where
  reads : Reads o goal c.framer (c.pending chunk) (chunk.drop c.offset ++ future)
  le : c.offset ≤ chunk.length
  start : ∀ s, c.passthroughStart = some s → s < c.offset

/-- Flushing emits what is pending and leaves the rest of the framer alone. -/
private theorem flushPassthrough_emits (chunk : Bytes) (c : Cursor) (le : c.offset ≤ chunk.length)
    (start : ∀ s, c.passthroughStart = some s → s < c.offset) :
    ∃ e, c.flushPassthrough chunk =
        { framer := { c.framer with emitted := e }, offset := c.offset, passthroughStart := none } ∧
      e.flatten = c.framer.emitted.flatten ++ c.pending chunk := by
  obtain ⟨f, offset, passthroughStart⟩ := c
  cases passthroughStart with
  | none => exact ⟨f.emitted, rfl, (List.append_nil _).symm⟩
  | some s =>
    have hs : s < offset := start s rfl
    have hlen : (subarray chunk s offset).length = offset - s := length_subarray le
    have hne : (subarray chunk s offset).isEmpty = false := by
      cases hsub : subarray chunk s offset with
      | nil => rw [hsub] at hlen; simp only [List.length_nil] at hlen; omega
      | cons _ _ => rfl
    refine ⟨f.emitted ++ [subarray chunk s offset], ?_, by simp [Cursor.pending]⟩
    simp only [Cursor.flushPassthrough, gt_iff_lt, hs, ↓reduceIte, Framer.emitChunkSlice, hne, Bool.false_eq_true]
    rfl

/-- The frame at the head of the bytes still to be read. -/
private theorem frame_at {chunk future : Bytes} {offset : Nat} {fr : BackendFrame} {frames : List BackendFrame}
    (hrem : chunk.drop offset ++ future = streamBytes (fr :: frames)) (hlt : offset < chunk.length) :
    chunk.getD offset 0 = fr.type := by
  have hd := List.drop_eq_getElem_cons hlt
  rw [hd, streamBytes_cons] at hrem
  simp only [BackendFrame.bytes, List.cons_append, List.cons.injEq] at hrem
  rw [List.getD_eq_getElem?_getD, List.getElem?_eq_getElem hlt]
  exact hrem.1

theorem length_at {chunk future : Bytes} {offset : Nat} {fr : BackendFrame} {frames : List BackendFrame}
    (hrem : chunk.drop offset ++ future = streamBytes (fr :: frames)) (hlen : chunk.length - offset ≥ 5) :
    readUInt32BE chunk (offset + 1) = fr.payload.length + 4 := by
  have key : readUInt32BE chunk (offset + 1) = readUInt32BE (chunk.drop offset ++ future) 1 := by
    have hget : ∀ k, k < 5 → chunk.getD (offset + k) 0 = (chunk.drop offset ++ future).getD k 0 := by
      intro k hk
      simp only [List.getD_eq_getElem?_getD]
      rw [List.getElem?_append_left (by rw [List.length_drop]; omega), List.getElem?_drop]
    unfold readUInt32BE
    rw [Nat.add_assoc, Nat.add_assoc, Nat.add_assoc, hget 1 (by omega), hget (1 + 1) (by omega),
      hget (1 + 2) (by omega), hget (1 + 3) (by omega)]
  rw [key, hrem, streamBytes_cons]
  exact fr.readUInt32BE_bytes _

private theorem bytes_at {chunk future : Bytes} {offset : Nat} {fr : BackendFrame} {frames : List BackendFrame}
    (hrem : chunk.drop offset ++ future = streamBytes (fr :: frames))
    (hfit : chunk.length - offset ≥ 1 + (fr.payload.length + 4)) :
    subarray chunk offset (offset + (1 + (fr.payload.length + 4))) = fr.bytes ∧
      chunk.drop (offset + (1 + (fr.payload.length + 4))) ++ future = streamBytes frames := by
  have hlen : fr.bytes.length = 1 + (fr.payload.length + 4) := by rw [fr.length_bytes]; omega
  have hle : fr.bytes.length ≤ (chunk.drop offset).length := by rw [List.length_drop]; omega
  rw [streamBytes_cons] at hrem
  have htake := congrArg (List.take fr.bytes.length) hrem
  have hdrop := congrArg (List.drop fr.bytes.length) hrem
  rw [List.take_append_of_le_length hle, List.take_left] at htake
  rw [List.drop_append_of_le_length hle, List.drop_left, List.drop_drop] at hdrop
  rw [← hlen]
  refine ⟨?_, hdrop⟩
  rw [subarray, Nat.add_sub_cancel_left, htake]

/-- The output of a frame that is neither a ReadyForQuery nor the dropped `CopyInResponse`. -/
private theorem resolvedOutput_forward (armed : Bool) {fr : BackendFrame} {frames : List BackendFrame}
    (hrfq : fr.isReadyForQuery = false) (hcopy : ¬(fr.type = COPY_IN_RESPONSE ∧ armed = true)) :
    resolvedOutput o goal.dropHeld armed (fr :: frames) =
      (if fr.type = ROW_DESCRIPTION ∧ o.rewriteSystemCatalogCharOids then rewriteRowDescriptionInPlace fr.bytes
        else fr.bytes) ++ resolvedOutput o goal.dropHeld armed frames := by
  simp only [resolvedOutput, hrfq, Bool.false_eq_true, ↓reduceIte, hcopy]
  split <;> rfl

/-- A frame the gate refuses is forwarded as it is, whether or not it is a `RowDescription`. -/
private theorem rewrite_of_gate (rewrite : Bool) {chunk : Bytes} {offset stop : Nat} {fr : BackendFrame}
    (hbytes : subarray chunk offset stop = fr.bytes) (hle : offset ≤ stop) (hstop : stop ≤ chunk.length)
    (hgate : ¬(fr.type = ROW_DESCRIPTION ∧ rewrite = true ∧ rowDescriptionNeedsRewrite chunk offset stop = true)) :
    (if fr.type = ROW_DESCRIPTION ∧ rewrite then rewriteRowDescriptionInPlace fr.bytes else fr.bytes) = fr.bytes := by
  split
  · rename_i hrd
    apply rewriteRowDescriptionInPlace_eq_self
    have hlen : fr.bytes.length = stop - offset := by rw [← hbytes, length_subarray hstop]
    rw [hlen, ← hbytes, ← rowDescriptionNeedsRewrite_subarray chunk hle]
    simpa [hrd.1, hrd.2] using hgate
  · rfl

section WholeFrame

variable {f : Framer} {frames : List BackendFrame} {pending : Bytes}

/-- A frame that needs nothing from the framer but to drop a stale ReadyForQuery. -/
private theorem dropStale_reads (wf : FramerWf o f) (type : f.messageType = none) (row : f.rowDescBuffer = none)
    (drop : f.droppingMessage = false)
    (rfq : f.rfqBytesRead = 0 ∨ o.suppressIntermediateReadyForQuery = true ∧ f.rfqBytesRead = 6)
    (hout : f.emitted.flatten ++ pending ++ resolvedOutput o goal.dropHeld f.dropNextCopyInResponse frames =
      goal.output)
    (heard : goal.Heard f.trace frames) :
    Reads o goal f.dropStaleHeldReadyForQuery pending (streamBytes frames) := by
  rw [dropStale_rfq wf rfq]
  exact boundary_reads ⟨wf.suppress, wf.rewrite, wf.scratch, wf.held⟩ type row drop rfl hout heard

private theorem takeDropped_reads (wf : FramerWf o f) (type : f.messageType = none) (row : f.rowDescBuffer = none)
    (drop : f.droppingMessage = false)
    (rfq : f.rfqBytesRead = 0 ∨ o.suppressIntermediateReadyForQuery = true ∧ f.rfqBytesRead = 6)
    (hout : f.emitted.flatten ++ resolvedOutput o goal.dropHeld false frames = goal.output)
    (heard : goal.Heard f.trace frames) : Reads o goal f.takeDropped [] (streamBytes frames) := by
  rw [Framer.takeDropped, dropStale_rfq wf rfq]
  exact boundary_reads ⟨wf.suppress, wf.rewrite, wf.scratch, wf.held⟩ type row drop rfl (by simpa using hout) heard

private theorem takeRowDescription_reads {frame : Bytes} (wf : FramerWf o f) (type : f.messageType = none)
    (row : f.rowDescBuffer = none) (drop : f.droppingMessage = false)
    (rfq : f.rfqBytesRead = 0 ∨ o.suppressIntermediateReadyForQuery = true ∧ f.rfqBytesRead = 6)
    (hout : f.emitted.flatten ++ (rewriteRowDescriptionInPlace frame ++
      resolvedOutput o goal.dropHeld f.dropNextCopyInResponse frames) = goal.output)
    (heard : goal.Heard f.trace frames) :
    Reads o goal (f.takeRowDescription frame) [] (streamBytes frames) := by
  rw [Framer.takeRowDescription, dropStale_rfq wf rfq]
  refine boundary_reads ⟨wf.suppress, wf.rewrite, wf.scratch, wf.held⟩ type row drop rfl ?_ heard
  rw [← hout]
  simp [Framer.emitRewrittenRowDescription, Framer.onChunk]

private theorem takeReadyForQuery_reads {fr : BackendFrame} (isRfq : fr.isReadyForQuery = true) (wf : FramerWf o f)
    (type : f.messageType = none) (row : f.rowDescBuffer = none) (drop : f.droppingMessage = false)
    (rfq : f.rfqBytesRead = 0 ∨ o.suppressIntermediateReadyForQuery = true ∧ f.rfqBytesRead = 6)
    (hout : f.emitted.flatten ++ resolvedOutput o goal.dropHeld f.dropNextCopyInResponse (fr :: frames) = goal.output)
    (heard : goal.Heard f.trace (fr :: frames)) :
    Reads o goal (f.takeReadyForQuery fr.bytes) [] (streamBytes frames) := by
  have hlen6 : fr.bytes.length = 6 := by rw [fr.length_bytes, (type_of_isRfq isRfq).2]
  unfold Framer.takeReadyForQuery
  rw [dropStale_rfq wf rfq]
  dsimp only
  split
  · rename_i hs
    exact rfqTaken_reads f isRfq ⟨wf.suppress, wf.rewrite, wf.scratch, hlen6⟩ type row drop rfl
      (fun _ => ⟨rfl, rfl, rfl⟩) (fun h => absurd (h.symm.trans hs) (by decide)) (by rw [← getD_status]; rfl) hout heard
  · rename_i hs
    refine rfqTaken_reads f isRfq ⟨wf.suppress, wf.rewrite, wf.scratch, hlen6⟩ type row drop rfl
      (fun h => absurd h hs) (fun _ => ⟨rfl, ?_⟩) (by rw [← getD_status]; rfl) hout heard
    show f.emitted ++ [fr.bytes.take 6] = f.emitted ++ [fr.bytes]
    rw [List.take_of_length_le (Nat.le_of_eq hlen6)]

end WholeFrame

/-- The cursor behind a frame whose bytes were taken, with nothing pending. -/
private theorem cursor_flushed {chunk future : Bytes} {f : Framer} {next : Nat} {frames : List BackendFrame}
    (hle : next ≤ chunk.length) (hnext : chunk.drop next ++ future = streamBytes frames)
    (h : Reads o goal f [] (streamBytes frames)) :
    CursorReads o goal chunk future { framer := f, offset := next, passthroughStart := none } :=
  ⟨by rw [hnext]; exact h, hle, by intro s hs; cases hs⟩

/-- The cursor behind a frame that is passed through. -/
private theorem pending_forward {chunk : Bytes} (f g : Framer) {offset next : Nat} {start : Option Nat}
    (hstart : ∀ s, start = some s → s < offset) (hle : offset ≤ next) :
    Cursor.pending ⟨g, next, some (start.getD offset)⟩ chunk =
      Cursor.pending ⟨f, offset, start⟩ chunk ++ subarray chunk offset next := by
  cases start with
  | none => exact (List.nil_append _).symm
  | some s => exact (subarray_append (Nat.le_of_lt (hstart s rfl)) hle).symm

/-- A whole frame in the chunk: the cursor moves behind it. -/
private theorem writeWhole_reads {chunk future : Bytes} {c : Cursor} {fr : BackendFrame} {frames : List BackendFrame}
    (h : CursorReads o goal chunk future c) (hrem : chunk.drop c.offset ++ future = streamBytes (fr :: frames))
    (hlt : c.offset < chunk.length) (hfit : chunk.length - c.offset ≥ 1 + (fr.payload.length + 4))
    (wf : FramerWf o c.framer) (type : c.framer.messageType = none) (row : c.framer.rowDescBuffer = none)
    (drop : c.framer.droppingMessage = false)
    (rfq : c.framer.rfqBytesRead = 0 ∨ o.suppressIntermediateReadyForQuery = true ∧ c.framer.rfqBytesRead = 6)
    (hout : c.framer.emitted.flatten ++ c.pending chunk ++
      resolvedOutput o goal.dropHeld c.framer.dropNextCopyInResponse (fr :: frames) = goal.output)
    (heard : goal.Heard c.framer.trace (fr :: frames)) :
    CursorReads o goal chunk future (writeWhole chunk c (fr.payload.length + 4)) := by
  obtain ⟨hbytes, hnext⟩ := bytes_at hrem hfit
  have htype := frame_at hrem hlt
  obtain ⟨f, offset, start⟩ := c
  dsimp only at hbytes hnext htype hlt hfit wf type row drop rfq hout heard
  have hle : offset + (1 + (fr.payload.length + 4)) ≤ chunk.length := by omega
  -- the framer with the error noted, before and after the pending bytes are emitted
  obtain ⟨e, hflush, hem⟩ := flushPassthrough_emits chunk
    { framer := f.noteError fr.type, offset := offset, passthroughStart := start } h.le h.start
  have wf' : FramerWf o (f.noteError fr.type) := ⟨wf.suppress, wf.rewrite, wf.scratch, wf.held⟩
  have wfe : FramerWf o { f.noteError fr.type with emitted := e } := ⟨wf.suppress, wf.rewrite, wf.scratch, wf.held⟩
  replace hem : e.flatten = f.emitted.flatten ++ Cursor.pending ⟨f, offset, start⟩ chunk := hem
  rw [← hem] at hout
  unfold writeWhole
  simp only [htype, hflush, hbytes]
  by_cases hcopy : fr.type = COPY_IN_RESPONSE ∧ (f.noteError fr.type).dropNextCopyInResponse = true
  · have hne : fr.type ≠ READY_FOR_QUERY := by rw [hcopy.1]; decide
    have hrfq : fr.isReadyForQuery = false := by simp [BackendFrame.isReadyForQuery, hne]
    rw [if_pos hcopy]
    have harm : f.dropNextCopyInResponse = true := hcopy.2
    simp only [resolvedOutput, hrfq, Bool.false_eq_true, ↓reduceIte, hcopy.1, harm, and_self] at hout
    replace heard := noteError_trace f hrfq ▸ heard.next
    exact cursor_flushed hle hnext (takeDropped_reads wfe type row drop rfq hout heard)
  rw [if_neg hcopy]
  by_cases hrfq : fr.type = READY_FOR_QUERY ∧ fr.payload.length + 4 = 5
  · have isRfq : fr.isReadyForQuery = true := by
      simp [BackendFrame.isReadyForQuery, hrfq.1, show fr.payload.length = 1 by omega]
    have hne : fr.type ≠ ERROR_RESPONSE := by rw [hrfq.1]; decide
    have hnote : f.noteError fr.type = f := by simp [Framer.noteError, hne]
    rw [if_pos hrfq]
    rw [hnote] at wfe ⊢
    exact cursor_flushed hle hnext (takeReadyForQuery_reads isRfq wfe type row drop rfq hout heard)
  rw [if_neg hrfq]
  have isRfq : fr.isReadyForQuery = false := by
    cases hb : fr.isReadyForQuery
    · rfl
    · have ht := type_of_isRfq hb
      exact absurd ⟨ht.1, by omega⟩ hrfq
  rw [resolvedOutput_forward f.dropNextCopyInResponse isRfq hcopy] at hout
  replace heard := noteError_trace f isRfq ▸ heard.next
  split
  · rename_i hrd
    rw [if_pos ⟨hrd.1, by rw [← wf.rewrite]; exact hrd.2.1⟩] at hout
    exact cursor_flushed hle hnext (takeRowDescription_reads wfe type row drop rfq hout heard)
  · rename_i hgate
    rw [← wf.rewrite,
      rewrite_of_gate f.rewriteSystemCatalogCharOids hbytes (Nat.le_add_right _ _) hle hgate, hem] at hout
    refine ⟨?_, hle, ?_⟩
    · rw [hnext, pending_forward f _ h.start (Nat.le_add_right _ _), hbytes]
      refine dropStale_reads wf' type row drop rfq ?_ heard
      rw [← hout]
      simp only [List.append_assoc]
      rfl
    · rintro s hs
      cases start with
      | none => cases hs; dsimp only [Option.getD]; omega
      | some s' => cases hs; have := h.start s' rfl; dsimp only [Option.getD] at this ⊢; omega

/-- The type byte of a frame that does not lie whole in the chunk. -/
private theorem writeType_reads {chunk future : Bytes} {c : Cursor} {fr : BackendFrame} {frames : List BackendFrame}
    (h : CursorReads o goal chunk future c) (hrem : chunk.drop c.offset ++ future = streamBytes (fr :: frames))
    (hlt : c.offset < chunk.length) (wf : FramerWf o c.framer) (row : c.framer.rowDescBuffer = none)
    (drop : c.framer.droppingMessage = false)
    (rfq : c.framer.rfqBytesRead = 0 ∨ o.suppressIntermediateReadyForQuery = true ∧ c.framer.rfqBytesRead = 6)
    (hout : c.framer.emitted.flatten ++ c.pending chunk ++
      resolvedOutput o goal.dropHeld c.framer.dropNextCopyInResponse (fr :: frames) = goal.output)
    (heard : goal.Heard c.framer.trace (fr :: frames)) :
    CursorReads o goal chunk future (writeType chunk c) := by
  obtain ⟨e, hflush, hem⟩ := flushPassthrough_emits chunk c h.le h.start
  rw [← hem] at hout
  have hnext : chunk.drop (c.offset + 1) ++ future = fr.header ++ fr.payload ++ streamBytes frames := by
    have hcons := List.drop_eq_getElem_cons hlt
    rw [hcons, streamBytes_cons] at hrem
    simp only [BackendFrame.bytes, List.cons_append, List.cons.injEq] at hrem
    exact hrem.2
  unfold writeType
  simp only [hflush, frame_at hrem hlt]
  refine ⟨?_, hlt, by intro s hs; cases hs⟩
  show Reads o goal _ [] (chunk.drop (c.offset + 1) ++ future)
  rw [hnext]
  exact takeType_reads ⟨wf.suppress, wf.rewrite, wf.scratch, wf.held⟩ row drop rfq hout heard

end FastPath

/-! ### The loop -/

section Loop

variable {o : FramerOptions} {goal : StreamGoal}

/-- Bytes that continue the message in flight. -/
private theorem writeContinued_reads {chunk future : Bytes} {c : Cursor} {t : UInt8}
    (h : CursorReads o goal chunk future c) (hlt : c.offset < chunk.length)
    (ht : c.framer.messageType = some t) (hnone : c.passthroughStart = none) :
    ∃ c', writeContinued chunk c t = .ok c' ∧ CursorReads o goal chunk future c' := by
  have hpend : c.pending chunk = [] := by rw [Cursor.pending, hnone]
  have hreads := h.reads
  rw [hpend] at hreads
  have hn : c.offset + min c.framer.wantedBytes (chunk.length - c.offset) ≤ chunk.length := by
    have := h.le; omega
  have hzero : min c.framer.wantedBytes (chunk.length - c.offset) = 0 → c.framer.wantedBytes = 0 := by omega
  obtain ⟨f', htake, hnext⟩ := takeBytes_reads (min c.framer.wantedBytes (chunk.length - c.offset)) hreads ht
    hzero (Nat.min_le_left _ _)
  have hfit : min c.framer.wantedBytes (chunk.length - c.offset) ≤ (chunk.drop c.offset).length := by
    rw [List.length_drop]; exact Nat.min_le_right _ _
  rw [List.take_append_of_le_length hfit] at htake
  rw [List.drop_append_of_le_length hfit, List.drop_drop] at hnext
  simp only [writeContinued, subarray, Nat.add_sub_cancel_left, htake, bind, Except.bind]
  refine ⟨_, rfl, ?_, hn, ?_⟩
  · simpa [Cursor.pending, hnone] using hnext
  · intro s hs
    rw [hnone] at hs
    cases hs

theorem Reads.pending_nil {f : Framer} {pending rem : Bytes} {t : UInt8} (h : Reads o goal f pending rem)
    (ht : f.messageType = some t) : pending = [] := by
  cases h with
  | boundary hrem wf type => rw [type] at ht; cases ht
  | header => rfl
  | readyForQuery => rfl
  | payload => rfl

/-- In the middle of a frame nothing is being passed through. -/
private theorem CursorReads.start_none {chunk future : Bytes} {c : Cursor} {t : UInt8}
    (h : CursorReads o goal chunk future c) (ht : c.framer.messageType = some t) : c.passthroughStart = none := by
  have hnil := h.reads.pending_nil ht
  cases hs : c.passthroughStart with
  | none => rfl
  | some s =>
    have hlt := h.start s hs
    simp only [Cursor.pending, hs] at hnil
    have hlen : (subarray chunk s c.offset).length = c.offset - s := length_subarray h.le
    rw [hnil] at hlen
    simp only [List.length_nil] at hlen
    omega

/-- The start of a frame: the whole of it, or its type byte. -/
private theorem writeFrame_reads {chunk future : Bytes} {c : Cursor} (h : CursorReads o goal chunk future c)
    (hlt : c.offset < chunk.length) (ht : c.framer.messageType = none) :
    ∃ c', writeStep chunk c = .ok c' ∧ CursorReads o goal chunk future c' := by
  have hreads := h.reads
  generalize hp : c.pending chunk = pending at hreads
  generalize hr : chunk.drop c.offset ++ future = rem at hreads
  cases hreads with
  | @boundary _ _ frames hrem wf type row drop rfq hout heard =>
    cases frames with
    | nil =>
      have hlen := congrArg List.length (hr.trans hrem)
      simp only [streamBytes, List.flatMap_nil, List.length_nil, List.length_append, List.length_drop] at hlen
      omega
    | cons fr frames =>
      rw [if_neg (by simp), List.append_nil, ← hp] at hout
      rw [hrem] at hr
      have hmax := fr.length_le
      have htypeByte := writeType_reads h hr hlt wf row drop rfq hout heard
      simp only [writeStep, type]
      split
      · rename_i hfive
        rw [length_at hr hfive, if_neg (by omega), if_neg (by omega)]
        split
        · rename_i hfit
          exact ⟨_, rfl, writeWhole_reads h hr hlt hfit wf type row drop rfq hout heard⟩
        · exact ⟨_, rfl, htypeByte⟩
      · exact ⟨_, rfl, htypeByte⟩
  | header hrem wf type => rw [type] at ht; cases ht
  | readyForQuery hrem wf type => rw [type] at ht; cases ht
  | payload hrem wf type => rw [type] at ht; cases ht

/-- A turn of the loop. -/
theorem writeStep_reads {chunk future : Bytes} {c : Cursor} (h : CursorReads o goal chunk future c)
    (hlt : c.offset < chunk.length) :
    ∃ c', writeStep chunk c = .ok c' ∧ CursorReads o goal chunk future c' := by
  cases ht : c.framer.messageType with
  | none => exact writeFrame_reads h hlt ht
  | some t =>
    simp only [writeStep, ht]
    exact writeContinued_reads h hlt ht (h.start_none ht)

/-- The loop runs to the end of the chunk. -/
theorem writeLoop_reads (chunk future : Bytes) (c : Cursor) (h : CursorReads o goal chunk future c) :
    ∃ c', writeLoop chunk c = .ok c' ∧ c'.offset = chunk.length ∧ CursorReads o goal chunk future c' := by
  by_cases hlt : c.offset < chunk.length
  · obtain ⟨c', hstep, hreads⟩ := writeStep_reads h hlt
    obtain ⟨c'', hloop, hend, hreads'⟩ := writeLoop_reads chunk future c' hreads
    refine ⟨c'', ?_, hend, hreads'⟩
    rw [writeLoop_step hlt hstep]
    exact hloop
  · exact ⟨c, writeLoop_end hlt, by have := h.le; omega, h⟩
termination_by c.measure chunk
decreasing_by exact writeStep_measure hlt hstep

/-- What was pending at the end of the chunk has been emitted. -/
private theorem Reads.emitPending {f : Framer} {pending rem : Bytes} {e : List Bytes} (h : Reads o goal f pending rem)
    (hem : e.flatten = f.emitted.flatten ++ pending) : Reads o goal { f with emitted := e } [] rem := by
  cases h with
  | boundary hrem wf type row drop rfq hout heard =>
    rw [← hem] at hout
    exact .boundary hrem ⟨wf.suppress, wf.rewrite, wf.scratch, wf.held⟩ type row drop rfq
      (by rw [List.append_nil]; exact hout) heard
  | header hrem wf type row lt scratch rfq drop armed hout heard =>
    rw [List.append_nil] at hem
    rw [← hem] at hout
    exact .header hrem ⟨wf.suppress, wf.rewrite, wf.scratch, wf.held⟩ type row lt scratch rfq drop armed hout heard
  | readyForQuery hrem wf type row drop read isRfq rfqFrame remaining rfq held hout heard =>
    rw [List.append_nil] at hem
    rw [← hem] at hout
    exact .readyForQuery hrem ⟨wf.suppress, wf.rewrite, wf.scratch, wf.held⟩ type row drop read isRfq rfqFrame
      remaining rfq held hout heard
  | payload hrem wf type read rfqFrame rfq remaining lt whole body hout heard =>
    rw [List.append_nil] at hem
    rw [← hem] at hout
    exact .payload hrem ⟨wf.suppress, wf.rewrite, wf.scratch, wf.held⟩ type read rfqFrame rfq remaining lt whole
      (body.congr rfl rfl rfl) hout heard

/-- One chunk. -/
theorem write_reads {f : Framer} {chunk future : Bytes} (h : Reads o goal f [] (chunk ++ future)) :
    ∃ f', f.write chunk = .ok f' ∧ Reads o goal f' [] future := by
  unfold Framer.write
  split
  · rename_i hempty
    rw [List.eq_nil_of_length_eq_zero hempty] at h
    exact ⟨f, rfl, h⟩
  · obtain ⟨c, hloop, hend, hreads⟩ := writeLoop_reads chunk future
      { framer := f, offset := 0, passthroughStart := none } ⟨h, Nat.zero_le _, by intro s hs; cases hs⟩
    obtain ⟨e, hflush, hem⟩ := flushPassthrough_emits chunk c hreads.le hreads.start
    simp only [hloop, bind, Except.bind, hflush]
    refine ⟨_, rfl, ?_⟩
    have hr := hreads.reads
    rw [hend, List.drop_length, List.nil_append] at hr
    exact hr.emitPending hem

/-- The chunks of one response, with the bytes `future` still to come. -/
theorem writeAll_reads {f : Framer} {chunks : List Bytes} {future : Bytes}
    (h : Reads o goal f [] (chunks.flatten ++ future)) :
    ∃ f', f.writeAll chunks = .ok f' ∧ Reads o goal f' [] future := by
  induction chunks generalizing f with
  | nil => exact ⟨f, rfl, h⟩
  | cons chunk chunks ih =>
    rw [List.flatten_cons, List.append_assoc] at h
    obtain ⟨f₁, hwrite, hreads⟩ := write_reads h
    obtain ⟨f₂, hrest, hend⟩ := ih hreads
    refine ⟨f₂, ?_, hend⟩
    simp only [Framer.writeAll, List.foldlM, hwrite, bind, Except.bind]
    exact hrest

/-- With nothing left to read, a message in flight is a `RowDescription` without payload. -/
theorem Reads.bare {f : Framer} {t : UInt8} (h : Reads o goal f [] []) (ht : f.messageType = some t) :
    f.headerBytesRead = 4 ∧ f.payloadBytesRemaining = 0 ∧ ∃ fr, [fr] <:+ goal.frames ∧ fr.BareRowDescription o := by
  cases h with
  | boundary hrem wf type => rw [type] at ht; cases ht
  | @header _ fr frames hrem wf type row lt =>
    have hlen := congrArg List.length hrem
    simp only [List.length_nil, List.length_append, List.length_drop, BackendFrame.length_header] at hlen
    omega
  | @readyForQuery _ fr frames hrem wf type row drop read isRfq =>
    have hlen := congrArg List.length hrem
    simp only [List.length_nil, List.length_append, (type_of_isRfq isRfq).2] at hlen
    omega
  | @payload _ fr frames m rest hrem wf type read rfqFrame rfq remaining lt whole body hout heard =>
    obtain ⟨hpayload, hframes⟩ := List.append_eq_nil_iff.1 hrem.symm
    rcases lt with hlt | ⟨-, hbare⟩
    · rw [List.drop_eq_nil_iff] at hpayload
      omega
    · have hnil := hbare.2.1
      rw [streamBytes_eq_nil hframes] at whole
      exact ⟨read, by simp [remaining, hnil], fr, whole, hbare⟩

/-- With nothing left to read and no message in flight, `flush` completes the output. -/
theorem flush_reads {f : Framer} (h : Reads o goal f [] []) (hnone : f.messageType = none) :
    ∃ f', f.flush goal.dropHeld = .ok f' ∧ f'.emitted.flatten = goal.output ∧ f'.trace = goal.trace := by
  cases h with
  | boundary hrem wf type row drop rfq hout heard =>
    have htrace := heard.trace
    rw [streamBytes_eq_nil hrem.symm] at hout htrace
    simp only [List.append_nil, ↓reduceIte, resolvedOutput, Framer.resolvedBytes, Framer.heldBytes, streamTrace,
      List.flatMap_nil] at hout htrace
    simp only [Framer.flush, type, Option.isSome_none, Bool.false_eq_true, ↓reduceIte]
    by_cases hdrop : goal.dropHeld = true
    · rw [if_pos hdrop, List.append_nil] at hout
      rw [if_pos hdrop]
      exact ⟨_, rfl, hout, htrace⟩
    rw [if_neg hdrop] at hout ⊢
    split
    · rename_i hheld
      refine ⟨_, rfl, ?_, htrace⟩
      rw [if_pos hheld] at hout
      rw [← hout]
      simp [Framer.emitReadyForQuery, Framer.onChunk, List.take_of_length_le (Nat.le_of_eq wf.held)]
    · rename_i hheld
      rw [if_neg hheld, List.append_nil] at hout
      exact ⟨f, rfl, hout, htrace⟩
  | header hrem wf type => rw [type] at hnone; cases hnone
  | readyForQuery hrem wf type => rw [type] at hnone; cases hnone
  | payload hrem wf type => rw [type] at hnone; cases hnone

end Loop

/-! ### The framer computes the reference -/

/-- The two scratch buffers are allocated once, four and six bytes long. -/
structure Framer.FixedBuffers (f : Framer) : Prop where
  scratch : f.headerScratch.length = 4
  held : f.heldRfq.length = 6

/-- The goal of a response on a framer that earlier responses have left in any state. -/
def responseGoal (used : Framer) (suppress dropFirst dropHeld : Bool) (frames : List BackendFrame) : StreamGoal where
  dropHeld := dropHeld
  frames := frames
  output := used.emitted.flatten ++
    resolvedOutput ⟨suppress, used.rewriteSystemCatalogCharOids, dropFirst⟩ dropHeld dropFirst frames
  trace := used.trace ++ streamTrace frames

/-- `reset` starts a response. -/
theorem reset_reads (used : Framer) (buffers : used.FixedBuffers) (suppress dropFirst dropHeld : Bool)
    (frames : List BackendFrame) :
    Reads ⟨suppress, used.rewriteSystemCatalogCharOids, dropFirst⟩
      (responseGoal used suppress dropFirst dropHeld frames) (used.reset suppress dropFirst) []
      (streamBytes frames) := by
  refine boundary_reads ⟨rfl, rfl, buffers.scratch, buffers.held⟩ rfl rfl rfl rfl ?_ ⟨rfl, List.suffix_refl frames⟩
  rw [List.append_nil]
  rfl

/-- A response of complete frames is read up to its end, so that `flush` emits and reports the goal. -/
theorem response_flushed (used : Framer) (buffers : used.FixedBuffers) (suppress dropFirst : Bool)
    (frames : List CompleteFrame) (chunks : List Bytes) (hchunks : chunks.flatten = frameBytes frames) :
    ∃ f f', (used.reset suppress dropFirst).writeAll chunks = .ok f ∧ f.flush = .ok f' ∧
      f'.emitted.flatten =
        (responseGoal used suppress dropFirst false (frames.map CompleteFrame.toBackendFrame)).output ∧
      f'.trace = (responseGoal used suppress dropFirst false (frames.map CompleteFrame.toBackendFrame)).trace := by
  have start := reset_reads used buffers suppress dropFirst false (frames.map CompleteFrame.toBackendFrame)
  rw [← frameBytes_eq, ← hchunks, ← List.append_nil chunks.flatten] at start
  obtain ⟨f, hwrite, hend⟩ := writeAll_reads start
  have hnone : f.messageType = none := by
    cases ht : f.messageType with
    | none => rfl
    | some t =>
      -- every `RowDescription` has its field count
      obtain ⟨-, -, fr, hlast, htype, hpayload, -⟩ := hend.bare ht
      obtain ⟨complete, -, rfl⟩ := List.mem_map.1 (hlast.subset (List.mem_singleton_self fr))
      have hcount := complete.fieldCount htype
      rw [hpayload] at hcount
      cases hcount
  obtain ⟨f', hflush, hout, htrace⟩ := flush_reads hend hnone
  exact ⟨f, f', hwrite, hflush, hout, htrace⟩

/-- One response, cut into chunks anywhere, on a framer that earlier responses have left in any state: `reset`,
`write` and `flush` do not throw, and emit and report what the frame-level reference does. -/
theorem framer_eq_reference (used : Framer) (buffers : used.FixedBuffers) (suppress dropFirst : Bool)
    (frames : List CompleteFrame) (chunks : List Bytes) (hchunks : chunks.flatten = frameBytes frames) :
    ∃ f f', (used.reset suppress dropFirst).writeAll chunks = .ok f ∧ f.flush = .ok f' ∧
      f'.emitted.flatten = used.emitted.flatten ++
        referenceOutput ⟨suppress, used.rewriteSystemCatalogCharOids, dropFirst⟩ dropFirst frames ∧
      f'.trace = used.trace ++ referenceTrace frames := by
  obtain ⟨f, f', hwrite, hflush, hout, htrace⟩ := response_flushed used buffers suppress dropFirst frames chunks hchunks
  refine ⟨f, f', hwrite, hflush, ?_, ?_⟩
  · rw [hout, referenceOutput_eq]
    rfl
  · rw [htrace, referenceTrace_eq]
    rfl

/-- The first `CopyInResponse` is dropped and makes the ReadyForQuery before it stale; both are cut in their headers,
and an earlier response has left half a frame in the framer. -/
theorem framer_eq_reference_cut :
    ∃ f f', (({ suppressIntermediateReadyForQuery := false
                rewriteSystemCatalogCharOids := false
                messageType := some 0x43
                headerBytesRead := 2 } : Framer).reset true true).writeAll
        [[0x5a, 0, 0], [], [0, 5, 0x49, 0x47, 0], [0, 0, 7, 0, 0, 0]] = .ok f ∧
      f.flush = .ok f' ∧ f'.emitted.flatten = [] ∧ f'.trace = [.readyForQuery 0x49] :=
  framer_eq_reference _ ⟨rfl, rfl⟩ true true
    [⟨⟨0x5a, [0x49], by decide⟩, by decide⟩, ⟨⟨0x47, [0, 0, 0], by decide⟩, by decide⟩] _ (by decide)

end PgliteBridge
