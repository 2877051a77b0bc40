import PgliteBridge.FramerRefinement
import PgliteBridge.FrontendFraming

/-!
# Responses through the framer

`streamProtocol` hands a batch to PGlite and the chunks of the reply to the framer, which is reset at every call and
keeps only its two scratch buffers.  A backend that is given by its replies so becomes the PGlite of a connection
(`Backend.pglite`).
-/

namespace PgliteBridge

/-! ### The scratch buffers -/

namespace Framer

/-- What no operation of the framer changes. -/
structure Kept (rewrite : Bool) (f : Framer) : Prop extends FixedBuffers f where
  rewrites : f.rewriteSystemCatalogCharOids = rewrite

/-- Both ends of an operation of the framer. -/
def Keeps (rewrite : Bool) : Except (Framer × FramerError) Framer → Prop
  | .ok f => f.Kept rewrite
  | .error (f, _) => f.Kept rewrite

variable {f : Framer} {rewrite : Bool} {messageType : UInt8} {bytes : Bytes}

theorem Kept.keep {f' : Framer} (h : f.Kept rewrite) (hscratch : f'.headerScratch = f.headerScratch)
    (hheld : f'.heldRfq = f.heldRfq) (hrewrite : f'.rewriteSystemCatalogCharOids = f.rewriteSystemCatalogCharOids) :
    f'.Kept rewrite :=
  ⟨⟨by rw [hscratch]; exact h.scratch, by rw [hheld]; exact h.held⟩, by rw [hrewrite]; exact h.rewrites⟩

private theorem Kept.dropStaleHeldReadyForQuery (h : f.Kept rewrite) : f.dropStaleHeldReadyForQuery.Kept rewrite := by
  unfold Framer.dropStaleHeldReadyForQuery
  split
  · exact h.keep rfl rfl rfl
  · exact h

private theorem Kept.emitChunkSlice (h : f.Kept rewrite) : (f.emitChunkSlice bytes).Kept rewrite := by
  unfold Framer.emitChunkSlice
  split
  · exact h
  · exact h.keep rfl rfl rfl

private theorem Kept.finishReadyForQuery (h : f.Kept rewrite) : f.finishReadyForQuery.Kept rewrite := by
  unfold Framer.finishReadyForQuery
  dsimp only
  split <;> exact h.keep rfl rfl rfl

private theorem Kept.takeReadyForQuery (h : f.Kept rewrite) (hframe : bytes.length = 6) :
    (f.takeReadyForQuery bytes).Kept rewrite := by
  have h' := h.dropStaleHeldReadyForQuery
  unfold Framer.takeReadyForQuery
  dsimp only
  split <;> exact ⟨⟨h'.scratch, hframe⟩, h'.rewrites⟩

private theorem Kept.takeType (h : f.Kept rewrite) : (f.takeType messageType).Kept rewrite := by
  have h' := h.dropStaleHeldReadyForQuery
  unfold Framer.takeType
  refine ⟨⟨h'.scratch, ?_⟩, h'.rewrites⟩
  dsimp only
  split
  · rw [length_setBytes (by simp [h'.held])]
    exact h'.held
  · exact h'.held

private theorem setOrThrow_cases (f : Framer) (target : Bytes) (offset : Nat) (src : Bytes) :
    (∃ e, f.setOrThrow target offset src = .error (f, e)) ∨
      ∃ bytes, f.setOrThrow target offset src = .ok bytes ∧ bytes.length = target.length := by
  unfold Framer.setOrThrow
  split
  · rename_i hfits
    exact .inr ⟨_, rfl, length_setBytes hfits⟩
  · exact .inl ⟨_, rfl⟩

private theorem Kept.finishPayload (h : f.Kept rewrite) : f.finishPayload.Kept rewrite := by
  unfold Framer.finishPayload
  split <;> exact h.keep rfl rfl rfl

private theorem Kept.countPayload (h : f.Kept rewrite) (n : Nat) : (f.countPayload n).Kept rewrite := by
  have hcounted : ({ f with payloadBytesRemaining := f.payloadBytesRemaining - n } : Framer).Kept rewrite :=
    h.keep rfl rfl rfl
  unfold Framer.countPayload
  dsimp only
  split
  · exact hcounted.finishPayload
  · exact hcounted

private theorem Kept.decodeHeader (h : f.Kept rewrite) : Keeps rewrite (f.decodeHeader messageType) := by
  unfold Framer.decodeHeader
  dsimp only
  split
  · exact h
  · split
    · exact h
    · split
      · exact h.keep rfl rfl rfl
      · split
        · split <;> exact h.keep rfl rfl rfl
        · split
          · exact h.keep rfl rfl rfl
          · split <;> exact h.keep rfl rfl rfl

private theorem Kept.takeHeader (h : f.Kept rewrite) : Keeps rewrite (f.takeHeader messageType bytes) := by
  unfold Framer.takeHeader
  simp only [bind, Except.bind]
  rcases setOrThrow_cases f f.headerScratch f.headerBytesRead bytes with ⟨e, he⟩ | ⟨scratch, hs, hscratch⟩
  · rw [he]
    exact h
  · have hheld : (∃ e, f.holdHeader messageType bytes = .error (f, e)) ∨
        ∃ held, f.holdHeader messageType bytes = .ok held ∧ held.length = f.heldRfq.length := by
      unfold Framer.holdHeader
      split
      · exact setOrThrow_cases f f.heldRfq f.rfqBytesRead bytes
      · exact .inr ⟨_, rfl, rfl⟩
    rw [hs]
    rcases hheld with ⟨e, he⟩ | ⟨held, hh, hheld⟩
    · rw [he]
      exact h
    · rw [hh]
      dsimp only
      have hread : ∀ n m, ({ f with
          headerScratch := scratch, heldRfq := held, rfqBytesRead := n, headerBytesRead := m } : Framer).Kept rewrite :=
        fun n m => ⟨⟨hscratch.trans h.scratch, hheld.trans h.held⟩, h.rewrites⟩
      split
      · exact hread _ _
      · exact (hread _ _).decodeHeader

private theorem Kept.takeRfqPayload (h : f.Kept rewrite) : Keeps rewrite (f.takeRfqPayload bytes) := by
  unfold Framer.takeRfqPayload
  simp only [bind, Except.bind]
  rcases setOrThrow_cases f f.heldRfq f.rfqBytesRead bytes with ⟨e, he⟩ | ⟨held, hh, hheld⟩
  · rw [he]
    exact h
  · rw [hh]
    have hread : ∀ n m, ({ f with heldRfq := held, rfqBytesRead := n, payloadBytesRemaining := m } :
        Framer).Kept rewrite := fun n m => ⟨⟨h.scratch, hheld.trans h.held⟩, h.rewrites⟩
    dsimp only
    split
    · exact (hread _ _).finishReadyForQuery
    · exact hread _ _

private theorem Kept.takePayload (h : f.Kept rewrite) : Keeps rewrite (f.takePayload bytes) := by
  have hstored : Keeps rewrite (f.storePayload bytes) := by
    unfold Framer.storePayload
    split
    · exact h
    · split
      · rename_i buf _
        simp only [bind, Except.bind]
        rcases setOrThrow_cases f buf f.rowDescOffset bytes with ⟨e, he⟩ | ⟨buf', hb, -⟩
        · rw [he]
          exact h
        · rw [hb]
          exact h.keep rfl rfl rfl
      · exact h.emitChunkSlice
  unfold Framer.takePayload
  simp only [bind, Except.bind]
  cases hs : f.storePayload bytes with
  | error e =>
    rw [hs] at hstored
    exact hstored
  | ok f' =>
    rw [hs] at hstored
    exact Kept.countPayload hstored _

private theorem Kept.takeBytes (h : f.Kept rewrite) : Keeps rewrite (f.takeBytes messageType bytes) := by
  unfold Framer.takeBytes
  split
  · exact h.takeHeader
  · split
    · exact h.takeRfqPayload
    · exact h.takePayload

end Framer

/-! ### A chunk -/

namespace Cursor

variable {c : Cursor} {rewrite : Bool} {chunk : Bytes}

private theorem flushPassthrough_kept (h : c.framer.Kept rewrite) : (c.flushPassthrough chunk).framer.Kept rewrite := by
  unfold flushPassthrough
  split
  · split
    · exact h.emitChunkSlice
    · exact h
  · exact h

private theorem writeWhole_kept (h : c.framer.Kept rewrite) {messageLength : Nat}
    (hwhole : c.offset + (1 + messageLength) ≤ chunk.length) :
    (writeWhole chunk c messageLength).framer.Kept rewrite := by
  have hnoted : (c.framer.noteError (chunk.getD c.offset 0)).Kept rewrite := h.keep rfl rfl rfl
  have hflushed : (Cursor.flushPassthrough { c with framer := c.framer.noteError (chunk.getD c.offset 0) }
      chunk).framer.Kept rewrite := flushPassthrough_kept hnoted
  unfold writeWhole
  dsimp only
  split
  · exact hflushed.dropStaleHeldReadyForQuery.keep rfl rfl rfl
  · split
    · rename_i hrfq
      refine hflushed.takeReadyForQuery ?_
      rw [length_subarray hwhole, hrfq.2]
      omega
    · split
      · exact hflushed.dropStaleHeldReadyForQuery.keep rfl rfl rfl
      · exact hnoted.dropStaleHeldReadyForQuery

private theorem writeType_kept (h : c.framer.Kept rewrite) : (writeType chunk c).framer.Kept rewrite :=
  (flushPassthrough_kept h).takeType

/-- Both ends of a turn of the loop. -/
def Keeps (rewrite : Bool) : Except (Framer × FramerError) Cursor → Prop
  | .ok c => c.framer.Kept rewrite
  | .error (f, _) => f.Kept rewrite

private theorem writeStep_keeps (h : c.framer.Kept rewrite) : Keeps rewrite (writeStep chunk c) := by
  unfold writeStep
  split
  · dsimp only
    split
    · split
      · exact h
      · split
        · exact h
        · split
          · exact writeWhole_kept h (by omega)
          · exact writeType_kept h
    · exact writeType_kept h
  · rename_i messageType _
    unfold writeContinued
    simp only [bind, Except.bind]
    have htaken : Framer.Keeps rewrite (c.framer.takeBytes messageType
        (subarray chunk c.offset (c.offset + min c.framer.wantedBytes (chunk.length - c.offset)))) := h.takeBytes
    split
    · rename_i hs
      rw [hs] at htaken
      exact htaken
    · rename_i hs
      rw [hs] at htaken
      exact htaken

private theorem writeLoop_keeps (chunk : Bytes) (c : Cursor) (h : c.framer.Kept rewrite) :
    Keeps rewrite (writeLoop chunk c) := by
  fun_induction writeLoop chunk c with
  | case1 c hlt c' hstep ih =>
    have hkeeps : Keeps rewrite (writeStep chunk c) := writeStep_keeps h
    rw [hstep] at hkeeps
    exact ih hkeeps
  | case2 c hlt e hstep =>
    have hkeeps : Keeps rewrite (writeStep chunk c) := writeStep_keeps h
    rw [hstep] at hkeeps
    exact hkeeps
  | case3 c hlt => exact h

end Cursor

namespace Framer

variable {f : Framer} {rewrite : Bool}

theorem Kept.write (h : f.Kept rewrite) (chunk : Bytes) : Keeps rewrite (f.write chunk) := by
  have hloop := Cursor.writeLoop_keeps chunk { framer := f, offset := 0, passthroughStart := none } h
  unfold Framer.write
  simp only [bind, Except.bind]
  split
  · exact h
  · split
    · rename_i hs
      rw [hs] at hloop
      exact hloop
    · rename_i hs
      rw [hs] at hloop
      exact Cursor.flushPassthrough_kept hloop

private theorem Kept.writeAll (h : f.Kept rewrite) (chunks : List Bytes) : Keeps rewrite (f.writeAll chunks) := by
  induction chunks generalizing f with
  | nil => exact h
  | cons chunk chunks ih =>
    have hwrite := h.write chunk
    unfold Framer.writeAll at ih ⊢
    simp only [List.foldlM, bind, Except.bind]
    cases hs : f.write chunk with
    | error e =>
      rw [hs] at hwrite
      exact hwrite
    | ok f' =>
      rw [hs] at hwrite
      exact ih hwrite

theorem Kept.flush (h : f.Kept rewrite) (dropHeldReadyForQuery : Bool) :
    Keeps rewrite (f.flush dropHeldReadyForQuery) := by
  unfold Framer.flush
  split
  · exact h
  · split
    · exact h.keep rfl rfl rfl
    · split
      · exact h.keep rfl rfl rfl
      · exact h

end Framer

/-! ### `streamProtocol` -/

/-- What `execProtocolRawStream` does with a batch: the chunks that `onRawData` receives, and the error it throws. -/
structure Reply where
  chunks : List Bytes := []
  failure : Option String := none
deriving DecidableEq, Repr

/-- The reply to the last of the calls. -/
abbrev Backend := List PGliteCall → Reply

namespace Framer

variable {f : Framer} {rewrite : Bool}

/-- The chunks that `onChunk` pushes. -/
def forwarded (f : Framer) : List Bytes := f.emitted.filter fun chunk => 0 < chunk.length

def errSeen (f : Framer) : Bool := f.trace.contains .errorResponse

/-- `lastSeenRfqStatus`, if it is set in this call. -/
def seenRfqStatus (f : Framer) : Option UInt8 :=
  f.trace.foldl (fun status event => match event with | .readyForQuery s => some s | .errorResponse => status) none

/-- `streamProtocol` of one batch, up to a recovery Sync. -/
def streamProtocol (f : Framer) (mode : RfqMode) (reply : Reply) : Framer × CallOutcome :=
  let f : Framer := { f with emitted := [], trace := [] }
  match (f.reset mode.suppresses (mode == RfqMode.copyIn)).writeAll reply.chunks with
  | .error (f, error) => (f, .failed error.message f.forwarded)
  | .ok f =>
    match reply.failure with
    | some message => (f, .failed message f.forwarded)
    | none =>
      match f.flush (mode == RfqMode.flushBoundary && !f.errSeen) with
      | .error (f, error) => (f, .failed error.message f.forwarded)
      | .ok f => (f, .answered f.seenRfqStatus f.forwarded)

private theorem Kept.streamProtocol (h : f.Kept rewrite) (mode : RfqMode) (reply : Reply) :
    (f.streamProtocol mode reply).1.Kept rewrite := by
  have hreset : (({ f with emitted := [], trace := [] } : Framer).reset mode.suppresses
      (mode == RfqMode.copyIn)).Kept rewrite := h.keep rfl rfl rfl
  have hwritten := hreset.writeAll reply.chunks
  unfold Framer.streamProtocol
  dsimp only
  split
  · rename_i hs
    rw [hs] at hwritten
    exact hwritten
  · rename_i f' hs
    rw [hs] at hwritten
    split
    · exact hwritten
    · have hflushed := Kept.flush hwritten (mode == RfqMode.flushBoundary && !f'.errSeen)
      split
      · rename_i hs
        rw [hs] at hflushed
        exact hflushed
      · rename_i hs
        rw [hs] at hflushed
        exact hflushed

private theorem forwarded_flatten (f : Framer) : f.forwarded.flatten = f.emitted.flatten := by
  unfold forwarded
  induction f.emitted with
  | nil => rfl
  | cons chunk chunks ih =>
    rw [List.filter_cons]
    split
    · rw [List.flatten_cons, List.flatten_cons, ih]
    · rename_i hempty
      have hnil : chunk = [] := by simpa using hempty
      rw [hnil, List.flatten_cons, List.nil_append, ih]

/-- The answer to a COPY, if the backend sends whole frames. -/
private theorem Kept.streamProtocol_copyIn (h : f.Kept rewrite) {frames : List CompleteFrame} {chunks : List Bytes}
    (hchunks : chunks.flatten = frameBytes frames) :
    ∃ status forwarded, (f.streamProtocol .copyIn { chunks }).2 = .answered status forwarded ∧
      forwarded.flatten = referenceOutput ⟨false, rewrite, true⟩ true frames := by
  have hfixed : ({ f with emitted := [], trace := [] } : Framer).FixedBuffers := ⟨h.scratch, h.held⟩
  obtain ⟨f₁, f₂, hwrite, hflush, houtput, -⟩ := response_flushed _ hfixed false true frames chunks hchunks
  refine ⟨f₂.seenRfqStatus, f₂.forwarded, ?_, ?_⟩
  · have hwrite' : (Framer.reset { f with emitted := [], trace := [] } RfqMode.copyIn.suppresses
        (RfqMode.copyIn == RfqMode.copyIn)).writeAll chunks = .ok f₁ := hwrite
    have hflush' : f₁.flush (RfqMode.copyIn == RfqMode.flushBoundary && !f₁.errSeen) = .ok f₂ := hflush
    unfold Framer.streamProtocol
    simp only [hwrite', hflush']
  · rw [forwarded_flatten, houtput, referenceOutput_eq, ← h.rewrites]
    rfl

end Framer

/-- The first CopyInResponse does not get through. -/
theorem referenceOutput_copyInResponse (rewrite : Bool) {before : List CompleteFrame} {fr : CompleteFrame}
    (hbefore : ∀ other ∈ before, other.type ≠ COPY_IN_RESPONSE) (hfr : fr.type = COPY_IN_RESPONSE)
    (after : List CompleteFrame) :
    referenceOutput ⟨false, rewrite, true⟩ true (before ++ fr :: after) =
      referenceOutput ⟨false, rewrite, true⟩ false (before ++ after) := by
  induction before with
  | nil =>
    have hnot : fr.isReadyForQuery = false := by
      rw [BackendFrame.isReadyForQuery, hfr]
      rfl
    simp [referenceOutput, hnot, hfr]
  | cons other before ih =>
    have hother := hbefore other List.mem_cons_self
    have ih' := ih fun other hmem => hbefore other (List.mem_cons_of_mem _ hmem)
    rw [List.cons_append, List.cons_append]
    simp only [referenceOutput, hother, false_and, if_false, ih', Bool.false_eq_true]

namespace Backend

/-- The framer of a connection and the outcome of the last call; the newest call is first. -/
def run (rewriteSystemCatalogCharOids : Bool) (backend : Backend) : List PGliteCall → Framer × CallOutcome
  | [] => ({ suppressIntermediateReadyForQuery := false, rewriteSystemCatalogCharOids }, .answered none)
  | call :: before =>
    (backend.run rewriteSystemCatalogCharOids before).1.streamProtocol call.mode (backend (call :: before).reverse)

def pglite (rewriteSystemCatalogCharOids : Bool) (backend : Backend) : PGlite := fun calls =>
  (backend.run rewriteSystemCatalogCharOids calls.reverse).2

variable {backend : Backend} {rewrite : Bool}

private theorem run_kept (calls : List PGliteCall) : (backend.run rewrite calls).1.Kept rewrite := by
  induction calls with
  | nil => exact ⟨⟨rfl, rfl⟩, rfl⟩
  | cons call before ih => exact ih.streamProtocol _ _

/-- The backend answers the last of these calls in whole frames. -/
structure Answers (backend : Backend) (calls : List PGliteCall) (frames : List CompleteFrame) : Prop where
  failure : (backend calls).failure = none
  chunks : (backend calls).chunks.flatten = frameBytes frames

theorem pglite_copyIn {calls : List PGliteCall} {batch : Bytes} {frames : List CompleteFrame}
    (h : backend.Answers (calls ++ [⟨batch, .copyIn⟩]) frames) :
    ∃ status forwarded, backend.pglite rewrite (calls ++ [⟨batch, .copyIn⟩]) = .answered status forwarded ∧
      forwarded.flatten = referenceOutput ⟨false, rewrite, true⟩ true frames := by
  obtain ⟨chunks, failure, hreply⟩ : ∃ chunks failure, backend (calls ++ [⟨batch, .copyIn⟩]) = ⟨chunks, failure⟩ :=
    ⟨_, _, rfl⟩
  have hfailure := h.failure
  have hchunks := h.chunks
  rw [hreply] at hfailure hchunks
  subst hfailure
  have hkept : (backend.run rewrite calls.reverse).1.Kept rewrite := run_kept _
  obtain ⟨status, forwarded, hanswered, hforwarded⟩ := hkept.streamProtocol_copyIn hchunks
  refine ⟨status, forwarded, ?_, hforwarded⟩
  unfold pglite
  rw [List.reverse_append, List.reverse_singleton, List.singleton_append, run, List.reverse_cons, List.reverse_reverse,
    hreply]
  exact hanswered

end Backend

end PgliteBridge
