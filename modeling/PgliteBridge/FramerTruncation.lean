import PgliteBridge.FramerRefinement

/-!
# Truncated streams

`flush` must tell a stream that ends inside a frame from one that ends behind a frame, whatever the frames are and
wherever the chunks are cut.  A frame without payload is finished by its header, but for a `RowDescription` on the slow
path: that one is finished by the next turn of the loop, and at the end of the stream there is none
(`flush_detects_iff`).
-/

namespace PgliteBridge

/-- A stream that was cut: whole frames, and less than one frame more. -/
structure CutStream where
  frames : List BackendFrame
  next : BackendFrame
  part : Bytes
  begins : part <+: next.bytes
  strict : part ≠ next.bytes

def CutStream.bytes (s : CutStream) : Bytes := streamBytes s.frames ++ s.part

/-- The last chunk that is not empty. -/
def lastChunk : List Bytes → Bytes
  | [] => []
  | chunk :: chunks => if lastChunk chunks = [] then chunk else lastChunk chunks

/-- The stream ends in a `RowDescription` without payload that did not lie whole in its chunk. -/
def CutStream.EndsBare (o : FramerOptions) (s : CutStream) (chunks : List Bytes) : Prop :=
  s.part = [] ∧ (∃ fr, [fr] <:+ s.frames ∧ fr.BareRowDescription o) ∧ (lastChunk chunks).length < 5

/-- The writes do not throw, the flush throws if the stream ends inside a frame and only then, and if it does not,
every frame is accounted for. -/
def DetectsTruncation (used : Framer) (suppress dropFirst dropHeld : Bool) (s : CutStream) (chunks : List Bytes) :
    Prop :=
  ∃ f, (used.reset suppress dropFirst).writeAll chunks = .ok f ∧
    ((∃ expected received, f.flush dropHeld = .error (f, .incomplete expected received)) ↔ s.part ≠ []) ∧
    ∀ f', f.flush dropHeld = .ok f' → f'.emitted.flatten = used.emitted.flatten ++
      resolvedOutput ⟨suppress, used.rewriteSystemCatalogCharOids, dropFirst⟩ dropHeld dropFirst s.frames

/-! ### The last chunk -/

private theorem lastChunk_eq_nil {chunks : List Bytes} (h : lastChunk chunks = []) : chunks.flatten = [] := by
  induction chunks with
  | nil => rfl
  | cons chunk chunks ih =>
    unfold lastChunk at h
    split at h
    · rename_i hrest
      rw [List.flatten_cons, h, ih hrest]
      rfl
    · rename_i hrest
      exact absurd h hrest

private theorem lastChunk_of_nil {chunks : List Bytes} (h : chunks.flatten = []) : lastChunk chunks = [] := by
  induction chunks with
  | nil => rfl
  | cons chunk chunks ih =>
    obtain ⟨hchunk, hchunks⟩ := List.append_eq_nil_iff.1 h
    rw [lastChunk, if_pos (ih hchunks)]
    exact hchunk

section Loop

variable {o : FramerOptions} {goal : StreamGoal}

/-- A message that needs no byte more was entered within its first five bytes of this chunk. -/
def Cursor.Early (c : Cursor) : Prop :=
  c.framer.messageType.isSome → c.framer.headerBytesRead < 4 ∨ c.framer.payloadBytesRemaining = 0 →
    c.offset ≤ c.framer.headerBytesRead

private theorem Cursor.Early.of_none {c : Cursor} (h : c.framer.messageType = none) : c.Early := by
  intro hsome
  rw [h] at hsome
  cases hsome

private theorem writeWhole_type (chunk : Bytes) (c : Cursor) (messageLength : Nat) :
    (writeWhole chunk c messageLength).framer.messageType = c.framer.messageType := by
  have hflushed := flushPassthrough_messageType
    { c with framer := c.framer.noteError (chunk.getD c.offset 0) } chunk
  have hstale : ∀ f : Framer, f.dropStaleHeldReadyForQuery.messageType = f.messageType := by
    intro f
    unfold Framer.dropStaleHeldReadyForQuery
    split <;> rfl
  unfold writeWhole
  dsimp only
  split
  · exact (hstale _).trans hflushed
  · split
    · refine Eq.trans ?_ hflushed
      unfold Framer.takeReadyForQuery
      dsimp only
      split <;> exact hstale _
    · split
      · exact (hstale _).trans hflushed
      · exact hstale _

/-- The header bytes are counted until the header ends the message. -/
private theorem decodeHeader_read {f f' : Framer} {t : UInt8} (h : f.decodeHeader t = .ok f') :
    f'.messageType = none ∨ f'.headerBytesRead = f.headerBytesRead := by
  unfold Framer.decodeHeader at h
  dsimp only at h
  split at h
  · cases h
  · split at h
    · cases h
    · split at h
      · cases h
        exact .inr rfl
      · split at h
        · cases h
          split
          · exact .inl rfl
          · exact .inr rfl
        · split at h
          · cases h
            exact .inr rfl
          · cases h
            split
            · exact .inl rfl
            · exact .inr rfl

private theorem takeHeader_read {f f' : Framer} {t : UInt8} {bytes : Bytes} (h : f.takeHeader t bytes = .ok f') :
    f'.messageType = none ∨ f'.headerBytesRead = f.headerBytesRead + bytes.length := by
  simp only [Framer.takeHeader, bind, Except.bind] at h
  split at h
  · cases h
  · split at h
    · cases h
    · split at h
      · cases h
        exact .inr rfl
      · exact decodeHeader_read h

/-- A message that goes on wants bytes. -/
private theorem takeRfqPayload_remaining {f f' : Framer} {bytes : Bytes} (h : f.takeRfqPayload bytes = .ok f') :
    f'.messageType = none ∨ f'.payloadBytesRemaining ≠ 0 ∧ f'.headerBytesRead = f.headerBytesRead := by
  simp only [Framer.takeRfqPayload, bind, Except.bind] at h
  split at h
  · cases h
  · cases h
    split
    · exact .inl rfl
    · rename_i hne
      exact .inr ⟨hne, rfl⟩

private theorem storePayload_read {f f' : Framer} {bytes : Bytes} (h : f.storePayload bytes = .ok f') :
    f'.headerBytesRead = f.headerBytesRead := by
  unfold Framer.storePayload at h
  split at h
  · cases h
    rfl
  · split at h
    · simp only [bind, Except.bind] at h
      split at h
      · cases h
      · cases h
        rfl
    · cases h
      unfold Framer.emitChunkSlice
      split <;> rfl

private theorem takePayload_remaining {f f' : Framer} {bytes : Bytes} (h : f.takePayload bytes = .ok f') :
    f'.messageType = none ∨ f'.payloadBytesRemaining ≠ 0 ∧ f'.headerBytesRead = f.headerBytesRead := by
  simp only [Framer.takePayload, bind, Except.bind] at h
  split at h
  · cases h
  · rename_i g hg
    cases h
    unfold Framer.countPayload
    dsimp only
    split
    · exact .inl (finishPayload_ends _)
    · rename_i hne
      have hread := storePayload_read hg
      exact .inr ⟨hne, hread⟩

/-- Bytes that continue the message in flight. -/
private theorem writeContinued_early {chunk : Bytes} {c c' : Cursor} {t : UInt8} (h : c.Early)
    (ht : c.framer.messageType = some t) (hle : c.offset ≤ chunk.length) (hstep : writeContinued chunk c t = .ok c') :
    c'.Early := by
  simp only [writeContinued, bind, Except.bind] at hstep
  split at hstep
  · cases hstep
  rename_i f hf
  cases hstep
  have hsome : c.framer.messageType.isSome = true := by simp [ht]
  unfold Framer.takeBytes at hf
  split at hf
  · rename_i hhead
    have hlength : (subarray chunk c.offset (c.offset + min c.framer.wantedBytes (chunk.length - c.offset))).length =
        min c.framer.wantedBytes (chunk.length - c.offset) := by
      rw [length_subarray (by omega)]
      omega
    rcases takeHeader_read hf with hnone | hread
    · exact .of_none hnone
    · intro _ _
      have hearly := h hsome (.inl hhead)
      rw [hlength] at hread
      show c.offset + min c.framer.wantedBytes (chunk.length - c.offset) ≤ f.headerBytesRead
      omega
  · rename_i hhead
    have hends : f.messageType = none ∨ f.payloadBytesRemaining ≠ 0 ∧ f.headerBytesRead = c.framer.headerBytesRead := by
      split at hf
      · exact takeRfqPayload_remaining hf
      · exact takePayload_remaining hf
    rcases hends with hnone | ⟨hne, hread⟩
    · exact .of_none hnone
    · rintro - (hlt | hzero)
      · exact absurd (hread ▸ hlt) hhead
      · exact absurd hzero hne

/-- At the end of the stream, whole frames lie whole in the chunk. -/
private theorem writeFrame_last {chunk : Bytes} {c c' : Cursor} (h : CursorReads o goal chunk [] c)
    (hlt : c.offset < chunk.length) (hnone : c.framer.messageType = none) (hstep : writeStep chunk c = .ok c') :
    c'.framer.messageType = none := by
  have hreads := h.reads
  rw [List.append_nil] at hreads
  generalize c.pending chunk = pending at hreads
  generalize hr : chunk.drop c.offset = rem at hreads
  cases hreads with
  | @boundary _ _ frames hrem =>
    have hlength : (chunk.drop c.offset).length = (streamBytes frames).length := by rw [hr, hrem]
    rw [List.length_drop] at hlength
    cases frames with
    | nil =>
      simp only [streamBytes, List.flatMap_nil, List.length_nil] at hlength
      omega
    | cons fr frames =>
      rw [streamBytes_cons, List.length_append, fr.length_bytes] at hlength
      have hrest : chunk.drop c.offset ++ [] = streamBytes (fr :: frames) := by rw [List.append_nil, hr, hrem]
      have hmax := fr.length_le
      simp only [writeStep, hnone] at hstep
      rw [if_pos (by omega), length_at hrest (by omega), if_neg (by omega), if_neg (by omega),
        if_pos (by omega)] at hstep
      cases hstep
      exact (writeWhole_type chunk c _).trans hnone
  | header hrem wf type => rw [type] at hnone; cases hnone
  | readyForQuery hrem wf type => rw [type] at hnone; cases hnone
  | payload hrem wf type => rw [type] at hnone; cases hnone

/-- The last chunk leaves a message in flight only within its first four bytes. -/
private theorem writeLoop_early {chunk : Bytes} (c : Cursor) {c' : Cursor} (h : CursorReads o goal chunk [] c)
    (hearly : c.Early) (hloop : writeLoop chunk c = .ok c') : c'.Early := by
  induction c using writeLoop.induct chunk with
  | case1 c hlt d hstep ih =>
    obtain ⟨d', hstep', hreads⟩ := writeStep_reads h hlt
    obtain rfl : d' = d := Except.ok.inj (hstep'.symm.trans hstep)
    rw [writeLoop_step hlt hstep] at hloop
    refine ih hreads ?_ hloop
    cases ht : c.framer.messageType with
    | none => exact .of_none (writeFrame_last h hlt ht hstep)
    | some t =>
      simp only [writeStep, ht] at hstep
      exact writeContinued_early hearly ht h.le hstep
  | case2 c hlt e hstep =>
    rw [writeLoop_throws hlt hstep] at hloop
    cases hloop
  | case3 c hend =>
    rw [writeLoop_end hend] at hloop
    cases hloop
    exact hearly

/-- A chunk of five bytes or more that ends the stream leaves no message in flight. -/
private theorem write_short {f f' : Framer} {chunk : Bytes} (h : Reads o goal f [] chunk) (hne : chunk ≠ [])
    (hwrite : f.write chunk = .ok f') (hsome : f'.messageType.isSome) : chunk.length < 5 := by
  have hlength : chunk.length ≠ 0 := by simpa using hne
  have hstart : CursorReads o goal chunk [] ⟨f, 0, none⟩ :=
    ⟨by rw [List.append_nil]; exact h, Nat.zero_le _, by intro s hs; cases hs⟩
  obtain ⟨c, hloop, hend, hreads⟩ := writeLoop_reads chunk [] _ hstart
  have hearly := writeLoop_early _ hstart (fun _ _ => Nat.zero_le _) hloop
  unfold Framer.write at hwrite
  rw [if_neg hlength] at hwrite
  simp only [hloop, bind, Except.bind] at hwrite
  cases hwrite
  rw [flushPassthrough_messageType] at hsome
  obtain ⟨t, ht⟩ := Option.isSome_iff_exists.1 hsome
  have hrem := hreads.reads
  rw [hrem.pending_nil ht, hend, List.drop_length, List.append_nil] at hrem
  obtain ⟨hread, hzero, -⟩ := hrem.bare ht
  have := hearly hsome (.inr hzero)
  omega

/-- A frame that ends a stream of fewer than five bytes more is the last one. -/
private theorem only_of_short {rest : Bytes} {frames : List BackendFrame} {fr last : BackendFrame}
    (hshort : (rest ++ streamBytes frames).length < 5) (hlast : [last] <:+ goal.frames)
    (hwhole : fr :: frames <:+ goal.frames) : frames = [] ∧ fr = last := by
  have hnil : frames = [] := by
    cases frames with
    | nil => rfl
    | cons next frames =>
      rw [streamBytes_cons, List.length_append, List.length_append, next.length_bytes] at hshort
      omega
  subst hnil
  obtain ⟨before, hbefore⟩ := hlast
  obtain ⟨before', hbefore'⟩ := hwhole
  obtain ⟨-, hsame⟩ := List.append_inj' (hbefore'.trans hbefore.symm) rfl
  exact ⟨rfl, (List.cons.inj hsame).1⟩

/-- The header of a `RowDescription` does not finish it where the rewrite is on. -/
private theorem decodeHeader_rowDescription {f f' : Framer} (h : f.decodeHeader ROW_DESCRIPTION = .ok f')
    (hrewrite : f.rewriteSystemCatalogCharOids = true) (hdrop : f.droppingMessage = false) :
    f'.messageType = f.messageType := by
  unfold Framer.decodeHeader at h
  dsimp only at h
  split at h
  · cases h
  split at h
  · cases h
  split at h
  · cases h
    rfl
  split at h
  · rename_i hd
    exact absurd (hdrop.symm.trans hd) (by decide)
  · rw [if_pos ⟨rfl, by exact hrewrite⟩] at h
    cases h
    rfl

private theorem takeHeader_rowDescription {f f' : Framer} {bytes : Bytes}
    (h : f.takeHeader ROW_DESCRIPTION bytes = .ok f')
    (hrewrite : f.rewriteSystemCatalogCharOids = true) (hdrop : f.droppingMessage = false) :
    f'.messageType = f.messageType := by
  simp only [Framer.takeHeader, bind, Except.bind] at h
  split at h
  · cases h
  split at h
  · cases h
  split at h
  · cases h
    rfl
  · have hkept := decodeHeader_rowDescription h hrewrite hdrop
    exact hkept

/-- The last bytes of the header of a `RowDescription` without payload. -/
private theorem write_bare {f f' : Framer} {chunk : Bytes} {last : BackendFrame} (h : Reads o goal f [] chunk)
    (hne : chunk ≠ []) (hshort : chunk.length < 5) (hlast : [last] <:+ goal.frames)
    (hbare : last.BareRowDescription o) (hwrite : f.write chunk = .ok f') : f'.messageType.isSome := by
  obtain ⟨htype, hpayload, hrewrite⟩ := hbare
  have hstart : CursorReads o goal chunk [] ⟨f, 0, none⟩ :=
    ⟨by rw [List.append_nil]; exact h, Nat.zero_le _, by intro s hs; cases hs⟩
  cases h with
  | @boundary _ _ frames hrem =>
    cases frames with
    | nil => exact absurd hrem hne
    | cons fr frames =>
      rw [hrem, streamBytes_cons, List.length_append, fr.length_bytes] at hshort
      omega
  | @readyForQuery _ fr frames hrem wf type row drop read isRfq rfqFrame remaining rfq held hout heard =>
    obtain ⟨-, rfl⟩ := only_of_short (hrem ▸ hshort) hlast heard.whole
    have hready := (type_of_isRfq isRfq).1
    rw [htype] at hready
    cases hready
  | @payload _ fr frames m rest hrem wf type read rfqFrame rfq remaining lt whole =>
    obtain ⟨rfl, rfl⟩ := only_of_short (hrem ▸ hshort) hlast whole
    rw [hpayload] at hrem
    exact absurd (hrem.trans (by simp [streamBytes])) hne
  | @header _ fr frames hrem wf type row lt scratch rfq drop armed hout heard =>
    obtain ⟨rfl, rfl⟩ := only_of_short (hrem ▸ hshort) hlast heard.whole
    have hlength : chunk.length = 4 - f.headerBytesRead := by
      rw [hrem, hpayload]
      simp [streamBytes, BackendFrame.length_header]
    have hkept : f.droppingMessage = false := by
      cases hd : f.droppingMessage with
      | false => rfl
      | true =>
        have hcopy := drop hd
        rw [htype] at hcopy
        cases hcopy
    have hpos : 0 < chunk.length := by omega
    have hwanted : f.wantedBytes = chunk.length := by
      rw [Framer.wantedBytes, if_pos lt, hlength]
    obtain ⟨c, hstep, -⟩ := writeStep_reads hstart hpos
    unfold Framer.write at hwrite
    rw [if_neg (Nat.ne_of_gt hpos), writeLoop_step hpos hstep] at hwrite
    -- one turn takes the whole chunk
    simp only [writeStep, type, writeContinued, bind, Except.bind, Nat.sub_zero, Nat.zero_add, hwanted,
      Nat.min_self] at hstep
    split at hstep
    · cases hstep
    rename_i taken htaken
    cases hstep
    rw [writeLoop_end (Nat.lt_irrefl _)] at hwrite
    cases hwrite
    unfold Framer.takeBytes at htaken
    rw [if_pos lt, htype] at htaken
    have hkeeps := takeHeader_rowDescription htaken (wf.rewrite.trans hrewrite) hkept
    show (taken.messageType).isSome = true
    rw [hkeeps, type]
    rfl

/-! ### All the chunks -/

private theorem writeAll_cons {f f₁ : Framer} {chunk : Bytes} (hwrite : f.write chunk = .ok f₁) (chunks : List Bytes) :
    f.writeAll (chunk :: chunks) = f₁.writeAll chunks := by
  simp only [Framer.writeAll, List.foldlM, hwrite, bind, Except.bind]

/-- Chunks without bytes change nothing. -/
private theorem writeAll_empty (f : Framer) {chunks : List Bytes} (h : chunks.flatten = []) :
    f.writeAll chunks = .ok f := by
  induction chunks with
  | nil => rfl
  | cons chunk chunks ih =>
    obtain ⟨hchunk, hchunks⟩ := List.append_eq_nil_iff.1 h
    have hwrite : f.write chunk = .ok f := by
      rw [hchunk]
      rfl
    rw [writeAll_cons hwrite]
    exact ih hchunks

/-- The chunks that end a stream leave a message in flight only if the last of them is short. -/
private theorem writeAll_short {f f' : Framer} {chunks : List Bytes} (h : Reads o goal f [] chunks.flatten)
    (hne : chunks.flatten ≠ []) (hwrite : f.writeAll chunks = .ok f') (hsome : f'.messageType.isSome) :
    (lastChunk chunks).length < 5 := by
  induction chunks generalizing f with
  | nil => exact absurd rfl hne
  | cons chunk chunks ih =>
    obtain ⟨f₁, hfirst, hreads⟩ : ∃ f₁, f.write chunk = .ok f₁ ∧ Reads o goal f₁ [] chunks.flatten := write_reads h
    rw [writeAll_cons hfirst] at hwrite
    unfold lastChunk
    split
    · rename_i hlast
      have hnil := lastChunk_eq_nil hlast
      rw [writeAll_empty f₁ hnil] at hwrite
      cases hwrite
      rw [List.flatten_cons, hnil, List.append_nil] at h hne
      exact write_short h hne hfirst hsome
    · rename_i hlast
      exact ih hreads (fun hnil => hlast (lastChunk_of_nil hnil)) hwrite

/-- A `RowDescription` without payload that ends in a short chunk is still in flight. -/
private theorem writeAll_bare {f f' : Framer} {chunks : List Bytes} {last : BackendFrame}
    (h : Reads o goal f [] chunks.flatten) (hne : chunks.flatten ≠ []) (hshort : (lastChunk chunks).length < 5)
    (hlast : [last] <:+ goal.frames) (hbare : last.BareRowDescription o) (hwrite : f.writeAll chunks = .ok f') :
    f'.messageType.isSome := by
  induction chunks generalizing f with
  | nil => exact absurd rfl hne
  | cons chunk chunks ih =>
    obtain ⟨f₁, hfirst, hreads⟩ : ∃ f₁, f.write chunk = .ok f₁ ∧ Reads o goal f₁ [] chunks.flatten := write_reads h
    rw [writeAll_cons hfirst] at hwrite
    unfold lastChunk at hshort
    split at hshort
    · rename_i hempty
      have hnil := lastChunk_eq_nil hempty
      rw [writeAll_empty f₁ hnil] at hwrite
      cases hwrite
      rw [List.flatten_cons, hnil, List.append_nil] at h hne
      exact write_bare h hne hshort hlast hbare hfirst
    · rename_i hrest
      exact ih hreads (fun hnil => hrest (lastChunk_of_nil hnil)) hshort hwrite

/-- Inside a frame the framer is not between two frames. -/
private theorem Reads.inside {f : Framer} {rest : Bytes} {before : List BackendFrame} {next : BackendFrame}
    (h : Reads o goal f [] rest) (hgoal : goal.frames = before ++ [next]) (hne : rest ≠ [])
    (hshort : rest.length < next.bytes.length) : f.messageType.isSome := by
  cases h with
  | @boundary _ _ frames hrem wf type row drop rfq hout heard =>
    have hwhole := heard.whole
    rw [hgoal] at hwhole
    obtain hnil | ⟨first, hfirst, -⟩ := List.suffix_concat_iff.1 hwhole
    · rw [hnil] at hrem
      exact absurd hrem hne
    · rw [hrem, hfirst, streamBytes, List.flatMap_append, List.length_append, List.flatMap_singleton] at hshort
      omega
  | header hrem wf type => rw [type]; rfl
  | readyForQuery hrem wf type => rw [type]; rfl
  | payload hrem wf type => rw [type]; rfl

end Loop

/-! ### The theorem -/

private theorem flush_inFlight {f : Framer} (h : f.messageType.isSome) (dropHeld : Bool) :
    f.flush dropHeld = .error (f, .incomplete f.expectedBytes f.receivedBytes) :=
  if_pos h

section

variable {used : Framer} {suppress dropFirst dropHeld : Bool} {s : CutStream} {chunks : List Bytes}

/-- A stream that ends inside a frame. -/
private theorem detects_inside (buffers : used.FixedBuffers) (hchunks : chunks.flatten = s.bytes)
    (hpart : s.part ≠ []) :
    DetectsTruncation used suppress dropFirst dropHeld s chunks := by
  obtain ⟨rest, hrest⟩ := s.begins
  have start := reset_reads used buffers suppress dropFirst dropHeld (s.frames ++ [s.next])
  have hbytes : streamBytes (s.frames ++ [s.next]) = chunks.flatten ++ rest := by
    rw [hchunks, CutStream.bytes, List.append_assoc, hrest, streamBytes, List.flatMap_append, List.flatMap_singleton]
    rfl
  rw [hbytes] at start
  obtain ⟨f, hwrite, hreads⟩ := writeAll_reads start
  have hne : rest ≠ [] := by
    intro hnil
    rw [hnil, List.append_nil] at hrest
    exact s.strict hrest
  have hshort : rest.length < s.next.bytes.length := by
    have hpos := List.length_pos_of_ne_nil hpart
    rw [← hrest, List.length_append]
    omega
  have hflush := flush_inFlight (hreads.inside rfl hne hshort) dropHeld
  refine ⟨f, hwrite, ⟨fun _ => hpart, fun _ => ⟨_, _, hflush⟩⟩, ?_⟩
  intro f' hf'
  rw [hflush] at hf'
  cases hf'

/-- A stream that ends behind a frame, with no message in flight. -/
private theorem detects_behind {f : Framer} (hwrite : (used.reset suppress dropFirst).writeAll chunks = .ok f)
    (hreads : Reads ⟨suppress, used.rewriteSystemCatalogCharOids, dropFirst⟩
      (responseGoal used suppress dropFirst dropHeld s.frames) f [] [])
    (hpart : s.part = []) (hnone : f.messageType = none) :
    DetectsTruncation used suppress dropFirst dropHeld s chunks := by
  obtain ⟨g, hflush, houtput, -⟩ := flush_reads hreads hnone
  replace hflush : f.flush dropHeld = .ok g := hflush
  refine ⟨f, hwrite, ⟨?_, fun h => absurd hpart h⟩, ?_⟩
  · rintro ⟨expected, received, hthrown⟩
    rw [hflush] at hthrown
    cases hthrown
  · intro f' hf'
    obtain rfl : g = f' := Except.ok.inj (hflush.symm.trans hf')
    exact houtput

/-- A stream behind a frame is read to its end. -/
private theorem reads_behind (suppress dropFirst dropHeld : Bool) (buffers : used.FixedBuffers)
    (hchunks : chunks.flatten = s.bytes) (hpart : s.part = []) :
    Reads ⟨suppress, used.rewriteSystemCatalogCharOids, dropFirst⟩
      (responseGoal used suppress dropFirst dropHeld s.frames) (used.reset suppress dropFirst) [] chunks.flatten := by
  rw [hchunks, CutStream.bytes, hpart, List.append_nil]
  exact reset_reads used buffers suppress dropFirst dropHeld s.frames

private theorem chunks_ne_nil {last : BackendFrame} (hchunks : chunks.flatten = s.bytes) (hlast : [last] <:+ s.frames) :
    chunks.flatten ≠ [] := by
  intro hnil
  have hframes : s.frames = [] := streamBytes_eq_nil (List.append_eq_nil_iff.1 (hchunks.symm.trans hnil)).1
  rw [hframes] at hlast
  cases List.suffix_nil.1 hlast

/-- A `RowDescription` without payload that did not lie whole in its chunk passes for a truncated frame. -/
private theorem not_detects_of_endsBare (buffers : used.FixedBuffers) (hchunks : chunks.flatten = s.bytes)
    (hends : s.EndsBare ⟨suppress, used.rewriteSystemCatalogCharOids, dropFirst⟩ chunks) :
    ¬DetectsTruncation used suppress dropFirst dropHeld s chunks := by
  obtain ⟨hpart, ⟨fr, hlast, hbare⟩, hshort⟩ := hends
  rintro ⟨f, hwrite, hdetects, -⟩
  have start := reads_behind suppress dropFirst dropHeld buffers hchunks hpart
  have hsome := writeAll_bare start (chunks_ne_nil hchunks hlast) hshort hlast hbare hwrite
  exact hdetects.1 ⟨_, _, flush_inFlight hsome dropHeld⟩ hpart

end

/-- On a framer that earlier responses have left in any state, for any frames cut anywhere, into any chunks and under
every option, `flush` detects whether the stream was truncated, and otherwise every frame is accounted for; unless the
stream ends in a `RowDescription` without payload that did not lie whole in its chunk. -/
theorem flush_detects_iff (used : Framer) (buffers : used.FixedBuffers) (suppress dropFirst dropHeld : Bool)
    (s : CutStream) (chunks : List Bytes) (hchunks : chunks.flatten = s.bytes) :
    DetectsTruncation used suppress dropFirst dropHeld s chunks ↔
      ¬s.EndsBare ⟨suppress, used.rewriteSystemCatalogCharOids, dropFirst⟩ chunks := by
  constructor
  · exact fun hdetects hends => not_detects_of_endsBare buffers hchunks hends hdetects
  · intro hends
    by_cases hpart : s.part = []
    · have start := reads_behind suppress dropFirst dropHeld buffers hchunks hpart
      obtain ⟨f, hwrite, hreads⟩ := writeAll_reads (List.append_nil chunks.flatten ▸ start)
      refine detects_behind hwrite hreads hpart ?_
      cases ht : f.messageType with
      | none => rfl
      | some t =>
        obtain ⟨-, -, fr, hlast, hbare⟩ := hreads.bare ht
        have hsome : f.messageType.isSome = true := by rw [ht]; rfl
        have hshort := writeAll_short start (chunks_ne_nil hchunks hlast) hwrite hsome
        exact absurd ⟨hpart, ⟨fr, hlast, hbare⟩, hshort⟩ hends
    · exact detects_inside buffers hchunks hpart

/-- A `RowDescription` without payload. -/
def bareRowDescription : BackendFrame := ⟨ROW_DESCRIPTION, [], by decide⟩

def bareStream : CutStream := ⟨[bareRowDescription], bareRowDescription, [], List.nil_prefix, by decide⟩

def freshFramer : Framer := { suppressIntermediateReadyForQuery := false, rewriteSystemCatalogCharOids := true }

/-- In one chunk it is finished. -/
theorem flush_detects_whole : DetectsTruncation freshFramer false false false bareStream [[0x54, 0, 0, 0, 4]] :=
  (flush_detects_iff freshFramer ⟨rfl, rfl⟩ false false false bareStream _ rfl).2 fun hends =>
    absurd hends.2.2 (by decide)

/-- Cut behind its type byte it is not. -/
theorem flush_misses_cut : ¬∀ (used : Framer) (_ : used.FixedBuffers) (suppress dropFirst dropHeld : Bool)
    (s : CutStream) (chunks : List Bytes) (_ : chunks.flatten = s.bytes),
    DetectsTruncation used suppress dropFirst dropHeld s chunks := by
  intro hdetects
  have hends : bareStream.EndsBare ⟨false, true, false⟩ [[0x54], [0, 0, 0, 4]] :=
    ⟨rfl, ⟨bareRowDescription, List.suffix_refl _, rfl, rfl, rfl⟩, by decide⟩
  have hbytes : [[0x54], [0, 0, 0, 4]].flatten = bareStream.bytes := rfl
  have hfixed : freshFramer.FixedBuffers := ⟨rfl, rfl⟩
  exact not_detects_of_endsBare hfixed hbytes hends
    (hdetects freshFramer hfixed false false false bareStream _ hbytes)

end PgliteBridge
