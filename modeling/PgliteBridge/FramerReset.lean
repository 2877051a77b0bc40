import PgliteBridge.Machine
import PgliteBridge.Responses

/-!
# What `reset` leaves of a framer

`reset` clears every field but the two scratch buffers, which are written before they are read.  Two framers are
alike (`Alike`) when they agree on everything but the part of the scratch buffers that has still to be written.
Alike framers emit, report and throw the same, on any bytes (`call_simulates`), and after a `reset` any two framers
of the same options are alike (`reset_erases`).
-/

namespace PgliteBridge

/-! ### A framer that is called -/

inductive FramerCall
  | write (chunk : Bytes)
  | flush (dropHeldReadyForQuery : Bool)
  | reset (suppressIntermediateReadyForQuery dropFirstCopyInResponse : Bool)
deriving DecidableEq, Repr

/-- What a call passes to the callbacks, and what it throws. -/
structure FramerAnswer where
  emitted : List Bytes := []
  trace : List CallbackEvent := []
  thrown : Option FramerError := none
deriving DecidableEq, Repr

namespace Framer

def answer : Except (Framer × FramerError) Framer → Framer × FramerAnswer
  | .ok f => (f, { emitted := f.emitted, trace := f.trace })
  | .error (f, error) => (f, { emitted := f.emitted, trace := f.trace, thrown := some error })

/-- The callbacks have nothing to report yet. -/
def silent (f : Framer) : Framer := { f with emitted := [], trace := [] }

def call : Machine Framer FramerCall FramerAnswer
  | f, .write chunk => answer (f.silent.write chunk)
  | f, .flush dropHeldReadyForQuery => answer (f.silent.flush dropHeldReadyForQuery)
  | f, .reset suppress dropFirst => answer (.ok (f.silent.reset suppress dropFirst))

/-! ### Alike framers -/

/-- The framer with other scratch buffers. -/
def withScratch (f : Framer) (scratch held : Bytes) : Framer := { f with headerScratch := scratch, heldRfq := held }

/-- The scratch buffers of `f` can be exchanged for these: they agree where they have been written, and what has been
written of a ReadyForQuery is what has been read of it. -/
structure Interchange (f : Framer) (scratch held : Bytes) : Prop where
  scratchLength : f.headerScratch.length = 4
  scratchLength' : scratch.length = 4
  heldLength : f.heldRfq.length = 6
  heldLength' : held.length = 6
  header : f.headerScratch.take f.headerBytesRead = scratch.take f.headerBytesRead
  held : f.heldRfq.take f.rfqBytesRead = held.take f.rfqBytesRead
  frame : f.rfqFrame = true →
    f.messageType.isSome = true ∧ f.headerBytesRead = 4 ∧ f.rfqBytesRead + f.payloadBytesRemaining = 6
  counted : f.messageType = some READY_FOR_QUERY → f.headerBytesRead < 4 → f.rfqBytesRead = 1 + f.headerBytesRead

inductive Alike (f : Framer) : Framer → Prop
  | intro {scratch held : Bytes} (h : f.Interchange scratch held) : Alike f (f.withScratch scratch held)

/-- Both ends of an operation of two framers. -/
inductive AlikeEnds : Except (Framer × FramerError) Framer → Except (Framer × FramerError) Framer → Prop
  | ok {f g : Framer} (h : f.Alike g) : AlikeEnds (.ok f) (.ok g)
  | error {f g : Framer} {error : FramerError} (h : f.Alike g) : AlikeEnds (.error (f, error)) (.error (g, error))

variable {f g : Framer} {scratch held bytes : Bytes} {messageType : UInt8}

private theorem Interchange.alike (h : f.Interchange scratch held) (hg : g = f.withScratch scratch held) :
    f.Alike g := by
  subst hg
  exact .intro h

private theorem Alike.ite {p : Prop} [Decidable p] {f' g' : Framer} (hpos : p → f.Alike g) (hneg : ¬p → f'.Alike g') :
    (if p then f else f').Alike (if p then g else g') := by
  split
  · exact hpos ‹p›
  · exact hneg ‹¬p›

/-- Fields that the exchange does not depend on. -/
private theorem Interchange.keep {f' : Framer} (h : f.Interchange scratch held)
    (hscratch : f'.headerScratch = f.headerScratch)
    (hheld : f'.heldRfq = f.heldRfq) (htype : f'.messageType = f.messageType)
    (hheader : f'.headerBytesRead = f.headerBytesRead) (hrfq : f'.rfqBytesRead = f.rfqBytesRead)
    (hpayload : f'.payloadBytesRemaining = f.payloadBytesRemaining) (hframe : f'.rfqFrame = f.rfqFrame) :
    f'.Interchange scratch held := by
  refine ⟨?_, h.scratchLength', ?_, h.heldLength', ?_, ?_, ?_, ?_⟩
  · rw [hscratch]
    exact h.scratchLength
  · rw [hheld]
    exact h.heldLength
  · rw [hscratch, hheader]
    exact h.header
  · rw [hheld, hrfq]
    exact h.held
  · rw [hframe, htype, hheader, hrfq, hpayload]
    exact h.frame
  · rw [htype, hheader, hrfq]
    exact h.counted

/-- Outside of a ReadyForQuery that is being read, what is held may be forgotten. -/
private theorem Interchange.forget (h : f.Interchange scratch held) (hframe : f.rfqFrame = false)
    (hheader : f.messageType = some READY_FOR_QUERY → ¬ f.headerBytesRead < 4) :
    ({ f with rfqBytesRead := 0 } : Framer).Interchange scratch held where
  scratchLength := h.scratchLength
  scratchLength' := h.scratchLength'
  heldLength := h.heldLength
  heldLength' := h.heldLength'
  header := h.header
  held := by simp
  frame he := by
    rw [show f.rfqFrame = true from he] at hframe
    cases hframe
  counted htype hlt := absurd hlt (hheader htype)

private theorem Interchange.emit (h : f.Interchange scratch held) (chunk : Bytes) :
    (f.onChunk chunk).Interchange scratch held :=
  h.keep rfl rfl rfl rfl rfl rfl rfl

private theorem Interchange.emitChunkSlice (h : f.Interchange scratch held) (slice : Bytes) :
    (f.emitChunkSlice slice).Interchange scratch held ∧
      (f.withScratch scratch held).emitChunkSlice slice = (f.emitChunkSlice slice).withScratch scratch held := by
  unfold Framer.emitChunkSlice
  split
  · exact ⟨h, rfl⟩
  · exact ⟨h.emit slice, rfl⟩

private theorem Interchange.noteError (h : f.Interchange scratch held) (msgType : UInt8) :
    (f.noteError msgType).Interchange scratch held := h.keep rfl rfl rfl rfl rfl rfl rfl

/-- A complete ReadyForQuery is the same in both. -/
private theorem Interchange.held_eq (h : f.Interchange scratch held) (hread : f.rfqBytesRead = 6) :
    f.heldRfq = held := by
  have hsame := h.held
  rw [hread, List.take_of_length_le (Nat.le_of_eq h.heldLength), List.take_of_length_le (Nat.le_of_eq h.heldLength')]
    at hsame
  exact hsame

private theorem Interchange.scratch_eq (h : f.Interchange scratch held) (hread : f.headerBytesRead = 4) :
    f.headerScratch = scratch := by
  have hsame := h.header
  rw [hread, List.take_of_length_le (Nat.le_of_eq h.scratchLength),
    List.take_of_length_le (Nat.le_of_eq h.scratchLength')] at hsame
  exact hsame

/-! ### Operations -/

private theorem Interchange.outside (h : f.Interchange scratch held) (htype : f.messageType = none) :
    f.rfqFrame = false := by
  cases hframe : f.rfqFrame with
  | false => rfl
  | true =>
    have hsome := (h.frame hframe).1
    rw [htype] at hsome
    cases hsome

private theorem Interchange.inHeader (h : f.Interchange scratch held) (hlt : f.headerBytesRead < 4) :
    f.rfqFrame = false := by
  cases hframe : f.rfqFrame with
  | false => rfl
  | true =>
    have hread := (h.frame hframe).2.1
    omega

private theorem Interchange.dropStale (h : f.Interchange scratch held) (htype : f.messageType = none) :
    f.dropStaleHeldReadyForQuery.Interchange scratch held ∧
      (f.withScratch scratch held).dropStaleHeldReadyForQuery =
        f.dropStaleHeldReadyForQuery.withScratch scratch held := by
  have hforget := h.forget (h.outside htype) fun he => by
    rw [htype] at he
    cases he
  unfold Framer.dropStaleHeldReadyForQuery
  by_cases hstale : (f.suppressIntermediateReadyForQuery && f.rfqBytesRead == 6) = true
  · rw [if_pos hstale, if_pos (show ((f.withScratch scratch held).suppressIntermediateReadyForQuery &&
      (f.withScratch scratch held).rfqBytesRead == 6) = true from hstale)]
    exact ⟨hforget, rfl⟩
  · rw [if_neg hstale, if_neg (show ¬ ((f.withScratch scratch held).suppressIntermediateReadyForQuery &&
      (f.withScratch scratch held).rfqBytesRead == 6) = true from hstale)]
    exact ⟨h, rfl⟩

private theorem dropStale_messageType (f : Framer) : f.dropStaleHeldReadyForQuery.messageType = f.messageType := by
  unfold Framer.dropStaleHeldReadyForQuery
  split <;> rfl

private theorem dropStale_rfqFrame (f : Framer) : f.dropStaleHeldReadyForQuery.rfqFrame = f.rfqFrame := by
  unfold Framer.dropStaleHeldReadyForQuery
  split <;> rfl

/-- The end of a frame. -/
private theorem Interchange.finishMessage (h : f.Interchange scratch held) :
    f.finishMessage.Interchange scratch held where
  scratchLength := h.scratchLength
  scratchLength' := h.scratchLength'
  heldLength := h.heldLength
  heldLength' := h.heldLength'
  header := by simp [Framer.finishMessage]
  held := by
    unfold Framer.finishMessage
    dsimp only
    split
    · exact h.held
    · simp
  frame he := by cases he
  counted he := by cases he

private theorem Alike.finishMessage (h : f.Alike g) : f.finishMessage.Alike g.finishMessage := by
  obtain ⟨h⟩ := h
  exact h.finishMessage.alike rfl

private theorem Interchange.finished (h : f.Interchange scratch held) {p : Prop} [Decidable p] :
    (if p then f.finishMessage else f).Alike
      (if p then (f.withScratch scratch held).finishMessage else f.withScratch scratch held) :=
  Alike.ite (fun _ => h.finishMessage.alike rfl) fun _ => .intro h

private theorem Interchange.takeDropped (h : f.Interchange scratch held) (htype : f.messageType = none) :
    f.takeDropped.Alike (f.withScratch scratch held).takeDropped := by
  obtain ⟨hstale, heq⟩ := h.dropStale htype
  unfold Framer.takeDropped
  rw [heq]
  exact .intro (hstale.keep rfl rfl rfl rfl rfl rfl rfl)

private theorem Interchange.takeReadyForQuery (h : f.Interchange scratch held) (htype : f.messageType = none)
    {frame : Bytes}
    (hlength : frame.length = 6) :
    (f.takeReadyForQuery frame).Alike ((f.withScratch scratch held).takeReadyForQuery frame) := by
  obtain ⟨hstale, heq⟩ := h.dropStale htype
  have hnone := (dropStale_messageType f).trans htype
  unfold Framer.takeReadyForQuery
  rw [heq]
  generalize f.dropStaleHeldReadyForQuery = g at hstale hnone ⊢
  -- the six bytes are written over what either buffer had
  have htaken : ∀ n events, ({ g with heldRfq := frame, rfqBytesRead := n, trace := events } :
      Framer).Interchange scratch frame := fun n events =>
    { scratchLength := hstale.scratchLength
      scratchLength' := hstale.scratchLength'
      heldLength := hlength
      heldLength' := hlength
      header := hstale.header
      held := rfl
      frame := fun he => absurd (hstale.outside hnone) (by rw [show g.rfqFrame = true from he]; decide)
      counted := fun he => absurd hnone (by rw [show g.messageType = some READY_FOR_QUERY from he]; nofun) }
  have hkept := htaken 6 (g.trace ++ [CallbackEvent.readyForQuery (frame.getD 5 0)])
  have hsent := (htaken 0 (g.trace ++ [CallbackEvent.readyForQuery (frame.getD 5 0)])).emit (frame.take 6)
  dsimp only
  exact Alike.ite (fun _ => hkept.alike rfl) fun _ => hsent.alike rfl

private theorem Interchange.takeRowDescription (h : f.Interchange scratch held) (htype : f.messageType = none)
    (frame : Bytes) :
    (f.takeRowDescription frame).Alike ((f.withScratch scratch held).takeRowDescription frame) := by
  obtain ⟨hstale, heq⟩ := h.dropStale htype
  unfold Framer.takeRowDescription
  rw [heq]
  exact (hstale.emit _).alike rfl

private theorem take_setBytes_same {target target' src : Bytes} {offset : Nat} (h : offset + src.length ≤ target.length)
    (h' : offset + src.length ≤ target'.length) (hsame : target.take offset = target'.take offset) :
    (setBytes target offset src).take (offset + src.length) =
      (setBytes target' offset src).take (offset + src.length) := by
  have hlength : ∀ {bytes : Bytes}, offset + src.length ≤ bytes.length →
      (bytes.take offset ++ src).length = offset + src.length := by
    intro bytes hbytes
    rw [List.length_append, List.length_take]
    omega
  unfold setBytes
  rw [List.take_append_of_le_length (Nat.le_of_eq (hlength h).symm), hsame,
    ← List.take_append_of_le_length (Nat.le_of_eq (hlength h').symm)]

/-- The type byte of a frame. -/
private theorem Interchange.takeType (h : f.Interchange scratch held) (htype : f.messageType = none)
    (messageType : UInt8) :
    (f.takeType messageType).Alike ((f.withScratch scratch held).takeType messageType) := by
  obtain ⟨hstale, heq⟩ := h.dropStale htype
  have hframe : f.dropStaleHeldReadyForQuery.rfqFrame = false := (dropStale_rfqFrame f).trans (h.outside htype)
  unfold Framer.takeType
  rw [heq]
  generalize f.dropStaleHeldReadyForQuery = g at hstale hframe ⊢
  by_cases hz : messageType = READY_FOR_QUERY
  · have hone : ∀ {bytes : Bytes}, bytes.length = 6 → 0 + [messageType].length ≤ bytes.length := by
      intro bytes hbytes
      rw [hbytes]
      exact Nat.one_le_of_lt (by decide : 0 < 6)
    have hset : ∀ {bytes : Bytes}, bytes.length = 6 → (setBytes bytes 0 [messageType]).length = 6 := fun hbytes =>
      (length_setBytes (hone hbytes)).trans hbytes
    simp only [if_pos hz, withScratch]
    refine Interchange.alike ?_ rfl
    exact
      { scratchLength := hstale.scratchLength
        scratchLength' := hstale.scratchLength'
        heldLength := hset hstale.heldLength
        heldLength' := hset hstale.heldLength'
        header := rfl
        held := take_setBytes_same (hone hstale.heldLength) (hone hstale.heldLength') rfl
        frame := fun he => absurd hframe (by rw [show g.rfqFrame = true from he]; decide)
        counted := fun _ _ => rfl }
  · simp only [if_neg hz, withScratch]
    refine Interchange.alike ?_ rfl
    exact
      { scratchLength := hstale.scratchLength
        scratchLength' := hstale.scratchLength'
        heldLength := hstale.heldLength
        heldLength' := hstale.heldLength'
        header := rfl
        held := rfl
        frame := fun he => absurd hframe (by rw [show g.rfqFrame = true from he]; decide)
        counted := fun he => absurd (Option.some.inj he) hz }

/-! ### A frame that spans chunks -/

private theorem AlikeEnds.ite {p : Prop} [Decidable p] {r s r' s' : Except (Framer × FramerError) Framer}
    (hpos : p → AlikeEnds r s) (hneg : ¬p → AlikeEnds r' s') :
    AlikeEnds (if p then r else r') (if p then s else s') := by
  split
  · exact hpos ‹p›
  · exact hneg ‹¬p›

/-- The same bytes written at the same offset of two buffers of one length, which agree before it. -/
private theorem setOrThrow_same (f g : Framer) (src : Bytes) {target target' : Bytes} {offset : Nat}
    (hlength : target.length = target'.length) (hsame : target.take offset = target'.take offset) :
    (∃ e, f.setOrThrow target offset src = .error (f, e) ∧ g.setOrThrow target' offset src = .error (g, e)) ∨
      ∃ bytes bytes', f.setOrThrow target offset src = .ok bytes ∧ g.setOrThrow target' offset src = .ok bytes' ∧
        offset + src.length ≤ target.length ∧ bytes.length = target.length ∧ bytes'.length = target.length ∧
        bytes.take (offset + src.length) = bytes'.take (offset + src.length) := by
  unfold setOrThrow
  rw [← hlength]
  by_cases hfits : offset + src.length ≤ target.length
  · have hfits' : offset + src.length ≤ target'.length := hlength ▸ hfits
    rw [if_pos hfits]
    exact .inr ⟨_, _, rfl, by rw [if_pos hfits], hfits, length_setBytes hfits,
      (length_setBytes hfits').trans hlength.symm,      take_setBytes_same hfits hfits' hsame⟩
  · rw [if_neg hfits]
    exact .inl ⟨_, rfl, by rw [if_neg hfits]⟩

/-- The header is complete, and what was held of a ReadyForQuery is five bytes. -/
private theorem Interchange.decodeHeader (h : f.Interchange scratch held) (htype : f.messageType = some messageType)
    (hread : f.headerBytesRead = 4) (hheld : messageType = READY_FOR_QUERY → f.rfqBytesRead = 5) :
    AlikeEnds (f.decodeHeader messageType) ((f.withScratch scratch held).decodeHeader messageType) := by
  have hpast : ¬ f.headerBytesRead < 4 := by omega
  obtain rfl := h.scratch_eq hread
  -- a frame of which nothing is held
  have hother : ∀ n, ({ f with payloadBytesRemaining := n, rfqFrame := false } : Framer).Interchange
      f.headerScratch held := fun n =>
    { scratchLength := h.scratchLength
      scratchLength' := h.scratchLength'
      heldLength := h.heldLength
      heldLength' := h.heldLength'
      header := rfl
      held := h.held
      frame := nofun
      counted := fun _ hlt => absurd hlt hpast }
  unfold Framer.decodeHeader
  dsimp only [withScratch]
  refine .ite (fun _ => .error (.intro h)) fun _ => .ite (fun _ => .error (.intro h)) fun _ => ?_
  generalize readUInt32BE f.headerScratch 0 = messageLength
  cases hrfq : messageType == READY_FOR_QUERY && messageLength == 5 with
  | true =>
    obtain ⟨hz, hfive⟩ := Bool.and_eq_true_iff.mp hrfq
    obtain rfl := eq_of_beq hfive
    refine .ok (Interchange.alike ?_ rfl)
    exact
      { scratchLength := h.scratchLength
        scratchLength' := h.scratchLength'
        heldLength := h.heldLength
        heldLength' := h.heldLength'
        header := rfl
        held := h.held
        frame := fun _ => ⟨Option.isSome_of_eq_some htype, hread, congrArg (· + 1) (hheld (eq_of_beq hz))⟩
        counted := fun _ hlt => absurd hlt hpast }
  | false =>
    have hdropped := ((hother (messageLength - 4)).noteError messageType).forget rfl fun _ => hpast
    refine .ite (fun he => by cases he) fun _ => .ite (fun _ => .ok ?_) fun _ => .ite (fun _ => .ok ?_) fun _ => .ok ?_
    · exact hdropped.finished
    · exact Interchange.alike (hdropped.keep rfl rfl rfl rfl rfl rfl rfl) rfl
    · exact (hdropped.emit _).finished

/-- Header bytes. -/
private theorem Interchange.takeHeader (h : f.Interchange scratch held) (htype : f.messageType = some messageType)
    (hlt : f.headerBytesRead < 4) :
    AlikeEnds (f.takeHeader messageType bytes) ((f.withScratch scratch held).takeHeader messageType bytes) := by
  have houtside := h.inHeader hlt
  unfold Framer.takeHeader
  simp only [bind, Except.bind]
  rcases setOrThrow_same f (f.withScratch scratch held) bytes (h.scratchLength.trans h.scratchLength'.symm)
    h.header with ⟨e, he, he'⟩ | ⟨scratch₁, scratch₂, hs, hs', hfits, hlength, hlength', hsame⟩
  · rw [he, show (f.withScratch scratch held).setOrThrow (f.withScratch scratch held).headerScratch
      (f.withScratch scratch held).headerBytesRead bytes = .error (f.withScratch scratch held, e) from he']
    exact .error (.intro h)
  rw [hs, show (f.withScratch scratch held).setOrThrow (f.withScratch scratch held).headerScratch
    (f.withScratch scratch held).headerBytesRead bytes = .ok scratch₂ from hs']
  rw [h.scratchLength] at hfits hlength hlength'
  dsimp only
  unfold holdHeader
  by_cases hz : messageType = READY_FOR_QUERY
  · have hcounted := h.counted (hz ▸ htype) hlt
    simp only [if_pos hz]
    rcases setOrThrow_same f (f.withScratch scratch held) bytes (h.heldLength.trans h.heldLength'.symm)
      h.held with ⟨e, he, he'⟩ | ⟨held₁, held₂, hh, hh', -, hheld, hheld', hsameHeld⟩
    · rw [he, show (f.withScratch scratch held).setOrThrow (f.withScratch scratch held).heldRfq
        (f.withScratch scratch held).rfqBytesRead bytes = .error (f.withScratch scratch held, e) from he']
      exact .error (.intro h)
    rw [hh, show (f.withScratch scratch held).setOrThrow (f.withScratch scratch held).heldRfq
      (f.withScratch scratch held).rfqBytesRead bytes = .ok held₂ from hh']
    rw [h.heldLength] at hheld hheld'
    have htaken : ({ f with
        headerScratch := scratch₁
        heldRfq := held₁
        rfqBytesRead := f.rfqBytesRead + bytes.length
        headerBytesRead := f.headerBytesRead + bytes.length } : Framer).Interchange scratch₂ held₂ :=
      { scratchLength := hlength
        scratchLength' := hlength'
        heldLength := hheld
        heldLength' := hheld'
        header := hsame
        held := hsameHeld
        frame := fun he => absurd houtside (by rw [show f.rfqFrame = true from he]; decide)
        counted := fun _ _ => by
          dsimp only
          omega }
    refine .ite (fun _ => .ok (htaken.alike rfl)) fun hfull => ?_
    have hfour : f.headerBytesRead + bytes.length = 4 := by omega
    exact htaken.decodeHeader htype hfour fun _ => by
      dsimp only
      omega
  · simp only [if_neg hz]
    have htaken : ({ f with
        headerScratch := scratch₁
        headerBytesRead := f.headerBytesRead + bytes.length } : Framer).Interchange scratch₂ held :=
      { scratchLength := hlength
        scratchLength' := hlength'
        heldLength := h.heldLength
        heldLength' := h.heldLength'
        header := hsame
        held := h.held
        frame := fun he => absurd houtside (by rw [show f.rfqFrame = true from he]; decide)
        counted := fun he => absurd (Option.some.inj (htype.symm.trans he)) hz }
    refine .ite (fun _ => .ok (htaken.alike rfl)) fun hfull => ?_
    have hfour : f.headerBytesRead + bytes.length = 4 := by omega
    exact htaken.decodeHeader htype hfour fun he => absurd he hz

private theorem Interchange.finishReadyForQuery (h : f.Interchange scratch held) (hread : f.rfqBytesRead = 6) :
    f.finishReadyForQuery.Alike (f.withScratch scratch held).finishReadyForQuery := by
  obtain rfl := h.held_eq hread
  have hreported : (f.onReadyForQuery (f.heldRfq.getD 5 0)).Interchange scratch f.heldRfq :=
    h.keep rfl rfl rfl rfl rfl rfl rfl
  exact Alike.finishMessage (Alike.ite (fun _ => hreported.alike rfl) fun _ => (hreported.emit _).alike rfl)

/-- The payload of a ReadyForQuery. -/
private theorem Interchange.takeRfqPayload (h : f.Interchange scratch held) (hframe : f.rfqFrame = true) :
    AlikeEnds (f.takeRfqPayload bytes) ((f.withScratch scratch held).takeRfqPayload bytes) := by
  obtain ⟨hsome, hheader, hsum⟩ := h.frame hframe
  unfold Framer.takeRfqPayload
  simp only [bind, Except.bind]
  rcases setOrThrow_same f (f.withScratch scratch held) bytes (h.heldLength.trans h.heldLength'.symm)
    h.held with ⟨e, he, he'⟩ | ⟨held₁, held₂, hh, hh', hfits, hheld, hheld', hsame⟩
  · rw [he, show (f.withScratch scratch held).setOrThrow (f.withScratch scratch held).heldRfq
      (f.withScratch scratch held).rfqBytesRead bytes = .error (f.withScratch scratch held, e) from he']
    exact .error (.intro h)
  rw [hh, show (f.withScratch scratch held).setOrThrow (f.withScratch scratch held).heldRfq
    (f.withScratch scratch held).rfqBytesRead bytes = .ok held₂ from hh']
  rw [h.heldLength] at hfits hheld hheld'
  have htaken : ({ f with
      heldRfq := held₁
      rfqBytesRead := f.rfqBytesRead + bytes.length
      payloadBytesRemaining := f.payloadBytesRemaining - bytes.length } : Framer).Interchange scratch held₂ :=
    { scratchLength := h.scratchLength
      scratchLength' := h.scratchLength'
      heldLength := hheld
      heldLength' := hheld'
      header := h.header
      held := hsame
      frame := fun _ => ⟨hsome, hheader, by
        dsimp only
        omega⟩
      counted := fun _ hlt => by
        dsimp only at hlt
        omega }
  refine .ok (Alike.ite (fun hdone => htaken.finishReadyForQuery ?_) fun _ => htaken.alike rfl)
  dsimp only at hdone ⊢
  omega

private theorem Interchange.finishPayload (h : f.Interchange scratch held) :
    f.finishPayload.Alike (f.withScratch scratch held).finishPayload := by
  cases hrow : f.rowDescBuffer with
  | some buf =>
    have hrow' : (f.withScratch scratch held).rowDescBuffer = some buf := hrow
    have hemitted : (({ f with rowDescBuffer := none } : Framer).emitRewrittenRowDescription buf).Interchange
        scratch held := h.keep rfl rfl rfl rfl rfl rfl rfl
    simp only [Framer.finishPayload, hrow, hrow']
    exact hemitted.finishMessage.alike rfl
  | none =>
    have hrow' : (f.withScratch scratch held).rowDescBuffer = none := hrow
    simp only [Framer.finishPayload, hrow, hrow']
    exact h.finishMessage.alike rfl

private theorem Interchange.countPayload (h : f.Interchange scratch held) (hframe : f.rfqFrame = false) (n : Nat) :
    (f.countPayload n).Alike ((f.withScratch scratch held).countPayload n) := by
  have hcounted : ({ f with payloadBytesRemaining := f.payloadBytesRemaining - n } : Framer).Interchange
      scratch held :=
    { scratchLength := h.scratchLength
      scratchLength' := h.scratchLength'
      heldLength := h.heldLength
      heldLength' := h.heldLength'
      header := h.header
      held := h.held
      frame := fun he => absurd hframe (by rw [show f.rfqFrame = true from he]; decide)
      counted := h.counted }
  unfold Framer.countPayload
  exact Alike.ite (fun _ => hcounted.finishPayload) fun _ => hcounted.alike rfl

private theorem Interchange.storePayload (h : f.Interchange scratch held) (bytes : Bytes) :
    (∃ e, f.storePayload bytes = .error (f, e) ∧
      (f.withScratch scratch held).storePayload bytes = .error (f.withScratch scratch held, e)) ∨
    ∃ f', f.storePayload bytes = .ok f' ∧
      (f.withScratch scratch held).storePayload bytes = .ok (f'.withScratch scratch held) ∧
      f'.Interchange scratch held ∧ f'.rfqFrame = f.rfqFrame := by
  by_cases hdropping : f.droppingMessage = true
  · have hdropping' : (f.withScratch scratch held).droppingMessage = true := hdropping
    exact .inr ⟨f, if_pos hdropping, if_pos hdropping', h, rfl⟩
  have hdropping' : ¬ (f.withScratch scratch held).droppingMessage = true := hdropping
  unfold Framer.storePayload
  rw [if_neg hdropping, if_neg hdropping']
  cases hrow : f.rowDescBuffer with
  | none =>
    have hrow' : (f.withScratch scratch held).rowDescBuffer = none := hrow
    obtain ⟨hemitted, heq⟩ := h.emitChunkSlice bytes
    refine .inr ⟨f.emitChunkSlice bytes, rfl, ?_, hemitted, ?_⟩
    · simp only [hrow', heq]
    · unfold Framer.emitChunkSlice
      split <;> rfl
  | some buf =>
    have hrow' : (f.withScratch scratch held).rowDescBuffer = some buf := hrow
    simp only [hrow', bind, Except.bind, setOrThrow]
    by_cases hfits : f.rowDescOffset + bytes.length ≤ buf.length
    · have hfits' : (f.withScratch scratch held).rowDescOffset + bytes.length ≤ buf.length := hfits
      rw [if_pos hfits, if_pos hfits']
      exact .inr ⟨_, rfl, rfl, h.keep rfl rfl rfl rfl rfl rfl rfl, rfl⟩
    · have hfits' : ¬ (f.withScratch scratch held).rowDescOffset + bytes.length ≤ buf.length := hfits
      rw [if_neg hfits, if_neg hfits']
      exact .inl ⟨_, rfl, rfl⟩

/-- Payload bytes of any other frame. -/
private theorem Interchange.takePayload (h : f.Interchange scratch held) (hframe : f.rfqFrame = false) :
    AlikeEnds (f.takePayload bytes) ((f.withScratch scratch held).takePayload bytes) := by
  unfold Framer.takePayload
  rcases h.storePayload bytes with ⟨e, he, he'⟩ | ⟨f', hf, hf', hstored, hkept⟩
  · rw [he, he']
    exact .error (.intro h)
  · rw [hf, hf']
    exact .ok (hstored.countPayload (hkept.trans hframe) _)

/-- Bytes of the message in flight. -/
private theorem Interchange.takeBytes (h : f.Interchange scratch held) (htype : f.messageType = some messageType) :
    AlikeEnds (f.takeBytes messageType bytes) ((f.withScratch scratch held).takeBytes messageType bytes) := by
  unfold Framer.takeBytes
  refine .ite (fun hlt => h.takeHeader htype hlt) fun _ => .ite (fun hframe => h.takeRfqPayload hframe) fun hframe => ?_
  exact h.takePayload (Bool.eq_false_iff.mpr hframe)

end Framer

/-! ### `write` -/

open Framer

variable {c c' : Cursor} {f : Framer} {chunk : Bytes}

inductive Cursor.Alike : Cursor → Cursor → Prop
  | intro {f g : Framer} {offset : Nat} {passthroughStart : Option Nat} (h : f.Alike g) :
    Cursor.Alike ⟨f, offset, passthroughStart⟩ ⟨g, offset, passthroughStart⟩

private theorem Cursor.Alike.offset (h : c.Alike c') : c'.offset = c.offset := by
  cases h
  rfl

private theorem Cursor.Alike.framer (h : c.Alike c') : c.framer.Alike c'.framer := by
  obtain ⟨h⟩ := h
  exact h

/-- Both ends of the loop, or of its body. -/
inductive Cursor.AlikeEnds : Except (Framer × FramerError) Cursor → Except (Framer × FramerError) Cursor → Prop
  | ok {c c' : Cursor} (h : c.Alike c') : Cursor.AlikeEnds (.ok c) (.ok c')
  | error {f g : Framer} {error : FramerError} (h : f.Alike g) :
    Cursor.AlikeEnds (.error (f, error)) (.error (g, error))

private theorem Cursor.AlikeEnds.ite {p : Prop} [Decidable p] {r s r' s' : Except (Framer × FramerError) Cursor}
    (hpos : p → Cursor.AlikeEnds r s) (hneg : ¬p → Cursor.AlikeEnds r' s') :
    Cursor.AlikeEnds (if p then r else r') (if p then s else s') := by
  split
  · exact hpos ‹p›
  · exact hneg ‹¬p›

private theorem Cursor.Alike.flushPassthrough (h : c.Alike c') (chunk : Bytes) :
    (c.flushPassthrough chunk).Alike (c'.flushPassthrough chunk) := by
  obtain @⟨f, g, offset, passthroughStart, h⟩ := h
  cases passthroughStart with
  | none => exact .intro h
  | some start =>
    unfold Cursor.flushPassthrough
    dsimp only
    by_cases hlate : offset > start
    · rw [if_pos hlate, if_pos hlate]
      obtain ⟨h⟩ := h
      obtain ⟨hemitted, heq⟩ := h.emitChunkSlice (subarray chunk start offset)
      exact .intro (hemitted.alike heq)
    · rw [if_neg hlate, if_neg hlate]
      exact .intro h

private theorem Cursor.Alike.ite {p : Prop} [Decidable p] {d d' : Cursor} (hpos : p → c.Alike c')
    (hneg : ¬p → d.Alike d') :
    (if p then c else d).Alike (if p then c' else d') := by
  split
  · exact hpos ‹p›
  · exact hneg ‹¬p›

/-- A frame that lies whole in the chunk. -/
private theorem Cursor.Alike.writeWhole (h : c.Alike c') (htype : c.framer.messageType = none) {messageLength : Nat}
    (hwhole : c.offset + (1 + messageLength) ≤ chunk.length) :
    (writeWhole chunk c messageLength).Alike (writeWhole chunk c' messageLength) := by
  obtain @⟨f, g, offset, passthroughStart, @⟨scratch, held, h⟩⟩ := h
  unfold PgliteBridge.writeWhole
  dsimp only
  generalize chunk.getD offset 0 = msgType
  have hnoted := h.noteError msgType
  have hcursors : Cursor.Alike ⟨f.noteError msgType, offset, passthroughStart⟩
      ⟨(f.noteError msgType).withScratch scratch held, offset, passthroughStart⟩ := .intro (.intro hnoted)
  have hflushed := hcursors.flushPassthrough chunk
  have hnone := (flushPassthrough_messageType ⟨f.noteError msgType, offset, passthroughStart⟩ chunk).trans htype
  have hstale := hnoted.dropStale htype
  rw [show (f.withScratch scratch held).noteError msgType = (f.noteError msgType).withScratch scratch held from rfl]
  generalize Cursor.flushPassthrough ⟨f.noteError msgType, offset, passthroughStart⟩ chunk = d at hflushed hnone ⊢
  generalize Cursor.flushPassthrough ⟨(f.noteError msgType).withScratch scratch held, offset, passthroughStart⟩
    chunk = d' at hflushed ⊢
  obtain @⟨f', g', offset', passthroughStart', ⟨hflushed⟩⟩ := hflushed
  refine .ite (fun _ => .intro (hflushed.takeDropped hnone)) fun _ => .ite (fun hready => .intro ?_) fun _ =>
    .ite (fun _ => .intro (hflushed.takeRowDescription hnone _)) fun _ => .intro (hstale.1.alike hstale.2)
  refine hflushed.takeReadyForQuery hnone ?_
  rw [length_subarray hwhole, hready.2]
  dsimp only
  omega

/-- The type byte of a frame that spans chunks. -/
private theorem Cursor.Alike.writeType (h : c.Alike c') (htype : c.framer.messageType = none) :
    (writeType chunk c).Alike (writeType chunk c') := by
  have hnone := (flushPassthrough_messageType c chunk).trans htype
  have hoffset := h.offset
  have hflushed := h.flushPassthrough chunk
  unfold PgliteBridge.writeType
  rw [hoffset]
  generalize c.flushPassthrough chunk = d at hflushed hnone ⊢
  generalize c'.flushPassthrough chunk = d' at hflushed ⊢
  obtain @⟨f, g, offset, passthroughStart, ⟨hflushed⟩⟩ := hflushed
  exact .intro (hflushed.takeType hnone _)

private theorem writeContinued_alike (h : c.Alike c') {messageType : UInt8}
    (htype : c.framer.messageType = some messageType) :
    Cursor.AlikeEnds (writeContinued chunk c messageType) (writeContinued chunk c' messageType) := by
  obtain @⟨f, g, offset, passthroughStart, @⟨scratch, held, h⟩⟩ := h
  unfold writeContinued
  dsimp only
  rw [show (f.withScratch scratch held).wantedBytes = f.wantedBytes from rfl]
  generalize subarray chunk offset (offset + min f.wantedBytes (chunk.length - offset)) = bytes
  have htaken : Framer.AlikeEnds (f.takeBytes messageType bytes)
      ((f.withScratch scratch held).takeBytes messageType bytes) := h.takeBytes htype
  simp only [bind, Except.bind]
  generalize f.takeBytes messageType bytes = ends at htaken ⊢
  generalize (f.withScratch scratch held).takeBytes messageType bytes = ends' at htaken ⊢
  cases htaken with
  | ok h => exact .ok (.intro h)
  | error h => exact .error h

/-- The body of the loop. -/
private theorem writeStep_alike (h : c.Alike c') (chunk : Bytes) :
    Cursor.AlikeEnds (writeStep chunk c) (writeStep chunk c') := by
  have hsame : c'.framer.messageType = c.framer.messageType := by
    obtain ⟨⟨h⟩⟩ := h
    rfl
  have hoffset := h.offset
  have hframer := h.framer
  cases htype : c.framer.messageType with
  | none =>
    rw [htype] at hsame
    simp only [writeStep, htype, hsame, hoffset]
    refine .ite (fun _ => .ite (fun _ => .error hframer) fun _ => .ite (fun _ => .error hframer) fun _ =>
      .ite (fun hwhole => .ok (h.writeWhole htype ?_)) fun _ => .ok (h.writeType htype))
      fun _ => .ok (h.writeType htype)
    omega
  | some messageType =>
    rw [htype] at hsame
    simp only [writeStep, htype, hsame]
    exact writeContinued_alike h htype

private theorem writeLoop_alike (chunk : Bytes) (c : Cursor) {c' : Cursor} (h : c.Alike c') :
    Cursor.AlikeEnds (writeLoop chunk c) (writeLoop chunk c') := by
  induction c using writeLoop.induct chunk generalizing c' with
  | case1 c hlt d hstep ih =>
    have hends := writeStep_alike h chunk
    have hlt' : c'.offset < chunk.length := h.offset ▸ hlt
    rw [hstep] at hends
    generalize hstep' : writeStep chunk c' = ends at hends
    cases hends with
    | ok hd =>
      rw [writeLoop_step hlt hstep, writeLoop_step hlt' hstep']
      exact ih hd
  | case2 c hlt e hstep =>
    have hends := writeStep_alike h chunk
    have hlt' : c'.offset < chunk.length := h.offset ▸ hlt
    rw [hstep] at hends
    generalize hstep' : writeStep chunk c' = ends at hends
    cases hends with
    | error hf =>
      rw [writeLoop_throws hlt hstep, writeLoop_throws hlt' hstep']
      exact .error hf
  | case3 c hend =>
    have hend' : ¬ c'.offset < chunk.length := h.offset ▸ hend
    rw [writeLoop_end hend, writeLoop_end hend']
    exact .ok h

namespace Framer

variable {f g : Framer} {scratch held : Bytes} {rewrite : Bool}

private theorem Alike.write (h : f.Alike g) (chunk : Bytes) : AlikeEnds (f.write chunk) (g.write chunk) := by
  unfold Framer.write
  refine .ite (fun _ => .ok h) fun _ => ?_
  have hstart : Cursor.Alike ⟨f, 0, none⟩ ⟨g, 0, none⟩ := .intro h
  have hends := writeLoop_alike chunk _ hstart
  simp only [bind, Except.bind]
  generalize writeLoop chunk ⟨f, 0, none⟩ = ends at hends ⊢
  generalize writeLoop chunk ⟨g, 0, none⟩ = ends' at hends ⊢
  cases hends with
  | error h => exact .error h
  | ok h => exact .ok (h.flushPassthrough chunk).framer

private theorem Interchange.expectedBytes (h : f.Interchange scratch held) :
    (f.withScratch scratch held).expectedBytes = f.expectedBytes := by
  unfold Framer.expectedBytes
  by_cases hread : f.headerBytesRead = 4
  · obtain rfl := h.scratch_eq hread
    rfl
  · rw [if_neg hread, if_neg (show ¬ (f.withScratch scratch held).headerBytesRead = 4 from hread)]

private theorem Alike.flush (h : f.Alike g) (dropHeldReadyForQuery : Bool) :
    AlikeEnds (f.flush dropHeldReadyForQuery) (g.flush dropHeldReadyForQuery) := by
  obtain @⟨scratch, held, h⟩ := h
  unfold Framer.flush receivedBytes
  rw [h.expectedBytes]
  refine .ite (fun _ => .error (.intro h)) fun hsome => ?_
  have hnone : f.messageType = none := Option.not_isSome_iff_eq_none.mp hsome
  have hforgotten := h.forget (h.outside hnone) fun he => absurd hnone (by rw [he]; nofun)
  refine .ite (fun _ => .ok (hforgotten.alike rfl)) fun _ => .ite (fun hheld => ?_) fun _ => .ok (.intro h)
  obtain rfl := h.held_eq (eq_of_beq (Bool.and_eq_true_iff.mp hheld).2)
  exact .ok ((hforgotten.emit (f.heldRfq.take 6)).alike rfl)

private theorem Alike.reset (h : f.Alike g) (suppress dropFirst : Bool) :
    (f.reset suppress dropFirst).Alike (g.reset suppress dropFirst) := by
  obtain @⟨scratch, held, h⟩ := h
  have hexchange : (f.reset suppress dropFirst).Interchange scratch held :=
    { scratchLength := h.scratchLength
      scratchLength' := h.scratchLength'
      heldLength := h.heldLength
      heldLength' := h.heldLength'
      header := rfl
      held := rfl
      frame := nofun
      counted := nofun }
  exact hexchange.alike rfl

private theorem Alike.silent (h : f.Alike g) : f.silent.Alike g.silent := by
  obtain @⟨scratch, held, h⟩ := h
  have hexchange : f.silent.Interchange scratch held := h.keep rfl rfl rfl rfl rfl rfl rfl
  exact hexchange.alike rfl

private theorem AlikeEnds.answer {r r' : Except (Framer × FramerError) Framer} (h : AlikeEnds r r') :
    (answer r).2 = (answer r').2 ∧ (Framer.answer r).1.silent.Alike (Framer.answer r').1.silent := by
  cases h with
  | ok h =>
    refine ⟨?_, h.silent⟩
    obtain ⟨h⟩ := h
    rfl
  | error h =>
    refine ⟨?_, h.silent⟩
    obtain ⟨h⟩ := h
    rfl

/-! ### Runs -/

private theorem call_ends (h : f.silent.Alike g.silent) (c : FramerCall) :
    (call f c).2 = (call g c).2 ∧ (call f c).1.silent.Alike (call g c).1.silent := by
  cases c with
  | write chunk => exact (h.write chunk).answer
  | flush dropHeldReadyForQuery => exact (h.flush dropHeldReadyForQuery).answer
  | reset suppress dropFirst => exact (AlikeEnds.ok (h.reset suppress dropFirst)).answer

theorem call_simulates : Machine.Simulation call call fun f g => f.silent.Alike g.silent where
  answer h c := (call_ends h c).1
  next h c := (call_ends h c).2

/-- `new BackendMessageFramer(options)`. -/
def create (suppressIntermediateReadyForQuery rewriteSystemCatalogCharOids : Bool) : Framer :=
  { suppressIntermediateReadyForQuery, rewriteSystemCatalogCharOids }

private theorem answer_kept {r : Except (Framer × FramerError) Framer} (h : Keeps rewrite r) :
    (answer r).1.Kept rewrite := by
  cases r with
  | ok f => exact h
  | error e => exact h

private theorem call_kept (f : Framer) (c : FramerCall) (h : f.Kept rewrite) : (call f c).1.Kept rewrite := by
  have hsilent : f.silent.Kept rewrite := h.keep rfl rfl rfl
  cases c with
  | write chunk => exact answer_kept (hsilent.write chunk)
  | flush dropHeldReadyForQuery => exact answer_kept (hsilent.flush dropHeldReadyForQuery)
  | reset suppress dropFirst => exact hsilent.keep rfl rfl rfl

/-- `reset` leaves two framers alike that have the same options. -/
private theorem reset_alike (hf : f.Kept rewrite) (hg : g.Kept rewrite) (suppress dropFirst : Bool) :
    (call f (.reset suppress dropFirst)).1.silent.Alike (call g (.reset suppress dropFirst)).1.silent := by
  have hexchange : (call f (.reset suppress dropFirst)).1.silent.Interchange g.headerScratch g.heldRfq :=
    { scratchLength := hf.scratch
      scratchLength' := hg.scratch
      heldLength := hf.held
      heldLength' := hg.held
      header := rfl
      held := rfl
      frame := nofun
      counted := nofun }
  refine hexchange.alike ?_
  simp only [call, answer, Framer.reset, silent, withScratch, hf.rewrites, hg.rewrites]

/-- Whatever the calls to two framers of the same options were, after the same `reset` they answer every call alike. -/
theorem reset_erases (suppressIntermediateReadyForQuery rewriteSystemCatalogCharOids : Bool)
    (history history' : List FramerCall) (suppress dropFirst : Bool) (later : List FramerCall) :
    let created := create suppressIntermediateReadyForQuery rewriteSystemCatalogCharOids
    let used := (call.run created (history ++ [.reset suppress dropFirst])).1
    let used' := (call.run created (history' ++ [.reset suppress dropFirst])).1
    (call.run used later).2 = (call.run used' later).2 := by
  dsimp only
  have hcreated : (create suppressIntermediateReadyForQuery rewriteSystemCatalogCharOids).Kept
      rewriteSystemCatalogCharOids := ⟨⟨rfl, rfl⟩, rfl⟩
  have hkept := Machine.run_invariant call_kept hcreated
  simp only [Machine.run_append, Machine.run_cons, Machine.run_nil]
  exact (call_simulates.run (reset_alike (hkept history) (hkept history') suppress dropFirst) later).1

end Framer

end PgliteBridge
