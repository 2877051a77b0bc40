import PgliteBridge.FrontendRefinement

/-!
# The prelude of a server connection

`#onConnection` (`pglite-server/index.ts`) answers the SSL and GSS requests in front of a stream, drops a cancel
request, and hands anything else to a duplex in the middle of a `data` event.  A socket is its readable side (the
chunks that wait, and whether they flow), the listeners of `data`, and what the server did.  However the stream is cut
and whenever the duplex stops the flow, what the duplex gets and what still waits is the rest of the stream
(`prelude_parsed`).
-/

namespace PgliteBridge

def SSL_REQUEST_CODE : Nat := 80877103
def GSSENC_REQUEST_CODE : Nat := 80877104
def CANCEL_REQUEST_CODE : Nat := 80877102
def PRELUDE_HEADER_BYTES : Nat := 8

/-- `buf.readInt32BE(offset)`. -/
def readInt32BE (buf : Bytes) (offset : Nat) : Int :=
  if readUInt32BE buf offset < 2147483648 then readUInt32BE buf offset else readUInt32BE buf offset - 4294967296

/-! ### The socket -/

inductive DataListener
  | onData
  | pipe (duplex : Nat)
deriving DecidableEq, Repr

def DataListener.isPipe : DataListener → Bool
  | onData => false
  | pipe _ => true

structure ServerSocket where
  flowing : Bool := true
  /-- The chunks that arrived and were not emitted. -/
  unread : List Bytes := []
  listeners : List DataListener := [.onData]
  buffer : Bytes := []
  /-- What the server wrote to the client. -/
  replies : Bytes := []
  ended : Bool := false
  /-- The writes to each duplex that was created. -/
  duplexes : List (List Bytes) := []
deriving DecidableEq, Repr

namespace ServerSocket

def removeListener (s : ServerSocket) (listener : DataListener) : ServerSocket :=
  { s with listeners := s.listeners.erase listener }

def pause (s : ServerSocket) : ServerSocket := { s with flowing := false }

def resume (s : ServerSocket) : ServerSocket := { s with flowing := true }

/-- `duplex.write(chunk)`. -/
def writeDuplex (s : ServerSocket) (duplex : Nat) (chunk : Bytes) : ServerSocket :=
  { s with duplexes := s.duplexes.modify duplex (· ++ [chunk]) }

/-- `#initDuplex`: `pipe` listens for `data` and lets it flow. -/
def initDuplex (s : ServerSocket) : ServerSocket × Nat :=
  ({ s with
      duplexes := s.duplexes ++ [[]]
      listeners := s.listeners ++ [.pipe s.duplexes.length]
      flowing := true }, s.duplexes.length)

def isNegotiation (buffer : Bytes) : Bool :=
  readInt32BE buffer 0 == 8 &&
    (readInt32BE buffer 4 == SSL_REQUEST_CODE || readInt32BE buffer 4 == GSSENC_REQUEST_CODE)

/-- The loop over the SSL and GSS preludes. -/
def drainPreludes (s : ServerSocket) : ServerSocket :=
  if _h : PRELUDE_HEADER_BYTES ≤ s.buffer.length ∧ isNegotiation s.buffer then
    drainPreludes { s with replies := s.replies ++ [0x4e], buffer := s.buffer.drop 8 }
  else s
termination_by s.buffer.length
decreasing_by
  simp only [List.length_drop]
  have := _h.1
  unfold PRELUDE_HEADER_BYTES at this
  omega

def onData (s : ServerSocket) (chunk : Bytes) : ServerSocket :=
  let s := drainPreludes { s with buffer := if s.buffer.length = 0 then chunk else s.buffer ++ chunk }
  if s.buffer.length < PRELUDE_HEADER_BYTES then s
  else if readInt32BE s.buffer 0 = 16 ∧ readInt32BE s.buffer 4 = CANCEL_REQUEST_CODE then
    if s.buffer.length < 16 then s
    else { s.removeListener .onData with ended := true }
  else
    let (s, duplex) := (s.removeListener .onData).pause.initDuplex
    (s.writeDuplex duplex s.buffer).resume

def listen (chunk : Bytes) (s : ServerSocket) : DataListener → ServerSocket
  | .onData => s.onData chunk
  | .pipe duplex => s.writeDuplex duplex chunk

/-- `emit('data', chunk)` calls the listeners there are when it starts. -/
def emitData (s : ServerSocket) (chunk : Bytes) : ServerSocket := s.listeners.foldl (listen chunk) s

def piped (s : ServerSocket) : Bool := s.listeners.any DataListener.isPipe

end ServerSocket

/-- `flow` emits a chunk that waits; `full` says that the duplex it is piped to asks for a pause. -/
inductive SocketEvent
  | arrive (chunk : Bytes)
  | flow (full : Bool)
  | drain
deriving DecidableEq, Repr

namespace ServerSocket

def flow (s : ServerSocket) (full : Bool) : ServerSocket :=
  match s.flowing, s.unread with
  | true, chunk :: unread =>
    let emitted := { s with unread }.emitData chunk
    if full && s.piped then emitted.pause else emitted
  | _, _ => s

def step (s : ServerSocket) : SocketEvent → ServerSocket
  | .arrive chunk => { s with unread := s.unread ++ [chunk] }
  | .flow full => s.flow full
  | .drain => if s.piped then s.resume else s

def run (events : List SocketEvent) : ServerSocket := events.foldl step {}

end ServerSocket

def SocketEvent.bytes : SocketEvent → Bytes
  | arrive chunk => chunk
  | flow _ | drain => []

/-! ### The requests in front of a stream -/

def sslRequestPacket : Bytes := encodeUInt32BE 8 ++ encodeUInt32BE SSL_REQUEST_CODE
def gssencRequestPacket : Bytes := encodeUInt32BE 8 ++ encodeUInt32BE GSSENC_REQUEST_CODE

/-- The first half of a `CancelRequest`; the second half is a process and its key. -/
def cancelHeader : Bytes := encodeUInt32BE 16 ++ encodeUInt32BE CANCEL_REQUEST_CODE

def IsNegotiation (packet : Bytes) : Prop := packet = sslRequestPacket ∨ packet = gssencRequestPacket

private theorem encode_uint32BE (b1 b2 b3 b4 : UInt8) : encodeUInt32BE (uint32BE b1 b2 b3 b4) = [b1, b2, b3, b4] := by
  have h1 := b1.toNat_lt
  have h2 := b2.toNat_lt
  have h3 := b3.toNat_lt
  have h4 := b4.toNat_lt
  have hbyte : ∀ {n : Nat} {b : UInt8}, n % 256 = b.toNat → UInt8.ofNat n = b := by
    intro n b hn
    apply UInt8.toNat_inj.mp
    rw [UInt8.toNat_ofNat']
    exact hn
  unfold encodeUInt32BE
  rw [uint32BE_eq]
  simp only [Nat.shiftRight_eq_div_pow]
  rw [hbyte (b := b1) (by omega), hbyte (b := b2) (by omega), hbyte (b := b3) (by omega),
    hbyte (b := b4) (by omega)]

private theorem uint32BE_lt (b1 b2 b3 b4 : UInt8) : uint32BE b1 b2 b3 b4 < 4294967296 := by
  have h1 := b1.toNat_lt
  have h2 := b2.toNat_lt
  have h3 := b3.toNat_lt
  have h4 := b4.toNat_lt
  rw [uint32BE_eq]
  omega

/-- Four bytes of a buffer and the number they are. -/
private theorem readUInt32BE_eq_iff {b1 b2 b3 b4 : UInt8} {n : Nat} (hn : n < 4294967296) :
    uint32BE b1 b2 b3 b4 = n ↔ encodeUInt32BE n = [b1, b2, b3, b4] := by
  constructor
  · rintro rfl
    exact encode_uint32BE b1 b2 b3 b4
  · intro hbytes
    have hread := readUInt32BE_encode hn
    rw [hbytes] at hread
    exact hread

private theorem readInt32BE_eq_iff {buffer : Bytes} {offset n : Nat} (hn : n < 2147483648) :
    readInt32BE buffer offset = n ↔ readUInt32BE buffer offset = n := by
  have hlt : readUInt32BE buffer offset < 4294967296 := uint32BE_lt _ _ _ _
  unfold readInt32BE
  split <;> omega

/-- The eight bytes in front of a buffer. -/
private theorem header_iff {buffer : Bytes} (length code : Nat) (h : 8 ≤ buffer.length) (hlength : length < 2147483648)
    (hcode : code < 2147483648) :
    (readInt32BE buffer 0 = length ∧ readInt32BE buffer 4 = code) ↔
      encodeUInt32BE length ++ encodeUInt32BE code <+: buffer := by
  obtain ⟨b0, b1, b2, b3, b4, b5, b6, b7, rest, rfl⟩ : ∃ b0 b1 b2 b3 b4 b5 b6 b7 rest,
      buffer = b0 :: b1 :: b2 :: b3 :: b4 :: b5 :: b6 :: b7 :: rest := by
    match buffer, h with
    | b0 :: b1 :: b2 :: b3 :: b4 :: b5 :: b6 :: b7 :: rest, _ => exact ⟨b0, b1, b2, b3, b4, b5, b6, b7, rest, rfl⟩
  rw [readInt32BE_eq_iff hlength, readInt32BE_eq_iff hcode]
  have hfirst : readUInt32BE (b0 :: b1 :: b2 :: b3 :: b4 :: b5 :: b6 :: b7 :: rest) 0 = uint32BE b0 b1 b2 b3 := rfl
  have hsecond : readUInt32BE (b0 :: b1 :: b2 :: b3 :: b4 :: b5 :: b6 :: b7 :: rest) 4 = uint32BE b4 b5 b6 b7 := rfl
  rw [hfirst, hsecond, readUInt32BE_eq_iff (by omega), readUInt32BE_eq_iff (by omega)]
  constructor
  · rintro ⟨hl, hc⟩
    rw [hl, hc]
    exact ⟨rest, rfl⟩
  · rintro ⟨more, hmore⟩
    have hbytes : (encodeUInt32BE length ++ encodeUInt32BE code) ++ more =
        ([b0, b1, b2, b3] ++ [b4, b5, b6, b7]) ++ rest := hmore
    exact List.append_inj (List.append_inj hbytes rfl).1 rfl

private theorem isNegotiation_iff {buffer : Bytes} (h : 8 ≤ buffer.length) :
    ServerSocket.isNegotiation buffer = true ↔ ∃ packet, IsNegotiation packet ∧ packet <+: buffer := by
  have hssl := header_iff 8 SSL_REQUEST_CODE h (by decide) (by decide)
  have hgss := header_iff 8 GSSENC_REQUEST_CODE h (by decide) (by decide)
  unfold ServerSocket.isNegotiation
  rw [Bool.and_eq_true, Bool.or_eq_true, beq_iff_eq, beq_iff_eq, beq_iff_eq, and_or_left]
  constructor
  · rintro (hread | hread)
    · exact ⟨sslRequestPacket, .inl rfl, hssl.mp hread⟩
    · exact ⟨gssencRequestPacket, .inr rfl, hgss.mp hread⟩
  · rintro ⟨packet, rfl | rfl, hpacket⟩
    · exact .inl (hssl.mpr hpacket)
    · exact .inr (hgss.mpr hpacket)

private theorem isCancel_iff {buffer : Bytes} (h : 8 ≤ buffer.length) :
    (readInt32BE buffer 0 = 16 ∧ readInt32BE buffer 4 = CANCEL_REQUEST_CODE) ↔ cancelHeader <+: buffer :=
  header_iff 16 CANCEL_REQUEST_CODE h (by decide) (by decide)

private theorem IsNegotiation.length {packet : Bytes} (h : IsNegotiation packet) : packet.length = 8 := by
  rcases h with rfl | rfl <;> rfl

/-! ### The loop over the preludes -/

/-- Nothing is left to answer in front of the rest. -/
def Answered (rest : Bytes) : Prop := ∀ packet, IsNegotiation packet → ¬ packet <+: rest

namespace ServerSocket

private theorem drainPreludes_spec (s : ServerSocket) :
    ∃ (requests : List Bytes) (rest : Bytes), (∀ packet ∈ requests, IsNegotiation packet) ∧ Answered rest ∧
      s.buffer = requests.flatten ++ rest ∧
      s.drainPreludes = { s with replies := s.replies ++ List.replicate requests.length 0x4e, buffer := rest } := by
  induction s using drainPreludes.induct with
  | case1 s h ih =>
    obtain ⟨hlength, hnegotiation⟩ := h
    obtain ⟨packet, hpacket, more, hbuffer⟩ := (isNegotiation_iff hlength).mp hnegotiation
    have hdrop : s.buffer.drop 8 = more := by
      rw [← hbuffer, ← hpacket.length, List.drop_left]
    obtain ⟨requests, rest, hrequests, hanswered, hsplit, hdrained⟩ := ih
    rw [drainPreludes, dif_pos ⟨hlength, hnegotiation⟩, hdrained]
    refine ⟨packet :: requests, rest, ?_, hanswered, ?_, ?_⟩
    · exact List.forall_mem_cons.mpr ⟨hpacket, hrequests⟩
    · rw [← hbuffer, List.flatten_cons, List.append_assoc, ← hsplit, ← hdrop]
    · simp only [List.length_cons, List.replicate_succ, List.append_assoc, List.singleton_append]
  | case2 s h =>
    rw [drainPreludes, dif_neg h]
    refine ⟨[], s.buffer, fun _ hmem => absurd hmem List.not_mem_nil, fun packet hpacket hin => h ?_, rfl, ?_⟩
    · have hlength : 8 ≤ s.buffer.length := hpacket.length ▸ hin.length_le
      exact ⟨hlength, (isNegotiation_iff hlength).mpr ⟨packet, hpacket, hin⟩⟩
    · simp

/-! ### What becomes of a stream -/

/-- The stage of a socket whose preludes are answered up to `rest`. -/
inductive Stage (rest : Bytes) (s : ServerSocket) : Prop
  | waiting (short : rest.length < 8 ∨ cancelHeader <+: rest ∧ rest.length < 16) (flowing : s.flowing = true)
      (listeners : s.listeners = [.onData]) (buffer : s.buffer = rest) (open_ : s.ended = false)
      (duplexes : s.duplexes = [])
  | cancelled (header : cancelHeader <+: rest) (complete : 16 ≤ rest.length) (flowing : s.flowing = true)
      (listeners : s.listeners = []) (ended : s.ended = true) (duplexes : s.duplexes = [])
  | handed (chunks : List Bytes) (long : 8 ≤ rest.length) (header : ¬ cancelHeader <+: rest)
      (listeners : s.listeners = [.pipe 0]) (open_ : s.ended = false) (duplexes : s.duplexes = [chunks])
      (bytes : chunks.flatten = rest)

/-- The preludes in front of what was read are answered, and the rest is where it belongs. -/
structure Reads (s : ServerSocket) (read : Bytes) (requests : List Bytes) (rest : Bytes) : Prop where
  split : read = requests.flatten ++ rest
  negotiations : ∀ packet ∈ requests, IsNegotiation packet
  answered : Answered rest
  replies : s.replies = List.replicate requests.length 0x4e
  stage : Stage rest s

variable {s : ServerSocket} {read rest : Bytes} {requests : List Bytes}

private theorem Reads.waits (h : s.Reads read requests rest) (hlisteners : s.listeners = [.onData]) :
    s.flowing = true ∧ s.buffer = rest ∧ s.ended = false ∧ s.duplexes = [] := by
  obtain ⟨-, -, -, -, hstage⟩ := h
  cases hstage with
  | waiting _ hflowing _ hbuffer hopen hduplexes => exact ⟨hflowing, hbuffer, hopen, hduplexes⟩
  | cancelled _ _ _ hnone =>
    rw [hlisteners] at hnone
    cases hnone
  | handed _ _ _ hpipe =>
    rw [hlisteners] at hpipe
    cases hpipe

/-- A chunk in `onData`. -/
private theorem Reads.onData (h : s.Reads read requests rest) (hlisteners : s.listeners = [.onData]) (chunk : Bytes) :
    ∃ requests' rest', (s.onData chunk).Reads (read ++ chunk) requests' rest' := by
  obtain ⟨hflowing, hbuffer, hopen, hduplexes⟩ := h.waits hlisteners
  have hjoined : (if s.buffer.length = 0 then chunk else s.buffer ++ chunk) = rest ++ chunk := by
    rw [hbuffer]
    split
    · rename_i hempty
      rw [List.length_eq_zero_iff.mp hempty, List.nil_append]
    · rfl
  obtain ⟨more, rest', hmore, hanswered, hsplit, hdrained⟩ := drainPreludes_spec { s with buffer := rest ++ chunk }
  have hread : read ++ chunk = (requests ++ more).flatten ++ rest' := by
    rw [h.split, List.append_assoc, List.flatten_append, List.append_assoc]
    exact congrArg (requests.flatten ++ ·) hsplit
  have hnegotiations : ∀ packet ∈ requests ++ more, IsNegotiation packet :=
    List.forall_mem_append.mpr ⟨h.negotiations, hmore⟩
  have hreplies : s.replies ++ List.replicate more.length 0x4e = List.replicate (requests ++ more).length 0x4e := by
    rw [h.replies, List.length_append, List.replicate_add]
  refine ⟨requests ++ more, rest', ?_⟩
  unfold ServerSocket.onData
  rw [hjoined, hdrained]
  dsimp only
  by_cases hshort : rest'.length < PRELUDE_HEADER_BYTES
  · rw [if_pos hshort]
    exact ⟨hread, hnegotiations, hanswered, hreplies, .waiting (.inl hshort) hflowing hlisteners rfl hopen hduplexes⟩
  rw [if_neg hshort]
  have hlong : 8 ≤ rest'.length := Nat.le_of_not_lt hshort
  by_cases hcancel : cancelHeader <+: rest'
  · rw [if_pos ((isCancel_iff hlong).mpr hcancel)]
    by_cases hpart : rest'.length < 16
    · rw [if_pos hpart]
      exact ⟨hread, hnegotiations, hanswered, hreplies,
        .waiting (.inr ⟨hcancel, hpart⟩) hflowing hlisteners rfl hopen hduplexes⟩
    · rw [if_neg hpart]
      refine ⟨hread, hnegotiations, hanswered, hreplies,
        .cancelled hcancel (Nat.le_of_not_lt hpart) hflowing ?_ rfl hduplexes⟩
      simp [removeListener, hlisteners]
  · rw [if_neg fun he => hcancel ((isCancel_iff hlong).mp he)]
    refine ⟨hread, hnegotiations, hanswered, hreplies, .handed [rest'] hlong hcancel ?_ hopen ?_ ?_⟩
    · simp [removeListener, pause, initDuplex, writeDuplex, resume, hlisteners, hduplexes]
    · simp [removeListener, pause, initDuplex, writeDuplex, resume, hduplexes]
    · simp

/-- What eight bytes begin with does not depend on what comes later. -/
private theorem beginning_of_append {packet rest chunk : Bytes} (hpacket : packet.length = 8) (hlong : 8 ≤ rest.length)
    (h : packet <+: rest ++ chunk) : packet <+: rest :=
  List.prefix_of_prefix_length_le h (List.prefix_append rest chunk) (hpacket ▸ hlong)

/-- Later bytes, behind eight bytes of the rest. -/
private theorem Reads.extend {s' : ServerSocket} (h : s.Reads read requests rest) (hlong : 8 ≤ rest.length)
    {chunk : Bytes}
    (hreplies : s'.replies = s.replies) (hstage : Stage (rest ++ chunk) s') :
    s'.Reads (read ++ chunk) requests (rest ++ chunk) where
  split := by rw [h.split, List.append_assoc]
  negotiations := h.negotiations
  answered packet hpacket hin := h.answered packet hpacket (beginning_of_append hpacket.length hlong hin)
  replies := hreplies.trans h.replies
  stage := hstage

/-- A chunk that is emitted. -/
private theorem Reads.emitData (h : s.Reads read requests rest) (chunk : Bytes) :
    ∃ requests' rest', (s.emitData chunk).Reads (read ++ chunk) requests' rest' := by
  have hcalls := fun (listeners : List DataListener) (hlisteners : s.listeners = listeners) =>
    show s.emitData chunk = listeners.foldl (listen chunk) s from hlisteners ▸ rfl
  cases h.stage with
  | waiting _ _ hlisteners =>
    rw [hcalls _ hlisteners]
    exact h.onData hlisteners chunk
  | cancelled hheader hcomplete hflowing hlisteners hended hduplexes =>
    rw [hcalls _ hlisteners]
    refine ⟨requests, rest ++ chunk, h.extend (Nat.le_trans (by decide) hcomplete) rfl ?_⟩
    refine .cancelled (hheader.trans (List.prefix_append rest chunk)) ?_ hflowing hlisteners hended hduplexes
    rw [List.length_append]
    omega
  | handed chunks hlong hheader hlisteners hopen hduplexes hbytes =>
    rw [hcalls _ hlisteners]
    refine ⟨requests, rest ++ chunk, h.extend hlong rfl ?_⟩
    refine .handed (chunks ++ [chunk]) ?_ (fun he => hheader (beginning_of_append rfl hlong he)) hlisteners
      hopen ?_ ?_
    · rw [List.length_append]
      omega
    · simp [listen, writeDuplex, hduplexes]
    · rw [List.flatten_append, hbytes, List.flatten_singleton]

/-- The fields that `Reads` depends on. -/
private theorem Reads.keep {s' : ServerSocket} (h : s.Reads read requests rest) (hreplies : s'.replies = s.replies)
    (hflowing : s.piped = false → s'.flowing = s.flowing) (hlisteners : s'.listeners = s.listeners)
    (hbuffer : s'.buffer = s.buffer) (hended : s'.ended = s.ended) (hduplexes : s'.duplexes = s.duplexes) :
    s'.Reads read requests rest where
  split := h.split
  negotiations := h.negotiations
  answered := h.answered
  replies := hreplies.trans h.replies
  stage := by
    cases h.stage with
    | waiting hshort hflow hlisten hbuf hopen hdup =>
      exact .waiting hshort ((hflowing (by rw [piped, hlisten]; rfl)).trans hflow) (hlisteners.trans hlisten)
        (hbuffer.trans hbuf) (hended.trans hopen) (hduplexes.trans hdup)
    | cancelled hheader hcomplete hflow hlisten hend hdup =>
      exact .cancelled hheader hcomplete ((hflowing (by rw [piped, hlisten]; rfl)).trans hflow)
        (hlisteners.trans hlisten) (hended.trans hend) (hduplexes.trans hdup)
    | handed chunks hlong hheader hlisten hopen hdup hbytes =>
      exact .handed chunks hlong hheader (hlisteners.trans hlisten) (hended.trans hopen) (hduplexes.trans hdup) hbytes

/-! ### What waits in the socket -/

private theorem drainPreludes_unread (s : ServerSocket) : s.drainPreludes.unread = s.unread := by
  obtain ⟨requests, rest, -, -, -, hdrained⟩ := drainPreludes_spec s
  rw [hdrained]

private theorem onData_unread (s : ServerSocket) (chunk : Bytes) : (s.onData chunk).unread = s.unread := by
  have hdrained := drainPreludes_unread
    { s with buffer := if s.buffer.length = 0 then chunk else s.buffer ++ chunk }
  unfold ServerSocket.onData
  generalize drainPreludes
    { s with buffer := if s.buffer.length = 0 then chunk else s.buffer ++ chunk } = drained at hdrained ⊢
  dsimp only
  split
  · exact hdrained
  · split
    · split
      · exact hdrained
      · exact hdrained
    · exact hdrained

private theorem emitData_unread (s : ServerSocket) (chunk : Bytes) : (s.emitData chunk).unread = s.unread := by
  have hlisten : ∀ (s : ServerSocket) (listener : DataListener), (s.listen chunk listener).unread = s.unread := by
    intro s listener
    cases listener with
    | onData => exact onData_unread s chunk
    | pipe duplex => rfl
  unfold ServerSocket.emitData
  generalize s.listeners = listeners
  induction listeners generalizing s with
  | nil => rfl
  | cons listener listeners ih => exact (ih _).trans (hlisten s listener)

/-- The stream so far: what was read, and what waits. -/
def Follows (s : ServerSocket) (stream : Bytes) : Prop :=
  ∃ read requests rest, s.Reads read requests rest ∧ read ++ s.unread.flatten = stream

private theorem flow_stopped (hstopped : s.flowing = false) (full : Bool) : s.flow full = s := by
  unfold ServerSocket.flow
  rw [hstopped]

private theorem flow_empty (hempty : s.unread = []) (full : Bool) : s.flow full = s := by
  unfold ServerSocket.flow
  rw [hempty]
  split
  · rename_i he
    cases he
  · rfl

private theorem flow_cons {chunk : Bytes} {unread : List Bytes} (hflowing : s.flowing = true)
    (hunread : s.unread = chunk :: unread) (full : Bool) :
    s.flow full = if full && s.piped then (({ s with unread } : ServerSocket).emitData chunk).pause
      else ({ s with unread } : ServerSocket).emitData chunk := by
  unfold ServerSocket.flow
  rw [hflowing, hunread]

private theorem Reads.pause (h : s.Reads read requests rest) (hpiped : s.piped = true) :
    s.pause.Reads read requests rest :=
  h.keep rfl (fun hnot => absurd hpiped (by rw [hnot]; decide)) rfl rfl rfl rfl

private theorem Reads.emitData_piped (h : s.Reads read requests rest) (hpiped : s.piped = true) (chunk : Bytes) :
    (s.emitData chunk).piped = true := by
  cases h.stage with
  | waiting _ _ hlisteners =>
    rw [piped, hlisteners] at hpiped
    cases hpiped
  | cancelled _ _ _ hlisteners =>
    rw [piped, hlisteners] at hpiped
    cases hpiped
  | handed _ _ _ hlisteners =>
    have hemitted : s.emitData chunk = s.writeDuplex 0 chunk := by
      unfold ServerSocket.emitData
      rw [hlisteners]
      rfl
    rw [hemitted]
    exact hpiped

private theorem Follows.flow {stream : Bytes} (h : s.Follows stream) (full : Bool) : (s.flow full).Follows stream := by
  cases hflowing : s.flowing with
  | false =>
    rw [flow_stopped hflowing]
    exact h
  | true =>
    cases hunread : s.unread with
    | nil =>
      rw [flow_empty hunread]
      exact h
    | cons chunk unread =>
      obtain ⟨read, requests, rest, hreads, hstream⟩ := h
      have hkept : ({ s with unread } : ServerSocket).Reads read requests rest :=
        hreads.keep rfl (fun _ => rfl) rfl rfl rfl rfl
      obtain ⟨requests', rest', hemitted⟩ := hkept.emitData chunk
      have hwaits := emitData_unread { s with unread } chunk
      have hsame : read ++ chunk ++ unread.flatten = stream := by
        rw [← hstream, hunread, List.flatten_cons, List.append_assoc]
      rw [flow_cons hflowing hunread]
      split
      · rename_i hpauses
        have hpiped := hkept.emitData_piped (Bool.and_eq_true_iff.mp hpauses).2 chunk
        exact ⟨_, requests', rest', hemitted.pause hpiped, by rw [pause, hwaits]; exact hsame⟩
      · exact ⟨_, requests', rest', hemitted, by rw [hwaits]; exact hsame⟩

private theorem Follows.step {stream : Bytes} (h : s.Follows stream) (event : SocketEvent) :
    (s.step event).Follows (stream ++ event.bytes) := by
  cases event with
  | arrive chunk =>
    obtain ⟨read, requests, rest, hreads, hstream⟩ := h
    refine ⟨read, requests, rest, hreads.keep rfl (fun _ => rfl) rfl rfl rfl rfl, ?_⟩
    rw [← hstream]
    simp [ServerSocket.step, SocketEvent.bytes]
  | flow full =>
    rw [show stream ++ (SocketEvent.flow full).bytes = stream from List.append_nil stream]
    exact h.flow full
  | drain =>
    rw [show stream ++ SocketEvent.drain.bytes = stream from List.append_nil stream]
    rw [show s.step .drain = if s.piped then s.resume else s from rfl]
    split
    · rename_i hpiped
      obtain ⟨read, requests, rest, hreads, hstream⟩ := h
      exact ⟨read, requests, rest, hreads.keep rfl (fun hnot => absurd hpiped (by rw [hnot]; decide)) rfl rfl rfl rfl,
        hstream⟩
    · exact h

private theorem run_follows (events : List SocketEvent) : (run events).Follows (events.flatMap SocketEvent.bytes) := by
  have hsteps : ∀ (s : ServerSocket) (stream : Bytes), s.Follows stream →
      (events.foldl ServerSocket.step s).Follows (stream ++ events.flatMap SocketEvent.bytes) := by
    induction events with
    | nil =>
      intro s stream h
      simpa using h
    | cons event events ih =>
      intro s stream h
      rw [List.flatMap_cons, ← List.append_assoc]
      exact ih _ _ (h.step event)
  refine hsteps {} [] ⟨[], [], [], ⟨rfl, nofun, ?_, rfl, .waiting (.inl (by decide)) rfl rfl rfl rfl rfl⟩, rfl⟩
  intro packet hpacket hin
  have hlength := hin.length_le
  rw [hpacket.length] at hlength
  cases hlength

/-- The duplex drains and takes what waits. -/
def settle (unread : List Bytes) : List SocketEvent := (unread.map fun _ => [SocketEvent.drain, .flow false]).flatten

private theorem step_drain_flowing {stream : Bytes} (h : s.Follows stream) : (s.step .drain).flowing = true := by
  obtain ⟨read, requests, rest, hreads, -⟩ := h
  cases hreads.stage with
  | waiting _ hflowing hlisteners =>
    simp only [ServerSocket.step, piped, hlisteners]
    exact hflowing
  | cancelled _ _ hflowing hlisteners =>
    simp only [ServerSocket.step, piped, hlisteners]
    exact hflowing
  | handed _ _ _ hlisteners =>
    simp only [ServerSocket.step, piped, hlisteners]
    rfl

private theorem settle_reads {unread : List Bytes} {stream : Bytes} (h : s.Follows stream)
    (hunread : s.unread = unread) :
    ((settle unread).foldl ServerSocket.step s).unread = [] := by
  induction unread generalizing s stream with
  | nil => exact hunread
  | cons chunk unread ih =>
    have hdrained : (s.step .drain).unread = chunk :: unread := by
      rw [← hunread, show s.step .drain = if s.piped then s.resume else s from rfl]
      split <;> rfl
    have hread : ((s.step .drain).step (.flow false)).unread = unread := by
      rw [show (s.step .drain).step (.flow false) = (s.step .drain).flow false from rfl,
        flow_cons (step_drain_flowing h) hdrained, Bool.false_and, if_neg (by decide), emitData_unread]
    exact ih ((h.step .drain).step (.flow false)) hread

/-- The parse of a stream. -/
structure Parsed (stream : Bytes) (s : ServerSocket) (requests : List Bytes) (rest : Bytes) : Prop where
  split : stream = requests.flatten ++ rest
  negotiations : ∀ packet ∈ requests, IsNegotiation packet
  answered : Answered rest
  replies : s.replies = List.replicate requests.length 0x4e
  cancelled : cancelHeader <+: rest → 16 ≤ rest.length → s.ended = true ∧ s.duplexes = []
  waiting : rest.length < 8 ∨ cancelHeader <+: rest ∧ rest.length < 16 → s.ended = false ∧ s.duplexes = []
  handed : 8 ≤ rest.length → ¬ cancelHeader <+: rest →
    s.ended = false ∧ ∃ chunks, s.duplexes = [chunks] ∧ chunks.flatten = rest

private theorem Reads.parsed (h : s.Reads read requests rest) : Parsed read s requests rest where
  split := h.split
  negotiations := h.negotiations
  answered := h.answered
  replies := h.replies
  cancelled hheader hcomplete := by
    cases h.stage with
    | waiting hshort => omega
    | cancelled _ _ _ _ hended hduplexes => exact ⟨hended, hduplexes⟩
    | handed _ _ hother => exact absurd hheader hother
  waiting hshort := by
    cases h.stage with
    | waiting _ _ _ _ hopen hduplexes => exact ⟨hopen, hduplexes⟩
    | cancelled _ hcomplete => omega
    | handed _ hlong hother => exact absurd hshort (by rintro (hlt | ⟨hheader, -⟩) <;> [omega; exact hother hheader])
  handed hlong hother := by
    cases h.stage with
    | waiting hshort => exact absurd hshort (by rintro (hlt | ⟨hheader, -⟩) <;> [omega; exact hother hheader])
    | cancelled hheader => exact absurd hheader hother
    | handed _ _ _ _ hopen hduplexes hbytes => exact ⟨hopen, _, hduplexes, hbytes⟩

/-- However a stream arrives and whenever its duplex stops the flow: what was read is parsed, the rest waits in the
socket in order, and is read when the duplex drains. -/
theorem prelude_parsed (events : List SocketEvent) :
    (∃ read requests rest, Parsed read (run events) requests rest ∧
      read ++ (run events).unread.flatten = events.flatMap SocketEvent.bytes) ∧
    (run (events ++ settle (run events).unread)).unread = [] := by
  have hfollows := run_follows events
  constructor
  · obtain ⟨read, requests, rest, hreads, hstream⟩ := hfollows
    exact ⟨read, requests, rest, hreads.parsed, hstream⟩
  · rw [run, List.foldl_append]
    exact settle_reads hfollows rfl

/-- The connection behind the duplex answers the rest of the stream, however the writes are collected. -/
theorem handed_calls {requests : List Bytes} (h : Parsed read s requests rest) (hlong : 8 ≤ rest.length)
    (hother : ¬ cancelHeader <+: rest) (cap : Nat) (pglite : PGlite) :
    ∃ chunks, s.duplexes = [chunks] ∧ ∀ writes : List (List Bytes), writes.flatten = chunks →
      (Connection.writes cap pglite writes).calls = (reference cap pglite rest).calls := by
  obtain ⟨-, chunks, hduplexes, hbytes⟩ := h.handed hlong hother
  refine ⟨chunks, hduplexes, fun writes hwrites => ?_⟩
  rw [← hbytes, ← hwrites]
  exact (writes_reads cap pglite writes).agrees.calls

end ServerSocket

end PgliteBridge
