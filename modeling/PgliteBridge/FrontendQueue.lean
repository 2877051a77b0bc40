import PgliteBridge.FrontendFraming
import PgliteBridge.Machine

/-!
# The frontend chunk queue as a byte string

Whatever is called on a `FrontendMessageBuffer`, it answers as one byte string would (`queue_refines`): `push` appends,
`consume` removes a prefix, and neither the chunks nor their compaction can be told from outside.
-/

namespace PgliteBridge

/-- A call of a method or of the getter `length`. -/
inductive QueueCall
  | push (chunk : Bytes)
  | consume (length : Int)
  | readUInt32BE (offset : Int)
  | clear
  | length
deriving DecidableEq, Repr

inductive QueueAnswer
  | done
  | consumed (bytes : Bytes)
  | thrown (message : String)
  | read (value : Option Nat)
  | length (totalLength : Nat)
deriving DecidableEq, Repr

/-! ### The code -/

namespace FrontendMessageBuffer

/-- `consume` of any integer. -/
def consumeInt (b : FrontendMessageBuffer) (length : Int) : Except String (Bytes × FrontendMessageBuffer) :=
  if length < 0 then .error s!"Cannot consume {length} bytes from {b.totalLength}-byte buffer"
  else match b.consume length.toNat with
    | .ok taken => .ok taken
    | .error error => .error error.message

/-- `readUInt32BE` of any integer. -/
def readUInt32BEInt (b : FrontendMessageBuffer) (offset : Int) : Option Nat :=
  if offset < 0 then none else b.readUInt32BE offset.toNat

def call : Machine FrontendMessageBuffer QueueCall QueueAnswer
  | b, .push chunk => (b.push chunk, .done)
  | b, .consume length =>
    match b.consumeInt length with
    | .ok (bytes, b') => (b', .consumed bytes)
    | .error message => (b, .thrown message)
  | b, .readUInt32BE offset => (b, .read (b.readUInt32BEInt offset))
  | b, .clear => (b.clear, .done)
  | b, .length => (b, .length b.length)

end FrontendMessageBuffer

/-! ### The byte string -/

/-- What a byte string answers. -/
def ByteString.call : Machine Bytes QueueCall QueueAnswer
  | s, .push chunk => (s ++ chunk, .done)
  | s, .consume length =>
    if length < 0 ∨ s.length < length then (s, .thrown s!"Cannot consume {length} bytes from {s.length}-byte buffer")
    else (s.drop length.toNat, .consumed (s.take length.toNat))
  | s, .readUInt32BE offset =>
    (s, .read (if offset < 0 ∨ s.length < offset + 4 then none else some (readUInt32BE s offset.toNat)))
  | _, .clear => ([], .done)
  | s, .length => (s, .length s.length)

/-! ### Refinement -/

namespace FrontendMessageBuffer

/-- The queue stands for the byte string. -/
def StandsFor (b : FrontendMessageBuffer) (s : Bytes) : Prop := b.WellFormed ∧ b.bytes = s

variable {b : FrontendMessageBuffer} {s : Bytes}

private theorem toString_natCast (n : Nat) : toString (n : Int) = toString n := rfl

private theorem message_cannotConsume (length totalLength : Nat) :
    (ConsumeError.cannotConsume length totalLength).message =
    s!"Cannot consume {length} bytes from {totalLength}-byte buffer" := rfl

private theorem consumeInt_throws (h : b.StandsFor s) {length : Int} (hout : length < 0 ∨ s.length < length) :
    b.consumeInt length = .error s!"Cannot consume {length} bytes from {s.length}-byte buffer" := by
  have htotal : b.totalLength = s.length := by rw [h.1.total, h.2]
  by_cases hneg : length < 0
  · rw [consumeInt, if_pos hneg, htotal]
  · have hlarge : b.totalLength < length.toNat := by omega
    have htext : toString length.toNat = toString length := by
      rw [← toString_natCast, Int.toNat_of_nonneg (by omega)]
    have hthrown : b.consume length.toNat = .error (.cannotConsume length.toNat b.totalLength) := by
      rw [consume, if_pos hlarge]
    have hmessage : (ConsumeError.cannotConsume length.toNat b.totalLength).message =
        s!"Cannot consume {length} bytes from {s.length}-byte buffer" := by
      rw [message_cannotConsume, htext, htotal]
    rw [consumeInt, if_neg hneg, hthrown]
    exact congrArg _ hmessage

private theorem consumeInt_takes (h : b.StandsFor s) {length : Int} (hin : ¬ (length < 0 ∨ s.length < length)) :
    ∃ b', b.consumeInt length = .ok (s.take length.toNat, b') ∧ b'.StandsFor (s.drop length.toNat) := by
  obtain ⟨hwf, rfl⟩ := h
  have hnot : ¬ length < 0 := fun hneg => hin (.inl hneg)
  have henough : length.toNat ≤ b.bytes.length := by omega
  obtain ⟨b', hconsume, hwf', hbytes⟩ := consume_eq hwf henough
  refine ⟨b', ?_, hwf', hbytes⟩
  rw [consumeInt, if_neg hnot, hconsume]

private theorem readUInt32BEInt_eq (h : b.StandsFor s) (offset : Int) : b.readUInt32BEInt offset =
    if offset < 0 ∨ s.length < offset + 4 then none else some (PgliteBridge.readUInt32BE s offset.toNat) := by
  obtain ⟨hwf, rfl⟩ := h
  unfold readUInt32BEInt
  by_cases hneg : offset < 0
  · rw [if_pos hneg, if_pos (.inl hneg)]
  · rw [if_neg hneg, readUInt32BE_eq hwf]
    by_cases hshort : b.bytes.length < offset.toNat + 4
    · rw [if_pos hshort, if_pos (.inr (by omega))]
    · rw [if_neg hshort, if_neg (by omega)]

/-- One call. -/
theorem call_simulates : Machine.Simulation call ByteString.call StandsFor where
  answer {b s} h i := by
    cases i with
    | push chunk => rfl
    | clear => rfl
    | length =>
      have htotal : b.totalLength = s.length := by rw [h.1.total, h.2]
      simp only [call, ByteString.call, FrontendMessageBuffer.length, htotal]
    | readUInt32BE offset => simp only [call, ByteString.call, readUInt32BEInt_eq h]
    | consume length =>
      simp only [call, ByteString.call]
      by_cases hout : length < 0 ∨ s.length < length
      · rw [if_pos hout, consumeInt_throws h hout]
      · obtain ⟨b', hconsume, -⟩ := consumeInt_takes h hout
        rw [if_neg hout, hconsume]
  next {b s} h i := by
    cases i with
    | push chunk =>
      obtain ⟨hwf, hbytes⟩ := h.1.push chunk
      exact ⟨hwf, hbytes.trans (by rw [h.2]; rfl)⟩
    | clear => exact ⟨wellFormed_empty, rfl⟩
    | length => exact h
    | readUInt32BE offset => exact h
    | consume length =>
      simp only [call, ByteString.call]
      by_cases hout : length < 0 ∨ s.length < length
      · rw [if_pos hout, consumeInt_throws h hout]
        exact h
      · obtain ⟨b', hconsume, hstands⟩ := consumeInt_takes h hout
        rw [if_neg hout, hconsume]
        exact hstands

private theorem standsFor_empty : StandsFor {} [] := ⟨wellFormed_empty, bytes_empty⟩

/-- What the next call can tell of a queue. -/
structure Indistinct (b : FrontendMessageBuffer) (s : Bytes) : Prop where
  throws : ∀ length : Int, (∃ message, (b.call (.consume length)).2 = .thrown message) ↔ length < 0 ∨ s.length < length
  refused : ∀ length : Int, length < 0 ∨ s.length < length → (b.call (.consume length)).1 = b
  unread : ∀ offset : Int, (b.call (.readUInt32BE offset)).2 = .read none ↔ offset < 0 ∨ s.length < offset + 4
  reads : ∀ offset : Int, (b.call (.readUInt32BE offset)).1 = b
  compacted : ∀ later, (call.run b.compactChunks later).2 = (call.run b later).2

private theorem StandsFor.indistinct (h : b.StandsFor s) : b.Indistinct s where
  throws length := by
    simp only [call]
    by_cases hout : length < 0 ∨ s.length < length
    · rw [consumeInt_throws h hout]
      exact ⟨fun _ => hout, fun _ => ⟨_, rfl⟩⟩
    · obtain ⟨b', hconsume, -⟩ := consumeInt_takes h hout
      rw [hconsume]
      exact ⟨fun ⟨_, hthrown⟩ => (by cases hthrown), fun hout' => absurd hout' hout⟩
  refused length hout := by
    simp only [call]
    rw [consumeInt_throws h hout]
  unread offset := by
    simp only [call, readUInt32BEInt_eq h]
    by_cases hout : offset < 0 ∨ s.length < offset + 4
    · rw [if_pos hout]
      exact ⟨fun _ => hout, fun _ => rfl⟩
    · rw [if_neg hout]
      exact ⟨fun hread => (by cases hread), fun hout' => absurd hout' hout⟩
  reads offset := rfl
  compacted later := by
    obtain ⟨hwf, hbytes⟩ := h.1.compactChunks
    have hcompacted : b.compactChunks.StandsFor s := ⟨hwf, hbytes.trans h.2⟩
    rw [(call_simulates.run hcompacted later).1, (call_simulates.run h later).1]

end FrontendMessageBuffer

/-- Every list of calls is answered as by the byte string, and the next one is refused when the byte string
refuses it. -/
theorem queue_refines (calls : List QueueCall) :
    (FrontendMessageBuffer.call.run {} calls).2 = (ByteString.call.run [] calls).2 ∧
      (FrontendMessageBuffer.call.run {} calls).1.Indistinct (ByteString.call.run [] calls).1 := by
  obtain ⟨hanswers, hstands⟩ := FrontendMessageBuffer.call_simulates.run FrontendMessageBuffer.standsFor_empty calls
  exact ⟨hanswers, hstands.indistinct⟩

/-- A length that straddles two chunks. -/
example : (FrontendMessageBuffer.call.run {} [.push [1, 0, 0], .push [], .consume 1, .push [1, 2], .readUInt32BE 0,
    .consume 5, .consume (-1), .length]).2 =
      [.done, .done, .consumed [1], .done, .read (some 258), .thrown "Cannot consume 5 bytes from 4-byte buffer",
        .thrown "Cannot consume -1 bytes from 4-byte buffer", .length 4] := by decide

end PgliteBridge
