import PgliteBridge.Wire

/-!
# The frontend chunk queue

`FrontendMessageBuffer` (`duplex/frontend-buffer.ts`) keeps the chunks that were written, an index and an offset into
them, and compacts rarely.  What it stands for is the list of its unread bytes (`bytes`): on a well-formed queue
`readUInt32BE` and `consume`, with their short cuts for the head chunk, read from that list (`readUInt32BE_eq`,
`consume_eq`).
-/

namespace PgliteBridge

structure FrontendMessageBuffer where
  chunks : List Bytes := []
  headIndex : Nat := 0
  headOffset : Nat := 0
  totalLength : Nat := 0
deriving DecidableEq, Repr

namespace FrontendMessageBuffer

def length (b : FrontendMessageBuffer) : Nat := b.totalLength

def push (b : FrontendMessageBuffer) (chunk : Bytes) : FrontendMessageBuffer :=
  if chunk.length = 0 then b
  else { b with chunks := b.chunks ++ [chunk], totalLength := b.totalLength + chunk.length }

def clear (_ : FrontendMessageBuffer) : FrontendMessageBuffer := {}

/-- The loop of `readUInt32BE` over the chunks from the head on. -/
def copyFour : List Bytes → (remaining writeOffset : Nat) → Bytes → Bytes
  | [], _, _, bytes => bytes
  | chunk :: chunks, remaining, writeOffset, bytes =>
    if writeOffset < 4 then
      if chunk.length ≤ remaining then copyFour chunks (remaining - chunk.length) writeOffset bytes
      else
        let bytesToCopy := min (4 - writeOffset) (chunk.length - remaining)
        copyFour chunks 0 (writeOffset + bytesToCopy)
          (setBytes bytes writeOffset (subarray chunk remaining (remaining + bytesToCopy)))
    else bytes

def readUInt32BE (b : FrontendMessageBuffer) (offset : Nat) : Option Nat :=
  if b.totalLength < offset + 4 then none
  else
    let slow := PgliteBridge.readUInt32BE
      (copyFour (b.chunks.drop b.headIndex) (b.headOffset + offset) 0 [0, 0, 0, 0]) 0
    match b.chunks[b.headIndex]? with
    | some head =>
      let start := b.headOffset + offset
      some (if start + 4 ≤ head.length then PgliteBridge.readUInt32BE head start else slow)
    | none => some slow

def compactChunks (b : FrontendMessageBuffer) : FrontendMessageBuffer :=
  if b.headIndex = b.chunks.length then { b with chunks := [], headIndex := 0 }
  else if 32 ≤ b.headIndex ∧ b.chunks.length ≤ b.headIndex * 2 then
    { b with chunks := b.chunks.drop b.headIndex, headIndex := 0 }
  else b

/-- `count` bytes of the head chunk are read. -/
def advance (b : FrontendMessageBuffer) (head : Bytes) (count : Nat) : FrontendMessageBuffer :=
  let b := { b with headOffset := b.headOffset + count, totalLength := b.totalLength - count }
  if b.headOffset = head.length then { b with headIndex := b.headIndex + 1, headOffset := 0 }.compactChunks else b

/-- What `consume` throws. -/
inductive ConsumeError
  | cannotConsume (length totalLength : Nat)
  | underflow
deriving DecidableEq, Repr

/-- The copy loop of `consume`; a turn reads at least one byte, so `remaining` turns are enough. -/
def consumeLoop : (turns : Nat) → FrontendMessageBuffer → (remaining : Nat) → (result : Bytes) →
    Except ConsumeError (Bytes × FrontendMessageBuffer)
  | 0, b, remaining, result => if remaining = 0 then .ok (result, b) else .error .underflow
  | turns + 1, b, remaining, result =>
    if remaining = 0 then .ok (result, b)
    else
      match b.chunks[b.headIndex]? with
      | none => .error .underflow
      | some chunk =>
        let bytesToCopy := min remaining (chunk.length - b.headOffset)
        consumeLoop turns (b.advance chunk bytesToCopy) (remaining - bytesToCopy)
          (result ++ subarray chunk b.headOffset (b.headOffset + bytesToCopy))

def consume (b : FrontendMessageBuffer) (length : Nat) : Except ConsumeError (Bytes × FrontendMessageBuffer) :=
  if b.totalLength < length then .error (.cannotConsume length b.totalLength)
  else if length = 0 then .ok ([], b)
  else
    match b.chunks[b.headIndex]? with
    | some head =>
      if length ≤ head.length - b.headOffset then
        .ok (subarray head b.headOffset (b.headOffset + length), b.advance head length)
      else consumeLoop length b length []
    | none => consumeLoop length b length []

/-! ### What the queue stands for -/

/-- The unread bytes. -/
def bytes (b : FrontendMessageBuffer) : Bytes := (b.chunks.drop b.headIndex).flatten.drop b.headOffset

structure WellFormed (b : FrontendMessageBuffer) : Prop where
  chunks : ∀ chunk ∈ b.chunks, chunk ≠ []
  index : b.headIndex ≤ b.chunks.length
  offset : ∀ head ∈ b.chunks[b.headIndex]?, b.headOffset < head.length
  start : b.headIndex = b.chunks.length → b.headOffset = 0
  total : b.totalLength = b.bytes.length

variable {b : FrontendMessageBuffer}

theorem wellFormed_empty : WellFormed {} where
  chunks _ hmem := by cases hmem
  index := Nat.le_refl 0
  offset _ hmem := by cases hmem
  start _ := rfl
  total := rfl

theorem bytes_empty : ({} : FrontendMessageBuffer).bytes = [] := rfl

/-- The head chunk, or nothing is left. -/
private theorem WellFormed.cases_head (h : b.WellFormed) :
    (∃ head rest, b.chunks.drop b.headIndex = head :: rest ∧ b.chunks[b.headIndex]? = some head ∧
      b.headOffset < head.length ∧ b.bytes = head.drop b.headOffset ++ rest.flatten) ∨
    (b.chunks[b.headIndex]? = none ∧ b.bytes = []) := by
  by_cases hindex : b.headIndex < b.chunks.length
  · left
    have hhead : b.chunks[b.headIndex]? = some b.chunks[b.headIndex] := List.getElem?_eq_getElem hindex
    have hdrop : b.chunks.drop b.headIndex = b.chunks[b.headIndex] :: b.chunks.drop (b.headIndex + 1) :=
      List.drop_eq_getElem_cons hindex
    have hoffset : b.headOffset < b.chunks[b.headIndex].length := h.offset _ hhead
    refine ⟨_, _, hdrop, hhead, hoffset, ?_⟩
    rw [bytes, hdrop, List.flatten_cons, List.drop_append_of_le_length (by omega)]
  · right
    have hend : b.chunks.drop b.headIndex = [] := List.drop_eq_nil_of_le (by omega)
    refine ⟨List.getElem?_eq_none (by omega), ?_⟩
    simp [bytes, hend]

theorem WellFormed.push (h : b.WellFormed) (chunk : Bytes) :
    (b.push chunk).WellFormed ∧ (b.push chunk).bytes = b.bytes ++ chunk := by
  by_cases hempty : chunk.length = 0
  · have hnil : chunk = [] := List.length_eq_zero_iff.mp hempty
    simp [FrontendMessageBuffer.push, hnil, h]
  · have hpush : b.push chunk =
        { b with chunks := b.chunks ++ [chunk], totalLength := b.totalLength + chunk.length } := by
      simp [FrontendMessageBuffer.push, hempty]
    have hindex := h.index
    have hbytes : (b.push chunk).bytes = b.bytes ++ chunk := by
      rw [hpush]
      simp only [bytes]
      rw [List.drop_append_of_le_length hindex, List.flatten_append, List.flatten_singleton]
      rcases h.cases_head with ⟨head, rest, hdrop, -, hoffset, -⟩ | ⟨hnone, -⟩
      · rw [List.drop_append_of_le_length]
        rw [hdrop, List.flatten_cons, List.length_append]
        omega
      · have hend : b.headIndex = b.chunks.length := by
          have := List.getElem?_eq_none_iff.mp hnone
          omega
        have hzero := h.start hend
        rw [hzero]
        simp
    refine ⟨⟨?_, ?_, ?_, ?_, ?_⟩, hbytes⟩
    · intro other hmem
      rw [hpush] at hmem
      rcases List.mem_append.mp hmem with hmem | hmem
      · exact h.chunks other hmem
      · intro hnil
        rw [List.mem_singleton.mp hmem] at hnil
        exact hempty (by rw [hnil]; rfl)
    · rw [hpush]
      simp only [List.length_append, List.length_singleton]
      omega
    · intro head hmem
      rw [hpush] at hmem ⊢
      dsimp only at hmem ⊢
      by_cases hlast : b.headIndex < b.chunks.length
      · rw [List.getElem?_append_left hlast] at hmem
        exact h.offset head hmem
      · have hend : b.headIndex = b.chunks.length := by omega
        rw [h.start hend]
        rw [hend, List.getElem?_append_right (Nat.le_refl _)] at hmem
        simp only [Nat.sub_self, List.getElem?_cons_zero, Option.mem_def, Option.some.injEq] at hmem
        rw [← hmem]
        omega
    · intro hend
      rw [hpush] at hend
      simp only [List.length_append, List.length_singleton] at hend
      omega
    · rw [hbytes, hpush, List.length_append, ← h.total]

/-- Nothing is read by compacting. -/
theorem WellFormed.compactChunks (h : b.WellFormed) :
    b.compactChunks.WellFormed ∧ b.compactChunks.bytes = b.bytes := by
  unfold FrontendMessageBuffer.compactChunks
  split
  · rename_i hend
    have hzero := h.start hend
    have hbytes : b.bytes = [] := by
      rw [bytes, hend, List.drop_length]
      simp
    have htotal : b.totalLength = 0 := by
      rw [h.total, hbytes]
      rfl
    refine ⟨⟨fun _ hmem => (by cases hmem), Nat.le_refl 0, fun _ hmem => (by cases hmem), fun _ => hzero, ?_⟩, ?_⟩
    · simp [bytes, htotal]
    · rw [hbytes]
      simp [bytes]
  · split
    · have hbytes : ({ b with chunks := b.chunks.drop b.headIndex, headIndex := 0 } : FrontendMessageBuffer).bytes =
          b.bytes := by simp [bytes]
      refine ⟨⟨fun chunk hmem => h.chunks chunk (List.mem_of_mem_drop hmem), Nat.zero_le _, fun head hmem => ?_,
        fun hend => ?_, ?_⟩, hbytes⟩
      · simp only [List.getElem?_drop, Nat.add_zero] at hmem
        exact h.offset head hmem
      · simp only [List.length_drop] at hend
        have hindex := h.index
        exact h.start (by omega)
      · rw [hbytes]
        exact h.total
    · exact ⟨h, rfl⟩

/-- Reading from the head chunk. -/
private theorem WellFormed.advance (h : b.WellFormed) {head : Bytes} (hhead : b.chunks[b.headIndex]? = some head)
    (count : Nat) (hcount : count ≤ head.length - b.headOffset) :
    (b.advance head count).WellFormed ∧ (b.advance head count).bytes = b.bytes.drop count := by
  obtain ⟨rest, hdrop, hoffset, hbytes⟩ : ∃ rest, b.chunks.drop b.headIndex = head :: rest ∧
      b.headOffset < head.length ∧ b.bytes = head.drop b.headOffset ++ rest.flatten := by
    rcases h.cases_head with ⟨head', rest, hdrop, hhead', hoffset, hbytes⟩ | ⟨hnone, -⟩
    · rw [hhead] at hhead'
      cases hhead'
      exact ⟨rest, hdrop, hoffset, hbytes⟩
    · rw [hhead] at hnone
      cases hnone
  have hindex : b.headIndex < b.chunks.length := by
    by_contra hlast
    rw [List.drop_eq_nil_of_le (by omega)] at hdrop
    cases hdrop
  have hrest : b.chunks.drop (b.headIndex + 1) = rest := by
    rw [← List.drop_drop, hdrop]
    rfl
  have hdropped : b.bytes.drop count = head.drop (b.headOffset + count) ++ rest.flatten := by
    rw [hbytes, List.drop_append_of_le_length (by rw [List.length_drop]; omega), List.drop_drop]
  unfold FrontendMessageBuffer.advance
  dsimp only
  split
  · rename_i hall
    have hnext : ({ b with headIndex := b.headIndex + 1, headOffset := 0, totalLength := b.totalLength - count } :
        FrontendMessageBuffer).bytes = b.bytes.drop count := by
      rw [hdropped, hall, List.drop_length]
      simp [bytes, hrest]
    have hwf : ({ b with headIndex := b.headIndex + 1, headOffset := 0, totalLength := b.totalLength - count } :
        FrontendMessageBuffer).WellFormed := by
      refine ⟨h.chunks, hindex, fun other hmem => ?_, fun _ => rfl, ?_⟩
      · have hne := h.chunks other (List.mem_of_getElem? hmem)
        exact List.length_pos_iff.mpr hne
      · rw [hnext, List.length_drop, ← h.total]
    obtain ⟨hwf', hsame⟩ := hwf.compactChunks
    exact ⟨hwf', hsame.trans hnext⟩
  · rename_i hmore
    have hnext : ({ b with headOffset := b.headOffset + count, totalLength := b.totalLength - count } :
        FrontendMessageBuffer).bytes = b.bytes.drop count := by
      rw [hdropped]
      simp only [bytes]
      rw [hdrop, List.flatten_cons, List.drop_append_of_le_length (by omega)]
    refine ⟨⟨h.chunks, h.index, fun other hmem => ?_, fun hend => ?_, ?_⟩, hnext⟩
    · have hsame : head = other := Option.some.inj (hhead.symm.trans hmem)
      rw [← hsame]
      show b.headOffset + count < head.length
      omega
    · have : b.headIndex = b.chunks.length := hend
      omega
    · rw [hnext, List.length_drop, ← h.total]

/-! ### Reading a length -/

/-- The loop keeps what is written and goes on with the bytes behind `remaining`. -/
private theorem copyFour_eq {chunks : List Bytes} {remaining writeOffset : Nat} {bytes : Bytes}
    (hlength : bytes.length = 4)
    (hwrite : writeOffset ≤ 4) (henough : remaining + (4 - writeOffset) ≤ chunks.flatten.length) :
    copyFour chunks remaining writeOffset bytes =
      bytes.take writeOffset ++ (chunks.flatten.drop remaining).take (4 - writeOffset) := by
  induction chunks generalizing remaining writeOffset bytes with
  | nil =>
    simp only [List.flatten_nil, List.length_nil] at henough
    have hfour : writeOffset = 4 := by omega
    simp [copyFour, hfour, ← hlength]
  | cons chunk chunks ih =>
    rw [List.flatten_cons, List.length_append] at henough
    simp only [copyFour, List.flatten_cons]
    by_cases hmore : writeOffset < 4
    · rw [if_pos hmore]
      by_cases hskip : chunk.length ≤ remaining
      · rw [if_pos hskip, ih hlength hwrite (by omega)]
        rw [List.drop_append, List.drop_eq_nil_of_le hskip, List.nil_append]
      · rw [if_neg hskip]
        obtain ⟨count, hcount⟩ : ∃ count, min (4 - writeOffset) (chunk.length - remaining) = count := ⟨_, rfl⟩
        rw [hcount]
        have hsub : (subarray chunk remaining (remaining + count)).length = count := by
          rw [length_subarray (by omega)]
          omega
        have hset : (setBytes bytes writeOffset (subarray chunk remaining (remaining + count))).length = 4 := by
          rw [length_setBytes (by rw [hsub]; omega), hlength]
        rw [ih hset (by omega) (by omega)]
        have hkept : (setBytes bytes writeOffset (subarray chunk remaining (remaining + count))).take
            (writeOffset + count) = bytes.take writeOffset ++ subarray chunk remaining (remaining + count) := by
          unfold setBytes
          rw [List.take_append_of_le_length (by simp only [List.length_append, List.length_take, hsub]; omega)]
          rw [List.take_of_length_le (by simp only [List.length_append, List.length_take, hsub]; omega)]
        have hsame : subarray chunk remaining (remaining + count) = (chunk.drop remaining).take count := by
          simp [subarray]
        rw [hkept, hsame, List.drop_append_of_le_length (by omega), List.drop_zero, List.append_assoc]
        congr 1
        by_cases hall : count = 4 - writeOffset
        · have hnone : 4 - (writeOffset + count) = 0 := by omega
          rw [hnone, List.take_zero, List.append_nil, hall,
            List.take_append_of_le_length (by rw [List.length_drop]; omega)]
        · have hlast : (chunk.drop remaining).length = count := by
            rw [List.length_drop]
            omega
          have hfirst : (chunk.drop remaining).take count = chunk.drop remaining := List.take_of_length_le (by omega)
          have hsecond : (chunk.drop remaining).take (4 - writeOffset) = chunk.drop remaining :=
            List.take_of_length_le (by omega)
          have hrest : 4 - (writeOffset + count) = 4 - writeOffset - count := by omega
          rw [List.take_append, hlast, hfirst, hsecond, hrest]
    · have hfour : writeOffset = 4 := by omega
      rw [if_neg hmore, hfour]
      simp [← hlength]

private theorem readUInt32BE_drop (bytes : Bytes) (offset : Nat) :
    PgliteBridge.readUInt32BE ((bytes.drop offset).take 4) 0 = PgliteBridge.readUInt32BE bytes offset := by
  simp [PgliteBridge.readUInt32BE, List.getD_eq_getElem?_getD, List.getElem?_drop]

/-- A length is read from the unread bytes, whichever chunks they are in. -/
theorem readUInt32BE_eq (h : b.WellFormed) (offset : Nat) :
    b.readUInt32BE offset =
      if b.bytes.length < offset + 4 then none else some (PgliteBridge.readUInt32BE b.bytes offset) := by
  unfold readUInt32BE
  rw [h.total]
  by_cases hshort : b.bytes.length < offset + 4
  · rw [if_pos hshort, if_pos hshort]
  · rw [if_neg hshort, if_neg hshort]
    rcases h.cases_head with ⟨head, rest, hdrop, hhead, hoffset, hbytes⟩ | ⟨-, hnil⟩
    · have henough : b.headOffset + offset + 4 ≤ (b.chunks.drop b.headIndex).flatten.length := by
        have hlength : b.bytes.length = (b.chunks.drop b.headIndex).flatten.length - b.headOffset := by
          rw [bytes, List.length_drop]
        omega
      have hslow : PgliteBridge.readUInt32BE
          (copyFour (b.chunks.drop b.headIndex) (b.headOffset + offset) 0 [0, 0, 0, 0]) 0 =
            PgliteBridge.readUInt32BE b.bytes offset := by
        rw [copyFour_eq rfl (by omega) (by omega), List.take_zero, List.nil_append, readUInt32BE_drop]
        rw [← readUInt32BE_drop b.bytes, bytes, List.drop_drop, readUInt32BE_drop]
      rw [hhead]
      dsimp only
      split
      · rw [← readUInt32BE_drop head, ← readUInt32BE_drop b.bytes, hbytes, ← List.drop_drop]
        rw [List.drop_append_of_le_length (by rw [List.length_drop]; omega),
          List.take_append_of_le_length (by rw [List.length_drop, List.length_drop]; omega)]
      · rw [hslow]
    · rw [hnil] at hshort
      exact absurd (by simp) hshort

/-! ### Consuming a message -/

private theorem consumeLoop_eq (h : b.WellFormed) {turns remaining : Nat} {result : Bytes} (hturns : remaining ≤ turns)
    (henough : remaining ≤ b.bytes.length) :
    ∃ b', consumeLoop turns b remaining result = .ok (result ++ b.bytes.take remaining, b') ∧ b'.WellFormed ∧
      b'.bytes = b.bytes.drop remaining := by
  induction turns generalizing b remaining result with
  | zero =>
    have hzero : remaining = 0 := by omega
    exact ⟨b, by simp [consumeLoop, hzero], h, by simp [hzero]⟩
  | succ turns ih =>
    by_cases hzero : remaining = 0
    · exact ⟨b, by simp [consumeLoop, hzero], h, by simp [hzero]⟩
    · rcases h.cases_head with ⟨head, rest, -, hhead, hoffset, hbytes⟩ | ⟨-, hnil⟩
      · obtain ⟨count, hcount⟩ : ∃ count, min remaining (head.length - b.headOffset) = count := ⟨_, rfl⟩
        obtain ⟨hwf, hnext⟩ := h.advance hhead count (by omega)
        have hturns' : remaining - count ≤ turns := by omega
        have henough' : remaining - count ≤ (b.advance head count).bytes.length := by
          rw [hnext, List.length_drop]
          omega
        obtain ⟨b', hloop, hwf', hbytes'⟩ :=
          @ih (b.advance head count) hwf (remaining - count)
            (result ++ subarray head b.headOffset (b.headOffset + count)) hturns' henough'
        have htaken : subarray head b.headOffset (b.headOffset + count) = b.bytes.take count := by
          rw [hbytes, List.take_append_of_le_length (by rw [List.length_drop]; omega)]
          simp [subarray]
        refine ⟨b', ?_, hwf', ?_⟩
        · simp only [consumeLoop, if_neg hzero, hhead, hcount]
          rw [hloop, hnext, htaken, List.append_assoc, ← List.take_add]
          congr 4
          omega
        · rw [hbytes', hnext, List.drop_drop]
          congr 1
          omega
      · rw [hnil] at henough
        simp only [List.length_nil] at henough
        omega

/-- A message is read off the unread bytes, whichever chunks they are in. -/
theorem consume_eq (h : b.WellFormed) {length : Nat} (henough : length ≤ b.bytes.length) :
    ∃ b', b.consume length = .ok (b.bytes.take length, b') ∧ b'.WellFormed ∧ b'.bytes = b.bytes.drop length := by
  unfold consume
  rw [h.total, if_neg (by omega)]
  by_cases hzero : length = 0
  · rw [if_pos hzero]
    exact ⟨b, by simp [hzero], h, by simp [hzero]⟩
  · rw [if_neg hzero]
    rcases h.cases_head with ⟨head, rest, -, hhead, hoffset, hbytes⟩ | ⟨-, hnil⟩
    · rw [hhead]
      dsimp only
      split
      · rename_i hfits
        obtain ⟨hwf, hnext⟩ := h.advance hhead length hfits
        refine ⟨_, ?_, hwf, hnext⟩
        rw [hbytes, List.take_append_of_le_length (by rw [List.length_drop]; omega)]
        simp [subarray]
      · exact consumeLoop_eq h (Nat.le_refl _) henough
    · rw [hnil] at henough
      simp only [List.length_nil] at henough
      omega

end FrontendMessageBuffer

end PgliteBridge
