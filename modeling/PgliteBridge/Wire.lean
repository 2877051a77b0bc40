import Mathlib.Tactic.Common
import Mathlib.Data.List.Basic

/-!
# Wire format

Message types, status bytes and limits of the PostgreSQL wire protocol as the bridge uses them
(`duplex/constants.ts`), and the big-endian reads and in-place writes on byte buffers that the framer and the
`RowDescription` rewrite are made of.  A `Uint8Array` is a list of bytes; an out-of-range read is `0`, as
`buf[i] ?? 0` is.
-/

namespace PgliteBridge

abbrev Bytes := List UInt8

/-! ### Frontend message types -/

def PARSE : UInt8 := 0x50
def BIND : UInt8 := 0x42
def DESCRIBE : UInt8 := 0x44
def EXECUTE : UInt8 := 0x45
def CLOSE : UInt8 := 0x43
def FLUSH : UInt8 := 0x48
def SYNC : UInt8 := 0x53
def TERMINATE : UInt8 := 0x58
def QUERY : UInt8 := 0x51
def COPY_DATA : UInt8 := 0x64
def COPY_DONE : UInt8 := 0x63
def COPY_FAIL : UInt8 := 0x66

/-! ### Backend message types -/

def READY_FOR_QUERY : UInt8 := 0x5a
def ERROR_RESPONSE : UInt8 := 0x45
def ROW_DESCRIPTION : UInt8 := 0x54
def COPY_IN_RESPONSE : UInt8 := 0x47

/-! ### ReadyForQuery status bytes -/

def RFQ_STATUS_IDLE : UInt8 := 0x49
def RFQ_STATUS_IN_TRANSACTION : UInt8 := 0x54
def RFQ_STATUS_FAILED : UInt8 := 0x45

/-! ### Object ids and limits -/

def PG_TYPE_OID_CHAR : Nat := 18
def PG_TYPE_OID_TEXT : Nat := 25
def PG_FIRST_USER_OID : Nat := 16384

def MAX_MESSAGE_LENGTH : Nat := 1073741824

/-! ### Reads and writes -/

/-- `((b1 << 24) | (b2 << 16) | (b3 << 8) | b4) >>> 0`. -/
def uint32BE (b1 b2 b3 b4 : UInt8) : Nat :=
  b1.toNat <<< 24 ||| b2.toNat <<< 16 ||| b3.toNat <<< 8 ||| b4.toNat

def readUInt32BE (buf : Bytes) (offset : Nat) : Nat :=
  uint32BE (buf.getD offset 0) (buf.getD (offset + 1) 0) (buf.getD (offset + 2) 0) (buf.getD (offset + 3) 0)

def readUInt16BE (buf : Bytes) (offset : Nat) : Nat :=
  (buf.getD offset 0).toNat <<< 8 ||| (buf.getD (offset + 1) 0).toNat

/-- `buf.set(src, offset)` where `src` fits. -/
def setBytes (buf : Bytes) (offset : Nat) (src : Bytes) : Bytes :=
  buf.take offset ++ src ++ buf.drop (offset + src.length)

/-- `chunk.subarray(start, end)`. -/
def subarray (chunk : Bytes) (start stop : Nat) : Bytes :=
  (chunk.drop start).take (stop - start)

theorem length_setBytes {buf src : Bytes} {offset : Nat} (h : offset + src.length ≤ buf.length) :
    (setBytes buf offset src).length = buf.length := by
  simp [setBytes]; omega

theorem length_subarray {chunk : Bytes} {start stop : Nat} (h : stop ≤ chunk.length) :
    (subarray chunk start stop).length = stop - start := by
  simp [subarray]; omega

theorem getD_subarray (chunk : Bytes) {start stop i : Nat} (h : start + i < stop) :
    (subarray chunk start stop).getD i 0 = chunk.getD (start + i) 0 := by
  simp only [subarray, List.getD_eq_getElem?_getD]
  rw [List.getElem?_take_of_lt (by omega), List.getElem?_drop]

theorem subarray_append {chunk : Bytes} {a b c : Nat} (hab : a ≤ b) (hbc : b ≤ c) :
    subarray chunk a b ++ subarray chunk b c = subarray chunk a c := by
  have hc : c - a = (b - a) + (c - b) := by omega
  have hd : chunk.drop b = (chunk.drop a).drop (b - a) := by
    rw [List.drop_drop]; congr 1; omega
  simp only [subarray, hc, List.take_add, hd]

/-! ### Big-endian lengths -/

/-- The four bytes of a length on the wire. -/
def encodeUInt32BE (n : Nat) : Bytes :=
  [UInt8.ofNat (n >>> 24), UInt8.ofNat (n >>> 16), UInt8.ofNat (n >>> 8), UInt8.ofNat n]

/-- A typed message. -/
def encodeMessage (type : UInt8) (payload : Bytes) : Bytes := type :: (encodeUInt32BE (payload.length + 4) ++ payload)

theorem uint32BE_eq (b1 b2 b3 b4 : UInt8) :
    uint32BE b1 b2 b3 b4 = b1.toNat * 16777216 + b2.toNat * 65536 + b3.toNat * 256 + b4.toNat := by
  have h2 := b2.toNat_lt
  have h3 := b3.toNat_lt
  have h4 := b4.toNat_lt
  have low : ∀ (x : Nat) {y i : Nat}, y < 2 ^ i → x <<< i ||| y = x * 2 ^ i + y := by
    intro x y i h
    rw [← Nat.shiftLeft_add_eq_or_of_lt h, Nat.shiftLeft_eq]
  unfold uint32BE
  rw [Nat.or_assoc, Nat.or_assoc, low b3.toNat (by omega), low b2.toNat (by omega), low _ (by omega)]
  omega

theorem readUInt32BE_encode {n : Nat} (h : n < 4294967296) : readUInt32BE (encodeUInt32BE n) 0 = n := by
  have hbytes : readUInt32BE (encodeUInt32BE n) 0 =
      uint32BE (UInt8.ofNat (n >>> 24)) (UInt8.ofNat (n >>> 16)) (UInt8.ofNat (n >>> 8)) (UInt8.ofNat n) := rfl
  rw [hbytes, uint32BE_eq]
  simp only [UInt8.toNat_ofNat', Nat.shiftRight_eq_div_pow]
  omega

end PgliteBridge
