import PgliteBridge.Wire

/-!
# Text of a message

`Buffer.toString('utf8')`: the bytes of a message as a text.  A byte that cannot continue the character being read ends
it with U+FFFD and is read again as the first byte of the next one.
-/

namespace PgliteBridge

/-- The character being read: `needed` bytes are missing, the next one lies between `lower` and `upper`. -/
structure Utf8Decoder where
  codePoint : Nat := 0
  needed : Nat := 0
  lower : Nat := 0x80
  upper : Nat := 0xBF
deriving DecidableEq, Repr

namespace Utf8Decoder

def replacement : Char := Char.ofNat 0xFFFD

/-- The first byte of a character. -/
def first (b : Nat) : List Char × Utf8Decoder :=
  if b < 0x80 then ([Char.ofNat b], {})
  else if b < 0xC2 then ([replacement], {})
  else if b < 0xE0 then ([], { codePoint := b % 0x20, needed := 1 })
  else if b < 0xF0 then
    ([], { codePoint := b % 0x10
           needed := 2
           lower := if b = 0xE0 then 0xA0 else 0x80
           upper := if b = 0xED then 0x9F else 0xBF })
  else if b < 0xF5 then
    ([], { codePoint := b % 0x08
           needed := 3
           lower := if b = 0xF0 then 0x90 else 0x80
           upper := if b = 0xF4 then 0x8F else 0xBF })
  else ([replacement], {})

def next (s : Utf8Decoder) (b : Nat) : List Char × Utf8Decoder :=
  if s.needed = 0 then first b
  else if b < s.lower ∨ s.upper < b then (replacement :: (first b).1, (first b).2)
  else if s.needed = 1 then ([Char.ofNat (s.codePoint * 0x40 + b % 0x40)], {})
  else ([], { codePoint := s.codePoint * 0x40 + b % 0x40, needed := s.needed - 1 })

def decode (s : Utf8Decoder) : Bytes → List Char
  | [] => if s.needed = 0 then [] else [replacement]
  | b :: bytes => (s.next b.toNat).1 ++ (s.next b.toNat).2.decode bytes

end Utf8Decoder

def utf8Text (bytes : Bytes) : List Char := ({} : Utf8Decoder).decode bytes

example : utf8Text [0x24, 0xC3, 0xA9, 0x24, 0xE2, 0x82, 0x41] = ['$', 'é', '$', Char.ofNat 0xFFFD, 'A'] := by decide

end PgliteBridge
