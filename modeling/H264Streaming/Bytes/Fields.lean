import H264Streaming.Bytes.Buffer
import H264Streaming.Bytes.Words

/-! Bit fields of a structure laid over a byte buffer. -/

set_option autoImplicit false

namespace H264Streaming.Bytes.Buffer

def setBits (b : Buffer) (offset low width : Nat) (value : UInt8) : Buffer :=
  b.write offset [putBits (b.byte offset) low width value]

variable (b : Buffer) (offset : Nat)

theorem byte_write_octet (octet : UInt8) (j : Nat) :
    (b.write offset [octet]).byte j = if j = offset then octet else b.byte j := by
  by_cases here : j = offset
  · subst here
    simp [write]
  · rw [if_neg here]
    by_cases before : j < offset
    · exact byte_write_of_lt b offset _ before
    · exact byte_write_of_ge b offset _ (by rw [List.length_singleton]; omega)

theorem byte_setBits (low width : Nat) (value : UInt8) (j : Nat) :
    (b.setBits offset low width value).byte j =
      if j = offset then putBits (b.byte offset) low width value else b.byte j :=
  byte_write_octet b offset _ j

theorem read_setBits_below (low width : Nat) (value : UInt8) {start count : Nat} (below : start + count ≤ offset) :
    (b.setBits offset low width value).read start count = b.read start count :=
  read_write_below b offset _ below

theorem byte_write_be16 (word : Nat) (j : Nat) :
    (b.write offset (be16 word)).byte j =
      if j = offset + 1 then UInt8.ofNat word
      else if j = offset then UInt8.ofNat (word / 256) else b.byte j := by
  have split := b.write_write offset [UInt8.ofNat (word / 256)] [UInt8.ofNat word]
  rw [be16, ← List.singleton_append, ← split, List.length_singleton, byte_write_octet, byte_write_octet]

theorem write_be32 (word : Nat) :
    b.write offset (be32 word) = (b.write offset (be16 (word / 65536))).write (offset + 2) (be16 word) := by
  have split := b.write_write offset (be16 (word / 65536)) (be16 word)
  rw [be32, ← split, length_be16]

end H264Streaming.Bytes.Buffer
