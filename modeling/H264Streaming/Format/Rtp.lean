import H264Streaming.Bytes.Words

/-! The fixed RTP header, as a sender writes it and as a receiver reads it. -/

set_option autoImplicit false

namespace H264Streaming.Format

open H264Streaming.Bytes

/-- Version 2, no padding, extension or CSRC; payload type 96. -/
def rtpHeader (marker : UInt8) (seq timestamp ssrc : Nat) : List UInt8 :=
  [0x80, 0x60 ||| (marker <<< (7 : UInt8))] ++ be16 seq ++ be32 timestamp ++ be32 ssrc

def sequenceNumber (datagram : List UInt8) : Nat := valueBE ((datagram.drop 2).take 2)

def timestamp (datagram : List UInt8) : Nat := valueBE ((datagram.drop 4).take 4)

def marked (datagram : List UInt8) : Bool := datagram.getD 1 0 &&& 0x80 ≠ 0

variable (marker : UInt8) (seq time ssrc : Nat) (rest : List UInt8)

@[simp] theorem length_rtpHeader : (rtpHeader marker seq time ssrc).length = 12 := rfl

theorem sequenceNumber_rtpHeader : sequenceNumber (rtpHeader marker seq time ssrc ++ rest) = seq % 65536 :=
  valueBE_be16 seq

theorem timestamp_rtpHeader : timestamp (rtpHeader marker seq time ssrc ++ rest) = time % 4294967296 :=
  valueBE_be32 time

theorem marked_rtpHeader (final : Bool) :
    marked (rtpHeader (bit final) seq time ssrc ++ rest) = final := by
  cases final
  · exact decide_eq_false (by simp [rtpHeader, bit]; decide)
  · exact decide_eq_true (by simp [rtpHeader, bit]; decide)

end H264Streaming.Format
