import H264Streaming.Format.Rtp

/-! RTP packets with every optional part: CSRC list, header extension and padding. -/

set_option autoImplicit false

namespace H264Streaming.Format

open H264Streaming.Bytes

/-- A header extension counts its 32-bit words. -/
structure HeaderExtension where
  profile : UInt16
  words : List UInt32
  sized : words.length < 65536

def HeaderExtension.octets (extension : HeaderExtension) : List UInt8 :=
  be16 extension.profile.toNat ++ be16 extension.words.length ++ extension.words.flatMap fun word => be32 word.toNat

/-- The octets of padding in front of the last one, which counts them all. -/
structure Filler where
  octets : List UInt8
  sized : octets.length < 255

def Filler.padding (filler : Filler) : List UInt8 := filler.octets ++ [UInt8.ofNat (filler.octets.length + 1)]

structure RtpPacket where
  marker : Bool
  payloadType : UInt8
  seq : UInt16
  timestamp : UInt32
  ssrc : UInt32
  csrc : List UInt32
  extension : Option HeaderExtension
  payload : List UInt8
  filler : Option Filler
  typed : payloadType < 128
  counted : csrc.length ≤ 15

namespace RtpPacket

def flags (packet : RtpPacket) : UInt8 :=
  0x80 ||| (bit packet.filler.isSome <<< (5 : UInt8)) ||| (bit packet.extension.isSome <<< (4 : UInt8)) |||
    UInt8.ofNat packet.csrc.length

def markedType (packet : RtpPacket) : UInt8 := (bit packet.marker <<< (7 : UInt8)) ||| packet.payloadType

def fixed (packet : RtpPacket) : List UInt8 :=
  [packet.flags, packet.markedType] ++ be16 packet.seq.toNat ++ be32 packet.timestamp.toNat ++ be32 packet.ssrc.toNat

def options (packet : RtpPacket) : List UInt8 :=
  (packet.csrc.flatMap fun source => be32 source.toNat) ++
    (packet.extension.map HeaderExtension.octets).getD []

def padding (packet : RtpPacket) : List UInt8 := (packet.filler.map Filler.padding).getD []

def octets (packet : RtpPacket) : List UInt8 :=
  packet.fixed ++ (packet.options ++ packet.payload ++ packet.padding)

variable (packet : RtpPacket)

@[simp] theorem length_fixed : packet.fixed.length = 12 := rfl

theorem options_eq_nil_iff : packet.options = [] ↔ packet.csrc = [] ∧ packet.extension = none := by
  unfold options
  cases packet.csrc <;> cases packet.extension <;> simp [be32, be16, HeaderExtension.octets]

theorem padding_eq_nil_iff : packet.padding = [] ↔ packet.filler = none := by
  unfold padding
  cases packet.filler <;> simp [Filler.padding]

/-- What stands behind the fixed header is the payload exactly when no optional part is there. -/
theorem behind_eq_payload_iff :
    packet.options ++ packet.payload ++ packet.padding = packet.payload ↔
      packet.csrc = [] ∧ packet.extension = none ∧ packet.filler = none := by
  rw [← and_assoc, ← options_eq_nil_iff, ← padding_eq_nil_iff]
  constructor
  · intro same
    have lengths := congrArg List.length same
    rw [List.length_append, List.length_append] at lengths
    exact ⟨List.length_eq_zero_iff.mp (by omega), List.length_eq_zero_iff.mp (by omega)⟩
  · rintro ⟨noOptions, noPadding⟩
    rw [noOptions, noPadding, List.nil_append, List.append_nil]

end RtpPacket

def RtpPacket.plain (final : Bool) (seq : UInt16) (timestamp ssrc : UInt32) (payload : List UInt8) : RtpPacket where
  marker := final
  payloadType := 96
  seq := seq
  timestamp := timestamp
  ssrc := ssrc
  csrc := []
  extension := none
  payload := payload
  filler := none
  typed := by decide
  counted := Nat.zero_le _

theorem RtpPacket.octets_plain (final : Bool) (seq : UInt16) (timestamp ssrc : UInt32) (payload : List UInt8) :
    (plain final seq timestamp ssrc payload).octets =
      rtpHeader (bit final) seq.toNat timestamp.toNat ssrc.toNat ++ payload := by
  have flags : (plain final seq timestamp ssrc payload).flags = 0x80 := by
    change 0x80 ||| (bit false <<< (5 : UInt8)) ||| (bit false <<< (4 : UInt8)) ||| UInt8.ofNat 0 = 0x80
    decide
  have markedType : (plain final seq timestamp ssrc payload).markedType = 0x60 ||| (bit final <<< (7 : UInt8)) :=
    UInt8.or_comm _ _
  rw [octets, fixed, flags, markedType]
  simp [options, padding, plain, rtpHeader]

end H264Streaming.Format
