import H264Streaming.Format.Layout
import H264Streaming.Format.Packet
import H264Streaming.H264Dec.Rtp
import H264Streaming.RtpSend.RTPEnc

/-! What rtp_parse decodes of a packet with any of its optional parts. -/

set_option autoImplicit false

namespace H264Streaming.H264Dec

open H264Streaming.Bytes H264Streaming.Format H264Streaming.Semantics

/-- The octets that rtp_parse interprets: `payload` up to paysize, unless memcpy overruns it. -/
def interpreted (raw : Buffer) (size : Nat) : Option (List UInt8) :=
  let paysize := unsignedSub size 12
  if payloadCapacity < paysize then none else some ((payloadArray raw paysize).read 0 paysize)

theorem rtpParse_eq (now : Timeval) (raw : Buffer) (size : Nat) (rtpSt : RtpStats) :
    rtpParse now raw size rtpSt = (interpreted raw size).map fun octets =>
      let rtpH := decodeHeader raw
      let payload := (Buffer.untouched fun _ => 0).write 0 octets
      let updated := rtpStatsUpdate now rtpH { rtpSt with rtpIdentifier := rtpH.ssrc }
      let rawOffset := if otherNal (payload.byte 0 &&& 0x1F) then 13 else 12
      ⟨updated.highest rtpH.seq, [⟨rawOffset + octets.length, writePayload payload octets.length⟩]⟩ := by
  have stored : (payloadArray raw (unsignedSub size 12)).read 0 (unsignedSub size 12) =
      raw.read 12 (unsignedSub size 12) := by
    have same := Buffer.read_write_self (.untouched fun _ => 0) 0 (raw.read 12 (unsignedSub size 12))
    rwa [Buffer.length_read] at same
  unfold rtpParse interpreted
  dsimp only
  rw [stored]
  split
  · rfl
  · rw [Option.map_some, Buffer.length_read]
    rfl

def encoded (packet : RtpPacket) : RtpHeader where
  version := 2
  padding := bit packet.filler.isSome
  extension := bit packet.extension.isSome
  cc := UInt8.ofNat packet.csrc.length
  marker := bit packet.marker
  pt := packet.payloadType
  seq := packet.seq
  ts := packet.timestamp
  ssrc := packet.ssrc

structure ReceivedPacket where
  storage : Buffer
  packet : RtpPacket
  sized : packet.octets.length < 4294967296

def ReceivedPacket.raw (received : ReceivedPacket) : Buffer := received.storage.write 0 received.packet.octets

def ReceivedPacket.Decoded (received : ReceivedPacket) : Prop :=
  decodeHeader received.raw = encoded received.packet ∧
    interpreted received.raw received.packet.octets.length = some received.packet.payload

/-- The packets that rtp_parse decodes: no marker, no optional part, and no overrun of `payload`. -/
def Plain (packet : RtpPacket) : Prop :=
  packet.marker = false ∧ packet.csrc = [] ∧ packet.extension = none ∧ packet.filler = none ∧
    packet.payload.length ≤ payloadCapacity

/-! ### The fixed header -/

theorem decodeHeader_of_read {raw : Buffer} {flags markedType : UInt8} {seq time ssrc : Nat}
    (headed : raw.read 0 12 = [flags, markedType] ++ be16 seq ++ be32 time ++ be32 ssrc) :
    decodeHeader raw =
      { version := flags >>> 6
        padding := checkBit flags 5
        extension := checkBit flags 4
        cc := flags &&& 0x0F
        marker := checkBit markedType 8
        pt := markedType &&& 0x7F
        seq := UInt16.ofNat seq
        ts := UInt32.ofNat time
        ssrc := UInt32.ofNat ssrc } := by
  have octet : ∀ k < 12, raw.byte k = ([flags, markedType] ++ be16 seq ++ be32 time ++ be32 ssrc)[k]?.getD 0 := by
    intro k below
    rw [Buffer.byte_of_read headed below, Nat.zero_add, Option.getD_some]
  have word : ∀ k ≤ 8, raw.read k 4 = (([flags, markedType] ++ be16 seq ++ be32 time ++ be32 ssrc).drop k).take 4 := by
    intro k below
    have tail := raw.read_drop 0 12 (show k ≤ 12 by omega)
    rw [Nat.zero_add, headed] at tail
    rw [tail, Buffer.read_take _ _ _ (by omega)]
  have timeWord : raw.read 4 4 = be32 time := word 4 (by decide)
  have ssrcWord : raw.read 8 4 = be32 ssrc := word 8 (by decide)
  have first : raw.byte 0 = flags := octet 0 (by decide)
  have second : raw.byte 1 = markedType := octet 1 (by decide)
  have high : raw.byte 2 = UInt8.ofNat (seq / 256) := octet 2 (by decide)
  have low : raw.byte 3 = UInt8.ofNat seq := octet 3 (by decide)
  rw [decodeHeader, first, second, high, low, timeWord, ssrcWord, value16_be16, valueBE_be32, valueBE_be32]
  simp only [RtpHeader.mk.injEq, true_and]
  refine ⟨?_, ?_, ?_⟩
  · apply UInt16.toNat_inj.mp
    simp
  · apply UInt32.toNat_inj.mp
    simp
  · apply UInt32.toNat_inj.mp
    simp

theorem checkBit_eight (octet : UInt8) : checkBit octet 8 = 0 := by
  have clear : octet.toNat.testBit 8 = false := Nat.testBit_lt_two_pow octet.toNat_lt
  rw [checkBit, clear]
  rfl

theorem flags_bits (padding extension : Bool) {count : Nat} (small : count ≤ 15) :
    let flags := 0x80 ||| (bit padding <<< (5 : UInt8)) ||| (bit extension <<< (4 : UInt8)) ||| UInt8.ofNat count
    flags >>> 6 = 2 ∧ checkBit flags 5 = bit padding ∧ checkBit flags 4 = bit extension ∧
      flags &&& 0x0F = UInt8.ofNat count := by
  have all : ∀ count : Fin 16, ∀ padding extension : Bool,
      let flags := 0x80 ||| (bit padding <<< (5 : UInt8)) ||| (bit extension <<< (4 : UInt8)) ||| UInt8.ofNat count
      flags >>> 6 = 2 ∧ checkBit flags 5 = bit padding ∧ checkBit flags 4 = bit extension ∧
        flags &&& 0x0F = UInt8.ofNat count := by
    decide
  exact all ⟨count, by omega⟩ padding extension

theorem markedType_type (marker : Bool) {payloadType : UInt8} (typed : payloadType < 128) :
    ((bit marker <<< (7 : UInt8)) ||| payloadType) &&& 0x7F = payloadType := by
  have all : ∀ octet : UInt8, octet < 128 → ((bit marker <<< (7 : UInt8)) ||| octet) &&& 0x7F = octet :=
    forall_octet (by cases marker <;> decide +kernel)
  exact all payloadType typed

theorem decodeHeader_packet (received : ReceivedPacket) :
    decodeHeader received.raw = { encoded received.packet with marker := 0 } := by
  have headed : received.raw.read 0 12 = received.packet.fixed := by
    have inside : 0 + 12 ≤ received.packet.octets.length := by
      rw [RtpPacket.octets, List.length_append, RtpPacket.length_fixed]
      omega
    have front := received.storage.read_write_inside 0 received.packet.octets inside
    rw [RtpPacket.octets] at front
    exact front.trans (List.take_left' rfl)
  obtain ⟨version, padding, extension, count⟩ :=
    flags_bits received.packet.filler.isSome received.packet.extension.isSome received.packet.counted
  have payloadType := markedType_type received.packet.marker received.packet.typed
  rw [decodeHeader_of_read headed, encoded, RtpPacket.flags, RtpPacket.markedType, version, padding, extension,
    count, payloadType, checkBit_eight, UInt16.ofNat_toNat, UInt32.ofNat_toNat, UInt32.ofNat_toNat]

/-! ### The payload -/

theorem interpreted_packet (received : ReceivedPacket) :
    interpreted received.raw received.packet.octets.length =
      let behind := received.packet.options ++ received.packet.payload ++ received.packet.padding
      if payloadCapacity < behind.length then none else some behind := by
  have length : received.packet.octets.length =
      12 + (received.packet.options ++ received.packet.payload ++ received.packet.padding).length := by
    rw [RtpPacket.octets, List.length_append, RtpPacket.length_fixed]
  have paysize : unsignedSub received.packet.octets.length 12 =
      (received.packet.options ++ received.packet.payload ++ received.packet.padding).length := by
    rw [unsignedSub_of_le (by omega) received.sized, length, Nat.add_sub_cancel_left]
  have stored := read_behind received.storage received.packet.length_fixed
    (received.packet.options ++ received.packet.payload ++ received.packet.padding)
  have array := Buffer.read_write_self (.untouched fun _ => 0) 0
    (received.packet.options ++ received.packet.payload ++ received.packet.padding)
  unfold interpreted payloadArray
  dsimp only
  rw [paysize, ReceivedPacket.raw, RtpPacket.octets, stored, array]

/-- rtp_parse decodes a packet exactly when it is plain. -/
theorem decoded_iff_plain (received : ReceivedPacket) : received.Decoded ↔ Plain received.packet := by
  unfold ReceivedPacket.Decoded Plain
  rw [decodeHeader_packet, interpreted_packet]
  have marker : { encoded received.packet with marker := 0 } = encoded received.packet ↔
      received.packet.marker = false := by
    cases mark : received.packet.marker <;> simp [encoded, mark, bit]
  rw [marker]
  dsimp only
  constructor
  · rintro ⟨unmarked, whole⟩
    split at whole
    · cases whole
    · rename_i fits
      have same := Option.some.inj whole
      obtain ⟨noSources, noExtension, noFiller⟩ := received.packet.behind_eq_payload_iff.mp same
      rw [same] at fits
      exact ⟨unmarked, noSources, noExtension, noFiller, Nat.le_of_not_lt fits⟩
  · rintro ⟨unmarked, noSources, noExtension, noFiller, fits⟩
    have same := received.packet.behind_eq_payload_iff.mpr ⟨noSources, noExtension, noFiller⟩
    rw [same, if_neg (Nat.not_lt.mpr fits)]
    exact ⟨unmarked, rfl⟩

def markedPacket : ReceivedPacket where
  storage := .untouched fun _ => 0
  packet := .plain true 7 3600 0x12345678 [0x67, 0x42, 0, 0x1E]
  sized := by decide

theorem marker_lost :
    (decodeHeader markedPacket.raw).marker = 0 ∧ (encoded markedPacket.packet).marker = 1 ∧
      ¬ markedPacket.Decoded := by
  have read : (decodeHeader markedPacket.raw).marker = 0 := by
    rw [decodeHeader_packet]
  refine ⟨read, rfl, ?_⟩
  rintro ⟨same, -⟩
  rw [same] at read
  cases read

/-! ### The header that h264RtpSend writes -/

def sentPacket (ctx : RtpSend.RTPMuxContext) (buf : List UInt8) (mark : Int) : RtpPacket :=
  .plain (mark % 2 = 1) ctx.seq.toUInt16 ctx.timestamp ctx.ssrc buf

theorem rtpSendData_octets (ctx : RtpSend.RTPMuxContext) (buf : List UInt8) (mark : Int) :
    (RtpSend.rtpSendData ctx buf mark).events = [⟨buf, (sentPacket ctx buf mark).octets⟩] := by
  have marker : UInt8.ofNat (mark % 2).toNat = bit (mark % 2 = 1) := by
    rcases Int.emod_two_eq mark with even | odd
    · rw [even]
      rfl
    · rw [odd]
      rfl
  have seq : be16 ctx.seq.toNat = be16 ctx.seq.toUInt16.toNat := (RtpSend.be16_low ctx.seq).symm
  rw [RtpSend.rtpSendData_events, sentPacket, RtpPacket.octets_plain, RtpSend.RTPMuxContext.header, marker, rtpHeader,
    seq, rtpHeader]

theorem decodeHeader_sent (ctx : RtpSend.RTPMuxContext) (buf : List UInt8) (mark : Int) (storage : Buffer)
    (sized : (sentPacket ctx buf mark).octets.length < 4294967296) :
    ∀ packet ∈ (RtpSend.rtpSendData ctx buf mark).events,
      decodeHeader (storage.write 0 packet.datagram) = { encoded (sentPacket ctx buf mark) with marker := 0 } := by
  intro packet member
  rw [rtpSendData_octets] at member
  rw [List.mem_singleton.mp member]
  exact decodeHeader_packet ⟨storage, sentPacket ctx buf mark, sized⟩

end H264Streaming.H264Dec
