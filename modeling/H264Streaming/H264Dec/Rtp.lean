import H264Streaming.Bytes.Text
import H264Streaming.H264Dec.Demux

/-! rtp_parse and the RTP statistics of h264dec (h264dec/rtp.c, rtp.h, streamer.c). -/

set_option autoImplicit false

namespace H264Streaming.H264Dec

open H264Streaming.Bytes H264Streaming.Semantics

/-- MAX_BUF_SIZE of buffer.h, the capacity of `payload`. -/
def payloadCapacity : Nat := 65536 * 10

structure Timeval where
  sec : Int
  usec : Int
  deriving DecidableEq, Repr

structure RtpHeader where
  version : UInt8
  padding : UInt8
  extension : UInt8
  cc : UInt8
  marker : UInt8
  pt : UInt8
  seq : UInt16
  ts : UInt32
  ssrc : UInt32
  deriving DecidableEq, Repr

structure RtpStats where
  firstSeq : UInt16
  highestSeq : UInt16
  rtpReceived : UInt16
  rtpIdentifier : UInt32
  rtpTs : UInt32
  rtpCumLost : UInt32
  rtpExpectedPrior : UInt32
  rtpReceivedPrior : UInt32
  transit : UInt32
  jitter : UInt32
  lastRcvSRTs : UInt32
  delaySncLastSR : UInt32
  lastRcvSRTime : Timeval
  lastRcvTime : Timeval
  deriving DecidableEq, Repr

def RtpStats.reset : RtpStats := ⟨0, 0, 0, 0, 0, 0, 0, 0, 0, 0, 0, 0, ⟨0, 0⟩, ⟨0, 0⟩⟩

def checkBit (octet : UInt8) (pos : Nat) : UInt8 := bit (octet.toNat.testBit pos)

/-- The header in front of the payload. `cc` is a field of four bits. -/
def decodeHeader (raw : Buffer) : RtpHeader where
  version := raw.byte 0 >>> 6
  padding := checkBit (raw.byte 0) 5
  extension := checkBit (raw.byte 0) 4
  cc := raw.byte 0 &&& 0x0F
  marker := checkBit (raw.byte 1) 8
  pt := raw.byte 1 &&& 0x7F
  seq := UInt16.ofNat (value16 (raw.byte 2) (raw.byte 3))
  ts := UInt32.ofNat (valueBE (raw.read 4 4))
  ssrc := UInt32.ofNat (valueBE (raw.read 8 4))

/-- The comparison of rtp_stats_update and of the end of rtp_parse. -/
def RtpStats.highest (rtpSt : RtpStats) (seq : UInt16) : RtpStats :=
  if rtpSt.highestSeq < seq then { rtpSt with highestSeq := seq } else rtpSt

/-- `jitter += (1.0/16.0) * ((double) delta - jitter)`, where every double is exact. -/
def nextJitter (jitter : UInt32) (delta : Nat) : UInt32 := UInt32.ofNat ((15 * jitter.toNat + delta) / 16)

def rtpStatsUpdate (now : Timeval) (rtpH : RtpHeader) (rtpSt : RtpStats) : RtpStats :=
  let rtpSt := { rtpSt with rtpReceived := rtpSt.rtpReceived + 1 }
  let rtpSt := rtpSt.highest rtpH.seq
  let rtpSt := if rtpSt.lastRcvTime.sec = 0 then { rtpSt with firstSeq := rtpH.seq, lastRcvTime := now } else rtpSt
  let transit := rtpSt.delaySncLastSR
  let delta := toInt32 (transit - rtpSt.transit).toNat
  { rtpSt with transit, jitter := nextJitter rtpSt.jitter delta.natAbs, rtpTs := rtpH.ts }

/-! ### The streamer -/

/-- What streamer_write or streamer_write_nal is handed: octets, or a range that
reaches past the payload array. -/
inductive Write where
  | octets (bytes : List UInt8)
  | beyond (offset count : Nat)
  deriving DecidableEq

def streamerWriteNal : Write := .octets [0, 0, 0, 1]

def streamerWrite (payload : Buffer) (offset count : Nat) : Write :=
  if offset + count ≤ payloadCapacity then .octets (payload.read offset count) else .beyond offset count

structure Call where
  returned : Nat
  writes : List Write
  deriving DecidableEq

/-! ### rtp_parse -/

def payloadArray (raw : Buffer) (paysize : Nat) : Buffer :=
  (Buffer.untouched fun _ => 0).write 0 (raw.read 12 paysize)

theorem byte_payloadArray (storage : Buffer) {octets : List UInt8} (headed : 12 ≤ octets.length) (k : Nat) :
    (payloadArray (storage.write 0 octets) (octets.length - 12)).byte k = (octets.drop 12)[k]?.getD 0 := by
  have length : (octets.drop 12).length = octets.length - 12 := List.length_drop
  have read := storage.read_write_inside 0 octets (show 12 + (octets.length - 12) ≤ octets.length by omega)
  rw [Nat.zero_add, ← length, List.take_length, length] at read
  rw [payloadArray, read]
  simp [Buffer.write, Buffer.untouched]

def writeSingle (payload : Buffer) : List Write :=
  -- sizeof(paysize) octets
  [streamerWriteNal, streamerWrite payload 0 4]

/-- The loop over an aggregate; `q` is `payload + 1`. -/
def writeStapA (payload : Buffer) (paysize nidx : Nat) : List Write :=
  if nidx < paysize - 1 then
    let naluSize := value16 (payload.byte (1 + nidx)) (payload.byte (1 + nidx + 1))
    -- one octet of the little-endian nalu_size
    let size := Write.octets [UInt8.ofNat naluSize]
    if naluSize = 0 then streamerWriteNal :: size :: writeStapA payload paysize (nidx + 2 + 1)
    else
      streamerWriteNal :: size :: streamerWrite payload (1 + (nidx + 2)) naluSize ::
        writeStapA payload paysize (nidx + 2 + naluSize)
  else []
  termination_by paysize - nidx

def writeFuA (payload : Buffer) (paysize : Nat) : List Write :=
  let startBit := payload.byte 1 &&& 0x80
  let type := payload.byte 1 &&& 0x1F
  let nri := (payload.byte 0 &&& 0x60) >>> 5
  let key := (nri <<< 5) ||| type
  let data := streamerWrite payload 2 (unsignedSub paysize 2)
  if startBit ≠ 0 then [streamerWriteNal, .octets [key], data] else [data]

def writePayload (payload : Buffer) (paysize : Nat) : List Write :=
  let nalType := payload.byte 0 &&& 0x1F
  if 1 ≤ nalType ∧ nalType ≤ 23 then writeSingle payload
  else if nalType = 24 then writeStapA payload paysize 0
  else if nalType = 28 then writeFuA payload paysize
  else []

/-- The types of the last branch, for which raw_offset is stepped once more. -/
def otherNal (nalType : UInt8) : Bool := ¬ (nalType ≤ 24 ∨ nalType = 28)

/-- rtp_parse. It fails when memcpy overruns `payload`, as it does for a size below 12. -/
def rtpParse (now : Timeval) (raw : Buffer) (size : Nat) (rtpSt : RtpStats) : Option (Traced RtpStats Call) :=
  let rtpH := decodeHeader raw
  let paysize := unsignedSub size 12
  if payloadCapacity < paysize then none
  else
    let payload := payloadArray raw paysize
    let rtpSt := rtpStatsUpdate now rtpH { rtpSt with rtpIdentifier := rtpH.ssrc }
    let rawOffset := if otherNal (payload.byte 0 &&& 0x1F) then 13 else 12
    some ⟨rtpSt.highest rtpH.seq, [⟨rawOffset + paysize, writePayload payload paysize⟩]⟩

structure Arrival where
  storage : Buffer
  now : Timeval
  header : List UInt8
  payload : List UInt8
  plain : header.length = 12
  sized : 12 + payload.length < 4294967296

def Arrival.size (arrival : Arrival) : Nat := 12 + arrival.payload.length

def Arrival.raw (arrival : Arrival) : Buffer := arrival.storage.write 0 (arrival.header ++ arrival.payload)

def parseArrival (arrival : Arrival) (rtpSt : RtpStats) : Option (Traced RtpStats Call) :=
  rtpParse arrival.now arrival.raw arrival.size rtpSt

end H264Streaming.H264Dec
