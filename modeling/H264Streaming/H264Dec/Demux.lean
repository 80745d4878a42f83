import H264Streaming.Bytes.Buffer
import H264Streaming.Bytes.Words
import H264Streaming.Semantics.Traced

/-! The receive loop of rtsp_loop (h264dec/rtsp.c).

One step is one recv and the parsing that follows it. What rtp_parse returns is a
parameter; the reports sent to the server in between do not touch the buffer.
-/

set_option autoImplicit false

namespace H264Streaming.H264Dec

open H264Streaming.Bytes H264Streaming.Semantics

def maxBufSize : Nat := 1000000

/-- `raw`, `raw_offset` and `raw_length`; `running` until the process exits. -/
structure Demux where
  raw : Buffer
  rawOffset : Nat
  rawLength : Nat
  running : Bool

/-- A call of rtcp_decode (`channel` at least one) or rtp_parse, and whether its octets had all arrived. -/
structure Handed where
  channel : UInt8
  payload : List UInt8
  arrived : Bool
  deriving DecidableEq

def memset (raw : Buffer) : Buffer := raw.write 0 (List.replicate maxBufSize 0)

def Demux.clear (d : Demux) : Demux := { d with raw := memset d.raw, rawOffset := 0, rawLength := 0 }

def Demux.start (memory : Nat → UInt8) : Demux := Demux.clear ⟨.untouched memory, 0, 0, true⟩

/-- The reset block in front of recv. -/
def reset (d : Demux) : Demux :=
  if maxBufSize ≤ d.rawLength then
    if d.rawOffset < d.rawLength - 1 then
      let bytes := d.rawLength - d.rawOffset
      { d with raw := (memset d.raw).write 0 (d.raw.read d.rawOffset bytes), rawLength := bytes, rawOffset := 0 }
    else { d with raw := memset d.raw, rawLength := 0 }
  else d

def unsignedSub (left right : Nat) : Nat := (left + 4294967296 - right) % 4294967296

theorem unsignedSub_of_le {left right : Nat} (ordered : right ≤ left) (bounded : left < 4294967296) :
    unsignedSub left right = left - right := by
  unfold unsignedSub
  omega

/-- How far raw_offset moves past the payload. -/
def consumed (rtpParse : List UInt8 → Int) (channel : UInt8) (payload : List UInt8) : Nat :=
  if 1 ≤ channel then payload.length
  else if rtpParse payload ≤ 0 then payload.length
  else (rtpParse payload).toNat

def parse (rtpParse : List UInt8 → Int) (d : Demux) : Traced Demux Handed :=
  if d.rawOffset < d.rawLength then
    if d.raw.byte d.rawOffset = 0x24 then
      let channel := d.raw.byte (d.rawOffset + 1)
      let rtpLength := value16 (d.raw.byte (d.rawOffset + 2)) (d.raw.byte (d.rawOffset + 3))
      if rtpLength = 0 then .quiet d
      else if unsignedSub d.rawLength (d.rawOffset + 4) < rtpLength then .quiet d
      else
        let payload := d.raw.read (d.rawOffset + 4) rtpLength
        let later := parse rtpParse { d with rawOffset := d.rawOffset + 4 + consumed rtpParse channel payload }
        ⟨later.state, ⟨channel, payload, d.rawOffset + 4 + rtpLength ≤ d.rawLength⟩ :: later.events⟩
    else parse rtpParse { d with rawOffset := d.rawOffset + 1 }
  else .quiet d.clear
  termination_by d.rawLength - d.rawOffset

/-- One recv, which stores no more than it was asked for, and the parsing behind it. -/
def step (rtpParse : List UInt8 → Int) (chunk : List UInt8) (d : Demux) : Traced Demux Handed :=
  if d.running then
    let d := reset d
    let r := chunk.take (maxBufSize - d.rawLength)
    -- an empty result is the closed connection, at which the process exits
    if r = [] then .quiet { d with running := false }
    else parse rtpParse { d with raw := d.raw.write d.rawLength r, rawLength := d.rawLength + r.length }
  else .quiet d

end H264Streaming.H264Dec
