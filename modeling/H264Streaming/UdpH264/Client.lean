import H264Streaming.Bytes.Buffer
import H264Streaming.Bytes.Words
import H264Streaming.Semantics.Traced

/-! The receiver of udp_h264 (Client.c). Events are the octets written to the file. -/

set_option autoImplicit false

namespace H264Streaming.UdpH264

open H264Streaming.Bytes H264Streaming.Semantics

structure Client where
  buf : Buffer
  rtpnum : Int
  naluLen : Int

/-- `fwrite(&buf[offset], 1, count, savefp)`. A negative count becomes a size past every buffer. -/
def fwrite (buf : Buffer) (offset : Nat) (count : Int) : Option (List UInt8) :=
  if 0 ≤ count then some (buf.read offset count.toNat) else none

def nalHeader (type nri f : UInt8) : UInt8 :=
  (type &&& 0x1f) ||| (nri <<< (5 : UInt8)) ||| (f <<< (7 : UInt8))

/-- E is looked at before S, so a fragment with both gets no start code. -/
def decodeRtp2h264 (len : Int) (c : Client) : Option (Traced Client UInt8) :=
  let first := c.buf.byte 12
  if getBits first 0 5 = 28 then
    let fuHeader := c.buf.byte 13
    let c := { c with naluLen := c.naluLen + len - 14 }
    (fwrite c.buf 14 (len - 14)).map fun data =>
      if getBits fuHeader 6 1 = 1 then ⟨{ c with rtpnum := c.rtpnum + 1, naluLen := 0 }, data⟩
      else if getBits fuHeader 7 1 = 1 then
        ⟨c, [0, 0, 0, 1, nalHeader (getBits fuHeader 0 5) (getBits first 5 2) (getBits first 7 1)] ++ data⟩
      else ⟨c, data⟩
  else
    (fwrite c.buf 13 (len - 13)).map fun data =>
      ⟨{ c with rtpnum := c.rtpnum + 1 },
        [0, 0, 0, 1, nalHeader (getBits first 0 5) (getBits first 5 2) (getBits first 7 1)] ++ data⟩

def receive (datagram : List UInt8) (c : Client) : Option (Traced Client UInt8) :=
  decodeRtp2h264 datagram.length { c with buf := c.buf.write 0 datagram }

end H264Streaming.UdpH264
