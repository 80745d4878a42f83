import H264Streaming.Bytes.Buffer
import H264Streaming.Bytes.Words

/-! The byte-stream parser of h264Send (h264bytestreamparser.cpp, h264nalpacket.cpp).

The file is the list of octets not read yet. -/

set_option autoImplicit false

namespace H264Streaming.H264Send

open H264Streaming.Bytes

/-! ### h264nalpacket.cpp -/

def maxNalBufSize : Nat := 1500 * 100

structure H264NalPacket where
  numBytesinNALUnit : Nat
  forbidenZeroBit : Bool
  nalRefIdc : UInt8
  nalUnitType : UInt8
  rbsp : Option (List UInt8)
  deriving DecidableEq

def H264NalPacket.init : H264NalPacket := ⟨0, false, 0, 0, none⟩

/-- The constructor; the copy in RBSP has a zero octet behind it. -/
def H264NalPacket.of (data : List UInt8) : H264NalPacket :=
  let packet := { H264NalPacket.init with numBytesinNALUnit := data.length }
  if 0 < data.length then
    { packet with
      forbidenZeroBit := (data.headD 0 &&& 0x80) >>> (7 : UInt8) ≠ 0
      nalRefIdc := (data.headD 0 &&& 0x60) >>> (5 : UInt8)
      nalUnitType := data.headD 0 &&& 0x1F
      rbsp := some (data ++ [0]) }
  else packet

/-! ### h264bytestreamparser.cpp -/

/-- The locals of next_nalu; `buff` holds its first `len` octets. -/
structure Scan where
  buff : List UInt8
  tmpbuf : Buffer
  flag : Nat

/-- `buff[len] = octet; (len)++;` which fails past the end of `buff`. -/
def Scan.store (s : Scan) (octet : UInt8) : Option Scan :=
  if s.buff.length < maxNalBufSize then some { s with buff := s.buff ++ [octet] } else none

inductive Turn where
  | next (s : Scan)
  | packet (nal : H264NalPacket)

/-- A start code is complete; it ends a unit if there is one. -/
def Scan.complete (s : Scan) : Turn :=
  let s := { s with flag := 0 }
  if 0 < s.buff.length then .packet (.of s.buff) else .next s

def Scan.advance (tmpbuf2 : UInt8) (s : Scan) : Option Turn :=
  if s.flag = 0 ∧ tmpbuf2 ≠ 0 then (s.store tmpbuf2).map .next
  else if s.flag = 0 ∧ tmpbuf2 = 0 then some (.next { s with flag := 1, tmpbuf := s.tmpbuf.write 0 [tmpbuf2] })
  else
    match s.flag with
    | 1 =>
        if tmpbuf2 = 0 then some (.next { s with flag := 2, tmpbuf := s.tmpbuf.write 1 [tmpbuf2] })
        else do
          let s ← Scan.store { s with flag := 0 } (s.tmpbuf.byte 0)
          let s ← s.store tmpbuf2
          return .next s
    | 2 =>
        if tmpbuf2 = 0 then some (.next { s with flag := 3, tmpbuf := s.tmpbuf.write 2 [tmpbuf2] })
        else if tmpbuf2 = 1 then some s.complete
        else do
          let s ← Scan.store { s with flag := 0 } (s.tmpbuf.byte 0)
          let s ← s.store (s.tmpbuf.byte 1)
          let s ← s.store tmpbuf2
          return .next s
    | 3 => if tmpbuf2 = 1 then some s.complete else some (.next { s with flag := 0 })
    | _ => some (.next s)

/-- The loop: a result, none for NULL, and the rest of the file. -/
def nextNaluLoop : List UInt8 → Scan → Option (Option H264NalPacket × List UInt8)
  | [], _ => some (none, [])
  | octet :: rest, s => do
      match ← s.advance octet with
      | .next s => nextNaluLoop rest s
      | .packet nal => return (some nal, rest)

/-- `content` is what the stack holds where tmpbuf is. -/
def nextNalu (content : Nat → UInt8) (h264file : List UInt8) : Option (Option H264NalPacket × List UInt8) :=
  nextNaluLoop h264file ⟨[], .untouched content, 0⟩

def nextNalus (content : Nat → UInt8) : Nat → List UInt8 → Option (List (Option H264NalPacket))
  | 0, _ => some []
  | calls + 1, h264file => do
      let (nal, rest) ← nextNalu content h264file
      let others ← nextNalus content calls rest
      return nal :: others

end H264Streaming.H264Send
