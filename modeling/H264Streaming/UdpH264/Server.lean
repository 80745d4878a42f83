import H264Streaming.Bytes.Fields
import H264Streaming.Semantics.Traced

/-! The packetizing part of udp_h264's sender (Server.c, main; h264.h). -/

set_option autoImplicit false

namespace H264Streaming.UdpH264

open H264Streaming.Bytes H264Streaming.Semantics

def udpMaxSize : Nat := 1400
def sendBufSize : Nat := 1500
def h264 : UInt8 := 96
def ssrcNum : Nat := 10
def timestampIncrese : UInt32 := 3600

structure NALU where
  len : Nat
  forbiddenBit : UInt8
  nalReferenceIdc : UInt8
  nalUnitType : UInt8
  buf : List UInt8

/-- The fields as GetAnnexbNALU sets them for the unit it has read. -/
def NALU.of (unit : List UInt8) : NALU where
  len := unit.length
  forbiddenBit := unit.headD 0 &&& 0x80
  nalReferenceIdc := unit.headD 0 &&& 0x60
  nalUnitType := unit.headD 0 &&& 0x1f
  buf := unit

structure Server where
  sendbuf : Buffer
  seqNum : UInt16
  tsCurrent : UInt32

/-- Clearing of `sendbuf` and the RTP header, the same in all four copies but for the marker. -/
def fillRtpHdr (s : Server) (marker : UInt8) : Server :=
  let b := s.sendbuf.write 0 (List.replicate sendBufSize 0)
  let b := b.setBits 0 0 4 0
  let b := b.setBits 0 4 1 0
  let b := b.setBits 0 5 1 0
  let b := b.setBits 0 6 2 2
  let b := b.setBits 1 0 7 h264
  let b := b.setBits 1 7 1 marker
  let seqNum := s.seqNum + 1
  let b := b.write 2 (be16 (seqNum.toNat % 65535))
  let b := b.write 4 (be32 s.tsCurrent.toNat)
  let b := b.write 8 (be32 ssrcNum)
  { s with seqNum, sendbuf := b }

def fillNaluHdr (s : Server) (nFrame : NALU) (type : UInt8) : Server :=
  let b := s.sendbuf.setBits 12 7 1 (nFrame.forbiddenBit >>> (7 : UInt8))
  let b := b.setBits 12 5 2 (nFrame.nalReferenceIdc >>> (5 : UInt8))
  { s with sendbuf := b.setBits 12 0 5 type }

def fillFuHdr (s : Server) (nFrame : NALU) (start final : UInt8) : Server :=
  let b := s.sendbuf.setBits 13 7 1 start
  let b := b.setBits 13 6 1 final
  let b := b.setBits 13 5 1 0
  { s with sendbuf := b.setBits 13 0 5 nFrame.nalUnitType }

def send (s : Server) (offset : Nat) (payload : List UInt8) (bytes : Nat) : Traced Server (List UInt8) :=
  let sendbuf := s.sendbuf.write offset payload
  ⟨{ s with sendbuf }, [sendbuf.read 0 bytes]⟩

def sendSingle (s : Server) (nFrame : NALU) : Traced Server (List UInt8) :=
  let s := fillNaluHdr (fillRtpHdr s 0) nFrame nFrame.nalUnitType
  send s 13 ((nFrame.buf.drop 1).take (nFrame.len - 1)) (nFrame.len + 12)

/-- The first fragment. Its indicator gets a TYPE only. -/
def sendFirst (s : Server) (nFrame : NALU) : Traced Server (List UInt8) :=
  let s := fillRtpHdr s 0
  let s := { s with sendbuf := s.sendbuf.setBits 12 0 5 28 }
  let s := fillFuHdr s nFrame 1 0
  send s 14 ((nFrame.buf.drop 1).take (udpMaxSize - 1)) (udpMaxSize - 1 + 14)

def sendMiddle (nFrame : NALU) (packetIndex : Nat) (s : Server) : Traced Server (List UInt8) :=
  let s := fillNaluHdr (fillRtpHdr s 0) nFrame 28
  let s := fillFuHdr s nFrame 0 0
  send s 14 ((nFrame.buf.drop ((packetIndex - 1) * udpMaxSize)).take udpMaxSize) (udpMaxSize + 14)

def sendLast (s : Server) (nFrame : NALU) (packetIndex lastPackSize : Nat) : Traced Server (List UInt8) :=
  let s := fillNaluHdr (fillRtpHdr s 1) nFrame 28
  let s := fillFuHdr s nFrame 0 1
  send s 14 ((nFrame.buf.drop ((packetIndex - 1) * udpMaxSize)).take lastPackSize) (lastPackSize + 14)

def packetNum (len : Nat) : Nat :=
  if len % udpMaxSize ≠ 0 then len / udpMaxSize + 1 else len / udpMaxSize

def lastPackSize (len : Nat) : Nat := len - (packetNum len - 1) * udpMaxSize

/-- First, middle and last fragments; the loop runs packetIndex from 2 and leaves it at packetNum. -/
def sendFragments (s : Server) (nFrame : NALU) : Traced Server (List UInt8) :=
  let middle := List.range' 2 (packetNum nFrame.len - 2)
  ((sendFirst s nFrame).follow (run (sendMiddle nFrame) middle)).follow fun s =>
    sendLast s nFrame (packetNum nFrame.len) (lastPackSize nFrame.len)

def packetize (nFrame : NALU) (s : Server) : Traced Server (List UInt8) :=
  let s := { s with tsCurrent := s.tsCurrent + timestampIncrese }
  if nFrame.len ≤ udpMaxSize then sendSingle s nFrame else sendFragments s nFrame

end H264Streaming.UdpH264
