import H264Streaming.Bytes.Fields
import H264Streaming.Semantics.Traced

/-! The packetizer of h264Send (h264rtppacketizer.cpp, h264types.h).

`start` keeps its locals across iterations: the send buffer and the pointers into
it. `nalu_hdr` is assigned on the path of short units only, so its first use may
come before any assignment. Each call of `send` emits one datagram.
-/

set_option autoImplicit false

namespace H264Streaming.H264Send

open H264Streaming.Bytes H264Streaming.Semantics

def rtpPayloadMaxSize : Nat := 1400
def sendBuffSize : Nat := 1500
def h264 : UInt8 := 96
def frameRate : UInt64 := 25

structure H264RtpPacketizer where
  mSeqNum : UInt16
  mSsrc : UInt32
  mTimestamp : UInt32
  mClock : UInt64

/-- Members and locals. `naluHdr` is the offset in `send_buff` it points to, none
while indeterminate; `strayed` counts the assignments made through it then. -/
structure State extends H264RtpPacketizer where
  sendBuff : Buffer
  naluHdr : Option Nat
  strayed : Nat

def clearSendBuff (s : State) : State :=
  { s with sendBuff := s.sendBuff.write 0 (List.replicate sendBuffSize 0) }

/-- The RTP header over the first twelve octets; all four copies differ in the marker only. -/
def fillRtpHdr (s : State) (marker : UInt8) : State :=
  let b := s.sendBuff.setBits 0 0 4 0
  let b := b.setBits 0 4 1 0
  let b := b.setBits 0 5 1 0
  let b := b.setBits 0 6 2 2
  let b := b.setBits 1 7 1 marker
  let b := b.setBits 1 0 7 h264
  let mSeqNum := s.mSeqNum + 1
  let b := b.write 2 (be16 mSeqNum.toNat)
  let b := b.write 8 (be32 s.mSsrc.toNat)
  let b := b.write 4 (be32 s.mTimestamp.toNat)
  { s with mSeqNum, sendBuff := b }

/-- An assignment to a field of `*nalu_hdr`. Through the indeterminate pointer it is counted and taken to
reach nothing that is read here; a real store there may end the process. -/
def setNaluHdr (s : State) (low width : Nat) (value : UInt8) : State :=
  match s.naluHdr with
  | some p => { s with sendBuff := s.sendBuff.setBits p low width value }
  | none => { s with strayed := s.strayed + 1 }

def fillNaluHdr (s : State) (octet type : UInt8) : State :=
  let s := setNaluHdr s 7 1 ((octet &&& 0x80) >>> (7 : UInt8))
  let s := setNaluHdr s 5 2 ((octet &&& 0x60) >>> (5 : UInt8))
  setNaluHdr s 0 5 type

def fillFuHdr (s : State) (start final octet : UInt8) : State :=
  let b := s.sendBuff.setBits 13 7 1 start
  let b := b.setBits 13 6 1 final
  let b := b.setBits 13 5 1 0
  { s with sendBuff := b.setBits 13 0 5 (octet &&& 0x1f) }

def copyPayload (s : State) (offset : Nat) (octets : List UInt8) : State :=
  { s with sendBuff := s.sendBuff.write offset octets }

def send (s : State) (lenSendbuf : Nat) : Traced State (List UInt8) :=
  ⟨s, [s.sendBuff.read 0 lenSendbuf]⟩

def sendSingle (s : State) (naluBuf : List UInt8) : Traced State (List UInt8) :=
  let octet := naluBuf.headD 0
  let s := fillRtpHdr (clearSendBuff s) 0
  let s := { s with naluHdr := some 12 }
  let s := fillNaluHdr s octet (octet &&& 0x1f)
  let s := copyPayload s 13 ((naluBuf.drop 1).take (naluBuf.length - 1))
  send s (12 + naluBuf.length)

def sendFirst (s : State) (naluBuf : List UInt8) : Traced State (List UInt8) :=
  let octet := naluBuf.headD 0
  let s := fillRtpHdr (clearSendBuff s) 0
  let s := fillNaluHdr s octet 28
  let s := fillFuHdr s 1 0 octet
  let s := copyPayload s 14 ((naluBuf.drop 1).take (rtpPayloadMaxSize - 1))
  send s (12 + 2 + (rtpPayloadMaxSize - 1))

def sendMiddle (s : State) (naluBuf : List UInt8) (fuSeq : Nat) : Traced State (List UInt8) :=
  let octet := naluBuf.headD 0
  let s := fillRtpHdr (clearSendBuff s) 0
  let s := fillNaluHdr s octet 28
  let s := fillFuHdr s 0 0 octet
  let s := copyPayload s 14 ((naluBuf.drop (rtpPayloadMaxSize * fuSeq)).take rtpPayloadMaxSize)
  send s (12 + 2 + rtpPayloadMaxSize)

/-- The last fragment. Here the type goes through `fu_ind`, which points at `send_buff[12]`. -/
def sendLast (s : State) (naluBuf : List UInt8) (fuSeq lastFuPackSize : Nat) : Traced State (List UInt8) :=
  let octet := naluBuf.headD 0
  let s := fillRtpHdr (clearSendBuff s) 1
  let s := setNaluHdr s 7 1 ((octet &&& 0x80) >>> (7 : UInt8))
  let s := setNaluHdr s 5 2 ((octet &&& 0x60) >>> (5 : UInt8))
  let s := { s with sendBuff := s.sendBuff.setBits 12 0 5 28 }
  let s := fillFuHdr s 0 1 octet
  let s := copyPayload s 14 ((naluBuf.drop (rtpPayloadMaxSize * fuSeq)).take lastFuPackSize)
  send s (12 + 2 + lastFuPackSize)

def fuPackNum (naluLen : Nat) : Nat :=
  if naluLen % rtpPayloadMaxSize ≠ 0 then naluLen / rtpPayloadMaxSize + 1 else naluLen / rtpPayloadMaxSize

def lastFuPackSize (naluLen : Nat) : Nat :=
  if naluLen % rtpPayloadMaxSize ≠ 0 then naluLen % rtpPayloadMaxSize else rtpPayloadMaxSize

def sendFu (naluBuf : List UInt8) (fuSeq : Nat) (s : State) : Traced State (List UInt8) :=
  if fuSeq = 0 then sendFirst s naluBuf
  else if fuSeq < fuPackNum naluBuf.length - 1 then sendMiddle s naluBuf fuSeq
  else sendLast s naluBuf fuSeq (lastFuPackSize naluBuf.length)

def sendNalu (naluBuf : List UInt8) (s : State) : Traced State (List UInt8) :=
  if naluBuf.length < 1 then .quiet s
  else
    let s := { s with mTimestamp := s.mTimestamp + (s.mClock / frameRate).toUInt32 }
    if naluBuf.length ≤ rtpPayloadMaxSize then sendSingle s naluBuf
    else run (sendFu naluBuf) (List.range (fuPackNum naluBuf.length)) s

/-- The locals at the call of `start`: `content` is whatever the stack holds. -/
def enter (packetizer : H264RtpPacketizer) (content : Nat → UInt8) : State :=
  { packetizer with sendBuff := .untouched content, naluHdr := none, strayed := 0 }

/-- `nals` are the units next_nalu returns before it returns NULL. -/
def start (packetizer : H264RtpPacketizer) (content : Nat → UInt8) (nals : List (List UInt8)) :
    Traced State (List UInt8) :=
  run sendNalu nals (enter packetizer content)

end H264Streaming.H264Send
