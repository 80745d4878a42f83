import H264Streaming.Bytes.Buffer
import H264Streaming.Semantics.Traced

/-! The sender and the receiver of jrtplib_send_recv_h264 (sender.cpp, receive.cpp).

Of a session of jrtplib only what the programs use is kept: the defaults that
SendPacket puts into a packet, and the packet as the receiver gets it. -/

set_option autoImplicit false

namespace H264Streaming.Jrtplib

open H264Streaming.Bytes H264Streaming.Semantics

structure RTPPacket where
  payload : List UInt8
  marker : Bool
  payloadType : UInt8
  deriving DecidableEq

structure RTPSession where
  defaultMark : Bool
  defaultPayloadType : UInt8
  deriving DecidableEq

def RTPSession.setDefaultMark (sess : RTPSession) (mark : Bool) : RTPSession := { sess with defaultMark := mark }

def RTPSession.sendPacket (sess : RTPSession) (data : List UInt8) : Traced RTPSession RTPPacket :=
  ⟨sess, [⟨data, sess.defaultMark, sess.defaultPayloadType⟩]⟩

/-! ### sender.cpp -/

def rtpDefaultPacketSize : Nat := 1400
def maxLen : Nat := rtpDefaultPacketSize - 100

/-- The while loop of SendH264Nalu. It fails when the iterations do not suffice; an
iteration that takes neither branch changes nothing. -/
def sendLoop (h264buf : List UInt8) (allPacket overData : Nat) :
    Nat → Nat → RTPSession → Option (Traced RTPSession RTPPacket)
  | 0, _, _ => none
  | iterations + 1, sendPacket, sess =>
      if sendPacket < allPacket ∨ sendPacket = allPacket ∧ 0 < overData then
        -- the first packet or the second last packet
        if 0 = sendPacket ∨ sendPacket < allPacket ∧ 0 ≠ sendPacket then do
          let sent := (sess.setDefaultMark false).sendPacket ((h264buf.drop (sendPacket * maxLen)).take maxLen)
          let rest ← sendLoop h264buf allPacket overData iterations (sendPacket + 1) sent.state
          return ⟨rest.state, sent.events ++ rest.events⟩
        -- the last packet
        else if allPacket = sendPacket ∧ 0 < overData ∨ sendPacket + 1 = allPacket ∧ overData = 0 then do
          let iSendLen := if 0 < overData then h264buf.length - sendPacket * maxLen else maxLen
          let sent := (sess.setDefaultMark true).sendPacket ((h264buf.drop (sendPacket * maxLen)).take iSendLen)
          let rest ← sendLoop h264buf allPacket overData iterations (sendPacket + 1) sent.state
          return ⟨rest.state, sent.events ++ rest.events⟩
        else sendLoop h264buf allPacket overData iterations sendPacket sess
      else some (.quiet sess)

def sendH264Nalu (h264buf : List UInt8) (sess : RTPSession) : Option (Traced RTPSession RTPPacket) :=
  let buflen := h264buf.length
  if buflen ≤ maxLen then some ((sess.setDefaultMark true).sendPacket h264buf)
  else sendLoop h264buf (buflen / maxLen) (buflen % maxLen) (buflen / maxLen + 2) 0 sess

/-! ### receive.cpp -/

def buffSize : Nat := 1024 * 100

structure Receiver where
  buff : Buffer
  pos : Nat

/-- One packet of the loop; an event is one fwrite. It fails when the packet does
not fit into `buff`. -/
def receive (pack : RTPPacket) (r : Receiver) : Option (Traced Receiver (List UInt8)) :=
  let len := pack.payload.length
  if pack.payloadType = 96 then
    if buffSize < r.pos + len then none
    else
      let buff := r.buff.write r.pos pack.payload
      if pack.marker then some ⟨⟨buff, 0⟩, [buff.read 0 (r.pos + len)]⟩
      else some (.quiet ⟨buff, r.pos + len⟩)
  else some (.quiet r)

/-- One call of SendH264Nalu and the reception of its packets, which arrive in order and unchanged. -/
def transfer (h264buf : List UInt8) (ends : RTPSession × Receiver) :
    Option (Traced (RTPSession × Receiver) (List UInt8)) := do
  let sent ← sendH264Nalu h264buf ends.1
  let received ← attempt receive sent.events ends.2
  return ⟨(sent.state, received.state), received.events⟩

end H264Streaming.Jrtplib
