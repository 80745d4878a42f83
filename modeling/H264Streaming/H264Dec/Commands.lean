import H264Streaming.Bytes.Text
import H264Streaming.Semantics.Traced

/-! The commands of h264dec (h264dec/rtsp.c) up to PLAY.

A command sends one request and reads one response. `none` as its result means that the
process does not go on: it exits, or the C code runs into undefined behaviour.
-/

set_option autoImplicit false

namespace H264Streaming.H264Dec

open H264Streaming.Bytes H264Streaming.Semantics

inductive Method where
  | options
  | describe
  | setup
  | play
  deriving DecidableEq, Repr

/-- A request; `session` is the argument of PLAY, `none` while rtsp_s.session is not initialised. -/
structure Sent where
  method : Method
  cseq : Nat
  session : Option Nat
  text : List UInt8
  deriving DecidableEq

/-- The globals and the locals of rtsp_loop that the commands use. `stack` is what the storage
of rtsp_s.session holds before it is assigned. -/
structure Client where
  stream : List UInt8
  streamHost : List UInt8
  streamPort : Nat
  rtspCseq : Nat
  params : Option (List UInt8)
  session : Option Nat
  stack : Nat

def Client.start (stream streamHost : List UInt8) (streamPort stack : Nat) : Client where
  stream
  streamHost
  streamPort
  rtspCseq := 0
  params := none
  session := none
  stack

def Client.rtspCseqInc (c : Client) : Client := { c with rtspCseq := c.rtspCseq + 1 }

/-! ### Requests -/

/-- The size of the array that snprintf prints a request to. Of a longer text send still takes every octet. -/
def requestSize : Nat := 4096

def Sent.Fits (sent : Sent) : Prop := sent.text.length < requestSize

def cmdOptions (c : Client) : Sent where
  method := .options
  cseq := c.rtspCseq
  session := none
  text := ascii "OPTIONS rtsp://" ++ c.streamHost ++ ascii ":" ++ decimal c.streamPort ++ ascii " RTSP/1.0\r\nCSeq: " ++
    decimal c.rtspCseq ++ ascii "\r\n\r\n"

def cmdDescribe (c : Client) : Sent where
  method := .describe
  cseq := c.rtspCseq
  session := none
  text := ascii "DESCRIBE " ++ c.stream ++ ascii " RTSP/1.0\r\nCSeq: " ++ decimal c.rtspCseq ++
    ascii "\r\nAccept: application/sdp\r\n\r\n"

def cmdSetup (c : Client) : Sent where
  method := .setup
  cseq := c.rtspCseq
  session := none
  text := ascii "SETUP " ++ c.stream ++ ascii "/trackID=1 RTSP/1.0\r\nCSeq: " ++ decimal c.rtspCseq ++
    ascii "\r\nTransport: RTP/AVP/TCP;interleaved=0-1;\r\n\r\n"

def cmdPlay (c : Client) : Sent where
  method := .play
  cseq := c.rtspCseq
  session := c.session
  text := ascii "PLAY " ++ c.stream ++ ascii " RTSP/1.0\r\nCSeq: " ++ decimal c.rtspCseq ++ ascii "\r\nSession: " ++
    decimal (c.session.getD c.stack) ++ ascii "\r\nRange: npt=0.00-\r\n\r\n"

/-! ### Responses -/

/-- The string in `buf`, which is cleared before recv and takes 4095 octets. -/
def received (recv : List UInt8) : List UInt8 := cString (recv.take 4095)

def between (first second : List UInt8) : List UInt8 := first.take (first.length - second.length)

theorem between_append (front rest : List UInt8) : between (front ++ rest) rest = front := by
  rw [between, List.length_append, Nat.add_sub_cancel, List.take_left]

def rtspResponse : List UInt8 := ascii "RTSP/1.0 "

def rtspResponseStatus (response : List UInt8) : Option Int :=
  match behind rtspResponse response with
  | none => some (-1)
  | some rest =>
      match strchr 32 rest with
      | none => some (-1)
      | some sep =>
          let buf := between rest sep
          -- buf has eight octets, and strlen needs a terminator in it
          if 8 ≤ buf.length then none
          else
            match strchr 13 response with
            | none => none
            | some eol =>
                -- err_size, which must not be negative
                if (between response eol).length < rtspResponse.length + 1 + buf.length then none
                else some ((scanInt buf).getD 0)

def sprop (buf : List UInt8) : Option (List UInt8) := do
  let p ← strstr (ascii "\r\n\r\n") buf
  let p ← strstr (ascii "sprop-parameter-sets=") (p.drop 4)
  let stop ← strchr 13 p
  return (between p stop).drop (ascii "sprop-parameter-sets=").length

def afterNumber (text : List UInt8) : List UInt8 :=
  let text := text.dropWhile isSpace
  (if text.head? = some 45 ∨ text.head? = some 43 then text.drop 1 else text).dropWhile isDigit

/-- The session id at `p`, which points to "Session: ". It is copied to a field of sixteen octets;
without room for a terminator there atol must stop before the end. -/
def sessionId (p : List UInt8) : Option Nat := do
  let sep ← strchr 13 p
  let field := (between p sep).drop (ascii "Session: ").length
  if field.length < 16 ∨ field.length = 16 ∧ afterNumber field ≠ [] then
    some (((scanLong field).getD 0 % 18446744073709551616).toNat)
  else none

/-! ### Commands -/

def exchange (request : Sent) (recv : List UInt8) (handle : List UInt8 → Int → Option (Client × Int)) (c : Client) :
    Traced Client Sent × Option Int :=
  if recv = [] then (⟨c, [request]⟩, none)
  else
    match (rtspResponseStatus (received recv)).bind (handle (received recv)) with
    | none => (⟨c, [request]⟩, none)
    | some (c, ret) => (⟨c, [request]⟩, some ret)

def rtspCmdOptions (recv : List UInt8) (c : Client) : Traced Client Sent × Option Int :=
  exchange (cmdOptions c) recv (fun _ status => some (c.rtspCseqInc, if status = 200 then 0 else -1)) c

def rtspCmdDescribe (recv : List UInt8) (c : Client) : Traced Client Sent × Option Int :=
  exchange (cmdDescribe c) recv (fun buf status =>
    match sprop buf with
    | none => some (c.rtspCseqInc, -1)
    | some params => some ({ c.rtspCseqInc with params := some params }, if status = 200 then 0 else -1)) c

def rtspCmdSetup (recv : List UInt8) (c : Client) : Traced Client Sent × Option Int :=
  exchange (cmdSetup c) recv (fun buf status =>
    if status = 200 then
      match strstr (ascii "Transport: ") buf with
      | none => some (c, -1)
      | some _ =>
          match strstr (ascii "Session: ") buf with
          | none => some (c, -1)
          | some p => (sessionId p).map fun id => (Client.rtspCseqInc { c with session := some id }, 0)
    else some (c, -1)) c

def rtspCmdPlay (recv : List UInt8) (c : Client) : Traced Client Sent × Option Int :=
  exchange (cmdPlay c) recv (fun _ status => some (c.rtspCseqInc, if status = 200 then 0 else -1)) c

def proceed (command : Traced Client Sent × Option Int) (allows : Option Int → Bool)
    (next : Client → Traced Client Sent) : Traced Client Sent :=
  if allows command.2 then command.1.follow next else command.1

def response (responses : List (List UInt8)) (n : Nat) : List UInt8 := (responses[n]?).getD []

/-- rtsp_loop from the connection up to the response to PLAY. -/
def rtspLoop (responses : List (List UInt8)) (c : Client) : Traced Client Sent :=
  proceed (rtspCmdOptions (response responses 0) c) (· = some 0) fun c =>
    proceed (rtspCmdDescribe (response responses 1) c) (· = some 0) fun c =>
      -- what rtsp_cmd_setup returns is not looked at
      proceed (rtspCmdSetup (response responses 2) c) Option.isSome fun c =>
        (rtspCmdPlay (response responses 3) c).1

end H264Streaming.H264Dec
