import H264Streaming.Bytes.Buffer
import H264Streaming.Bytes.Text
import H264Streaming.Bytes.Words
import H264Streaming.Semantics.Traced

/-! The player of rtsp_client (RtspPlayer.cpp): message handlers and event loop.

One step is one return of select. What the operating system reports is the input;
handler calls, requests and writes to the file are events. The SDP parser is a
parameter, `none` when it returns NULL.
-/

set_option autoImplicit false

namespace H264Streaming.RtspClient

open H264Streaming.Bytes H264Streaming.Semantics

inductive RtspPlayerState where
  | rtspSendOptions
  | rtspHandleOptions
  | rtspSendDescribe
  | rtspHandleDescribe
  | rtspSendVideoSetup
  | rtspHandleVideoSetup
  | rtspSendAudioSetup
  | rtspHandleAudioSetup
  | rtspSendPlay
  | rtspHandlePlay
  | rtspSendPause
  | rtspHandlePause
  | rtspSendTerminate
  | rtspHandleTerminate
  | rtspIdle
  | rtspTurnOff
  deriving DecidableEq, Repr

def rtspDescribe : Int := 2
def rtspVideoSetup : Int := 3
def rtspPlay : Int := 5
def videoRtpPort : Int := 12000
def videoRtcpPort : Int := 12001

structure SdpMedia where
  type : List UInt8
  proto : List UInt8
  attributes : List (List UInt8)
  deriving DecidableEq

/-- `_SdpParser`; the constructor does not set it. -/
inductive SdpPointer where
  | indeterminate
  | null
  | payload (medias : List SdpMedia)
  deriving DecidableEq

def SdpPointer.of : Option (List SdpMedia) → SdpPointer
  | none => .null
  | some medias => .payload medias

/-- `writefd` says whether the RTSP socket is still in `_writefd`; `running` whether the
loop goes on. -/
structure Player where
  rtspurl : List UInt8
  playState : RtspPlayerState
  sdpParser : SdpPointer
  rtspSessionID : Int
  rtpVideoSocket : Int
  writefd : Bool
  running : Bool

def Player.start (rtspurl : List UInt8) : Player where
  rtspurl
  playState := .rtspIdle
  sdpParser := .indeterminate
  rtspSessionID := 0
  rtpVideoSocket := 0
  writefd := true
  running := true

inductive Action where
  | handleDescribe (buf : List UInt8) (bufsize : Nat)
  | handleVideoSetup (buf : List UInt8) (bufsize : Nat)
  | sendVideoSetup (parser : SdpPointer)
  | sendPlay
  | send (request : List UInt8)
  | sendNat (port : Int)
  | fwrite (octets : List UInt8)
  | fwriteBeyond (offset : Nat) (count : Int)
  deriving DecidableEq

/-- `char buf[1024]` of SendDescribe, RtspSetup and SendPlay. -/
def requestBufSize : Nat := 1024

/-- Whether sprintf and fwrite stay inside their buffers; sprintf adds a terminator. -/
def Action.inBounds : Action → Bool
  | .send request => request.length < requestBufSize
  | .fwriteBeyond _ _ => false
  | _ => true

/-- A recv result on the RTSP socket, and the memory behind the 2048 octets of `recvbuf`. -/
structure Received where
  octets : List UInt8
  beyond : List UInt8
  bounded : octets.length ≤ 2048

/-- The string at `recvbuf`, which is cleared before every recv. -/
def Received.buf (received : Received) : List UInt8 :=
  cString (received.octets ++ List.replicate (2048 - received.octets.length) 0 ++ received.beyond)

structure SocketCalls where
  socket : Int
  ioctl : Bool
  bind : Bool

/-- What select reports. `rtsp` holds the recv result when the RTSP socket is readable,
empty when the peer closed; `rtp` the recvfrom result, none for an error. -/
inductive Wakeup where
  | failed
  | timeout
  | ready (rtsp : Option Received) (rtp : Option (Option (List UInt8))) (writable error : Bool) (calls : SocketCalls)

/-! ### Requests -/

def crlf : List UInt8 := ascii "\r\n"

def describeRequest (url : List UInt8) : List UInt8 :=
  ascii "DESCRIBE " ++ url ++ ascii " RTSP/1.0\r\nAccept: application/sdp\r\nCSeq: " ++ decimal rtspDescribe ++
    ascii "\r\nUser-Agent: Lavf58.12.100\r\n\r\n"

def setupRequest (url : List UInt8) (track cSeq : Int) (proto : List UInt8) (rtpPort rtcpPort : Int) : List UInt8 :=
  ascii "SETUP " ++ url ++ ascii "/trackID=" ++ decimal track ++ ascii " RTSP/1.0\r\nCSeq: " ++ decimal cSeq ++
    ascii "\r\nUser-Agent: Lavf58.12.100\r\nTransport: " ++ proto ++ ascii ";unicast;client_port=" ++
    decimal rtpPort ++ ascii "-" ++ decimal rtcpPort ++ ascii "\r\n\r\n"

def playRequest (url session : List UInt8) : List UInt8 :=
  ascii "PLAY " ++ url ++ ascii " RTSP/1.0\r\nCSeq: " ++ decimal rtspPlay ++ ascii "\r\nSession: " ++ session ++
    ascii "\r\nRange: npt=0.000-\r\nUser-Agent: Lavf58.12.100\r\n\r\n"

/-! ### Messages -/

/-- `sscanf(buf, "%*[^C]CSeq:%d", &MsgType)`: at least one octet before the first C, which must begin "CSeq:". -/
def msgType (buf : List UInt8) : Option Int :=
  if buf.takeWhile (· ≠ 67) = [] then none
  else (behind (ascii "CSeq:") (buf.dropWhile (· ≠ 67))).bind scanInt

def describeLine (found : Int × List UInt8) (substr : List UInt8) : Int × List UInt8 :=
  if (strstr (ascii "Session:") substr).isSome then
    (((behind (ascii "Session:") substr).bind scanLong).getD found.1, found.2)
  else if (strchr 61 substr).isSome then (found.1, found.2 ++ substr ++ [10])
  else found

def describeLines (session : Int) (buf : List UInt8) : Int × List UInt8 :=
  (strtok crlf buf).foldl describeLine (session, [])

def handleDescribe (sdpParse : List UInt8 → Option (List SdpMedia)) (buf : List UInt8) (p : Player) : Player :=
  let found := describeLines p.rtspSessionID buf
  { p with rtspSessionID := found.1, sdpParser := .of (sdpParse found.2) }

def scanPort (key buf : List UInt8) : Int :=
  (((strstr key buf).bind (behind key)).bind scanInt).getD 0

def rtpSocketInit (calls : SocketCalls) (p : Player) : Player × Bool :=
  ({ p with rtpVideoSocket := calls.socket }, 0 ≤ calls.socket ∧ calls.ioctl ∧ calls.bind)

/-- The client port only replaces VIDEO_RTP_PORT as a port other than zero, so it decides nothing. -/
def handleVideoSetup (calls : SocketCalls) (buf : List UInt8) (p : Player) : Traced Player Action × Bool :=
  let (p, ok) := rtpSocketInit calls p
  if ok then (⟨p, [.sendNat (scanPort (ascii "server_port=") buf)]⟩, true) else (.quiet p, false)

def handleRtspMsg (sdpParse : List UInt8 → Option (List SdpMedia)) (calls : SocketCalls) (received : Received)
    (p : Player) : Traced Player Action :=
  let buf := received.buf
  let bufsize := received.octets.length
  match msgType buf with
  | none => .quiet p
  | some type =>
      if type = rtspDescribe then
        ⟨{ handleDescribe sdpParse buf p with playState := .rtspSendVideoSetup }, [.handleDescribe buf bufsize]⟩
      else if type = rtspVideoSetup then
        let (handled, ok) := handleVideoSetup calls buf p
        ⟨if ok then { handled.state with playState := .rtspSendPlay } else handled.state,
          .handleVideoSetup buf bufsize :: handled.events⟩
      else .quiet p

/-! ### States -/

/-- One SETUP for every video media; the track found for one media is kept for the next. -/
def videoSetups (url : List UInt8) : Int → List SdpMedia → List (List UInt8)
  | _, [] => []
  | track, media :: rest =>
      if media.type = ascii "video" then
        let track := media.attributes.foldl (fun track line =>
          if (strstr (ascii "trackID") line).isSome then
            ((behind (ascii "control:trackID=") line).bind scanInt).getD track
          else track) track
        setupRequest url track rtspVideoSetup media.proto videoRtpPort videoRtcpPort :: videoSetups url track rest
      else videoSetups url track rest

/-- Reading through a pointer that is not a payload ends the process. -/
def sendVideoSetup (p : Player) : Traced Player Action :=
  match p.sdpParser with
  | .payload medias => ⟨p, .sendVideoSetup p.sdpParser :: (videoSetups p.rtspurl 0 medias).map .send⟩
  | _ => ⟨{ p with running := false }, [.sendVideoSetup p.sdpParser]⟩

def sendPlay (p : Player) : Traced Player Action :=
  ⟨p, [.sendPlay, .send (playRequest p.rtspurl (decimal p.rtspSessionID))]⟩

def handleRtspState (p : Player) : Traced Player Action :=
  let sent : Traced Player Action :=
    match p.playState with
    | .rtspSendDescribe => ⟨p, [.send (describeRequest p.rtspurl)]⟩
    | .rtspSendVideoSetup => sendVideoSetup p
    | .rtspSendPlay => sendPlay p
    | _ => .quiet p
  sent.follow fun p => .quiet { p with playState := .rtspIdle }

/-! ### Media -/

/-- `fwrite(buf + offset, count, 1, fp)`. A negative count becomes a size past every buffer. -/
def writeFrom (buf : Buffer) (offset : Nat) (count : Int) : Action :=
  if 0 ≤ count then .fwrite (buf.read offset count.toNat) else .fwriteBeyond offset count

def handleRtpMsg (buf : Buffer) (bufsize : Int) : List Action :=
  let nalu := buf.byte 12
  let header : Action := .fwrite [0, 0, 0, 1]
  if getBits nalu 0 5 < 24 then [header, writeFrom buf 12 (bufsize - 12)]
  else if getBits nalu 0 5 = 28 then
    let fu := buf.byte 13
    if getBits fu 7 1 = 1 then
      let naluType := (getBits nalu 7 1 <<< (7 : UInt8)) ||| (getBits nalu 5 2 <<< (5 : UInt8)) ||| getBits fu 0 5
      [header, .fwrite [naluType], writeFrom buf 14 (bufsize - 14)]
    else [writeFrom buf 14 (bufsize - 14)]
  else []

def recvRtp : Option (List UInt8) → Buffer × Int
  | none => (.untouched fun _ => 0, -1)
  | some octets => ((Buffer.untouched fun _ => 0).write 0 octets, octets.length)

/-! ### The event loop -/

def Player.whileRunning (next : Player → Traced Player Action) (p : Player) : Traced Player Action :=
  if p.running then next p else .quiet p

variable (sdpParse : List UInt8 → Option (List SdpMedia))

def readRtsp (calls : SocketCalls) : Option Received → Player → Traced Player Action
  | none, p => .quiet p
  | some received, p =>
      if received.octets = [] then .quiet { p with running := false }
      else handleRtspMsg sdpParse calls received p

/-- The RTP socket is watched by select only if it existed before, and is then still the same. -/
def readRtp (watched : Int) (rtp : Option (Option (List UInt8))) (p : Player) : Traced Player Action :=
  match rtp with
  | none => .quiet p
  | some result =>
      if watched ≠ 0 ∧ p.rtpVideoSocket = watched then
        ⟨p, handleRtpMsg (recvRtp result).1 (recvRtp result).2⟩
      else .quiet p

/-- `_writefd` is never set again: after one select the RTSP socket is out of it. -/
def connected (writable : Bool) (p : Player) : Traced Player Action :=
  .quiet { p with
    playState := if p.writefd ∧ writable then .rtspSendDescribe else p.playState
    writefd := false }

def checkError (error : Bool) (p : Player) : Traced Player Action :=
  .quiet { p with running := p.running && !error }

def step (wakeup : Wakeup) (p : Player) : Traced Player Action :=
  p.whileRunning fun p =>
    match wakeup with
    | .failed => .quiet { p with running := false }
    | .timeout => handleRtspState { p with writefd := false }
    | .ready rtsp rtp writable error calls =>
        (readRtsp sdpParse calls rtsp p).follow <| Player.whileRunning fun handled =>
          (readRtp p.rtpVideoSocket rtp handled).follow fun handled =>
            (connected writable handled).follow fun handled =>
              (checkError error handled).follow <| Player.whileRunning handleRtspState

def play (url : List UInt8) (wakeups : List Wakeup) : Traced Player Action :=
  run (step sdpParse) wakeups (.start url)

end H264Streaming.RtspClient
