import H264Streaming.RtspClient.Player

/-! What one iteration of the event loop can do. -/

set_option autoImplicit false

namespace H264Streaming.RtspClient

open H264Streaming.Bytes H264Streaming.Semantics

inductive Handler where
  | describe
  | videoSetup
  deriving DecidableEq, Repr

/-- The handler a text is dispatched to, by the number behind its first C. -/
def dispatch (buf : List UInt8) : Option Handler :=
  if msgType buf = some rtspDescribe then some .describe
  else if msgType buf = some rtspVideoSetup then some .videoSetup
  else none

def Wakeup.message : Wakeup → Option Received
  | .ready (some received) _ _ _ _ => if received.octets = [] then none else some received
  | _ => none

def SocketCalls.ok (calls : SocketCalls) : Bool := 0 ≤ calls.socket ∧ calls.ioctl ∧ calls.bind

def Wakeup.socketOk : Wakeup → Bool
  | .ready _ _ _ _ calls => calls.ok
  | _ => false

def sdpText (buf : List UInt8) : List UInt8 := (describeLines 0 buf).2

theorem foldl_describeLine_text (lines : List (List UInt8)) (first second : Int) (text : List UInt8) :
    (lines.foldl describeLine (first, text)).2 = (lines.foldl describeLine (second, text)).2 := by
  induction lines generalizing first second text with
  | nil => rfl
  | cons line rest ih =>
      rw [List.foldl_cons, List.foldl_cons]
      unfold describeLine
      split
      · exact ih _ _ _
      · split
        · exact ih _ _ _
        · exact ih _ _ _

theorem describeLines_text (session : Int) (buf : List UInt8) : (describeLines session buf).2 = sdpText buf :=
  foldl_describeLine_text _ _ _ _

variable (sdpParse : List UInt8 → Option (List SdpMedia))

theorem handleRtspMsg_describe (calls : SocketCalls) (received : Received) (p : Player)
    (dispatched : dispatch received.buf = some .describe) :
    handleRtspMsg sdpParse calls received p =
      ⟨{ handleDescribe sdpParse received.buf p with playState := .rtspSendVideoSetup },
        [.handleDescribe received.buf received.octets.length]⟩ := by
  unfold dispatch at dispatched
  split at dispatched
  · next type => simp only [handleRtspMsg, type, if_true]
  · split at dispatched <;> cases dispatched

theorem handleRtspMsg_videoSetup (calls : SocketCalls) (received : Received) (p : Player)
    (dispatched : dispatch received.buf = some .videoSetup) :
    handleRtspMsg sdpParse calls received p =
      (let (handled, ok) := handleVideoSetup calls received.buf p
       ⟨if ok then { handled.state with playState := .rtspSendPlay } else handled.state,
         .handleVideoSetup received.buf received.octets.length :: handled.events⟩) := by
  unfold dispatch at dispatched
  split at dispatched
  · cases dispatched
  · split at dispatched
    · next type =>
        have other : ¬ rtspVideoSetup = rtspDescribe := by decide
        simp only [handleRtspMsg, type, if_neg other, if_true]
    · cases dispatched

theorem handleRtspMsg_other (calls : SocketCalls) (received : Received) (p : Player)
    (dispatched : dispatch received.buf = none) : handleRtspMsg sdpParse calls received p = .quiet p := by
  unfold dispatch at dispatched
  split at dispatched
  · cases dispatched
  · next notDescribe =>
      split at dispatched
      · cases dispatched
      · next notSetup =>
          cases same : msgType received.buf with
          | none => simp only [handleRtspMsg, same]
          | some type =>
              rw [same] at notDescribe notSetup
              have otherDescribe : ¬ type = rtspDescribe := fun equal => notDescribe (congrArg some equal)
              have otherSetup : ¬ type = rtspVideoSetup := fun equal => notSetup (congrArg some equal)
              simp only [handleRtspMsg, same, if_neg otherDescribe, if_neg otherSetup]

/-! ### Handler calls -/

def Action.call : Action → Option (Handler × List UInt8 × Nat)
  | .handleDescribe buf bufsize => some (.describe, buf, bufsize)
  | .handleVideoSetup buf bufsize => some (.videoSetup, buf, bufsize)
  | _ => none

def callsOf (events : List Action) : List (Handler × List UInt8 × Nat) := events.filterMap Action.call

def Received.call (received : Received) : Option (Handler × List UInt8 × Nat) :=
  (dispatch received.buf).map (·, received.buf, received.octets.length)

@[simp] theorem callsOf_append (first second : List Action) :
    callsOf (first ++ second) = callsOf first ++ callsOf second :=
  List.filterMap_append

theorem callsOf_handleRtspMsg (calls : SocketCalls) (received : Received) (p : Player) :
    callsOf (handleRtspMsg sdpParse calls received p).events = received.call.toList := by
  unfold Received.call
  cases dispatched : dispatch received.buf with
  | none =>
      rw [handleRtspMsg_other sdpParse calls received p dispatched]
      rfl
  | some handler =>
      cases handler with
      | describe =>
          rw [handleRtspMsg_describe sdpParse calls received p dispatched]
          rfl
      | videoSetup =>
          rw [handleRtspMsg_videoSetup sdpParse calls received p dispatched]
          unfold handleVideoSetup
          dsimp only
          split <;> rfl

def Action.writes : Action → Bool
  | .fwrite _ => true
  | .fwriteBeyond _ _ => true
  | _ => false

theorem handleRtpMsg_writes (buf : Buffer) (bufsize : Int) : ∀ action ∈ handleRtpMsg buf bufsize, action.writes = true := by
  have written : ∀ (offset : Nat) (count : Int), (writeFrom buf offset count).writes = true := by
    intro offset count
    unfold writeFrom
    split <;> rfl
  have plain : ∀ octets : List UInt8, (Action.fwrite octets).writes = true := fun _ => rfl
  unfold handleRtpMsg
  dsimp only
  split
  · simp only [List.forall_mem_cons, plain, written, true_and, List.not_mem_nil, false_imp_iff, implies_true]
  · split
    · split <;>
        simp only [List.forall_mem_cons, plain, written, true_and, List.not_mem_nil, false_imp_iff, implies_true]
    · simp only [List.not_mem_nil, false_imp_iff, implies_true]

theorem readRtp_writes (watched : Int) (rtp : Option (Option (List UInt8))) (p : Player) :
    (∀ action ∈ (readRtp watched rtp p).events, action.writes = true) ∧ (readRtp watched rtp p).state = p := by
  unfold readRtp
  cases rtp with
  | none => exact ⟨fun _ absent => absurd absent List.not_mem_nil, rfl⟩
  | some result =>
      dsimp only
      split
      · exact ⟨handleRtpMsg_writes _ _, rfl⟩
      · exact ⟨fun _ absent => absurd absent List.not_mem_nil, rfl⟩

theorem callsOf_readRtp (watched : Int) (rtp : Option (Option (List UInt8))) (p : Player) :
    callsOf (readRtp watched rtp p).events = [] := by
  refine List.filterMap_eq_nil_iff.mpr fun action member => ?_
  have writes := (readRtp_writes watched rtp p).1 action member
  cases action with
  | handleDescribe | handleVideoSetup => cases writes
  | _ => rfl

theorem callsOf_sends (requests : List (List UInt8)) : callsOf (requests.map .send) = [] := by
  induction requests with
  | nil => rfl
  | cons request rest ih => exact ih

theorem callsOf_handleRtspState (p : Player) : callsOf (handleRtspState p).events = [] := by
  unfold handleRtspState
  simp only [Traced.follow_events, Traced.quiet_events, List.append_nil]
  split
  · rfl
  · unfold sendVideoSetup
    split
    · exact callsOf_sends _
    · rfl
  · rfl
  · rfl

theorem callsOf_whileRunning (next : Player → Traced Player Action) (quiet : ∀ p, callsOf (next p).events = [])
    (p : Player) : callsOf (p.whileRunning next).events = [] := by
  unfold Player.whileRunning
  split
  · exact quiet p
  · rfl

/-- The handler calls of an iteration are those of its message. -/
theorem callsOf_step (wakeup : Wakeup) (p : Player) (running : p.running = true) :
    callsOf (step sdpParse wakeup p).events = (wakeup.message.bind Received.call).toList := by
  unfold step
  rw [Player.whileRunning, if_pos running]
  cases wakeup with
  | failed => rfl
  | timeout => exact callsOf_handleRtspState _
  | ready rtsp rtp writable error calls =>
      have read : callsOf (readRtsp sdpParse calls rtsp p).events =
          ((Wakeup.ready rtsp rtp writable error calls).message.bind Received.call).toList := by
        cases rtsp with
        | none => rfl
        | some received =>
            unfold readRtsp Wakeup.message
            dsimp only
            split
            · rfl
            · exact callsOf_handleRtspMsg sdpParse calls received p
      dsimp only
      -- behind the message come media and requests only
      rw [Traced.follow_events, callsOf_append, read, callsOf_whileRunning, List.append_nil]
      intro handled
      simp only [Traced.follow_events, callsOf_append, callsOf_readRtp, connected, checkError,
        Traced.quiet_events, callsOf_whileRunning _ callsOf_handleRtspState]
      rfl

end H264Streaming.RtspClient
