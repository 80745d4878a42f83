import H264Streaming.Bytes.Search
import H264Streaming.RtspClient.Segmentation

/-! One iteration of the event loop as a whole: what it reads, sends and leaves behind. -/

set_option autoImplicit false

namespace H264Streaming.RtspClient

open H264Streaming.Bytes H264Streaming.Semantics

variable (sdpParse : List UInt8 → Option (List SdpMedia))

inductive Reads (calls : SocketCalls) (p : Player) : Option Received → Traced Player Action → Prop where
  | silent (rtsp : Option Received)
      (undispatched : ∀ received, rtsp = some received → received.octets ≠ [] ∧ dispatch received.buf = none) :
      Reads calls p rtsp (.quiet p)
  | closed (received : Received) (empty : received.octets = []) :
      Reads calls p (some received) (.quiet { p with running := false })
  | described (received : Received) (filled : received.octets ≠ [])
      (dispatched : dispatch received.buf = some .describe) :
      Reads calls p (some received)
        ⟨{ handleDescribe sdpParse received.buf p with playState := .rtspSendVideoSetup },
          [.handleDescribe received.buf received.octets.length]⟩
  | setUp (received : Received) (filled : received.octets ≠ [])
      (dispatched : dispatch received.buf = some .videoSetup) (ok : calls.ok = true) :
      Reads calls p (some received)
        ⟨{ p with rtpVideoSocket := calls.socket, playState := .rtspSendPlay },
          [.handleVideoSetup received.buf received.octets.length,
            .sendNat (scanPort (ascii "server_port=") received.buf)]⟩
  | refused (received : Received) (filled : received.octets ≠ [])
      (dispatched : dispatch received.buf = some .videoSetup) (failed : calls.ok = false) :
      Reads calls p (some received)
        ⟨{ p with rtpVideoSocket := calls.socket }, [.handleVideoSetup received.buf received.octets.length]⟩

theorem readRtsp_reads (calls : SocketCalls) (rtsp : Option Received) (p : Player) :
    Reads sdpParse calls p rtsp (readRtsp sdpParse calls rtsp p) := by
  cases rtsp with
  | none => exact .silent none (by simp)
  | some received =>
      unfold readRtsp
      dsimp only
      split
      · next empty => exact .closed received empty
      · next filled =>
          cases dispatched : dispatch received.buf with
          | none =>
              rw [handleRtspMsg_other sdpParse calls received p dispatched]
              refine .silent _ fun other same => ?_
              cases same
              exact ⟨filled, dispatched⟩
          | some handler =>
              cases handler with
              | describe =>
                  rw [handleRtspMsg_describe sdpParse calls received p dispatched]
                  exact .described received filled dispatched
              | videoSetup =>
                  rw [handleRtspMsg_videoSetup sdpParse calls received p dispatched]
                  cases ok : calls.ok with
                  | true =>
                      have reached : (rtpSocketInit calls p).2 = true := ok
                      simp only [handleVideoSetup, reached, if_true]
                      exact .setUp received filled dispatched ok
                  | false =>
                      have reached : (rtpSocketInit calls p).2 = false := ok
                      simp only [handleVideoSetup, reached, Bool.false_eq_true, if_false]
                      exact .refused received filled dispatched ok

def afterConnect (writable : Bool) (p : Player) : Player :=
  { p with
    playState := if p.writefd ∧ writable then .rtspSendDescribe else p.playState
    writefd := false }

theorem connected_eq (writable : Bool) (p : Player) : connected writable p = .quiet (afterConnect writable p) := rfl

theorem checkError_false (p : Player) : checkError false p = .quiet p := by
  unfold checkError
  rw [Bool.not_false, Bool.and_true]

theorem step_running (rtsp : Option Received) (rtp : Option (Option (List UInt8))) (writable error : Bool)
    (calls : SocketCalls) (p : Player) (running : p.running = true) :
    step sdpParse (.ready rtsp rtp writable error calls) p =
      (readRtsp sdpParse calls rtsp p).follow (Player.whileRunning fun handled =>
        (readRtp p.rtpVideoSocket rtp handled).follow fun handled =>
          (connected writable handled).follow fun handled =>
            (checkError error handled).follow <| Player.whileRunning handleRtspState) := by
  rw [step, Player.whileRunning, if_pos running]

theorem step_reached (rtsp : Option Received) (rtp : Option (Option (List UInt8))) (writable : Bool)
    (calls : SocketCalls) (p : Player) (running : p.running = true)
    (alive : (readRtsp sdpParse calls rtsp p).state.running = true) :
    step sdpParse (.ready rtsp rtp writable false calls) p =
      (let read := readRtsp sdpParse calls rtsp p
       let sent := handleRtspState (afterConnect writable read.state)
       ⟨sent.state, read.events ++ (readRtp p.rtpVideoSocket rtp read.state).events ++ sent.events⟩) := by
  have reached : (afterConnect writable (readRtsp sdpParse calls rtsp p).state).running = true := alive
  rw [step_running sdpParse rtsp rtp writable false calls p running, Traced.follow, Player.whileRunning,
    if_pos alive, Traced.follow, (readRtp_writes _ _ _).2, connected_eq, Traced.quiet_follow, checkError_false,
    Traced.quiet_follow, Player.whileRunning, if_pos reached]
  dsimp only
  rw [List.append_assoc]

theorem step_ended (rtsp : Option Received) (rtp : Option (Option (List UInt8))) (writable error : Bool)
    (calls : SocketCalls) (p : Player) (running : p.running = true)
    (ended : (readRtsp sdpParse calls rtsp p).state.running = false ∨ error = true) :
    let read := readRtsp sdpParse calls rtsp p
    let iteration := step sdpParse (.ready rtsp rtp writable error calls) p
    iteration.state.running = false ∧ (iteration.events = read.events ∨
      iteration.events = read.events ++ (readRtp p.rtpVideoSocket rtp read.state).events) := by
  intro read iteration
  have unfolded : iteration = _ := step_running sdpParse rtsp rtp writable error calls p running
  cases alive : read.state.running with
  | false =>
      have stopped : ¬ read.state.running = true := by simp [alive]
      rw [unfolded, Traced.follow, Player.whileRunning, if_neg stopped]
      exact ⟨alive, Or.inl (List.append_nil _)⟩
  | true =>
      have failed : error = true := by
        rcases ended with closed | failed
        · cases alive.symm.trans closed
        · exact failed
      rw [unfolded, Traced.follow, Player.whileRunning, if_pos alive, Traced.follow, (readRtp_writes _ _ _).2]
      simp only [connected, checkError, Traced.quiet_follow, Player.whileRunning, failed, Bool.not_true,
        Bool.and_false, Bool.false_eq_true, if_false, Traced.quiet_state, Traced.quiet_events, List.append_nil]
      exact ⟨trivial, Or.inr rfl⟩

/-- An iteration reaches HandleRtspState, or ends the loop. -/
theorem step_ready (rtsp : Option Received) (rtp : Option (Option (List UInt8))) (writable error : Bool)
    (calls : SocketCalls) (p : Player) (running : p.running = true) :
    let read := readRtsp sdpParse calls rtsp p
    let media := (readRtp p.rtpVideoSocket rtp read.state).events
    let sent := handleRtspState (afterConnect writable read.state)
    let iteration := step sdpParse (.ready rtsp rtp writable error calls) p
    (read.state.running = true ∧ iteration = ⟨sent.state, read.events ++ media ++ sent.events⟩) ∨
      (iteration.state.running = false ∧ (iteration.events = read.events ∨ iteration.events = read.events ++ media)) := by
  cases alive : (readRtsp sdpParse calls rtsp p).state.running with
  | false => exact Or.inr (step_ended sdpParse rtsp rtp writable error calls p running (Or.inl alive))
  | true =>
      cases error with
      | false => exact Or.inl ⟨alive, step_reached sdpParse rtsp rtp writable calls p running alive⟩
      | true => exact Or.inr (step_ended sdpParse rtsp rtp writable true calls p running (Or.inr rfl))

/-! ### What a surviving iteration leaves -/

theorem handleRtspState_state (p : Player) :
    (handleRtspState p).state.playState = .rtspIdle ∧ (handleRtspState p).state.writefd = p.writefd ∧
      (handleRtspState p).state.rtspurl = p.rtspurl ∧ (handleRtspState p).state.rtspSessionID = p.rtspSessionID := by
  unfold handleRtspState
  cases p.playState with
  | rtspSendVideoSetup =>
      unfold sendVideoSetup
      cases p.sdpParser <;> exact ⟨rfl, rfl, rfl, rfl⟩
  | _ => exact ⟨rfl, rfl, rfl, rfl⟩

def scanSession (substr : List UInt8) : Option Int := (behind (ascii "Session:") substr).bind scanLong

def Received.sessions (received : Received) : List Int :=
  if dispatch received.buf = some .describe then (strtok crlf received.buf).filterMap scanSession else []

def sessions (wakeups : List Wakeup) : List Int := (heard wakeups).flatMap Received.sessions

theorem sessions_snoc (front : List Wakeup) (wakeup : Wakeup) :
    sessions (front ++ [wakeup]) = sessions front ++ wakeup.message.toList.flatMap Received.sessions := by
  unfold sessions
  rw [heard, List.filterMap_append, List.flatMap_append, ← heard, ← heard, heard_cons]
  rw [show heard [] = [] from rfl, List.append_nil]

theorem strstr_of_behind {literal text rest : List UInt8} (found : behind literal text = some rest) :
    (strstr literal text).isSome := by
  have same := behind_eq_some_iff.mp found
  have here : FirstAt literal [] text := ⟨same ▸ List.prefix_append literal rest, fun k below => absurd below (Nat.not_lt_zero k)⟩
  exact Option.isSome_iff_exists.mpr ⟨text, strstr_eq_some_iff.mpr ⟨[], rfl, here⟩⟩

theorem describeLine_session (found : Int × List UInt8) (substr : List UInt8) :
    (describeLine found substr).1 = (scanSession substr).getD found.1 := by
  unfold describeLine scanSession
  split
  · rfl
  · next absent =>
      have missing : behind (ascii "Session:") substr = none := by
        cases found : behind (ascii "Session:") substr with
        | none => rfl
        | some rest => exact absurd (strstr_of_behind found) absent
      rw [missing]
      split <;> rfl

theorem foldl_describeLine_session (lines : List (List UInt8)) (found : Int × List UInt8) :
    (lines.foldl describeLine found).1 = (lines.filterMap scanSession).getLast?.getD found.1 := by
  induction lines generalizing found with
  | nil => rfl
  | cons line rest ih =>
      rw [List.foldl_cons, ih, describeLine_session]
      cases scanned : scanSession line with
      | none => rw [List.filterMap_cons_none scanned, Option.getD_none]
      | some session =>
          rw [List.filterMap_cons_some scanned, List.getLast?_cons, Option.getD_some, Option.getD_some]

/-- The number HandleDescribe leaves: the last in its text, else the one before. -/
theorem handleDescribe_session (buf : List UInt8) (p : Player) :
    (handleDescribe sdpParse buf p).rtspSessionID =
      ((strtok crlf buf).filterMap scanSession).getLast?.getD p.rtspSessionID :=
  foldl_describeLine_session _ _

theorem readRtsp_session (rtp : Option (Option (List UInt8))) (writable error : Bool) (calls : SocketCalls)
    (rtsp : Option Received) (p : Player) (running : (readRtsp sdpParse calls rtsp p).state.running = true) :
    (readRtsp sdpParse calls rtsp p).state.rtspSessionID =
        (((Wakeup.ready rtsp rtp writable error calls).message.toList.flatMap
          Received.sessions).getLast?.getD p.rtspSessionID) ∧
      (readRtsp sdpParse calls rtsp p).state.rtspurl = p.rtspurl := by
  have read := readRtsp_reads sdpParse calls rtsp p
  have message : ∀ received : Received, received.octets ≠ [] →
      (Wakeup.ready (some received) rtp writable error calls).message = some received := by
    intro received filled
    exact if_neg filled
  -- one case for each outcome of the read
  generalize readRtsp sdpParse calls rtsp p = result at read running
  cases read with
  | silent _ undispatched =>
      cases rtsp with
      | none => exact ⟨rfl, rfl⟩
      | some received =>
          obtain ⟨filled, none⟩ := undispatched received rfl
          simp [message received filled, Received.sessions, none]
  | closed received empty => cases running
  | described received filled dispatched =>
      refine ⟨?_, rfl⟩
      rw [message received filled, Option.toList_some, List.flatMap_singleton, Received.sessions, if_pos dispatched]
      exact handleDescribe_session sdpParse _ _
  | setUp received filled dispatched ok => simp [message received filled, Received.sessions, dispatched]
  | refused received filled dispatched failed => simp [message received filled, Received.sessions, dispatched]

theorem running_of_step {wakeup : Wakeup} {p : Player} (running : (step sdpParse wakeup p).state.running = true) :
    p.running = true :=
  running_of_run sdpParse (show (run (step sdpParse) [wakeup] p).state.running = true from running)

theorem step_survived (wakeup : Wakeup) (p : Player) (running : (step sdpParse wakeup p).state.running = true) :
    (step sdpParse wakeup p).state.playState = .rtspIdle ∧ (step sdpParse wakeup p).state.writefd = false ∧
      (step sdpParse wakeup p).state.rtspurl = p.rtspurl ∧
      (step sdpParse wakeup p).state.rtspSessionID =
        (wakeup.message.toList.flatMap Received.sessions).getLast?.getD p.rtspSessionID := by
  have before := running_of_step sdpParse running
  cases wakeup with
  | failed =>
      rw [step, Player.whileRunning, if_pos before] at running
      cases running
  | timeout =>
      rw [step, Player.whileRunning, if_pos before]
      exact handleRtspState_state _
  | ready rtsp rtp writable error calls =>
      rcases step_ready sdpParse rtsp rtp writable error calls p before with ⟨alive, whole⟩ | ⟨stopped, _⟩
      · rw [whole]
        obtain ⟨idle, armed, url, session⟩ := handleRtspState_state
          (afterConnect writable (readRtsp sdpParse calls rtsp p).state)
        obtain ⟨scanned, same⟩ := readRtsp_session sdpParse rtp writable error calls rtsp p alive
        exact ⟨idle, armed, url.trans same, session.trans scanned⟩
      · rw [stopped] at running
        cases running

/-- What a run leaves as long as the loop goes on. -/
theorem play_running (url : List UInt8) (wakeups : List Wakeup)
    (running : (play sdpParse url wakeups).state.running = true) :
    (play sdpParse url wakeups).state.playState = .rtspIdle ∧
      (wakeups ≠ [] → (play sdpParse url wakeups).state.writefd = false) ∧
      (play sdpParse url wakeups).state.rtspurl = url ∧
      (play sdpParse url wakeups).state.rtspSessionID = (sessions wakeups).getLast?.getD 0 := by
  unfold play at running ⊢
  induction wakeups using List.reverseRecOn with
  | nil => exact ⟨rfl, fun filled => absurd rfl filled, rfl, rfl⟩
  | append_singleton front wakeup ih =>
      rw [run_snoc, Traced.follow_state] at running ⊢
      obtain ⟨idle, armed, same, session⟩ := step_survived sdpParse wakeup _ running
      -- a loop that survives this iteration has survived all before
      obtain ⟨_, _, first, scanned⟩ := ih (running_of_step sdpParse running)
      refine ⟨idle, fun _ => armed, same.trans first, ?_⟩
      rw [session, scanned, sessions_snoc, List.getLast?_append]
      cases (wakeup.message.toList.flatMap Received.sessions).getLast? <;> rfl

end H264Streaming.RtspClient
