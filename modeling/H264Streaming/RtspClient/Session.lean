import H264Streaming.RtspClient.Ordering

/-! The session number of PLAY.

HandleDescribe is the only handler that looks for "Session:", so the header of a SETUP
response never reaches the request.
-/

set_option autoImplicit false

namespace H264Streaming.RtspClient

open H264Streaming.Bytes H264Streaming.Semantics

structure SetupAnswer (id : List UInt8) where
  received : Received
  dispatched : dispatch received.buf = some .videoSetup
  header : ascii "Session: " ++ id ∈ strtok crlf received.buf

theorem SetupAnswer.filled {id : List UInt8} (answer : SetupAnswer id) : answer.received.octets ≠ [] := by
  intro empty
  have blank : answer.received.buf = [] := by
    unfold Received.buf cString
    rw [empty]
    rfl
  have dispatched := answer.dispatched
  rw [blank] at dispatched
  cases dispatched

theorem playRequest_injective {url first second : List UInt8} (same : playRequest url first = playRequest url second) :
    first = second := by
  unfold playRequest at same
  simp only [List.append_assoc] at same
  have rest := List.append_cancel_left (List.append_cancel_left (List.append_cancel_left
    (List.append_cancel_left (List.append_cancel_left same))))
  exact List.append_cancel_right rest

variable (sdpParse : List UInt8 → Option (List SdpMedia))

/-- In a settled state the answer to SETUP is a single request: PLAY with the number held. -/
theorem requests_of_setup {id : List UInt8} (answer : SetupAnswer id) (rtp : Option (Option (List UInt8)))
    (writable : Bool) (calls : SocketCalls) (made : calls.ok = true) (p : Player) (running : p.running = true)
    (watched : p.writefd = false) (request : List UInt8) :
    .send request ∈ (step sdpParse (.ready (some answer.received) rtp writable false calls) p).events ↔
      request = playRequest p.rtspurl (decimal p.rtspSessionID) := by
  -- of the outcomes of the read only the handled SETUP response is left
  have whole := step_reached sdpParse (some answer.received) rtp writable calls p running
  have media := fun state => (readRtp_writes p.rtpVideoSocket rtp state).1 (.send request)
  have reads := readRtsp_reads sdpParse calls (some answer.received) p
  generalize readRtsp sdpParse calls (some answer.received) p = read at whole reads
  cases reads with
  | silent _ undispatched => cases (undispatched _ rfl).2.symm.trans answer.dispatched
  | closed _ empty => exact absurd empty answer.filled
  | described _ _ dispatched => cases dispatched.symm.trans answer.dispatched
  | refused _ _ _ failed => cases failed.symm.trans made
  | setUp =>
      have unwritten := media { p with rtpVideoSocket := calls.socket, playState := .rtspSendPlay }
      have turn : (afterConnect writable { p with rtpVideoSocket := calls.socket, playState := .rtspSendPlay }) =
          { p with rtpVideoSocket := calls.socket, playState := .rtspSendPlay } := by
        simp [afterConnect, watched]
      rw [whole running]
      dsimp only at unwritten ⊢
      rw [turn, List.mem_append, List.mem_append]
      constructor
      · rintro ((read | written) | sent)
        · simp at read
        · cases unwritten written
        · simpa [handleRtspState, sendPlay] using sent
      · intro same
        refine Or.inr ?_
        simp [handleRtspState, sendPlay, same]

/-- After a description, PLAY carries the id of the SETUP response exactly if the last number of a
"Session:" line of the DESCRIBE responses, or else zero, is printed as it. -/
theorem play_carries_session_iff (url : List UInt8) (front : List Wakeup)
    (running : (play sdpParse url front).state.running = true)
    (described : ∃ response ∈ heard front, dispatch response.buf = some .describe) (id : List UInt8)
    (answer : SetupAnswer id) (rtp : Option (Option (List UInt8))) (writable : Bool) (calls : SocketCalls)
    (made : calls.ok = true) :
    .send (playRequest url id) ∈
        (step sdpParse (.ready (some answer.received) rtp writable false calls) (play sdpParse url front).state).events ↔
      decimal ((sessions front).getLast?.getD 0) = id := by
  -- the socket was armed for the connection only, and that was before the description
  have some_wakeup : front ≠ [] := by
    intro empty
    obtain ⟨response, member, _⟩ := described
    rw [empty] at member
    cases member
  obtain ⟨_, watched, same_url, session⟩ := play_running sdpParse url front running
  rw [requests_of_setup sdpParse answer rtp writable calls made _ running (watched some_wakeup), same_url, session]
  constructor
  · intro same
    exact (playRequest_injective same).symm
  · intro same
    rw [same]

def describeWithSession : List UInt8 :=
  ascii "RTSP/1.0 200 OK\r\nCSeq: 2\r\nSession: 12345678\r\nContent-Length: 84\r\n\r\n" ++ describeBody

def sessionAnswer : SetupAnswer (ascii "12345678") where
  received := ⟨ascii "RTSP/1.0 200 OK\r\nCSeq: 3\r\nSession: 12345678\r\n\r\n", [], by decide +kernel⟩
  dispatched := by decide +kernel
  header := by decide +kernel

set_option maxRecDepth 10000 in
theorem play_carries_session_iff_described :
    let url := ascii "rtsp://h/s"
    let front := [Wakeup.connects, .hears describeWithSession (by decide +kernel)]
    .send (playRequest url (ascii "12345678")) ∈ (step parsesText (.ready (some sessionAnswer.received) none false
        false ⟨4, true, true⟩) (play parsesText url front).state).events ↔
      decimal ((sessions front).getLast?.getD 0) = ascii "12345678" := by
  intro url front
  exact play_carries_session_iff parsesText url front (by decide +kernel) (by decide +kernel) (ascii "12345678")
    sessionAnswer none false ⟨4, true, true⟩ (by decide +kernel)

set_option maxRecDepth 10000 in
/-- A server that names the session in its SETUP response gets PLAY for session 0. -/
theorem play_loses_session :
    let url := ascii "rtsp://h/s"
    let front := [Wakeup.connects, .hears (describeHeaders ++ describeBody) describeResponse_bounded]
    let answered := step parsesText (.ready (some sessionAnswer.received) none false false ⟨4, true, true⟩)
      (play parsesText url front).state
    .send (playRequest url (ascii "12345678")) ∉ answered.events ∧
      .send (playRequest url (ascii "0")) ∈ answered.events := by
  decide +kernel

end H264Streaming.RtspClient
