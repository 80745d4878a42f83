import H264Streaming.RtspClient.Handling

/-! How the recv results of a run decide its handler calls.

There is no buffer between recv and HandleRtspMsg, so a recv result is one message,
whatever part of the server's stream it holds.
-/

set_option autoImplicit false

namespace H264Streaming.RtspClient

open H264Streaming.Bytes H264Streaming.Semantics

def heard (wakeups : List Wakeup) : List Received := wakeups.filterMap Wakeup.message

theorem heard_ne_nil (wakeups : List Wakeup) : ∀ received ∈ heard wakeups, received.octets ≠ [] := by
  intro received member
  obtain ⟨wakeup, _, message⟩ := List.mem_filterMap.mp member
  unfold Wakeup.message at message
  split at message
  · split at message
    · cases message
    · next filled =>
        cases message
        exact filled
  · cases message

theorem heard_cons (wakeup : Wakeup) (rest : List Wakeup) :
    heard (wakeup :: rest) = wakeup.message.toList ++ heard rest := by
  unfold heard
  cases message : wakeup.message with
  | none => rw [List.filterMap_cons_none message, Option.toList_none, List.nil_append]
  | some received => rw [List.filterMap_cons_some message, Option.toList_some, List.singleton_append]

/-! ### Calls of a run -/

variable (sdpParse : List UInt8 → Option (List SdpMedia))

theorem step_stopped (wakeup : Wakeup) (p : Player) (stopped : p.running = false) :
    step sdpParse wakeup p = .quiet p := by
  unfold step Player.whileRunning
  rw [stopped]
  exact if_neg Bool.false_ne_true

theorem run_stopped (wakeups : List Wakeup) (p : Player) (stopped : p.running = false) :
    run (step sdpParse) wakeups p = .quiet p := by
  induction wakeups with
  | nil => rfl
  | cons wakeup rest ih => rw [run_cons, step_stopped sdpParse wakeup p stopped, Traced.quiet_follow, ih]

theorem running_of_run {wakeups : List Wakeup} {p : Player}
    (running : (run (step sdpParse) wakeups p).state.running = true) : p.running = true := by
  cases now : p.running with
  | true => rfl
  | false =>
      rw [run_stopped sdpParse wakeups p now, Traced.quiet_state, now] at running
      exact running

theorem callsOf_run (wakeups : List Wakeup) (p : Player)
    (running : (run (step sdpParse) wakeups p).state.running = true) :
    callsOf (run (step sdpParse) wakeups p).events = (heard wakeups).filterMap Received.call := by
  induction wakeups generalizing p with
  | nil => rfl
  | cons wakeup rest ih =>
      have here := running_of_run sdpParse running
      rw [run_cons, Traced.follow_state] at running
      rw [run_cons, Traced.follow_events, callsOf_append, callsOf_step sdpParse wakeup p here, ih _ running,
        heard_cons, List.filterMap_append]
      cases wakeup.message with
      | none => rfl
      | some received =>
          rw [Option.bind_some, Option.toList_some]
          cases call : received.call with
          | none => rw [List.filterMap_cons_none call]; rfl
          | some handled => rw [List.filterMap_cons_some call]; rfl

/-! ### Two cuttings of one stream -/

-- A recv result below 2048 octets is followed by a zero of the cleared buffer.
theorem buf_of_short (received : Received) (short : received.octets.length < 2048) :
    received.buf = cString received.octets := by
  obtain ⟨room, filled⟩ := Nat.exists_eq_add_of_lt short
  have zeros : 2048 - received.octets.length = room + 1 := by omega
  unfold Received.buf cString
  rw [zeros, List.replicate_succ, List.append_assoc, List.cons_append, List.takeWhile_append]
  split
  · next all =>
      have same := List.IsPrefix.eq_of_length (List.takeWhile_prefix _) all
      rw [List.takeWhile_cons_of_neg (by simp), List.append_nil, same]
  · rfl

def callOf (octets : List UInt8) : Option (Handler × List UInt8 × Nat) :=
  (dispatch (cString octets)).map (·, cString octets, octets.length)

theorem calls_of_short (messages : List Received) (short : ∀ received ∈ messages, received.octets.length < 2048) :
    messages.filterMap Received.call = (messages.map Received.octets).filterMap callOf := by
  rw [List.filterMap_map]
  refine List.filterMap_congr fun received member => ?_
  unfold Received.call
  rw [buf_of_short received (short received member)]
  rfl

theorem call_size {received : Received} {call : Handler × List UInt8 × Nat} (same : received.call = some call) :
    call.2.2 = received.octets.length := by
  unfold Received.call at same
  obtain ⟨handler, _, made⟩ := Option.map_eq_some_iff.mp same
  rw [← made]

theorem sizes_of_calls (messages : List Received) (filled : ∀ received ∈ messages, received.octets ≠ []) :
    ((messages.filterMap Received.call).map (·.2.2)).sum ≤ (messages.map (·.octets.length)).sum ∧
      ((messages.map (·.octets.length)).sum ≤ ((messages.filterMap Received.call).map (·.2.2)).sum →
        (messages.filterMap Received.call).map (·.2.2) = messages.map (·.octets.length)) := by
  induction messages with
  | nil => exact ⟨Nat.le_refl _, fun _ => rfl⟩
  | cons received rest ih =>
      obtain ⟨bound, exact_of⟩ := ih fun other member => filled other (List.mem_cons_of_mem received member)
      have some_octets : 0 < received.octets.length := List.length_pos_of_ne_nil (filled received List.mem_cons_self)
      cases call : received.call with
      | none =>
          rw [List.filterMap_cons_none call, List.map_cons, List.sum_cons]
          exact ⟨by omega, fun reached => by omega⟩
      | some handled =>
          have size := call_size call
          simp only [List.filterMap_cons_some call, List.map_cons, List.sum_cons, size]
          refine ⟨by omega, fun reached => ?_⟩
          rw [exact_of (by omega)]

theorem sizes_of_handled {messages : List Received} (handled : ∀ received ∈ messages, dispatch received.buf ≠ none) :
    (messages.filterMap Received.call).map (·.2.2) = messages.map (·.octets.length) := by
  induction messages with
  | nil => rfl
  | cons received rest ih =>
      have here := handled received List.mem_cons_self
      cases call : received.call with
      | none =>
          unfold Received.call at call
          exact absurd (Option.map_eq_none_iff.mp call) here
      | some made =>
          rw [List.filterMap_cons_some call, List.map_cons, List.map_cons, call_size call,
            ih fun other member => handled other (List.mem_cons_of_mem received member)]

theorem same_messages_of_same_calls {whole cut : List Received} (filled : ∀ received ∈ cut, received.octets ≠ [])
    (handled : ∀ received ∈ whole, dispatch received.buf ≠ none)
    (stream : (cut.map Received.octets).flatten = (whole.map Received.octets).flatten)
    (same : cut.filterMap Received.call = whole.filterMap Received.call) :
    cut.map Received.octets = whole.map Received.octets := by
  have sizes : ∀ messages : List Received, (messages.map (·.octets.length)) =
      (messages.map Received.octets).map List.length := by
    intro messages
    rw [List.map_map]
    rfl
  have whole_sizes := sizes_of_handled handled
  -- the calls account for every octet, so every piece has one
  have total : (cut.map (·.octets.length)).sum = (whole.map (·.octets.length)).sum := by
    rw [sizes, sizes, ← List.length_flatten, ← List.length_flatten, stream]
  have reached : (cut.map (·.octets.length)).sum = ((cut.filterMap Received.call).map (·.2.2)).sum := by
    rw [same, whole_sizes, total]
  have cut_sizes := (sizes_of_calls cut filled).2 (Nat.le_of_eq reached)
  rw [same, whole_sizes, sizes, sizes] at cut_sizes
  exact List.eq_iff_flatten_eq.mpr ⟨stream, cut_sizes.symm⟩

/-- Every recv result is one message: the calls of a run are theirs. Hence, of all cuttings of
handled responses, only the one along the responses has the calls of the responses. -/
theorem handler_calls_of_segments (url : List UInt8) (cut : List Wakeup)
    (running : (play sdpParse url cut).state.running = true) :
    callsOf (play sdpParse url cut).events = (heard cut).filterMap Received.call ∧
      ∀ whole : List Wakeup, (play sdpParse url whole).state.running = true →
        (∀ response ∈ heard whole, response.octets.length < 2048 ∧ dispatch response.buf ≠ none) →
        ((heard cut).map Received.octets).flatten = ((heard whole).map Received.octets).flatten →
        (callsOf (play sdpParse url cut).events = callsOf (play sdpParse url whole).events ↔
          (heard cut).map Received.octets = (heard whole).map Received.octets) := by
  have cut_calls := callsOf_run sdpParse cut (.start url) running
  refine ⟨cut_calls, fun whole wholeRuns responses stream => ?_⟩
  have whole_calls := callsOf_run sdpParse whole (.start url) wholeRuns
  unfold play
  rw [cut_calls, whole_calls]
  constructor
  · exact same_messages_of_same_calls (heard_ne_nil cut) (fun received member => (responses received member).2) stream
  · intro same
    -- the pieces are responses, so they are short as well
    have short : ∀ received ∈ heard cut, received.octets.length < 2048 := by
      intro received member
      have listed : received.octets ∈ (heard whole).map Received.octets :=
        same ▸ List.mem_map_of_mem member
      obtain ⟨response, from_whole, equal⟩ := List.mem_map.mp listed
      rw [← equal]
      exact (responses response from_whole).1
    rw [calls_of_short _ short, calls_of_short _ fun response member => (responses response member).1, same]

def Wakeup.hears (octets : List UInt8) (bounded : octets.length ≤ 2048) : Wakeup :=
  .ready (some ⟨octets, [], bounded⟩) none false false ⟨4, true, true⟩

def Wakeup.connects : Wakeup := .ready none none true false ⟨4, true, true⟩

def describeHeaders : List UInt8 := ascii "RTSP/1.0 200 OK\r\nCSeq: 2\r\nContent-Length: 84\r\n\r\n"

def describeBody : List UInt8 :=
  ascii "v=0\r\no=- 1 1 IN IP4 0.0.0.0\r\ns=-\r\nt=0 0\r\nm=video 0 RTP/AVP 96\r\na=control:trackID=0\r\n"

def setupResponse : List UInt8 := ascii "RTSP/1.0 200 OK\r\nCSeq: 3\r\n\r\n"

def describeMedia : List SdpMedia := [⟨ascii "video", ascii "RTP/AVP", [ascii "control:trackID=0"]⟩]

theorem describeResponse_bounded : (describeHeaders ++ describeBody).length ≤ 2048 := by decide +kernel

theorem setupResponse_bounded : setupResponse.length ≤ 2048 := by decide +kernel

/-- What sdp_parse makes of that body, and of any text without version line. -/
def parsesText (text : List UInt8) : Option (List SdpMedia) :=
  if text = sdpText describeBody then some describeMedia else none

set_option maxRecDepth 10000 in
theorem handler_calls_of_segments_setup :
    let response := Wakeup.hears (describeHeaders ++ describeBody) describeResponse_bounded
    let cut := [.connects, response, .hears (setupResponse.take 20) (by decide +kernel),
      .hears (setupResponse.drop 20) (by decide +kernel)]
    let whole := [.connects, response, .hears setupResponse setupResponse_bounded]
    callsOf (play parsesText (ascii "rtsp://h/s") cut).events = (heard cut).filterMap Received.call ∧
      (callsOf (play parsesText (ascii "rtsp://h/s") cut).events =
          callsOf (play parsesText (ascii "rtsp://h/s") whole).events ↔
        (heard cut).map Received.octets = (heard whole).map Received.octets) := by
  intro response cut whole
  have calls := handler_calls_of_segments parsesText (ascii "rtsp://h/s") cut (by decide +kernel)
  exact ⟨calls.1, calls.2 whole (by decide +kernel) (by decide +kernel) (by decide +kernel)⟩

set_option maxRecDepth 10000 in
/-- A DESCRIBE response cut before its body is handled without it. -/
theorem handler_calls_depend_on_segments :
    let cut := [Wakeup.connects, .hears describeHeaders (by decide +kernel), .hears describeBody (by decide +kernel)]
    let whole := [Wakeup.connects, .hears (describeHeaders ++ describeBody) describeResponse_bounded]
    ((heard cut).map Received.octets).flatten = ((heard whole).map Received.octets).flatten ∧
      callsOf (play parsesText (ascii "rtsp://h/s") whole).events =
        [(.describe, describeHeaders ++ describeBody, (describeHeaders ++ describeBody).length)] ∧
      callsOf (play parsesText (ascii "rtsp://h/s") cut).events =
        [(.describe, describeHeaders, describeHeaders.length)] := by
  decide +kernel

end H264Streaming.RtspClient
