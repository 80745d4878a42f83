import H264Streaming.Bytes.Strtol
import H264Streaming.RtspClient.Iteration

/-! The requests of the player and the 1024 octets that they are printed to. -/

set_option autoImplicit false

namespace H264Streaming.RtspClient

open H264Streaming.Bytes H264Streaming.Semantics

/-! ### Numbers -/

theorem length_decimal_long {n : Int} (long : IsLong n) : (decimal n).length ≤ 20 := by
  have digits : (Nat.toDigits 10 n.natAbs).length ≤ 19 := by
    refine (Nat.length_toDigits_le_iff (by decide) (by decide)).mpr ?_
    unfold IsLong at long
    omega
  unfold decimal
  dsimp only
  split
  · rw [List.length_cons, List.length_map]
    omega
  · rw [List.length_map]
    omega

theorem isLong_scanLong {text : List UInt8} {n : Int} (read : scanLong text = some n) : IsLong n := by
  unfold scanLong at read
  obtain ⟨-, same⟩ := Option.ite_none_left_eq_some.mp read
  exact Option.some.inj same ▸ isLong_clampLong _

theorem isLong_scanInt {text : List UInt8} {n : Int} (read : scanInt text = some n) : IsLong n := by
  obtain ⟨whole, -, rfl⟩ := Option.map_eq_some_iff.mp read
  unfold IsLong toInt32
  omega

/-! ### One request -/

theorem describeRequest_fits {url : List UInt8} (short : url.length ≤ 400) :
    (describeRequest url).length < requestBufSize := by
  simp only [describeRequest, List.length_append, ascii, List.length_map, requestBufSize]
  have number : (decimal rtspDescribe).length = 1 := rfl
  simp
  omega

theorem playRequest_fits {url : List UInt8} (short : url.length ≤ 400) {session : Int} (long : IsLong session) :
    (playRequest url (decimal session)).length < requestBufSize := by
  have number := length_decimal_long long
  have cSeq : (decimal rtspPlay).length = 1 := rfl
  simp only [playRequest, List.length_append, ascii, List.length_map, requestBufSize]
  simp
  omega

theorem setupRequest_fits {url proto : List UInt8} (short : url.length ≤ 400) (room : proto.length ≤ 400) {track : Int}
    (long : IsLong track) :
    (setupRequest url track rtspVideoSetup proto videoRtpPort videoRtcpPort).length < requestBufSize := by
  have number := length_decimal_long long
  have cSeq : (decimal rtspVideoSetup).length = 1 := rfl
  have rtpPort : (decimal videoRtpPort).length = 5 := rfl
  have rtcpPort : (decimal videoRtcpPort).length = 5 := rfl
  simp only [setupRequest, List.length_append, ascii, List.length_map, requestBufSize]
  simp
  omega

/-! ### One iteration -/

/-- What keeps the requests of a player short. -/
structure Player.Short (p : Player) : Prop where
  rtspurl : p.rtspurl.length ≤ 400
  session : IsLong p.rtspSessionID
  proto : ∀ medias, p.sdpParser = .payload medias → ∀ media ∈ medias, media.proto.length ≤ 400

theorem videoSetups_fit {url : List UInt8} (short : url.length ≤ 400) {medias : List SdpMedia}
    (room : ∀ media ∈ medias, media.proto.length ≤ 400) {track : Int} (long : IsLong track) :
    ∀ request ∈ videoSetups url track medias, request.length < requestBufSize := by
  induction medias generalizing track with
  | nil => exact fun _ absent => absurd absent List.not_mem_nil
  | cons media rest ih =>
      obtain ⟨here, later⟩ := List.forall_mem_cons.mp room
      unfold videoSetups
      split
      · -- the last number found is one that scanf has read
        suffices found : IsLong (media.attributes.foldl (fun track line =>
            if (strstr (ascii "trackID") line).isSome then
              ((behind (ascii "control:trackID=") line).bind scanInt).getD track
            else track) track) from
          List.forall_mem_cons.mpr ⟨setupRequest_fits short here found, ih later found⟩
        refine List.foldlRecOn media.attributes _ long fun track long line _ => ?_
        split
        · cases read : (behind (ascii "control:trackID=") line).bind scanInt with
          | none => exact long
          | some number =>
              obtain ⟨text, -, scanned⟩ := Option.bind_eq_some_iff.mp read
              exact isLong_scanInt scanned
        · exact long
      · exact ih later long

theorem handleRtspState_fits {p : Player} (short : p.Short) :
    (∀ request, .send request ∈ (handleRtspState p).events → request.length < requestBufSize) ∧
      (handleRtspState p).state.Short := by
  unfold handleRtspState
  rw [Traced.follow_events, Traced.quiet_events, List.append_nil, Traced.follow_state, Traced.quiet_state]
  cases p.playState with
  | rtspSendDescribe =>
      refine ⟨fun request member => ?_, { short with }⟩
      cases List.mem_singleton.mp member
      exact describeRequest_fits short.rtspurl
  | rtspSendPlay =>
      refine ⟨fun request member => ?_, { short with }⟩
      rcases List.mem_cons.mp member with same | sent
      · cases same
      · cases List.mem_singleton.mp sent
        exact playRequest_fits short.rtspurl short.session
  | rtspSendVideoSetup =>
      dsimp only
      unfold sendVideoSetup
      cases pointer : p.sdpParser with
      | payload medias =>
          refine ⟨fun request member => ?_, { short with }⟩
          rcases List.mem_cons.mp member with same | sent
          · cases same
          · obtain ⟨own, among, same⟩ := List.mem_map.mp sent
            cases same
            exact videoSetups_fit short.rtspurl (short.proto medias pointer) ⟨by decide, by decide⟩ _ among
      | _ =>
          -- the process ends, and there is no payload
          refine ⟨fun request member => ?_, { short with proto := fun medias payload => ?_ }⟩
          · cases List.mem_singleton.mp member
          · cases payload
  | _ => exact ⟨fun request absent => absurd absent List.not_mem_nil, { short with }⟩

variable (sdpParse : List UInt8 → Option (List SdpMedia))

/-- A description in it has short protocols only. -/
def Received.Short (received : Received) : Prop :=
  ∀ medias, sdpParse (sdpText received.buf) = some medias → ∀ media ∈ medias, media.proto.length ≤ 400

theorem reads_fit {calls : SocketCalls} {p : Player} {rtsp : Option Received} {read : Traced Player Action}
    (reads : Reads sdpParse calls p rtsp read) (short : p.Short)
    (texts : ∀ received, rtsp = some received → received.octets ≠ [] → received.Short sdpParse) :
    (∀ request, .send request ∉ read.events) ∧ read.state.Short := by
  cases reads with
  | silent | closed => exact ⟨fun _ => List.not_mem_nil, { short with }⟩
  | setUp | refused => exact ⟨by simp, { short with }⟩
  | described received filled dispatched =>
      refine ⟨by simp, { short with session := ?_, proto := fun medias pointer => ?_ }⟩
      · dsimp only
        rw [handleDescribe_session]
        cases last : ((strtok crlf received.buf).filterMap scanSession).getLast? with
        | none => exact short.session
        | some session =>
            obtain ⟨line, -, scanned⟩ := List.mem_filterMap.mp (List.mem_of_getLast? last)
            obtain ⟨text, -, read⟩ := Option.bind_eq_some_iff.mp scanned
            exact isLong_scanLong read
      · refine texts received rfl filled medias ?_
        dsimp only [handleDescribe] at pointer
        rw [describeLines_text] at pointer
        cases parsed : sdpParse (sdpText received.buf) with
        | none =>
            rw [parsed] at pointer
            cases pointer
        | some own =>
            rw [parsed] at pointer
            exact congrArg some (SdpPointer.payload.inj pointer)

theorem step_fits {wakeup : Wakeup} {p : Player} (short : p.running = true → p.Short)
    (texts : ∀ received, wakeup.message = some received → received.Short sdpParse) :
    (∀ request, .send request ∈ (step sdpParse wakeup p).events → request.length < requestBufSize) ∧
      ((step sdpParse wakeup p).state.running = true → (step sdpParse wakeup p).state.Short) := by
  cases running : p.running with
  | false =>
      rw [step_stopped sdpParse wakeup p running]
      exact ⟨fun _ absent => absurd absent List.not_mem_nil, short⟩
  | true =>
      have now := short running
      cases wakeup with
      | failed =>
          rw [step, Player.whileRunning, if_pos running]
          exact ⟨fun _ absent => absurd absent List.not_mem_nil, fun stopped => (by cases stopped)⟩
      | timeout =>
          rw [step, Player.whileRunning, if_pos running]
          have waiting : Player.Short { p with writefd := false } := { now with }
          obtain ⟨fits, after⟩ := handleRtspState_fits waiting
          exact ⟨fits, fun _ => after⟩
      | ready rtsp rtp writable error calls =>
          have reads := readRtsp_reads sdpParse calls rtsp p
          obtain ⟨unsent, kept⟩ := reads_fit sdpParse reads now fun received same filled =>
            texts received (by subst same; exact if_neg filled)
          have media : ∀ request, .send request ∉
              (readRtp p.rtpVideoSocket rtp (readRtsp sdpParse calls rtsp p).state).events :=
            fun request member => (by cases (readRtp_writes _ rtp _).1 _ member)
          have turned : (afterConnect writable (readRtsp sdpParse calls rtsp p).state).Short := { kept with }
          obtain ⟨fits, after⟩ := handleRtspState_fits turned
          rcases step_ready sdpParse rtsp rtp writable error calls p running with ⟨-, whole⟩ | ⟨stopped, early⟩
          · rw [whole]
            refine ⟨fun request member => ?_, fun _ => after⟩
            simp only [List.mem_append, unsent, media, or_self, false_or] at member
            exact fits request member
          · refine ⟨fun request member => ?_, fun alive => (by cases stopped.symm.trans alive)⟩
            rcases early with whole | whole
            · rw [whole] at member
              exact absurd member (unsent request)
            · rw [whole] at member
              exact (List.mem_append.mp member).elim (fun read => absurd read (unsent request)) fun written =>
                absurd written (media request)

/-- With a URL of up to 400 octets, and as long in the protocols of the descriptions received, every request
of every run fits. -/
theorem requests_fit {url : List UInt8} (short : url.length ≤ 400) {wakeups : List Wakeup}
    (descriptions : ∀ received ∈ heard wakeups, received.Short sdpParse) :
    ∀ request, .send request ∈ (play sdpParse url wakeups).events → request.length < requestBufSize := by
  have start : (Player.start url).running = true → (Player.start url).Short := fun _ =>
    ⟨short, show IsLong 0 from ⟨by decide, by decide⟩, fun _ pointer => (by cases pointer)⟩
  have each : ∀ wakeup ∈ wakeups, ∀ p : Player, (p.running = true → p.Short) →
      ((step sdpParse wakeup p).state.running = true → (step sdpParse wakeup p).state.Short) ∧
        ∀ action ∈ (step sdpParse wakeup p).events, ∀ request, action = .send request →
          request.length < requestBufSize := by
    intro wakeup among p kept
    obtain ⟨fits, after⟩ := step_fits sdpParse kept fun received message =>
      descriptions received (List.mem_filterMap.mpr ⟨wakeup, among, message⟩)
    exact ⟨after, fun action member request same => fits request (same ▸ member)⟩
  exact fun request member => (run_invariant each start).2 _ member request rfl

end H264Streaming.RtspClient
