import H264Streaming.RtspClient.Iteration

/-! Which messages SendVideoSetup and SendPlay answer, and when these are the right ones.

The loop keeps no record of requests and looks at no status: the two run in the
iteration of a message that HandleRtspMsg has dispatched by its number.
-/

set_option autoImplicit false

namespace H264Streaming.RtspClient

open H264Streaming.Bytes H264Streaming.Semantics

def Action.isSetup : Action → Bool
  | .send request => (ascii "SETUP ").isPrefixOf request
  | _ => false

def Action.ordered : Action → Bool
  | .sendVideoSetup _ => true
  | .sendPlay => true
  | action => action.isSetup

/-- The message whose handler decides what HandleRtspState sends in the same iteration. An error ends
the loop before, and a connection reported now sets another state. -/
def answered (p : Player) : Wakeup → Option Received
  | .ready (some received) _ writable error _ =>
      if p.running ∧ received.octets ≠ [] ∧ error = false ∧ ¬ (p.writefd ∧ writable) then some received else none
  | _ => none

variable (sdpParse : List UInt8 → Option (List SdpMedia))

def replies (url : List UInt8) (socketOk : Bool) (received : Received) : List Action :=
  match dispatch received.buf with
  | some .describe =>
      match sdpParse (sdpText received.buf) with
      | some medias => .sendVideoSetup (.payload medias) :: (videoSetups url 0 medias).map .send
      | none => [.sendVideoSetup .null]
  | some .videoSetup => if socketOk then [.sendPlay] else []
  | none => []

/-! ### One iteration -/

theorem setupRequest_isSetup (url proto : List UInt8) (track cSeq rtpPort rtcpPort : Int) :
    (Action.send (setupRequest url track cSeq proto rtpPort rtcpPort)).isSetup = true := by
  unfold Action.isSetup setupRequest
  dsimp only
  simp only [List.append_assoc]
  exact List.isPrefixOf_iff_prefix.mpr (List.prefix_append _ _)

theorem videoSetups_isSetup (url : List UInt8) (medias : List SdpMedia) (track : Int) :
    ∀ action ∈ (videoSetups url track medias).map Action.send, action.isSetup = true := by
  induction medias generalizing track with
  | nil => exact fun _ absent => absurd absent List.not_mem_nil
  | cons media rest ih =>
      unfold videoSetups
      split
      · exact List.forall_mem_cons.mpr ⟨setupRequest_isSetup .., ih _⟩
      · exact ih track

theorem not_mem_videoSetups {action : Action} (other : action.isSetup = false) (url : List UInt8) (medias : List SdpMedia)
    (track : Int) : action ∉ (videoSetups url track medias).map Action.send := by
  intro member
  cases other.symm.trans (videoSetups_isSetup url medias track action member)

theorem ordered_handleRtspState (p : Player) :
    (handleRtspState p).events.filter Action.ordered =
      match p.playState with
      | .rtspSendVideoSetup => (sendVideoSetup p).events
      | .rtspSendPlay => [.sendPlay]
      | _ => [] := by
  unfold handleRtspState
  rw [Traced.follow_events, Traced.quiet_events, List.append_nil]
  cases p.playState with
  | rtspSendVideoSetup =>
      refine List.filter_eq_self.mpr ?_
      unfold sendVideoSetup
      dsimp only
      split
      · refine List.forall_mem_cons.mpr ⟨rfl, fun action member => ?_⟩
        have setup := videoSetups_isSetup _ _ _ action member
        cases action <;> first | exact setup | rfl
      · exact List.forall_mem_singleton.mpr rfl
  | _ => rfl

theorem ordered_readRtp (watched : Int) (rtp : Option (Option (List UInt8))) (p : Player) :
    (readRtp watched rtp p).events.filter Action.ordered = [] := by
  refine List.filter_eq_nil_iff.mpr fun action member => ?_
  have writes := (readRtp_writes watched rtp p).1 action member
  cases action with
  | fwrite | fwriteBeyond => exact Bool.false_ne_true
  | _ => cases writes

theorem ordered_reads {calls : SocketCalls} {p : Player} {rtsp : Option Received} {read : Traced Player Action}
    (reads : Reads sdpParse calls p rtsp read) : read.events.filter Action.ordered = [] := by
  cases reads <;> rfl

theorem sendVideoSetup_described (p : Player) (buf : List UInt8) :
    (sendVideoSetup { handleDescribe sdpParse buf p with playState := .rtspSendVideoSetup, writefd := false }).events =
      match sdpParse (sdpText buf) with
      | some medias => .sendVideoSetup (.payload medias) :: (videoSetups p.rtspurl 0 medias).map .send
      | none => [.sendVideoSetup .null] := by
  unfold sendVideoSetup handleDescribe
  dsimp only
  rw [describeLines_text]
  cases sdpParse (sdpText buf) <;> rfl

-- A connection reported in this iteration overwrites the state that the handler has set.
theorem ordered_turn {rtp : Option (Option (List UInt8))} {writable : Bool} {calls : SocketCalls} {p : Player}
    {rtsp : Option Received} {read : Traced Player Action} (reads : Reads sdpParse calls p rtsp read)
    (running : p.running = true) (idle : p.playState = .rtspIdle) (alive : read.state.running = true) :
    (handleRtspState (afterConnect writable read.state)).events.filter Action.ordered =
      ((answered p (.ready rtsp rtp writable false calls)).map (replies sdpParse p.rtspurl calls.ok)).getD [] := by
  have armed : read.state.writefd = p.writefd := by
    cases reads <;> rfl
  rw [ordered_handleRtspState]
  by_cases connects : p.writefd ∧ writable
  · have nothing : answered p (.ready rtsp rtp writable false calls) = none := by
      cases rtsp with
      | none => rfl
      | some received => exact if_neg fun all => all.2.2.2 connects
    have describes : (afterConnect writable read.state).playState = .rtspSendDescribe :=
      if_pos (armed.symm ▸ connects)
    rw [nothing, describes]
    rfl
  · have kept : afterConnect writable read.state = { read.state with writefd := false } := by
      rw [← armed] at connects
      rw [afterConnect, if_neg connects]
    have message : ∀ received : Received, received.octets ≠ [] →
        answered p (.ready (some received) rtp writable false calls) = some received :=
      fun received filled => if_pos ⟨running, filled, rfl, connects⟩
    rw [kept]
    cases reads with
    | silent _ undispatched =>
        dsimp only [Traced.quiet]
        rw [idle]
        cases rtsp with
        | none => rfl
        | some received =>
            obtain ⟨filled, none⟩ := undispatched received rfl
            simp only [message received filled, Option.map_some, Option.getD_some, replies, none]
    | closed => cases alive
    | described received filled dispatched =>
        dsimp only
        rw [message received filled, Option.map_some, Option.getD_some, replies, dispatched]
        exact sendVideoSetup_described sdpParse p received.buf
    | setUp received filled dispatched ok =>
        simp only [message received filled, Option.map_some, Option.getD_some, replies, dispatched, ok, if_true]
    | refused received filled dispatched failed =>
        dsimp only
        rw [idle]
        simp [message received filled, replies, dispatched, failed]

/-- In a settled state an iteration enters and requests what its message is answered with. -/
theorem ordered_step {wakeup : Wakeup} {p : Player} (settled : p.running = true → p.playState = .rtspIdle) :
    (step sdpParse wakeup p).events.filter Action.ordered =
      ((answered p wakeup).map (replies sdpParse p.rtspurl wakeup.socketOk)).getD [] := by
  cases running : p.running with
  | false =>
      have nothing : answered p wakeup = none := by
        unfold answered
        split
        · exact if_neg fun all => Bool.false_ne_true (running.symm.trans all.1)
        · rfl
      rw [step_stopped sdpParse wakeup p running, nothing]
      rfl
  | true =>
      have idle := settled running
      cases wakeup with
      | failed =>
          rw [step, Player.whileRunning, if_pos running]
          rfl
      | timeout =>
          rw [step, Player.whileRunning, if_pos running, ordered_handleRtspState, idle]
          rfl
      | ready rtsp rtp writable error calls =>
          have reads := readRtsp_reads sdpParse calls rtsp p
          have unread := ordered_reads sdpParse reads
          have unwritten := ordered_readRtp p.rtpVideoSocket rtp (readRtsp sdpParse calls rtsp p).state
          by_cases ended : (readRtsp sdpParse calls rtsp p).state.running = false ∨ error = true
          · have nothing : answered p (.ready rtsp rtp writable error calls) = none := by
              cases rtsp with
              | none => rfl
              | some received =>
                  refine if_neg fun all => ?_
                  rcases ended with closed | failed
                  · generalize readRtsp sdpParse calls (some received) p = read at reads closed
                    cases reads with
                    | closed _ empty => exact all.2.1 empty
                    | _ => cases running.symm.trans closed
                  · cases all.2.2.1.symm.trans failed
            rcases (step_ended sdpParse rtsp rtp writable error calls p running ended).2 with whole | whole
            · rw [whole, unread, nothing]
              rfl
            · rw [whole, List.filter_append, unread, unwritten, nothing]
              rfl
          · obtain ⟨alive, unfailed⟩ := not_or.mp ended
            cases (Bool.not_eq_true _).mp unfailed
            have reached := (Bool.not_eq_false _).mp alive
            rw [step_reached sdpParse rtsp rtp writable calls p running reached]
            dsimp only
            rw [List.filter_append, List.filter_append, unread, unwritten, List.nil_append, List.nil_append]
            exact ordered_turn sdpParse reads running idle reached

theorem mem_step_iff {wakeup : Wakeup} {p : Player} (settled : p.running = true → p.playState = .rtspIdle)
    {action : Action} (ordered : action.ordered = true) :
    action ∈ (step sdpParse wakeup p).events ↔
      ∃ received, answered p wakeup = some received ∧ action ∈ replies sdpParse p.rtspurl wakeup.socketOk received := by
  have kept : action ∈ (step sdpParse wakeup p).events ↔
      action ∈ (step sdpParse wakeup p).events.filter Action.ordered := by
    rw [List.mem_filter]
    exact (and_iff_left ordered).symm
  rw [kept, ordered_step sdpParse settled]
  cases answered p wakeup with
  | none => simp
  | some received => simp

section
variable {url : List UInt8} {socketOk : Bool} {received : Received}

theorem sendVideoSetup_mem_replies {parser : SdpPointer} :
    .sendVideoSetup parser ∈ replies sdpParse url socketOk received ↔
      dispatch received.buf = some .describe ∧ parser = .of (sdpParse (sdpText received.buf)) := by
  have others := not_mem_videoSetups (show (Action.sendVideoSetup parser).isSetup = false from rfl) url
  unfold replies
  cases dispatch received.buf with
  | none => simp
  | some handler =>
      cases handler with
      | describe => cases sdpParse (sdpText received.buf) <;> simp [others, SdpPointer.of]
      | videoSetup => cases socketOk <;> simp

theorem sendPlay_mem_replies :
    .sendPlay ∈ replies sdpParse url socketOk received ↔
      dispatch received.buf = some .videoSetup ∧ socketOk = true := by
  have others := not_mem_videoSetups (show Action.sendPlay.isSetup = false from rfl) url
  unfold replies
  cases dispatch received.buf with
  | none => simp
  | some handler =>
      cases handler with
      | describe => cases sdpParse (sdpText received.buf) <;> simp [others]
      | videoSetup => cases socketOk <;> simp

theorem videoSetups_ne_nil_iff {medias : List SdpMedia} {track : Int} :
    videoSetups url track medias ≠ [] ↔ ∃ media ∈ medias, media.type = ascii "video" := by
  induction medias generalizing track with
  | nil => simp [videoSetups]
  | cons media rest ih =>
      by_cases video : media.type = ascii "video"
      · simp [videoSetups, video]
      · rw [videoSetups, if_neg video, ih]
        simp [video]

def Received.OffersVideo (received : Received) : Prop :=
  dispatch received.buf = some .describe ∧
    ∃ medias, sdpParse (sdpText received.buf) = some medias ∧ ∃ media ∈ medias, media.type = ascii "video"

theorem setup_mem_replies :
    (∃ action ∈ replies sdpParse url socketOk received, action.isSetup = true) ↔ received.OffersVideo sdpParse := by
  unfold replies Received.OffersVideo
  cases dispatch received.buf with
  | none => simp
  | some handler =>
      cases handler with
      | videoSetup => cases socketOk <;> simp [Action.isSetup]
      | describe =>
          cases accepted : sdpParse (sdpText received.buf) with
          | none => simp [Action.isSetup]
          | some medias =>
              simp only [true_and, Option.some.injEq, exists_eq_left']
              rw [← @videoSetups_ne_nil_iff url medias 0]
              constructor
              · rintro ⟨action, member, setup⟩ empty
                rw [empty, List.map_nil, List.mem_singleton] at member
                rw [member] at setup
                cases setup
              · intro filled
                obtain ⟨request, member⟩ := List.exists_mem_of_ne_nil _ filled
                have sent := List.mem_map_of_mem (f := Action.send) member
                exact ⟨_, List.mem_cons_of_mem _ sent, videoSetups_isSetup url medias 0 _ sent⟩

end

/-! ### Whole runs -/

def Received.Ok (received : Received) : Prop := ascii "RTSP/1.0 200 " <+: received.buf

def Received.Describes (received : Received) : Prop :=
  dispatch received.buf = some .describe ∧ received.Ok ∧ (sdpParse (sdpText received.buf)).isSome

def Received.Grants (received : Received) : Prop := dispatch received.buf = some .videoSetup ∧ received.Ok

variable (url : List UInt8) (wakeups : List Wakeup)

def Requested : Prop := ∃ action ∈ (play sdpParse url wakeups).events, action.isSetup = true

/-- In every state of the run: SendVideoSetup runs only behind a DESCRIBE response with status 200 and
accepted SDP, and has a payload; SendPlay only behind a SETUP that was sent and answered with status 200. -/
structure Orderly : Prop where
  setups : ∀ front wakeup parser, front ++ [wakeup] <+: wakeups →
    .sendVideoSetup parser ∈ (step sdpParse wakeup (play sdpParse url front).state).events →
      (∃ medias, parser = .payload medias) ∧ ∃ received ∈ heard (front ++ [wakeup]), received.Describes sdpParse
  plays : ∀ front wakeup, front ++ [wakeup] <+: wakeups →
    .sendPlay ∈ (step sdpParse wakeup (play sdpParse url front).state).events →
      ∃ before answer received, before ++ [answer] <+: front ++ [wakeup] ∧ answer.message = some received ∧
        received.Grants ∧ Requested sdpParse url before

def Offered : Prop :=
  ∃ front wakeup received, front ++ [wakeup] <+: wakeups ∧
    answered (play sdpParse url front).state wakeup = some received ∧ received.OffersVideo sdpParse

/-- What the server has to keep to. An answered message with the number of DESCRIBE has an accepted
description, and it or one before has status 200. An answered one with the number of SETUP, if its socket
is made, has status 200 behind the offer of a video, or comes behind one that has. -/
structure InTurn : Prop where
  described : ∀ front wakeup received, front ++ [wakeup] <+: wakeups →
    answered (play sdpParse url front).state wakeup = some received → dispatch received.buf = some .describe →
      (sdpParse (sdpText received.buf)).isSome ∧ ∃ other ∈ heard (front ++ [wakeup]), other.Describes sdpParse
  setUp : ∀ front wakeup received, front ++ [wakeup] <+: wakeups →
    answered (play sdpParse url front).state wakeup = some received → dispatch received.buf = some .videoSetup →
      wakeup.socketOk = true →
        ∃ before answer other, before ++ [answer] <+: front ++ [wakeup] ∧ answer.message = some other ∧
          other.Grants ∧ Offered sdpParse url before

section
variable {sdpParse url wakeups}

theorem play_settled (running : (play sdpParse url wakeups).state.running = true) :
    (play sdpParse url wakeups).state.playState = .rtspIdle :=
  (play_running sdpParse url wakeups running).1

theorem sendVideoSetup_mem_iff {wakeup : Wakeup} {parser : SdpPointer} :
    .sendVideoSetup parser ∈ (step sdpParse wakeup (play sdpParse url wakeups).state).events ↔
      ∃ received, answered (play sdpParse url wakeups).state wakeup = some received ∧
        dispatch received.buf = some .describe ∧ parser = .of (sdpParse (sdpText received.buf)) := by
  rw [mem_step_iff sdpParse play_settled rfl]
  simp only [sendVideoSetup_mem_replies]

theorem sendPlay_mem_iff {wakeup : Wakeup} :
    .sendPlay ∈ (step sdpParse wakeup (play sdpParse url wakeups).state).events ↔
      ∃ received, answered (play sdpParse url wakeups).state wakeup = some received ∧
        dispatch received.buf = some .videoSetup ∧ wakeup.socketOk = true := by
  rw [mem_step_iff sdpParse play_settled rfl]
  simp only [sendPlay_mem_replies]

theorem setup_ordered {action : Action} (setup : action.isSetup = true) : action.ordered = true := by
  cases action <;> first | exact setup | cases setup

theorem requested_iff : Requested sdpParse url wakeups ↔ Offered sdpParse url wakeups := by
  unfold Requested Offered
  constructor
  · rintro ⟨action, member, setup⟩
    obtain ⟨front, wakeup, inside, here⟩ := mem_run_events_iff.mp member
    obtain ⟨received, heeded, reply⟩ := (mem_step_iff sdpParse play_settled (setup_ordered setup)).mp here
    exact ⟨front, wakeup, received, inside, heeded, (setup_mem_replies sdpParse).mp ⟨action, reply, setup⟩⟩
  · rintro ⟨front, wakeup, received, inside, heeded, offers⟩
    obtain ⟨action, reply, setup⟩ := (setup_mem_replies sdpParse).mpr offers
    have here := (mem_step_iff sdpParse play_settled (setup_ordered setup)).mpr ⟨received, heeded, reply⟩
    exact ⟨action, mem_run_events_iff.mpr ⟨front, wakeup, inside, here⟩, setup⟩

theorem Requested.mono {front : List Wakeup} (requested : Requested sdpParse url front) (inside : front <+: wakeups) :
    Requested sdpParse url wakeups := by
  obtain ⟨action, member, setup⟩ := requested
  obtain ⟨back, rfl⟩ := inside
  refine ⟨action, ?_, setup⟩
  unfold play at member ⊢
  rw [run_append]
  exact List.mem_append_left _ member

end

/-- The player is orderly exactly in the runs in which the server keeps to that. -/
theorem orderly_iff : Orderly sdpParse url wakeups ↔ InTurn sdpParse url wakeups := by
  constructor
  · intro orderly
    refine ⟨fun front wakeup received inside heeded dispatched => ?_,
      fun front wakeup received inside heeded dispatched made => ?_⟩
    · obtain ⟨⟨medias, payload⟩, before⟩ := orderly.setups front wakeup _ inside
        (sendVideoSetup_mem_iff.mpr ⟨received, heeded, dispatched, rfl⟩)
      refine ⟨?_, before⟩
      cases accepted : sdpParse (sdpText received.buf) with
      | none =>
          rw [accepted] at payload
          cases payload
      | some _ => rfl
    · obtain ⟨before, answer, other, earlier, message, grants, requested⟩ :=
        orderly.plays front wakeup inside (sendPlay_mem_iff.mpr ⟨received, heeded, dispatched, made⟩)
      exact ⟨before, answer, other, earlier, message, grants, requested_iff.mp requested⟩
  · intro inTurn
    refine ⟨fun front wakeup parser inside member => ?_, fun front wakeup inside member => ?_⟩
    · obtain ⟨received, heeded, dispatched, rfl⟩ := sendVideoSetup_mem_iff.mp member
      obtain ⟨accepted, before⟩ := inTurn.described front wakeup received inside heeded dispatched
      obtain ⟨medias, same⟩ := Option.isSome_iff_exists.mp accepted
      exact ⟨⟨medias, by rw [same]; rfl⟩, before⟩
    · obtain ⟨received, heeded, dispatched, made⟩ := sendPlay_mem_iff.mp member
      obtain ⟨before, answer, other, earlier, message, grants, offered⟩ :=
        inTurn.setUp front wakeup received inside heeded dispatched made
      exact ⟨before, answer, other, earlier, message, grants, requested_iff.mpr offered⟩

def notFound (number : String) : List UInt8 := ascii ("RTSP/1.0 404 Not Found\r\nCSeq: " ++ number ++ "\r\n\r\n")

set_option maxRecDepth 10000 in
/-- A response with status 404 starts SETUP on a null pointer, or PLAY although no SETUP was sent. -/
theorem sends_unordered :
    let url := ascii "rtsp://h/s"
    let second := [Wakeup.connects, .hears (notFound "2") (by decide +kernel)]
    let third := [Wakeup.connects, .hears (notFound "3") (by decide +kernel)]
    (.sendVideoSetup .null ∈ (play parsesText url second).events ∧ ¬ Orderly parsesText url second) ∧
      .sendPlay ∈ (play parsesText url third).events ∧ ¬ Requested parsesText url third ∧
        ¬ Orderly parsesText url third := by
  intro url second third
  have unasked : ¬ ∃ action ∈ (play parsesText url third).events, action.isSetup = true := by decide +kernel
  refine ⟨⟨by decide +kernel, fun orderly => ?_⟩, by decide +kernel, unasked, fun orderly => ?_⟩
  · obtain ⟨⟨medias, payload⟩, -⟩ := orderly.setups [.connects] _ .null List.prefix_rfl (by decide +kernel)
    cases payload
  · obtain ⟨before, answer, -, earlier, -, -, requested⟩ :=
      orderly.plays [.connects] _ List.prefix_rfl (by decide +kernel)
    exact unasked (requested.mono ((List.prefix_append before [answer]).trans earlier))

end H264Streaming.RtspClient
