import H264Streaming.RtspClient.Responses
import H264Streaming.Sdp.Outcome
import H264Streaming.Sdp.RoundTrip

/-! HandleDescribe with the SDP parser of the repository: which responses the player survives,
and what it requests of a server that describes its tracks. -/

set_option autoImplicit false

namespace H264Streaming.RtspClient

open H264Streaming.Bytes H264Streaming.Semantics

def SdpMedia.of (media : Sdp.SdpMedia) : SdpMedia := ⟨media.info.type, media.info.proto, media.attributes⟩

/-- sdp_parse for the player. Reading a null pointer inside it ends the process where a null pointer
that is returned would, before the next request. -/
def sdpParser (text : List UInt8) : Option (List SdpMedia) :=
  match Sdp.sdpParse text with
  | .accepted sdp => some (sdp.medias.map SdpMedia.of)
  | _ => none

/-! ### Lines of a response -/

theorem sdpText_lines {lines : List (List UInt8)} (plain : ∀ line ∈ lines, ∀ octet ∈ line, octet ∉ crlf) :
    sdpText (lines.flatMap (· ++ crlf)) = (lines.filter forParser).flatMap (· ++ [10]) := by
  have filled : (lines.filter (· ≠ [])).filter forParser = lines.filter forParser := by
    rw [List.filter_filter]
    refine List.filter_congr fun line _ => ?_
    cases line with
    | nil => rfl
    | cons octet line => simp
  rw [sdpText_eq, strtok_lines (fun _ member => member) (by decide) plain, filled]

theorem mem_crlf {octet : UInt8} : octet ∈ crlf ↔ octet = 13 ∨ octet = 10 := by
  unfold crlf
  rw [show ascii "\r\n" = [13, 10] from rfl, List.mem_cons, List.mem_singleton]

def passedLines (buf : List UInt8) : List (List UInt8) := (strtok crlf buf).filter forParser

theorem passedLines_plain {buf : List UInt8} (terminated : (0 : UInt8) ∉ buf) :
    ∀ line ∈ passedLines buf, Sdp.OneLine line ∧ line ≠ [] := by
  intro line member
  obtain ⟨filled, inside, plain⟩ := mem_strtok (List.mem_filter.mp member).1
  refine ⟨fun octet own => ⟨?_, ?_, ?_⟩, filled⟩
  · rintro rfl
    exact plain 13 own (mem_crlf.mpr (Or.inl rfl))
  · rintro rfl
    exact plain 10 own (mem_crlf.mpr (Or.inr rfl))
  · rintro rfl
    exact terminated (inside own)

theorem entries_sdpText {buf : List UInt8} (terminated : (0 : UInt8) ∉ buf) :
    Sdp.entries (sdpText buf) = Sdp.loadLines (passedLines buf) := by
  rw [sdpText_eq]
  exact Sdp.entries_lines (Or.inl rfl) (passedLines_plain terminated)

/-! ### Surviving a description -/

theorem sdpParser_isSome_iff (text : List UInt8) :
    (sdpParser text).isSome ↔ ∃ rest, Sdp.Mandatory (Sdp.entries text) rest ∧ ¬ Sdp.HeadOnly rest := by
  rw [← (Sdp.outcome_iff text).2.2, sdpParser]
  cases outcome : Sdp.sdpParse text with
  | rejected => exact iff_of_false Bool.false_ne_true fun ⟨_, same⟩ => nomatch same
  | nullRead => exact iff_of_false Bool.false_ne_true fun ⟨_, same⟩ => nomatch same
  | accepted sdp => exact iff_of_true rfl ⟨sdp, rfl⟩

theorem Received.buf_terminated (received : Received) : (0 : UInt8) ∉ received.buf := by
  intro member
  have other := List.mem_takeWhile_imp member
  simp at other

def described (buf : List UInt8) (p : Player) : Player :=
  { handleDescribe sdpParser buf p with playState := .rtspSendVideoSetup }

theorem step_describe {received : Received} (dispatched : dispatch received.buf = some .describe)
    (filled : received.octets ≠ []) {p : Player} (running : p.running = true) {writable : Bool}
    (settled : ¬ (p.writefd ∧ writable)) (rtp : Option (Option (List UInt8))) (calls : SocketCalls) :
    step sdpParser (.ready (some received) rtp writable false calls) p =
      (Traced.mk { described received.buf p with writefd := false }
        (.handleDescribe received.buf received.octets.length ::
          (readRtp p.rtpVideoSocket rtp (described received.buf p)).events)).follow handleRtspState := by
  have other : ¬ ((described received.buf p).writefd ∧ writable) := settled
  have alive : (described received.buf p).running = true := running
  have handled := handleRtspMsg_describe sdpParser calls received p dispatched
  have kept := (readRtp_writes p.rtpVideoSocket rtp (described received.buf p)).2
  rw [← described] at handled
  simp only [step, Player.whileRunning, running, if_true, readRtsp, if_neg filled, handled, Traced.follow, alive, kept,
    connected, checkError, Traced.quiet, if_neg other, Bool.not_false, Bool.and_true]
  rfl

/-- The loop goes on, and nothing has left its buffer. -/
def Survives (ran : Traced Player Action) : Prop :=
  ran.state.running = true ∧ ∀ action ∈ ran.events, action.inBounds

theorem inBounds_sends {requests : List (List UInt8)} :
    (∀ action ∈ requests.map Action.send, action.inBounds) ↔ ∀ request ∈ requests, request.length < requestBufSize := by
  rw [List.forall_mem_map]
  exact forall₂_congr fun request _ => decide_eq_true_iff

theorem readRtp_described (watched : Int) (rtp : Option (Option (List UInt8))) (buf : List UInt8) (p : Player) :
    (readRtp watched rtp (described buf p)).events = (readRtp watched rtp p).events := by
  have kept : (described buf p).rtpVideoSocket = p.rtpVideoSocket := rfl
  unfold readRtp
  rw [kept]
  cases rtp with
  | none => rfl
  | some _ =>
      dsimp only
      split <;> rfl

def untimed : Received where
  octets := ascii "RTSP/1.0 200 OK\r\nCSeq: 2\r\n\r\nv=0\r\no=- 1 1 IN IP4 h\r\ns=x\r\nc=IN IP4 h\r\n"
  beyond := []
  bounded := by decide +kernel

structure Tracked (media : Sdp.SdpMedia) (n : Nat) : Prop where
  attributes : ∃ before after, media.attributes = before ++ (ascii "control:trackID=" ++ decimal n) :: after ∧
    ∀ line ∈ before ++ after, ¬ ascii "trackID" <:+: line
  int : n < 2147483648

theorem foldl_tracks {before : List (List UInt8)} (other : ∀ line ∈ before, ¬ ascii "trackID" <:+: line) (track : Int) :
    before.foldl (fun track line =>
      if (strstr (ascii "trackID") line).isSome then
        ((behind (ascii "control:trackID=") line).bind scanInt).getD track
      else track) track = track := by
  induction before with
  | nil => rfl
  | cons line before ih =>
      obtain ⟨here, later⟩ := List.forall_mem_cons.mp other
      have absent : ¬ (strstr (ascii "trackID") line).isSome := fun found => here (strstr_isSome_iff.mp found)
      rw [List.foldl_cons, if_neg absent, ih later]

theorem scanInt_decimal {n : Nat} (int : n < 2147483648) : scanInt (decimal n) = some (n : Int) := by
  have whole : scanLong (decimal n ++ []) = some (clampLong (digitsValue (decimal n))) :=
    scanLong_digits (decimal_ne_nil n) (fun _ => isDigit_of_mem_decimal) (fun _ none => nomatch none)
  rw [List.append_nil, digitsValue_decimal] at whole
  rw [scanInt, whole, Option.map_some, clampLong, toInt32]
  congr 1
  omega

def trackRequest (url : List UInt8) (track : Sdp.SdpMedia → Nat) (media : Sdp.SdpMedia) : List UInt8 :=
  setupRequest url (track media) rtspVideoSetup media.info.proto videoRtpPort videoRtcpPort

theorem videoSetups_tracked (url : List UInt8) (track : Sdp.SdpMedia → Nat) {medias : List Sdp.SdpMedia}
    (tracked : ∀ media ∈ medias, media.info.type = ascii "video" → Tracked media (track media)) (last : Int) :
    videoSetups url last (medias.map SdpMedia.of) =
      (medias.filter (·.info.type = ascii "video")).map (trackRequest url track) := by
  induction medias generalizing last with
  | nil => rfl
  | cons media medias ih =>
      obtain ⟨here, later⟩ := List.forall_mem_cons.mp tracked
      rw [List.map_cons, videoSetups, show (SdpMedia.of media).type = media.info.type from rfl]
      by_cases video : media.info.type = ascii "video"
      · obtain ⟨before, after, attributes, others⟩ := (here video).attributes
        have named : (strstr (ascii "trackID") (ascii "control:trackID=" ++ decimal (track media))).isSome :=
          strstr_isSome_iff.mpr ⟨ascii "control:", ascii "=" ++ decimal (track media), rfl⟩
        have found : (SdpMedia.of media).attributes.foldl (fun track line =>
            if (strstr (ascii "trackID") line).isSome then
              ((behind (ascii "control:trackID=") line).bind scanInt).getD track
            else track) last = track media := by
          rw [show (SdpMedia.of media).attributes = media.attributes from rfl, attributes, List.foldl_append,
            foldl_tracks fun line member => others line (List.mem_append_left _ member), List.foldl_cons, if_pos named,
            behind_eq_some_iff.mpr rfl, Option.bind_some, scanInt_decimal (here video).int, Option.getD_some,
            foldl_tracks fun line member => others line (List.mem_append_right _ member)]
        rw [if_pos video, List.filter_cons_of_pos (by simpa using video), List.map_cons, found]
        exact congrArg (_ :: ·) (ih later _)
      · rw [if_neg video, List.filter_cons_of_neg (by simpa using video), ih later]

/-! ### A served description -/

namespace NumberedResponse

variable (response : NumberedResponse)

def headLines : List (List UInt8) :=
  (ascii "RTSP/1.0 " ++ response.status.octets) :: (response.before.map LineText.octets ++
    ((ascii "CSeq:" ++ (32 :: response.digits)) :: response.after.map LineText.octets))

theorem text_eq_lines {bodyLines : List (List UInt8)} (body : response.body = bodyLines.flatMap (· ++ crlf)) :
    response.text = (response.headLines ++ [] :: bodyLines).flatMap (· ++ crlf) := by
  simp [text, front, back, headLines, linesText, body, List.flatMap_map]

theorem headLines_plain : ∀ line ∈ response.headLines, ∀ octet ∈ line, octet ∉ crlf := by
  have texts : ∀ lines : List LineText, ∀ line ∈ lines.map LineText.octets, ∀ octet ∈ line, octet ∉ crlf := by
    intro lines line member
    obtain ⟨text, -, rfl⟩ := List.mem_map.mp member
    exact text.no_crlf
  have digits : ∀ octet ∈ response.digits, octet ∉ crlf := by
    intro octet member ends
    have digit := response.numeral.2 octet member
    rcases mem_crlf.mp ends with rfl | rfl <;> cases digit
  have version : ∀ octet ∈ ascii "RTSP/1.0 ", octet ∉ crlf := by decide +kernel
  have name : ∀ octet ∈ ascii "CSeq:", octet ∉ crlf := by decide +kernel
  intro line member octet inside
  rcases List.mem_cons.mp member with rfl | member
  · rcases List.mem_append.mp inside with inVersion | status
    · exact version octet inVersion
    · exact response.status.no_crlf octet status
  · rcases List.mem_append.mp member with before | member
    · exact texts _ line before octet inside
    · rcases List.mem_cons.mp member with rfl | after
      · rcases List.mem_append.mp inside with inName | behind
        · exact name octet inName
        · rcases List.mem_cons.mp behind with rfl | digit
          · decide
          · exact digits octet digit
      · exact texts _ line after octet inside

end NumberedResponse

/-- An answer to DESCRIBE with this description as its body; the tests of HandleDescribe tell its lines apart. -/
structure Serves (response : NumberedResponse) (sdp : Sdp.SdpPayload) : Prop where
  number : response.number = 2
  clean : (67 : UInt8) ∉ response.front
  head : ∀ line ∈ response.headLines, ¬ forParser line
  body : response.body = sdp.lines.flatMap fun entry => entry.octets ++ crlf
  named : ∀ entry ∈ sdp.lines, ¬ ascii "Session:" <:+: entry.octets

theorem Serves.sdpText {response : NumberedResponse} {sdp : Sdp.SdpPayload} (serves : Serves response sdp)
    (printable : sdp.Printable) : sdpText response.text = Sdp.sdpDump sdp := by
  have body : response.body = (sdp.lines.map Sdp.Entry.octets).flatMap (· ++ crlf) := by
    rw [serves.body, List.flatMap_map]
  have plain : ∀ line ∈ sdp.lines.map Sdp.Entry.octets, ∀ octet ∈ line, octet ∉ crlf := by
    intro line member octet inside ends
    obtain ⟨entry, among, rfl⟩ := List.mem_map.mp member
    obtain ⟨cr, lf, -⟩ := printable.lines entry among octet inside
    exact (mem_crlf.mp ends).elim cr lf
  have passed : (sdp.lines.map Sdp.Entry.octets).filter forParser = sdp.lines.map Sdp.Entry.octets := by
    refine List.filter_eq_self.mpr fun line member => ?_
    obtain ⟨entry, among, rfl⟩ := List.mem_map.mp member
    exact forParser_iff.mpr ⟨serves.named entry among, List.mem_cons_of_mem _ List.mem_cons_self⟩
  have none : response.headLines.filter forParser = [] := List.filter_eq_nil_iff.mpr serves.head
  have blank : ∀ lines : List (List UInt8), ([] :: lines).filter forParser = lines.filter forParser := fun _ => rfl
  rw [response.text_eq_lines body, sdpText_lines, List.filter_append, blank, none, passed, List.nil_append,
    List.flatMap_map]
  · rfl
  · intro line member
    rcases List.mem_append.mp member with inHead | inBody
    · exact response.headLines_plain line inHead
    · exact (List.forall_mem_cons.mpr ⟨(fun _ none => nomatch none), plain⟩ : ∀ line ∈ [] :: _, _) line inBody

theorem NumberedResponse.text_terminated (response : NumberedResponse) : (0 : UInt8) ∉ response.text := by
  have lines : ∀ lines : List LineText, (0 : UInt8) ∉ linesText lines := by
    intro lines member
    obtain ⟨line, -, inside⟩ := List.mem_flatMap.mp member
    rcases List.mem_append.mp inside with inLine | inEnd
    · exact line.terminated inLine
    · exact absurd inEnd (by decide)
  have digits : (0 : UInt8) ∉ response.digits := fun member => nomatch response.numeral.2 0 member
  have version : (0 : UInt8) ∉ ascii "RTSP/1.0 " := by decide
  have name : (0 : UInt8) ∉ ascii "CSeq:" := by decide
  have ends : (0 : UInt8) ∉ crlf := by decide
  simp only [NumberedResponse.text, NumberedResponse.front, NumberedResponse.back, List.mem_append, List.mem_cons, not_or]
  exact ⟨⟨version, response.status.terminated, ends, lines _⟩, name, by decide, digits, ends, lines _, ends,
    response.terminated⟩

theorem Received.buf_of_short {received : Received} (terminated : (0 : UInt8) ∉ received.octets)
    (short : received.octets.length < 2048) : received.buf = received.octets := by
  obtain ⟨more, room⟩ : ∃ more, 2048 - received.octets.length = more + 1 :=
    ⟨_, (Nat.succ_pred_eq_of_pos (Nat.sub_pos_of_lt short)).symm⟩
  rw [Received.buf, room, List.replicate_succ, List.append_assoc, List.cons_append, cString_append_cons terminated]

theorem camera_body_terminated : (0 : UInt8) ∉ Sdp.camera.lines.flatMap fun entry => entry.octets ++ crlf := by
  decide +kernel

theorem no_headers_single : ∀ header ∈ ([] : List LineText) ++ [], ¬ ascii "CSeq:" <+: header.octets :=
  fun _ none => nomatch none

def cameraResponse : NumberedResponse where
  status := ⟨ascii "200 OK", success_plain, success_terminated⟩
  before := []
  digits := ascii "2"
  after := []
  body := Sdp.camera.lines.flatMap fun entry => entry.octets ++ crlf
  numeral := two_numeral
  single := no_headers_single
  terminated := camera_body_terminated

theorem cameraResponse_serves : Serves cameraResponse Sdp.camera where
  number := by decide +kernel
  clean := by decide +kernel
  head := by decide +kernel
  body := rfl
  named := by decide +kernel

theorem cameraResponse_bounded : cameraResponse.text.length ≤ 2048 := by decide +kernel

end H264Streaming.RtspClient
