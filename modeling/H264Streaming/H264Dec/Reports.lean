import H264Streaming.Format.Interleaved
import H264Streaming.H264Dec.Commands
import H264Streaming.H264Dec.Compound

/-! The reports h264dec sends (h264dec/rtsp.c, rtcp.c) on the connection of its requests.

The header announces the octets of four packets, two of which are commented out, and
the length field of the description three octets more than are sent. -/

set_option autoImplicit false

namespace H264Streaming.H264Dec

open H264Streaming.Bytes H264Streaming.Format H264Streaming.Semantics

def rtspHeader (channel : UInt8) (length : Nat) : List UInt8 := [0x24, channel] ++ be16 length

def rtcpReceiverDesc : List UInt8 :=
  [0x81, rtcpSDES] ++ be16 4 ++ be32 rtcpSsrc ++ [0x1, 0x6] ++ ascii "monkey" ++ [0x0]

/-- An event is what one of the functions called sends. -/
def rtspRtcpReports (delay : Timeval → Timeval → UInt32) (now : Timeval) (rtpSt : RtpStats) :
    Traced RtpStats (List UInt8) :=
  let report := rtcpReceiverReport delay now rtpSt
  ⟨report.state, [rtspHeader 1 74] ++ report.events.map Report.octets ++ [rtcpReceiverDesc]⟩

/-! ### The connection -/

/-- A call of rtsp_rtcp_reports in some state of rtp_st, or the text of a request. -/
inductive Outgoing where
  | reports (now : Timeval) (rtpSt : RtpStats)
  | request (text : List UInt8) (isMessage : IsMessage text)

def Outgoing.octets (delay : Timeval → Timeval → UInt32) : Outgoing → List UInt8
  | .reports now rtpSt => (rtspRtcpReports delay now rtpSt).events.flatten
  | .request text _ => text

def Outgoing.isRequest : Outgoing → Bool
  | .reports _ _ => false
  | .request _ _ => true

/-- A call arrives as one frame of a receiver report and a source description, a request as its text. -/
def Outgoing.ArrivesAs : Outgoing → Interleaved → Prop
  | .reports _ _, item => ∃ channel packets, item = .frame channel (stream RtcpPacket.octets packets) ∧
      (packets.map RtcpPacket.type).Perm [rtcpRR, rtcpSDES]
  | .request text _, item => item = .message text

/-- The peer gets one by one what has been written. -/
def InFrame (delay : Timeval → Timeval → UInt32) (writes : List Outgoing) : Prop :=
  ∃ items, deframe (stream (Outgoing.octets delay) writes) = some items ∧ List.Forall₂ Outgoing.ArrivesAs writes items

variable {delay : Timeval → Timeval → UInt32}

theorem inFrame_request {text : List UInt8} (isMessage : IsMessage text) (rest : List Outgoing) :
    InFrame delay (.request text isMessage :: rest) ↔ InFrame delay rest := by
  have deframed := isMessage.deframe (stream (Outgoing.octets delay) rest)
  constructor
  · rintro ⟨items, found, arrives⟩
    obtain ⟨others, later, rfl⟩ := Option.map_eq_some_iff.mp (deframed.symm.trans found)
    exact ⟨others, later, (List.forall₂_cons.mp arrives).2⟩
  · rintro ⟨items, found, arrives⟩
    refine ⟨.message text :: items, deframed.trans ?_, .cons rfl arrives⟩
    rw [found, Option.map_some]

/-! ### A call of rtsp_rtcp_reports -/

theorem rtspRtcpReports_octets (delay : Timeval → Timeval → UInt32) (now : Timeval) (rtpSt : RtpStats) :
    ∃ body, (rtspRtcpReports delay now rtpSt).events.flatten =
        [0x24, 1] ++ be16 74 ++ ([0x81, rtcpRR] ++ be16 7 ++ body ++ rtcpReceiverDesc) ∧ body.length = 28 :=
  ⟨((rtcpReceiverReport delay now rtpSt).events.flatMap Report.octets).drop 4, rfl, rfl⟩

theorem RtcpPacket.words_eq {packet : RtcpPacket} {first type : UInt8} {words : Nat} (short : words < 65536)
    (rest : List UInt8) {more : List UInt8} (same : packet.octets ++ rest = [first, type] ++ be16 words ++ more) :
    packet.words = words := by
  rw [RtcpPacket.octets, List.append_assoc] at same
  have header := (List.append_inj same rfl).1
  have field := congrArg valueBE (List.append_inj header rfl).2
  rwa [valueBE_be16, valueBE_be16, Nat.mod_eq_of_lt packet.short, Nat.mod_eq_of_lt short] at field

theorem frame_not_split {body rest : List UInt8} (size : body.length = 28) {packets : List RtcpPacket}
    (types : (packets.map RtcpPacket.type).Perm [rtcpRR, rtcpSDES])
    (room : 74 ≤ ([0x81, rtcpRR] ++ be16 7 ++ body ++ rtcpReceiverDesc ++ rest).length) :
    stream RtcpPacket.octets packets ≠ ([0x81, rtcpRR] ++ be16 7 ++ body ++ rtcpReceiverDesc ++ rest).take 74 := by
  intro same
  have count := types.length_eq
  rw [List.length_map] at count
  obtain ⟨report, description, rfl⟩ := List.length_eq_two.mp count
  rw [stream_cons, stream_cons, stream_nil, List.append_nil] at same
  -- the first packet is the receiver report
  have first : report.words = 7 := RtcpPacket.words_eq (by decide) _
    (same.trans (show _ = [0x81, rtcpRR] ++ be16 7 ++ (body ++ rtcpReceiverDesc ++ rest).take 70 from rfl))
  have reportSize : ([0x81, rtcpRR] ++ be16 7 ++ body).length = 4 + 4 * 7 := by
    rw [List.length_append, size]
    rfl
  have reportLength := length_octets report
  rw [first] at reportLength
  -- and behind it the description starts
  have behind : description.octets = (rtcpReceiverDesc ++ rest).take 42 := by
    have dropped := congrArg (List.drop 32) same
    rw [List.drop_left' reportLength, List.drop_take, List.append_assoc, List.drop_left' reportSize] at dropped
    exact dropped
  have second : description.words = 4 := RtcpPacket.words_eq (by decide) []
    ((List.append_nil _).trans (behind.trans
      (show _ = [0x81, rtcpSDES] ++ be16 4 ++ (rtcpReceiverDesc.drop 4 ++ rest).take 38 from rfl)))
  have descriptionLength := length_octets description
  have total := congrArg List.length same
  rw [List.length_append, List.length_take, reportLength, descriptionLength, second] at total
  omega

theorem not_inFrame_reports (now : Timeval) (rtpSt : RtpStats) (rest : List Outgoing) :
    ¬ InFrame delay (.reports now rtpSt :: rest) := by
  rintro ⟨items, found, arrives⟩
  obtain ⟨body, octets, size⟩ := rtspRtcpReports_octets delay now rtpSt
  have sent : stream (Outgoing.octets delay) (.reports now rtpSt :: rest) = [0x24, 1] ++ be16 74 ++
      ([0x81, rtcpRR] ++ be16 7 ++ body ++ rtcpReceiverDesc ++ stream (Outgoing.octets delay) rest) := by
    rw [← List.append_assoc, ← octets]
    rfl
  have next := nextInterleaved_frame 1 (show 74 < 65536 by decide)
    ([0x81, rtcpRR] ++ be16 7 ++ body ++ rtcpReceiverDesc ++ stream (Outgoing.octets delay) rest)
  rw [← sent] at next
  split at next
  · -- the octets do not suffice for the frame
    rw [deframe_stuck (by rw [sent]; exact List.cons_ne_nil _ _) next] at found
    cases found
  · rename_i room
    rw [deframe_next next, Option.map_eq_some_iff] at found
    obtain ⟨others, -, rfl⟩ := found
    obtain ⟨⟨channel, packets, same, types⟩, -⟩ := List.forall₂_cons.mp arrives
    exact frame_not_split size types (Nat.le_of_not_lt room) (Interleaved.frame.inj same).2.symm

/-- Whatever the states of rtp_st, the peer stays in step exactly as long as no report is sent. -/
theorem inFrame_iff (delay : Timeval → Timeval → UInt32) (writes : List Outgoing) :
    InFrame delay writes ↔ ∀ write ∈ writes, write.isRequest := by
  induction writes with
  | nil => exact ⟨fun _ _ member => absurd member List.not_mem_nil, fun _ => ⟨[], deframe_nil, .nil⟩⟩
  | cons write rest ih =>
      rw [List.forall_mem_cons]
      cases write with
      | reports now rtpSt => exact ⟨fun inFrame => absurd inFrame (not_inFrame_reports now rtpSt rest), nofun⟩
      | request text isMessage =>
          rw [inFrame_request, ih]
          exact ⟨fun others => ⟨rfl, others⟩, fun all => all.2⟩

/-- One call: 74 octets are announced and 49 are sent. -/
theorem not_inFrame_one :
    (rtspRtcpReports (fun _ _ => 0) ⟨0, 0⟩ .reset).events.flatten.length = 4 + 49 ∧
      ¬ InFrame (fun _ _ => 0) [.reports ⟨0, 0⟩ .reset] :=
  ⟨by decide, not_inFrame_reports ⟨0, 0⟩ .reset []⟩

/-! ### The requests of h264dec -/

theorem decimal_plain (value : Int) : (13 : UInt8) ∉ decimal value := by
  have digits : (13 : UInt8) ∉ (Nat.toDigits 10 value.natAbs).map fun c => UInt8.ofNat c.toNat := by
    intro member
    obtain ⟨c, isDigit, same⟩ := List.mem_map.mp member
    have digit := Nat.isDigit_of_mem_toDigits (by decide) (by decide) isDigit
    have bounds : 48 ≤ c.toNat ∧ c.toNat ≤ 57 := by simpa [Char.isDigit, UInt32.le_iff_toNat_le] using digit
    have value := congrArg UInt8.toNat same
    rw [UInt8.toNat_ofNat'] at value
    simp at value
    omega
  unfold decimal
  dsimp only
  split
  · rw [List.mem_cons, not_or]
    exact ⟨by decide, digits⟩
  · exact digits

theorem isLine_append {front back : List UInt8} (isLine : IsLine front) (plain : (13 : UInt8) ∉ back) :
    IsLine (front ++ back) :=
  ⟨List.append_ne_nil_of_left_ne_nil isLine.nonempty back,
    fun member => (List.mem_append.mp member).elim isLine.plain plain⟩

theorem isMessage_command {method target : List UInt8} (isLine : IsLine method) (head : method.head? ≠ some 0x24)
    (plain : (13 : UInt8) ∉ target) (cseq : Nat) {lines : List (List UInt8)} (others : ∀ line ∈ lines, IsLine line) :
    IsMessage (messageText ((method ++ target ++ ascii " RTSP/1.0") :: (ascii "CSeq: " ++ decimal cseq) :: lines)) := by
  have first : IsLine (method ++ target ++ ascii " RTSP/1.0") := isLine_append (isLine_append isLine plain) (by decide)
  have second : IsLine (ascii "CSeq: " ++ decimal cseq) := isLine_append ⟨by decide, by decide⟩ (decimal_plain cseq)
  refine isMessage_lines (List.forall_mem_cons.mpr ⟨first, List.forall_mem_cons.mpr ⟨second, others⟩⟩) ?_
  rwa [List.append_assoc, List.head?_append_of_ne_nil _ isLine.nonempty]

theorem ascii_command : ascii " RTSP/1.0\r\nCSeq: " = ascii " RTSP/1.0" ++ (crlf ++ ascii "CSeq: ") := by decide

variable (c : Client)

theorem cmdOptions_isMessage (plain : (13 : UInt8) ∉ c.streamHost) : IsMessage (cmdOptions c).text := by
  have text : (cmdOptions c).text = messageText [ascii "OPTIONS rtsp://" ++ (c.streamHost ++ (ascii ":" ++
      decimal c.streamPort)) ++ ascii " RTSP/1.0", ascii "CSeq: " ++ decimal c.rtspCseq] := by
    simp [cmdOptions, messageText, ascii_command, show ascii "\r\n\r\n" = crlf ++ crlf by decide]
  have port : IsLine (ascii ":" ++ decimal c.streamPort) := isLine_append ⟨by decide, by decide⟩ (decimal_plain _)
  rw [text]
  refine isMessage_command ⟨by decide, by decide⟩ (by decide) (fun member => ?_) _
    fun _ member => absurd member List.not_mem_nil
  exact (List.mem_append.mp member).elim plain port.plain

theorem cmdDescribe_isMessage (plain : (13 : UInt8) ∉ c.stream) : IsMessage (cmdDescribe c).text := by
  have text : (cmdDescribe c).text = messageText [ascii "DESCRIBE " ++ c.stream ++ ascii " RTSP/1.0",
      ascii "CSeq: " ++ decimal c.rtspCseq, ascii "Accept: application/sdp"] := by
    simp [cmdDescribe, messageText, ascii_command, show ascii "\r\nAccept: application/sdp\r\n\r\n" =
      crlf ++ (ascii "Accept: application/sdp" ++ (crlf ++ crlf)) by decide]
  rw [text]
  exact isMessage_command ⟨by decide, by decide⟩ (by decide) plain _
    (List.forall_mem_singleton.mpr ⟨by decide, by decide⟩)

theorem cmdSetup_isMessage (plain : (13 : UInt8) ∉ c.stream) : IsMessage (cmdSetup c).text := by
  have text : (cmdSetup c).text = messageText [ascii "SETUP " ++ (c.stream ++ ascii "/trackID=1") ++ ascii " RTSP/1.0",
      ascii "CSeq: " ++ decimal c.rtspCseq, ascii "Transport: RTP/AVP/TCP;interleaved=0-1;"] := by
    simp [cmdSetup, messageText, show ascii "/trackID=1 RTSP/1.0\r\nCSeq: " =
      ascii "/trackID=1" ++ (ascii " RTSP/1.0" ++ (crlf ++ ascii "CSeq: ")) by decide,
      show ascii "\r\nTransport: RTP/AVP/TCP;interleaved=0-1;\r\n\r\n" =
        crlf ++ (ascii "Transport: RTP/AVP/TCP;interleaved=0-1;" ++ (crlf ++ crlf)) by decide]
  rw [text]
  refine isMessage_command ⟨by decide, by decide⟩ (by decide) (fun member => ?_) _
    (List.forall_mem_singleton.mpr ⟨by decide, by decide⟩)
  exact (List.mem_append.mp member).elim plain (by decide)

theorem cmdPlay_isMessage (plain : (13 : UInt8) ∉ c.stream) : IsMessage (cmdPlay c).text := by
  have text : (cmdPlay c).text = messageText [ascii "PLAY " ++ c.stream ++ ascii " RTSP/1.0",
      ascii "CSeq: " ++ decimal c.rtspCseq, ascii "Session: " ++ decimal (c.session.getD c.stack),
      ascii "Range: npt=0.00-"] := by
    simp [cmdPlay, messageText, ascii_command, show ascii "\r\nSession: " = crlf ++ ascii "Session: " by decide,
      show ascii "\r\nRange: npt=0.00-\r\n\r\n" = crlf ++ (ascii "Range: npt=0.00-" ++ (crlf ++ crlf)) by decide]
  have session : IsLine (ascii "Session: " ++ decimal (c.session.getD c.stack)) :=
    isLine_append ⟨by decide, by decide⟩ (decimal_plain _)
  rw [text]
  exact isMessage_command ⟨by decide, by decide⟩ (by decide) plain _
    (List.forall_mem_cons.mpr ⟨session, List.forall_mem_singleton.mpr ⟨by decide, by decide⟩⟩)

end H264Streaming.H264Dec
