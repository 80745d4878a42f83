import H264Streaming.H264Dec.Cuts
import H264Streaming.H264Dec.Rtp

/-! The parsing loop of rtsp_loop turn by turn, and how far the calls of rtp_parse move it. -/

set_option autoImplicit false

namespace H264Streaming.H264Dec

open H264Streaming.Bytes H264Streaming.Semantics

section
variable (rtpParse : List UInt8 → Int)

/-- One turn of the parsing loop; `none` is the jump to read_pending. -/
def turn (d : Demux) : Option (Traced Demux Handed) :=
  if d.raw.byte d.rawOffset = 0x24 then
    let channel := d.raw.byte (d.rawOffset + 1)
    let rtpLength := value16 (d.raw.byte (d.rawOffset + 2)) (d.raw.byte (d.rawOffset + 3))
    if rtpLength = 0 then none
    else if unsignedSub d.rawLength (d.rawOffset + 4) < rtpLength then none
    else
      let payload := d.raw.read (d.rawOffset + 4) rtpLength
      some ⟨{ d with rawOffset := d.rawOffset + 4 + consumed rtpParse channel payload },
        [⟨channel, payload, d.rawOffset + 4 + rtpLength ≤ d.rawLength⟩]⟩
  else some (.quiet { d with rawOffset := d.rawOffset + 1 })

theorem parse_eq (d : Demux) :
    parse rtpParse d =
      if d.rawOffset < d.rawLength then
        match turn rtpParse d with
        | none => .quiet d
        | some next => next.follow (parse rtpParse)
      else .quiet d.clear := by
  rw [parse]
  split
  · unfold turn
    dsimp only
    split
    · split
      · rfl
      · split
        · rfl
        · rfl
    · exact (Traced.quiet_follow _ _).symm
  · rfl

variable {rtpParse}

theorem turn_forward {d : Demux} {next : Traced Demux Handed} (taken : turn rtpParse d = some next) :
    ∃ offset, d.rawOffset < offset ∧ next.state = { d with rawOffset := offset } := by
  unfold turn at taken
  dsimp only at taken
  split at taken
  · split at taken
    · cases taken
    · split at taken
      · cases taken
      · cases taken
        exact ⟨_, by omega, rfl⟩
  · cases taken
    exact ⟨_, Nat.lt_succ_self _, rfl⟩

/-! ### raw_length never passes the end of the buffer -/

theorem parse_bounded {d : Demux} {bound : Nat} (bounded : d.rawLength ≤ bound) :
    (parse rtpParse d).state.rawLength ≤ bound := by
  rw [parse_eq]
  split
  · rename_i more
    split
    · exact bounded
    · rename_i next taken
      obtain ⟨offset, forward, same⟩ := turn_forward taken
      rw [Traced.follow_state, same]
      have shorter : d.rawLength - offset < d.rawLength - d.rawOffset := by omega
      exact parse_bounded bounded
  · exact Nat.zero_le _
  termination_by d.rawLength - d.rawOffset

theorem reset_bounded {d : Demux} (bounded : d.rawLength ≤ maxBufSize) : (reset d).rawLength ≤ maxBufSize := by
  unfold reset
  dsimp only
  split
  · split
    · exact Nat.le_trans (Nat.sub_le _ _) bounded
    · exact Nat.zero_le _
  · exact bounded

theorem step_bounded {d : Demux} (chunk : List UInt8) (bounded : d.rawLength ≤ maxBufSize) :
    (step rtpParse chunk d).state.rawLength ≤ maxBufSize := by
  have room := reset_bounded bounded
  unfold step
  dsimp only
  split
  · split
    · exact room
    · apply parse_bounded
      dsimp only
      rw [List.length_take]
      omega
  · exact bounded

theorem run_bounded (memory : Nat → UInt8) (chunks : List (List UInt8)) :
    (run (step rtpParse) chunks (.start memory)).state.rawLength ≤ maxBufSize := by
  have one : ∀ chunk ∈ chunks, ∀ d : Demux, d.rawLength ≤ maxBufSize →
      (step rtpParse chunk d).state.rawLength ≤ maxBufSize ∧ ∀ handed ∈ (step rtpParse chunk d).events, True :=
    fun chunk _ _ bounded => ⟨step_bounded chunk bounded, fun _ _ => trivial⟩
  exact (run_invariant one (Nat.zero_le _)).1

/-! ### Frames in the buffer -/

structure Unread (d : Demux) (octets : List UInt8) : Prop where
  inside : d.rawOffset + octets.length ≤ d.rawLength
  contents : d.raw.read d.rawOffset octets.length = octets

theorem Unread.front {d : Demux} {octets rest : List UInt8} (unread : Unread d (octets ++ rest)) : Unread d octets := by
  obtain ⟨inside, contents⟩ := unread
  rw [List.length_append] at inside contents
  rw [Buffer.read_add] at contents
  exact ⟨by omega, (List.append_inj contents (Buffer.length_read ..)).1⟩

theorem Unread.behind {d : Demux} {octets rest : List UInt8} (unread : Unread d (octets ++ rest)) :
    Unread { d with rawOffset := d.rawOffset + octets.length } rest := by
  obtain ⟨inside, contents⟩ := unread
  rw [List.length_append] at inside contents
  rw [Buffer.read_add] at contents
  exact ⟨by dsimp only; omega, (List.append_inj contents (Buffer.length_read ..)).2⟩

variable (rtpParse) in
theorem turn_frame {d : Demux} {frame : Frame} (unread : Unread d frame.bytes) (bounded : d.rawLength ≤ maxBufSize) :
    turn rtpParse d =
      some ⟨{ d with rawOffset := d.rawOffset + 4 + consumed rtpParse frame.channel frame.payload }, [frame.handed]⟩ := by
  have inside := unread.inside
  have small : d.rawLength < 4294967296 := Nat.lt_of_le_of_lt bounded (by decide)
  rw [Frame.length_bytes] at inside
  obtain ⟨magic, channel, rtpLength, payload⟩ := frame_read unread.contents
  have available : ¬ unsignedSub d.rawLength (d.rawOffset + 4) < frame.payload.length := by
    rw [unsignedSub_of_le (by omega) small]
    omega
  have filled : ¬ frame.payload.length = 0 := Nat.ne_of_gt frame.sized.1
  have arrived : d.rawOffset + 4 + frame.payload.length ≤ d.rawLength := by omega
  unfold turn
  dsimp only
  rw [if_pos magic, rtpLength, if_neg filled, if_neg available, payload, channel, decide_eq_true arrived]
  rfl

end

/-! ### What rtp_parse returns -/

/-- Its value for the octets of a packet: one octet more for the types it does not know. -/
def rtpReturn (octets : List UInt8) : Int :=
  if otherNal (octets.getD 12 0 &&& 0x1F) then octets.length + 1 else octets.length

theorem rtpParse_returns (now : Timeval) (storage : Buffer) (rtpSt : RtpStats) {octets : List UInt8}
    (headed : 12 ≤ octets.length) (sized : octets.length < 65536) :
    ∃ ran, rtpParse now (storage.write 0 octets) octets.length rtpSt = some ran ∧
      ran.events.map (fun call => (call.returned : Int)) = [rtpReturn octets] := by
  have paysize : unsignedSub octets.length 12 = octets.length - 12 := unsignedSub_of_le headed (by omega)
  have fits : ¬ payloadCapacity < octets.length - 12 := by
    unfold payloadCapacity
    omega
  have first : (payloadArray (storage.write 0 octets) (octets.length - 12)).byte 0 = octets.getD 12 0 := by
    rw [byte_payloadArray storage headed, List.getElem?_drop, Nat.add_zero, List.getD_eq_getElem?_getD]
  unfold rtpParse
  dsimp only
  rw [paysize, if_neg fits, first]
  refine ⟨_, rfl, ?_⟩
  unfold rtpReturn
  simp only [List.map_cons, List.map_nil, List.cons.injEq, and_true]
  split <;> omega

structure RtpFrame extends Frame where
  rtp : channel = 0
  headed : 12 ≤ payload.length

/-- The type of its NAL unit; without a payload, that of the zeroed array. -/
def RtpFrame.nalType (frame : RtpFrame) : UInt8 := frame.payload.getD 12 0 &&& 0x1F

/-- The loop hands over the frames one by one, each time moving by the frame's length. -/
def InStep : List RtpFrame → Demux → Prop
  | [], _ => True
  | frame :: rest, d =>
      ∃ next, turn rtpReturn d = some ⟨next, [frame.handed]⟩ ∧
        next.rawOffset = d.rawOffset + (4 + frame.payload.length) ∧ InStep rest next

theorem consumed_rtpFrame (frame : RtpFrame) :
    consumed rtpReturn frame.channel frame.payload =
      if otherNal frame.nalType then frame.payload.length + 1 else frame.payload.length := by
  have headed := frame.headed
  rw [consumed, frame.rtp, if_neg (by decide), rtpReturn, ← RtpFrame.nalType]
  split
  · rw [if_neg (by omega)]
    omega
  · rw [if_neg (by omega)]
    omega

theorem inStep_cons_iff {frame : RtpFrame} {rest : List RtpFrame} {d : Demux} (unread : Unread d frame.bytes)
    (bounded : d.rawLength ≤ maxBufSize) :
    InStep (frame :: rest) d ↔
      otherNal frame.nalType = false ∧ InStep rest { d with rawOffset := d.rawOffset + frame.bytes.length } := by
  have behind : d.rawOffset + 4 + frame.payload.length = d.rawOffset + frame.bytes.length := by
    rw [Frame.length_bytes]
    omega
  rw [InStep, turn_frame rtpReturn unread bounded, consumed_rtpFrame]
  constructor
  · rintro ⟨next, same, moved, later⟩
    cases same
    cases other : otherNal frame.nalType with
    | true =>
        rw [other, if_pos rfl] at moved
        dsimp only at moved
        omega
    | false =>
        rw [other, if_neg Bool.false_ne_true, behind] at later
        exact ⟨rfl, later⟩
  · rintro ⟨known, later⟩
    refine ⟨{ d with rawOffset := d.rawOffset + frame.bytes.length }, ?_, ?_, later⟩
    · rw [known, if_neg Bool.false_ne_true, behind]
    · dsimp only
      omega

theorem parse_of_turn {rtpParse : List UInt8 → Int} {d next : Demux} {handed : Handed} (more : d.rawOffset < d.rawLength)
    (taken : turn rtpParse d = some ⟨next, [handed]⟩) :
    (parse rtpParse d).events = handed :: (parse rtpParse next).events := by
  rw [parse_eq, if_pos more, taken]
  rfl

/-- The loop keeps in step, and recognises the frame behind, exactly when it knows the types of all
RTP frames. -/
theorem in_step_iff (frames : List RtpFrame) (following : Frame) (d : Demux) (bounded : d.rawLength ≤ maxBufSize)
    (unread : Unread d (stream (fun frame : RtpFrame => frame.bytes) frames ++ following.bytes)) :
    (InStep frames d ∧ ∃ later, (parse rtpReturn d).events =
        frames.map (fun frame => frame.handed) ++ following.handed :: later) ↔
      ∀ frame ∈ frames, otherNal frame.nalType = false := by
  induction frames generalizing d with
  | nil =>
      have inside := unread.inside
      rw [stream_nil, List.nil_append] at unread
      rw [List.length_append, Frame.length_bytes] at inside
      have taken := turn_frame rtpReturn unread bounded
      have recognised := parse_of_turn (by omega) taken
      constructor
      · intro _ frame member
        exact absurd member List.not_mem_nil
      · intro _
        exact ⟨trivial, _, recognised⟩
  | cons frame rest ih =>
      rw [stream_cons, List.append_assoc] at unread
      have here := unread.front
      have inside := here.inside
      rw [Frame.length_bytes] at inside
      have behind : d.rawOffset + 4 + frame.payload.length = d.rawOffset + frame.bytes.length := by
        rw [Frame.length_bytes]
        omega
      have taken := turn_frame rtpReturn here bounded
      rw [consumed_rtpFrame] at taken
      have later := ih { d with rawOffset := d.rawOffset + frame.bytes.length } bounded unread.behind
      rw [inStep_cons_iff here bounded, List.forall_mem_cons, ← later]
      constructor
      · rintro ⟨⟨known, kept⟩, later, events⟩
        rw [known, if_neg Bool.false_ne_true, behind] at taken
        rw [parse_of_turn (by omega) taken, List.map_cons, List.cons_append] at events
        exact ⟨known, kept, later, (List.cons.inj events).2⟩
      · rintro ⟨known, kept, later, events⟩
        rw [known, if_neg Bool.false_ne_true, behind] at taken
        refine ⟨⟨known, kept⟩, later, ?_⟩
        rw [parse_of_turn (by omega) taken, events]
        rfl

def buffered (octets : List UInt8) : Demux := ⟨(Buffer.untouched fun _ => 0).write 0 octets, 0, octets.length, true⟩

theorem unread_buffered (octets : List UInt8) : Unread (buffered octets) octets where
  inside := Nat.le_of_eq (Nat.zero_add _)
  contents := Buffer.read_write_self _ _ _

def sliceFrame : RtpFrame where
  channel := 0
  payload := List.replicate 12 0x80 ++ [0x65, 1, 2, 3]
  sized := by decide
  rtp := rfl
  headed := by decide

theorem in_step_slice :
    (InStep [sliceFrame] (buffered (sliceFrame.bytes ++ report.bytes)) ∧
        ∃ later, (parse rtpReturn (buffered (sliceFrame.bytes ++ report.bytes))).events =
          [sliceFrame].map (fun frame => frame.handed) ++ report.handed :: later) ↔
      ∀ frame ∈ [sliceFrame], otherNal frame.nalType = false :=
  in_step_iff [sliceFrame] report _ (by decide) (unread_buffered _)

def stapBFrame : RtpFrame where
  channel := 0
  payload := List.replicate 12 0x80 ++ [0x79, 0, 1, 0, 2, 0x65, 0]
  sized := by decide
  rtp := rfl
  headed := by decide

/-- The report behind it is not recognised. -/
theorem report_lost :
    (parse rtpReturn (buffered (stapBFrame.bytes ++ report.bytes))).events = [stapBFrame.handed] ∧
      ¬ InStep [stapBFrame] (buffered (stapBFrame.bytes ++ report.bytes)) := by
  constructor
  · decide +kernel
  · rw [inStep_cons_iff (unread_buffered _).front (by decide)]
    exact fun kept => absurd kept.1 (by decide)

end H264Streaming.H264Dec
