import H264Streaming.Format.Layout
import H264Streaming.H264Send.Packetizer
import H264Streaming.Semantics.Numbering

/-! Every datagram of a whole run of the h264Send packetizer.

Only the octet written through `nalu_hdr` stays open: a datagram is known up to
its FU indicator.
-/

set_option autoImplicit false

namespace H264Streaming.H264Send

open H264Streaming.Bytes H264Streaming.Format H264Streaming.Semantics

/-! ### The parts of a datagram -/

-- Wherever it was aimed before, the pointer hits the octet after the RTP header or nothing.
def Aimed (s : State) : Prop := s.naluHdr = none ∨ s.naluHdr = some 12

def H264RtpPacketizer.header (p : H264RtpPacketizer) (final : Bool) : List UInt8 :=
  rtpHeader (bit final) (p.mSeqNum + 1).toNat p.mTimestamp.toNat p.mSsrc.toNat

def H264RtpPacketizer.after (p : H264RtpPacketizer) (k : Nat) : H264RtpPacketizer :=
  { p with mSeqNum := p.mSeqNum + UInt16.ofNat k }

theorem H264RtpPacketizer.after_zero (p : H264RtpPacketizer) : p.after 0 = p := by
  simp [after]

theorem H264RtpPacketizer.after_after (p : H264RtpPacketizer) (k m : Nat) : (p.after k).after m = p.after (k + m) := by
  simp [after, UInt16.ofNat_add, UInt16.add_assoc]

theorem fillRtpHdr_header (s : State) (final : Bool) :
    (fillRtpHdr s (bit final)).sendBuff.read 0 12 = s.header final := by
  simp only [fillRtpHdr, Buffer.read_succ, Buffer.write_be32, Buffer.read_zero, Buffer.byte_write_be16,
    Buffer.byte_setBits]
  simp [version_bits, H264RtpPacketizer.header, rtpHeader, be32, be16, marker_type_bits, h264]

section
variable (s : State)

@[simp] theorem fillRtpHdr_members (marker : UInt8) :
    (fillRtpHdr (clearSendBuff s) marker).toH264RtpPacketizer = s.after 1 := rfl

@[simp] theorem setNaluHdr_members (low width : Nat) (value : UInt8) :
    (setNaluHdr s low width value).toH264RtpPacketizer = s.toH264RtpPacketizer := by
  unfold setNaluHdr
  split <;> rfl

@[simp] theorem setNaluHdr_naluHdr (low width : Nat) (value : UInt8) :
    (setNaluHdr s low width value).naluHdr = s.naluHdr := by
  unfold setNaluHdr
  split
  · next same => rw [same]
  · next same => rw [same]

@[simp] theorem fillNaluHdr_members (octet type : UInt8) :
    (fillNaluHdr s octet type).toH264RtpPacketizer = s.toH264RtpPacketizer := by
  simp [fillNaluHdr]

@[simp] theorem fillNaluHdr_naluHdr (octet type : UInt8) : (fillNaluHdr s octet type).naluHdr = s.naluHdr := by
  simp [fillNaluHdr]

theorem setNaluHdr_below (aimed : Aimed s) (low width : Nat) (value : UInt8) :
    Aimed (setNaluHdr s low width value) ∧
      (setNaluHdr s low width value).sendBuff.read 0 12 = s.sendBuff.read 0 12 := by
  refine ⟨by rw [Aimed, setNaluHdr_naluHdr]; exact aimed, ?_⟩
  rcases aimed with unset | set
  · simp only [setNaluHdr, unset]
  · simp only [setNaluHdr, set]
    exact Buffer.read_setBits_below _ _ _ _ _ (Nat.le_refl 12)

theorem fillNaluHdr_below (aimed : Aimed s) (octet type : UInt8) :
    (fillNaluHdr s octet type).sendBuff.read 0 12 = s.sendBuff.read 0 12 := by
  obtain ⟨first, same1⟩ := setNaluHdr_below s aimed 7 1 ((octet &&& 0x80) >>> (7 : UInt8))
  obtain ⟨second, same2⟩ := setNaluHdr_below _ first 5 2 ((octet &&& 0x60) >>> (5 : UInt8))
  obtain ⟨-, same3⟩ := setNaluHdr_below _ second 0 5 type
  rw [fillNaluHdr, same3, same2, same1]

end

/-! ### One fragment -/

def Fragment (p : H264RtpPacketizer) (naluBuf : List UInt8) (k : Nat) (datagram : List UInt8) : Prop :=
  ∃ indicator, datagram = p.header (k + 1 = fuPackNum naluBuf.length) ++ indicator ::
    fuHeader (k = 0) (k + 1 = fuPackNum naluBuf.length) (unitType (naluBuf.headD 0)) :: piece rtpPayloadMaxSize naluBuf k

structure SendsOne (s : State) (good : List UInt8 → Prop) (sent : Traced State (List UInt8)) : Prop where
  one : ∃ datagram, sent.events = [datagram] ∧ good datagram
  members : sent.state.toH264RtpPacketizer = s.after 1
  aim : Aimed sent.state

theorem send_fragment {s t : State} {start final : Bool} (members : t.toH264RtpPacketizer = s.after 1)
    (aim : Aimed t) (headed : t.sendBuff.read 0 12 = s.header final) (octet : UInt8)
    (octets : List UInt8) (size : Nat) (sized : octets.length = size) :
    SendsOne s (fun datagram => ∃ indicator, datagram =
      s.header final ++ indicator :: fuHeader start final (unitType octet) :: octets)
      (send (copyPayload (fillFuHdr t (bit start) (bit final) octet) 14 octets) (12 + 2 + size)) := by
  subst sized
  have below : (fillFuHdr t (bit start) (bit final) octet).sendBuff.read 0 12 = s.header final := by
    rw [← headed]
    apply Buffer.read_congr
    intro k bound
    simp only [fillFuHdr, Buffer.byte_setBits]
    rw [if_neg (by omega), if_neg (by omega), if_neg (by omega), if_neg (by omega)]
  have indicator : (fillFuHdr t (bit start) (bit final) octet).sendBuff.byte 12 = t.sendBuff.byte 12 := by
    simp [fillFuHdr, Buffer.byte_setBits]
  have fuOctet : (fillFuHdr t (bit start) (bit final) octet).sendBuff.byte 13 =
      fuHeader start final (unitType octet) := by
    rw [← fu_bits (t.sendBuff.byte 13)]
    simp [fillFuHdr, Buffer.byte_setBits]
  -- twelve octets of header, two of FU, and the payload copied behind
  have front := read_two below
  rw [indicator, fuOctet] at front
  have whole := read_packet front octets rfl
  refine ⟨⟨_, rfl, t.sendBuff.byte 12, ?_⟩, members, aim⟩
  simpa only [copyPayload, List.append_assoc, List.cons_append, List.nil_append] using whole

theorem headed_naluHdr (s : State) (aimed : Aimed s) (final : Bool) (octet type : UInt8) :
    (fillNaluHdr (fillRtpHdr (clearSendBuff s) (bit final)) octet type).sendBuff.read 0 12 = s.header final := by
  have kept : Aimed (fillRtpHdr (clearSendBuff s) (bit final)) := aimed
  rw [fillNaluHdr_below _ kept, fillRtpHdr_header]
  rfl

theorem aimed_naluHdr (s : State) (aimed : Aimed s) (final : Bool) (octet type : UInt8) :
    Aimed (fillNaluHdr (fillRtpHdr (clearSendBuff s) (bit final)) octet type) := by
  rw [Aimed, fillNaluHdr_naluHdr]
  exact aimed

theorem fuPackNum_bounds {naluLen : Nat} (large : ¬ naluLen ≤ rtpPayloadMaxSize) :
    2 ≤ fuPackNum naluLen ∧ naluLen ≤ rtpPayloadMaxSize * fuPackNum naluLen ∧
      rtpPayloadMaxSize * (fuPackNum naluLen - 1) + lastFuPackSize naluLen = naluLen ∧
        lastFuPackSize naluLen ≤ rtpPayloadMaxSize := by
  exact count_bounds (by decide) large

theorem fuPackNum_eq (naluLen : Nat) : fuPackNum naluLen = (naluLen + 1399) / 1400 := by
  unfold fuPackNum
  by_cases rest : naluLen % rtpPayloadMaxSize ≠ 0
  · rw [if_pos rest]
    simp only [rtpPayloadMaxSize] at *
    omega
  · rw [if_neg rest]
    simp only [rtpPayloadMaxSize] at *
    omega

theorem sendFu_sends (s : State) (aimed : Aimed s) (naluBuf : List UInt8)
    (large : ¬ naluBuf.length ≤ rtpPayloadMaxSize) (k : Nat) (within : k < fuPackNum naluBuf.length) :
    SendsOne s (Fragment s.toH264RtpPacketizer naluBuf k) (sendFu naluBuf k s) := by
  obtain ⟨several, -, parts, bounded⟩ := fuPackNum_bounds large
  unfold sendFu Fragment
  -- the three copies differ in the flags and in how many octets they take
  by_cases first : k = 0
  · have notLast : ¬ k + 1 = fuPackNum naluBuf.length := by omega
    simp only [if_pos first, decide_eq_true first, decide_eq_false notLast, piece]
    apply send_fragment
    · simp
    · exact aimed_naluHdr s aimed false _ 28
    · exact headed_naluHdr s aimed false _ 28
    · rw [List.length_take, List.length_drop]
      simp only [rtpPayloadMaxSize] at *
      omega
  · by_cases middle : k < fuPackNum naluBuf.length - 1
    · have notLast : ¬ k + 1 = fuPackNum naluBuf.length := by omega
      simp only [if_neg first, if_pos middle, decide_eq_false first, decide_eq_false notLast, piece]
      apply send_fragment
      · simp
      · exact aimed_naluHdr s aimed false _ 28
      · exact headed_naluHdr s aimed false _ 28
      · rw [List.length_take, List.length_drop]
        simp only [rtpPayloadMaxSize] at *
        omega
    · have last : k + 1 = fuPackNum naluBuf.length := by omega
      have left : (naluBuf.drop (rtpPayloadMaxSize * k)).length = lastFuPackSize naluBuf.length := by
        rw [List.length_drop, show k = fuPackNum naluBuf.length - 1 by omega]
        omega
      have whole : (naluBuf.drop (rtpPayloadMaxSize * k)).take (lastFuPackSize naluBuf.length) =
          (naluBuf.drop (rtpPayloadMaxSize * k)).take rtpPayloadMaxSize := by
        rw [List.take_of_length_le (by omega), List.take_of_length_le (by omega)]
      simp only [if_neg first, if_neg middle, decide_eq_false first, decide_eq_true last, piece, sendLast, whole]
      have kept : Aimed (fillRtpHdr (clearSendBuff s) (bit true)) := aimed
      obtain ⟨once, same⟩ := setNaluHdr_below _ kept 7 1 ((naluBuf.headD 0 &&& 0x80) >>> (7 : UInt8))
      obtain ⟨aim, twice⟩ := setNaluHdr_below _ once 5 2 ((naluBuf.headD 0 &&& 0x60) >>> (5 : UInt8))
      apply send_fragment
      · simp
      · exact aim
      · rw [Buffer.read_setBits_below _ _ _ _ _ (Nat.le_refl 12)]
        exact twice.trans (same.trans (fillRtpHdr_header _ true))
      · rw [← whole, List.length_take, left, Nat.min_self]

/-! ### One unit -/

theorem run_sendFu_sends (s : State) (aimed : Aimed s) (naluBuf : List UInt8)
    (large : ¬ naluBuf.length ≤ rtpPayloadMaxSize) (count : Nat) (within : count ≤ fuPackNum naluBuf.length) :
    let sent := run (sendFu naluBuf) (List.range count) s
    sent.events.length = count ∧
      (∀ k datagram, sent.events[k]? = some datagram → Fragment (s.after k) naluBuf k datagram) ∧
      sent.state.toH264RtpPacketizer = s.after count ∧ Aimed sent.state := by
  induction count with
  | zero => exact ⟨rfl, by simp, (s.after_zero).symm, aimed⟩
  | succ count ih =>
      obtain ⟨length, fragments, members, aim⟩ := ih (Nat.le_of_succ_le within)
      obtain ⟨⟨datagram, sent, fragment⟩, next, kept⟩ := sendFu_sends _ aim naluBuf large count within
      rw [members] at fragment next
      dsimp only
      rw [List.range_succ, run_snoc, Traced.follow_events, Traced.follow_state, sent]
      refine ⟨by simp [length], ?_, next.trans (s.after_after count 1), kept⟩
      -- earlier datagrams by induction, the last one by the step
      intro k other found
      rcases Nat.lt_trichotomy k count with before | rfl | past
      · rw [List.getElem?_append_left (by omega)] at found
        exact fragments k other found
      · rw [List.getElem?_append_right (by omega), length, Nat.sub_self] at found
        obtain rfl := Option.some.inj found
        exact fragment
      · rw [List.getElem?_eq_none (by simp; omega)] at found
        cases found

/-- The header of the k-th datagram sent with the members p, and at most 1402 octets after it. -/
def Headed (p : H264RtpPacketizer) (k : Nat) (datagram : List UInt8) : Prop :=
  ∃ final rest, datagram = (p.after k).header final ++ rest ∧ rest.length ≤ rtpPayloadMaxSize + 2

theorem Fragment.headed {p : H264RtpPacketizer} {naluBuf : List UInt8} {k : Nat} {datagram : List UInt8}
    (fragment : Fragment (p.after k) naluBuf k datagram) : Headed p k datagram := by
  obtain ⟨indicator, rfl⟩ := fragment
  refine ⟨_, _, rfl, ?_⟩
  simp only [List.length_cons]
  exact Nat.add_le_add_right (length_piece_le naluBuf k) 2

section
variable {p : H264RtpPacketizer} {k : Nat} {datagram : List UInt8} (headed : Headed p k datagram)
include headed

theorem Headed.number : sequenceNumber datagram = (p.mSeqNum.toNat + 1 + k) % 65536 := by
  obtain ⟨final, rest, rfl, -⟩ := headed
  rw [H264RtpPacketizer.header, sequenceNumber_rtpHeader]
  simp [H264RtpPacketizer.after]
  omega

theorem Headed.time : timestamp datagram = p.mTimestamp.toNat := by
  obtain ⟨final, rest, rfl, -⟩ := headed
  rw [H264RtpPacketizer.header, timestamp_rtpHeader]
  exact Nat.mod_eq_of_lt p.mTimestamp.toNat_lt

theorem Headed.fits : datagram.length ≤ sendBuffSize := by
  obtain ⟨final, rest, rfl, bound⟩ := headed
  rw [List.length_append, H264RtpPacketizer.header, length_rtpHeader]
  simp only [rtpPayloadMaxSize, sendBuffSize] at *
  omega

end

/-- What the datagrams sent for a unit have to do with it. The octet at 13 is the FU header. -/
structure Carries (unit : NalUnit) (group : List (List UInt8)) : Prop where
  short : unit.bytes.length ≤ 1400 → ∃ datagram, group = [datagram] ∧ datagram.drop 12 = unit.bytes
  count : 1400 < unit.bytes.length → group.length = (unit.bytes.length + 1399) / 1400
  joined : 1400 < unit.bytes.length → (group.map (·.drop 14)).flatten = unit.body
  headers : 1400 < unit.bytes.length → ∀ (k : Nat) (datagram : List UInt8), group[k]? = some datagram →
    unitType (datagram.getD 13 0) = unitType unit.header ∧
      (datagram.getD 13 0 &&& 0x80 ≠ 0 ↔ k = 0) ∧
      (datagram.getD 13 0 &&& 0x40 ≠ 0 ↔ k + 1 = group.length) ∧
      (marked datagram = true ↔ k + 1 = group.length)
  apart : 1400 < unit.bytes.length → ∀ datagram ∈ group,
    ¬ (datagram.getD 13 0 &&& 0x80 ≠ 0 ∧ datagram.getD 13 0 &&& 0x40 ≠ 0)

theorem Fragment.headers {p : H264RtpPacketizer} {unit : NalUnit} {k : Nat} {datagram : List UInt8}
    (fragment : Fragment p unit.bytes k datagram) :
    datagram.drop 14 = piece rtpPayloadMaxSize unit.bytes k ∧
      unitType (datagram.getD 13 0) = unitType unit.header ∧
      (datagram.getD 13 0 &&& 0x80 ≠ 0 ↔ k = 0) ∧
      (datagram.getD 13 0 &&& 0x40 ≠ 0 ↔ k + 1 = fuPackNum unit.bytes.length) ∧
      (marked datagram = true ↔ k + 1 = fuPackNum unit.bytes.length) := by
  obtain ⟨indicator, rfl⟩ := fragment
  obtain ⟨s, e, type⟩ := fuHeader_bits (unitType unit.header) (unitType_unitType _) (k = 0)
    (k + 1 = fuPackNum unit.bytes.length)
  rw [decide_eq_true_iff] at s e
  refine ⟨rfl, type, s, e, ?_⟩
  rw [H264RtpPacketizer.header, marked_rtpHeader, decide_eq_true_iff]

structure SendsUnit (p : H264RtpPacketizer) (unit : NalUnit) (sent : Traced State (List UInt8)) : Prop where
  carries : Carries unit sent.events
  headed : ∀ (k : Nat) (datagram : List UInt8), sent.events[k]? = some datagram → Headed p k datagram
  members : sent.state.toH264RtpPacketizer = p.after sent.events.length
  aim : Aimed sent.state

theorem run_sendFu_unit (s : State) (aimed : Aimed s) (unit : NalUnit)
    (large : ¬ unit.bytes.length ≤ rtpPayloadMaxSize) :
    SendsUnit s.toH264RtpPacketizer unit
      (run (sendFu unit.bytes) (List.range (fuPackNum unit.bytes.length)) s) := by
  obtain ⟨several, covers, parts, bounded⟩ := fuPackNum_bounds large
  obtain ⟨length, fragments, members, aim⟩ := run_sendFu_sends s aimed unit.bytes large _ (Nat.le_refl _)
  generalize run (sendFu unit.bytes) (List.range (fuPackNum unit.bytes.length)) s = sent at *
  have each : ∀ (k : Nat) (datagram : List UInt8), sent.events[k]? = some datagram →
      datagram.drop 14 = piece rtpPayloadMaxSize unit.bytes k ∧
        unitType (datagram.getD 13 0) = unitType unit.header ∧
        (datagram.getD 13 0 &&& 0x80 ≠ 0 ↔ k = 0) ∧
        (datagram.getD 13 0 &&& 0x40 ≠ 0 ↔ k + 1 = sent.events.length) ∧
        (marked datagram = true ↔ k + 1 = sent.events.length) := by
    intro k datagram found
    rw [length]
    exact (fragments k datagram found).headers
  have payloads : sent.events.map (·.drop 14) = (List.range (fuPackNum unit.bytes.length)).map (piece rtpPayloadMaxSize unit.bytes) := by
    apply List.ext_getElem (by simp [length])
    intro k inside _
    rw [List.length_map] at inside
    simp only [List.getElem_map, List.getElem_range]
    exact (each k _ (List.getElem?_eq_getElem inside)).1
  constructor
  · refine ⟨fun short => absurd short large, ?_, ?_, ?_, ?_⟩
    · intro _
      rw [length, fuPackNum_eq]
    · intro _
      have nonempty : unit.bytes ≠ [] := List.cons_ne_nil _ _
      rw [payloads]
      exact flatten_pieces_all (by decide) nonempty (by omega) covers
    · exact fun _ k datagram found => (each k datagram found).2
    -- S on the first and E on the last, and there are two at least
    · rintro _ datagram member ⟨starts, ends⟩
      obtain ⟨k, found⟩ := List.getElem?_of_mem member
      obtain ⟨-, -, start, final, -⟩ := each k datagram found
      have := start.mp starts
      have := final.mp ends
      omega
  · exact fun k datagram found => (fragments k datagram found).headed
  · rw [members, length]
  · exact aim

theorem fillRtpHdr_cleared (s : State) (marker : UInt8) :
    (fillRtpHdr (clearSendBuff s) marker).sendBuff.byte 12 = 0 := by
  have cleared : (clearSendBuff s).sendBuff.byte 12 = 0 := Buffer.byte_write_replicate _ 0 (by decide)
  simpa [fillRtpHdr, Buffer.write_be32, Buffer.byte_write_be16, Buffer.byte_setBits] using cleared

theorem sendSingle_unit (s : State) (unit : NalUnit) (small : unit.bytes.length ≤ rtpPayloadMaxSize) :
    SendsUnit s.toH264RtpPacketizer unit (sendSingle s unit.bytes) := by
  let aimed : State := { fillRtpHdr (clearSendBuff s) 0 with naluHdr := some 12 }
  let filled := fillNaluHdr aimed unit.header (unit.header &&& 0x1f)
  have hits : Aimed aimed := .inr rfl
  have below : filled.sendBuff.read 0 12 = s.header false := by
    rw [fillNaluHdr_below aimed hits]
    exact fillRtpHdr_header (clearSendBuff s) false
  have octet : filled.sendBuff.byte 12 = unit.header := by
    have chain := header_bits unit.header
    rw [← fillRtpHdr_cleared s 0] at chain
    simpa [filled, aimed, fillNaluHdr, setNaluHdr, Buffer.byte_setBits] using chain
  -- the pointer hits the octet behind the RTP header
  have front : filled.sendBuff.read 0 13 = s.header false ++ [unit.header] := by
    rw [show 13 = 12 + 1 from rfl, Buffer.read_add, below, Buffer.read_succ, octet]
    rfl
  have body : (unit.bytes.drop 1).take (unit.bytes.length - 1) = unit.body := List.take_length
  have sent : (sendSingle s unit.bytes).events = [s.header false ++ unit.bytes] := by
    have whole := Buffer.read_write_extend filled.sendBuff unit.body 13 unit.body.length rfl
    rw [front, List.append_assoc] at whole
    have size : 12 + unit.bytes.length = 13 + unit.body.length := by
      rw [NalUnit.length_bytes]
      omega
    simp only [sendSingle, send, copyPayload, body, size]
    exact congrArg (· :: []) whole
  have long : ¬ 1400 < unit.bytes.length := Nat.not_lt.mpr small
  constructor
  · rw [sent]
    exact ⟨fun _ => ⟨_, rfl, rfl⟩, fun large => absurd large long, fun large => absurd large long,
      fun large => absurd large long, fun large => absurd large long⟩
  · intro k datagram found
    rw [sent] at found
    cases k with
    | zero =>
        obtain rfl := Option.some.inj found
        refine ⟨false, unit.bytes, by rw [H264RtpPacketizer.after_zero], Nat.le_add_right_of_le small⟩
    | succ k => cases found
  · rw [sent]
    exact fillNaluHdr_members aimed unit.header (unit.header &&& 0x1f)
  · show Aimed filled
    rw [Aimed, fillNaluHdr_naluHdr]
    exact hits

/-- The members at the send: the timestamp is advanced first. -/
def H264RtpPacketizer.ticked (p : H264RtpPacketizer) : H264RtpPacketizer :=
  { p with mTimestamp := p.mTimestamp + (p.mClock / frameRate).toUInt32 }

theorem sendNalu_unit (s : State) (aimed : Aimed s) (unit : NalUnit) :
    SendsUnit s.ticked unit (sendNalu unit.bytes s) := by
  have nonempty : ¬ unit.bytes.length < 1 := Nat.not_lt.mpr (Nat.succ_le_succ (Nat.zero_le _))
  let ticked : State := { s with mTimestamp := s.mTimestamp + (s.mClock / frameRate).toUInt32 }
  rw [sendNalu, if_neg nonempty]
  by_cases small : unit.bytes.length ≤ rtpPayloadMaxSize
  · simp only [if_pos small]
    exact sendSingle_unit ticked unit small
  · simp only [if_neg small]
    exact run_sendFu_unit ticked aimed unit small

/-! ### Whole runs -/

theorem SendsUnit.numbered {p : H264RtpPacketizer} {unit : NalUnit} {sent : Traced State (List UInt8)}
    (sends : SendsUnit p unit sent) : Numbered sequenceNumber 65536 (p.mSeqNum.toNat + 1) sent.events :=
  fun k inside => (sends.headed k _ (List.getElem?_eq_getElem inside)).number

-- Units already sent have moved the timestamp by one tick each.
theorem run_sendNalu_members (units : List NalUnit) (s : State) (aimed : Aimed s) :
    let sent := run sendNalu (units.map NalUnit.bytes) s
    Aimed sent.state ∧ sent.state.mClock = s.mClock ∧
      sent.state.mTimestamp.toNat =
        (s.mTimestamp.toNat + units.length * (s.mClock.toNat / 25)) % 4294967296 := by
  induction units generalizing s with
  | nil => exact ⟨aimed, rfl, by simp⟩
  | cons unit rest ih =>
      have sends := sendNalu_unit s aimed unit
      obtain ⟨aim, clock, time⟩ := ih _ sends.aim
      have here := sends.members
      dsimp only
      rw [List.map_cons, run_cons, Traced.follow_state]
      generalize sendNalu unit.bytes s = sent at *
      have clockHere : sent.state.mClock = s.mClock := by rw [here]; rfl
      have timeHere : sent.state.mTimestamp.toNat =
          (s.mTimestamp.toNat + s.mClock.toNat / 25) % 4294967296 := by
        rw [here]
        simp [H264RtpPacketizer.ticked, H264RtpPacketizer.after, frameRate]
      -- both sums are taken modulo 2^32
      refine ⟨aim, clock.trans clockHere, ?_⟩
      rw [time, clockHere, timeHere, List.length_cons, Nat.succ_mul]
      omega

theorem sendNalu_numbered (s : State) (aimed : Aimed s) (unit : NalUnit) :
    Numbered sequenceNumber 65536 (s.mSeqNum.toNat + 1) (sendNalu unit.bytes s).events ∧
      ((sendNalu unit.bytes s).state.mSeqNum.toNat + 1) % 65536 =
        (s.mSeqNum.toNat + 1 + (sendNalu unit.bytes s).events.length) % 65536 := by
  have sends := sendNalu_unit s aimed unit
  refine ⟨sends.numbered, ?_⟩
  rw [sends.members]
  simp [H264RtpPacketizer.ticked, H264RtpPacketizer.after]
  omega

/-- The whole run of `start`, unit by unit and over all datagrams, if no store through the indeterminate
`nalu_hdr` reaches `send_buff` or the members. -/
theorem start_packetizes (packetizer : H264RtpPacketizer) (content : Nat → UInt8) (units : List NalUnit) :
    let datagrams := (start packetizer content (units.map NalUnit.bytes)).events
    let groups := blocks sendNalu (units.map NalUnit.bytes) (enter packetizer content)
    groups.flatten = datagrams ∧ groups.length = units.length ∧
      (∀ (i : Nat) (unit : NalUnit) (group : List (List UInt8)), units[i]? = some unit → groups[i]? = some group →
        Carries unit group ∧ ∀ datagram ∈ group, timestamp datagram =
          (packetizer.mTimestamp.toNat + (i + 1) * (packetizer.mClock.toNat / 25)) % 4294967296) ∧
      Numbered sequenceNumber 65536 (packetizer.mSeqNum.toNat + 1) datagrams ∧
      ∀ datagram ∈ datagrams, datagram.length ≤ sendBuffSize := by
  have entered : Aimed (enter packetizer content) := .inl rfl
  refine ⟨flatten_blocks _ _ _, by rw [length_blocks, List.length_map], ?_, ?_, ?_⟩
  · intro i unit group atUnit atGroup
    obtain ⟨within, -⟩ := List.getElem?_eq_some_iff.mp atUnit
    obtain ⟨aim, clock, time⟩ := run_sendNalu_members (units.take i) _ entered
    rw [blocks_getElem?, List.getElem?_map, atUnit, ← List.map_take] at atGroup
    obtain rfl := Option.some.inj atGroup
    generalize (run sendNalu ((units.take i).map NalUnit.bytes) (enter packetizer content)).state = s at *
    have sends := sendNalu_unit s aim unit
    refine ⟨sends.carries, ?_⟩
    intro datagram member
    obtain ⟨k, found⟩ := List.getElem?_of_mem member
    rw [(sends.headed k datagram found).time]
    rw [List.length_take, Nat.min_eq_left (Nat.le_of_lt within)] at time
    have tick : (s.ticked.mTimestamp).toNat = (s.mTimestamp.toNat + s.mClock.toNat / 25) % 4294967296 := by
      simp [H264RtpPacketizer.ticked, frameRate]
    rw [tick, time, clock, Nat.succ_mul]
    have clockHere : (enter packetizer content).mClock = packetizer.mClock := rfl
    have timeHere : (enter packetizer content).mTimestamp = packetizer.mTimestamp := rfl
    rw [clockHere, timeHere]
    omega
  -- the sequence number is the counter of the run
  · have one : ∀ nal ∈ units.map NalUnit.bytes, ∀ s : State, Aimed s → Aimed (sendNalu nal s).state ∧
        Numbered sequenceNumber 65536 (s.mSeqNum.toNat + 1) (sendNalu nal s).events ∧
        ((sendNalu nal s).state.mSeqNum.toNat + 1) % 65536 =
          (s.mSeqNum.toNat + 1 + (sendNalu nal s).events.length) % 65536 := by
      intro nal member s aimed
      obtain ⟨unit, -, rfl⟩ := List.mem_map.mp member
      exact ⟨(sendNalu_unit s aimed unit).aim, sendNalu_numbered s aimed unit⟩
    exact run_numbered one entered
  · have one : ∀ nal ∈ units.map NalUnit.bytes, ∀ s : State, Aimed s → Aimed (sendNalu nal s).state ∧
        ∀ datagram ∈ (sendNalu nal s).events, datagram.length ≤ sendBuffSize := by
      intro nal member s aimed
      obtain ⟨unit, -, rfl⟩ := List.mem_map.mp member
      have sends := sendNalu_unit s aimed unit
      refine ⟨sends.aim, ?_⟩
      intro datagram among
      obtain ⟨k, found⟩ := List.getElem?_of_mem among
      exact (sends.headed k datagram found).fits
    exact (run_invariant one entered).2

end H264Streaming.H264Send
