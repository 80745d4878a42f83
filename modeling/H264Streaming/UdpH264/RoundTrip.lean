import H264Streaming.Format.Layout
import H264Streaming.UdpH264.Client
import H264Streaming.UdpH264.Server

/-! What the receiver of udp_h264 writes for the datagrams of its sender.

The sender leaves F and NRI out of the indicator of a first fragment, and the
receiver takes them from there, so a fragmented unit arrives with its type alone.
-/

set_option autoImplicit false

namespace H264Streaming.UdpH264

open H264Streaming.Bytes H264Streaming.Format H264Streaming.Semantics

/-! ### The datagrams of one unit -/

structure Later (s : Server) (k : Nat) (t : Server) : Prop where
  seqNum : t.seqNum = s.seqNum + UInt16.ofNat k
  tsCurrent : t.tsCurrent = s.tsCurrent

def Server.header (s : Server) (k : Nat) (final : Bool) : List UInt8 :=
  rtpHeader (bit final) ((s.seqNum + UInt16.ofNat (k + 1)).toNat % 65535) s.tsCurrent.toNat ssrcNum

/-- F and NRI are missing from the first indicator only. -/
def indicator (header : UInt8) (k : Nat) : UInt8 := if k = 0 then 28 else (header &&& 0xE0) ||| 28

def fragment (s : Server) (unit : NalUnit) (k : Nat) : List UInt8 :=
  let final := decide (k + 1 = packetNum unit.bytes.length)
  s.header k final ++ indicator unit.header k :: fuHeader (k = 0) final (unitType unit.header) ::
    piece udpMaxSize unit.bytes k

theorem fillRtpHdr_header {s t : Server} {k : Nat} (later : Later s k t) (final : Bool) :
    (fillRtpHdr t (bit final)).sendbuf.read 0 12 = s.header k final := by
  have number : t.seqNum + 1 = s.seqNum + UInt16.ofNat (k + 1) := by
    rw [later.seqNum, UInt16.ofNat_add, UInt16.add_assoc]
    rfl
  rw [Server.header, ← number, ← later.tsCurrent]
  simp only [fillRtpHdr, Buffer.read_succ, Buffer.write_be32, Buffer.read_zero, Buffer.byte_write_be16,
    Buffer.byte_setBits]
  simp [version_bits, rtpHeader, be32, be16, type_marker_bits, h264]

theorem fillRtpHdr_cleared (t : Server) (marker : UInt8) : (fillRtpHdr t marker).sendbuf.byte 12 = 0 := by
  have cleared : (t.sendbuf.write 0 (List.replicate sendBufSize 0)).byte 12 = 0 :=
    Buffer.byte_write_replicate _ 0 (by decide)
  simpa [fillRtpHdr, Buffer.write_be32, Buffer.byte_write_be16, Buffer.byte_setBits] using cleared

theorem fillRtpHdr_later {s t : Server} {k : Nat} (later : Later s k t) (marker : UInt8) :
    Later s (k + 1) (fillRtpHdr t marker) := by
  refine ⟨?_, later.tsCurrent⟩
  rw [UInt16.ofNat_add, ← UInt16.add_assoc, ← later.seqNum]
  rfl

theorem fillNaluHdr_below (t : Server) (nFrame : NALU) (type : UInt8) :
    (fillNaluHdr t nFrame type).sendbuf.read 0 12 = t.sendbuf.read 0 12 := by
  unfold fillNaluHdr
  rw [Buffer.read_setBits_below _ _ _ _ _ (Nat.le_refl 12), Buffer.read_setBits_below _ _ _ _ _ (Nat.le_refl 12),
    Buffer.read_setBits_below _ _ _ _ _ (Nat.le_refl 12)]

theorem indicator_bits (octet : UInt8) :
    putBits (putBits (putBits 0 7 1 ((octet &&& 0x80) >>> (7 : UInt8))) 5 2 ((octet &&& 0x60) >>> (5 : UInt8))) 0 5 28 =
      (octet &&& 0xE0) ||| 28 := by
  revert octet
  exact forall_octet (by decide +kernel)

theorem fillNaluHdr_octet (t : Server) (marker : UInt8) (unit : NalUnit) (type : UInt8) :
    (fillNaluHdr (fillRtpHdr t marker) (NALU.of unit.bytes) type).sendbuf.byte 12 =
      putBits (putBits (putBits 0 7 1 ((unit.header &&& 0x80) >>> (7 : UInt8))) 5 2
        ((unit.header &&& 0x60) >>> (5 : UInt8))) 0 5 type := by
  rw [← fillRtpHdr_cleared t marker]
  simp [fillNaluHdr, Buffer.byte_setBits, NALU.of, NalUnit.bytes]

theorem send_fragment {t : Server} {header : List UInt8} (headed : t.sendbuf.read 0 12 = header)
    (unit : NalUnit) (start final : Bool) (octets : List UInt8) (size : Nat) (sized : octets.length = size) :
    (send (fillFuHdr t (NALU.of unit.bytes) (bit start) (bit final)) 14 octets (size + 14)).events =
      [header ++ t.sendbuf.byte 12 :: fuHeader start final (unitType unit.header) :: octets] := by
  have below : (fillFuHdr t (NALU.of unit.bytes) (bit start) (bit final)).sendbuf.read 0 12 = header := by
    rw [← headed]
    apply Buffer.read_congr
    intro k bound
    simp only [fillFuHdr, Buffer.byte_setBits]
    rw [if_neg (by omega), if_neg (by omega), if_neg (by omega), if_neg (by omega)]
  have same : (fillFuHdr t (NALU.of unit.bytes) (bit start) (bit final)).sendbuf.byte 12 = t.sendbuf.byte 12 := by
    simp [fillFuHdr, Buffer.byte_setBits]
  have fuOctet : (fillFuHdr t (NALU.of unit.bytes) (bit start) (bit final)).sendbuf.byte 13 =
      fuHeader start final (unitType unit.header) := by
    rw [← fu_bits (t.sendbuf.byte 13)]
    simp [fillFuHdr, Buffer.byte_setBits, NALU.of, NalUnit.bytes]
  -- whatever the octet at 12 holds, it becomes the indicator
  have front := read_two below
  rw [same, fuOctet] at front
  have whole := read_packet front octets sized.symm
  rw [List.append_assoc, Nat.add_comm] at whole
  simp only [send, whole]
  rfl

theorem packetNum_bounds {len : Nat} (large : ¬ len ≤ udpMaxSize) :
    2 ≤ packetNum len ∧ len ≤ udpMaxSize * packetNum len ∧
      udpMaxSize * (packetNum len - 1) + lastPackSize len = len ∧ lastPackSize len ≤ udpMaxSize := by
  obtain ⟨several, covers, parts, bounded⟩ := count_bounds (by decide) large
  have last : lastPackSize len = if len % udpMaxSize ≠ 0 then len % udpMaxSize else udpMaxSize := by
    rw [lastPackSize, Nat.mul_comm, packetNum]
    omega
  rw [last]
  exact ⟨several, covers, parts, bounded⟩

def SendsFragment (s : Server) (unit : NalUnit) (k : Nat) (sent : Traced Server (List UInt8)) : Prop :=
  Later s (k + 1) sent.state ∧ sent.events = [fragment s unit k]

section
variable {s t : Server} {unit : NalUnit} {k : Nat} (later : Later s k t)
  (large : ¬ unit.bytes.length ≤ udpMaxSize)
include later large

theorem sendFirst_sends (first : k = 0) : SendsFragment s unit k (sendFirst t (NALU.of unit.bytes)) := by
  obtain ⟨several, -, -, -⟩ := packetNum_bounds large
  have notLast : ¬ k + 1 = packetNum unit.bytes.length := by omega
  have headed : ((fillRtpHdr t 0).sendbuf.setBits 12 0 5 28).read 0 12 = s.header k false := by
    rw [Buffer.read_setBits_below _ _ _ _ _ (Nat.le_refl 12)]
    exact fillRtpHdr_header later false
  -- only TYPE is set, over a cleared octet
  have octet : ((fillRtpHdr t 0).sendbuf.setBits 12 0 5 28).byte 12 = 28 := by
    rw [Buffer.byte_setBits, if_pos rfl, fillRtpHdr_cleared]
    rfl
  have sized : ((unit.bytes.drop 1).take (udpMaxSize - 1)).length = udpMaxSize - 1 := by
    rw [List.length_take, List.length_drop]
    omega
  let filled : Server := { fillRtpHdr t 0 with sendbuf := (fillRtpHdr t 0).sendbuf.setBits 12 0 5 28 }
  have sent := send_fragment (t := filled) headed unit true false _ _ sized
  rw [show filled.sendbuf.byte 12 = 28 from octet] at sent
  refine ⟨⟨(fillRtpHdr_later later 0).seqNum, later.tsCurrent⟩, ?_⟩
  simp only [fragment, decide_eq_true first, decide_eq_false notLast, indicator, piece, if_pos first]
  exact sent

theorem sendMiddle_sends (inner : k ≠ 0) (more : k + 1 < packetNum unit.bytes.length) :
    SendsFragment s unit k (sendMiddle (NALU.of unit.bytes) (k + 1) t) := by
  obtain ⟨several, -, parts, bounded⟩ := packetNum_bounds large
  have headed : (fillNaluHdr (fillRtpHdr t 0) (NALU.of unit.bytes) 28).sendbuf.read 0 12 = s.header k false := by
    rw [fillNaluHdr_below]
    exact fillRtpHdr_header later false
  have octet := fillNaluHdr_octet t 0 unit 28
  have sized : ((unit.bytes.drop (udpMaxSize * k)).take udpMaxSize).length = udpMaxSize := by
    rw [List.length_take, List.length_drop]
    simp only [udpMaxSize] at *
    omega
  refine ⟨⟨(fillRtpHdr_later later 0).seqNum, later.tsCurrent⟩, ?_⟩
  have sent := send_fragment headed unit false false _ _ sized
  rw [octet, indicator_bits] at sent
  simp only [fragment, decide_eq_false inner, decide_eq_false (Nat.ne_of_lt more), indicator, piece, if_neg inner]
  rw [← sent, sendMiddle, Nat.add_sub_cancel, Nat.mul_comm]
  rfl

theorem sendLast_sends (last : k + 1 = packetNum unit.bytes.length) :
    SendsFragment s unit k
      (sendLast t (NALU.of unit.bytes) (packetNum unit.bytes.length) (lastPackSize unit.bytes.length)) := by
  obtain ⟨several, -, parts, bounded⟩ := packetNum_bounds large
  have inner : k ≠ 0 := by omega
  have headed : (fillNaluHdr (fillRtpHdr t 1) (NALU.of unit.bytes) 28).sendbuf.read 0 12 = s.header k true := by
    rw [fillNaluHdr_below]
    exact fillRtpHdr_header later true
  have octet := fillNaluHdr_octet t 1 unit 28
  have left : (unit.bytes.drop (udpMaxSize * k)).length = lastPackSize unit.bytes.length := by
    rw [List.length_drop, show k = packetNum unit.bytes.length - 1 by omega]
    omega
  have whole : (unit.bytes.drop (udpMaxSize * k)).take udpMaxSize =
      (unit.bytes.drop (udpMaxSize * k)).take (lastPackSize unit.bytes.length) := by
    rw [List.take_of_length_le (by omega), List.take_of_length_le (by omega)]
  have sized : ((unit.bytes.drop (udpMaxSize * k)).take (lastPackSize unit.bytes.length)).length =
      lastPackSize unit.bytes.length := by
    rw [List.length_take, left, Nat.min_self]
  refine ⟨⟨(fillRtpHdr_later later 1).seqNum, later.tsCurrent⟩, ?_⟩
  have sent := send_fragment headed unit false true _ _ sized
  rw [octet, indicator_bits] at sent
  simp only [fragment, decide_eq_false inner, decide_eq_true last, indicator, piece, if_neg inner, whole]
  rw [← sent, sendLast, ← last, Nat.add_sub_cancel, Nat.mul_comm]
  rfl

end

-- The loop from packetIndex 2 on; one fragment is already sent.
theorem run_sendMiddle (s t : Server) (unit : NalUnit) (large : ¬ unit.bytes.length ≤ udpMaxSize) (count : Nat)
    (within : count + 1 < packetNum unit.bytes.length) (later : Later s 1 t) :
    let sent := run (sendMiddle (NALU.of unit.bytes)) (List.range' 2 count) t
    Later s (count + 1) sent.state ∧ sent.events = (List.range' 1 count).map (fragment s unit) := by
  induction count with
  | zero => exact ⟨later, rfl⟩
  | succ count ih =>
      obtain ⟨reached, events⟩ := ih (by omega)
      obtain ⟨next, sent⟩ := sendMiddle_sends reached large (Nat.succ_ne_zero count) within
      dsimp only
      rw [List.range'_1_concat, run_snoc, Traced.follow_state, Traced.follow_events, events,
        List.range'_1_concat, List.map_append, Nat.add_comm 1 count, Nat.add_comm 2 count]
      exact ⟨next, congrArg _ sent⟩

theorem sendFragments_sends (s t : Server) (unit : NalUnit) (large : ¬ unit.bytes.length ≤ udpMaxSize)
    (later : Later s 0 t) :
    Later s (packetNum unit.bytes.length) (sendFragments t (NALU.of unit.bytes)).state ∧
      (sendFragments t (NALU.of unit.bytes)).events =
        (List.range (packetNum unit.bytes.length)).map (fragment s unit) := by
  obtain ⟨several, -, -, -⟩ := packetNum_bounds large
  obtain ⟨count, number⟩ := Nat.exists_eq_add_of_le several
  obtain ⟨one, first⟩ := sendFirst_sends later large rfl
  obtain ⟨most, middle⟩ := run_sendMiddle s _ unit large count (by omega) one
  obtain ⟨all, last⟩ := sendLast_sends most large (by omega)
  rw [show count + 1 + 1 = packetNum unit.bytes.length by omega] at all
  have len : (NALU.of unit.bytes).len = unit.bytes.length := rfl
  have size : packetNum unit.bytes.length - 2 = count := by omega
  have range : List.range (packetNum unit.bytes.length) = 0 :: (List.range' 1 count ++ [count + 1]) := by
    rw [number, Nat.add_comm 2 count, List.range_eq_range', List.range'_succ, List.range'_1_concat,
      Nat.add_comm 1 count]
  simp only [sendFragments, Traced.follow_events, Traced.follow_state, len, size]
  refine ⟨all, ?_⟩
  rw [first, middle, last, range, List.map_cons, List.map_append]
  rfl

theorem sendSingle_events (s : Server) (unit : NalUnit) :
    (sendSingle s (NALU.of unit.bytes)).events = [s.header 0 false ++ unit.bytes] := by
  have start : Later s 0 s := ⟨by simp, rfl⟩
  have headed : (fillNaluHdr (fillRtpHdr s 0) (NALU.of unit.bytes) (unit.header &&& 0x1f)).sendbuf.read 0 12 =
      s.header 0 false := by
    rw [fillNaluHdr_below]
    exact fillRtpHdr_header start false
  have octet := fillNaluHdr_octet s 0 unit (unit.header &&& 0x1f)
  rw [header_bits] at octet
  have front : (fillNaluHdr (fillRtpHdr s 0) (NALU.of unit.bytes) (unit.header &&& 0x1f)).sendbuf.read 0 13 =
      s.header 0 false ++ [unit.header] := by
    rw [show 13 = 12 + 1 from rfl, Buffer.read_add, headed, Buffer.read_succ, octet]
    rfl
  have whole := read_packet front unit.body rfl
  have body : (unit.bytes.drop 1).take (unit.bytes.length - 1) = unit.body := List.take_length
  have size : unit.bytes.length + 12 = 13 + unit.body.length := by
    rw [NalUnit.length_bytes]
    omega
  rw [List.append_assoc] at whole
  simp only [sendSingle, send, NALU.of, body, size]
  exact congrArg (· :: []) whole

/-! ### What the receiver writes for them -/

def startCode : List UInt8 := [0, 0, 0, 1]

private theorem nalHeader_bits (octet : UInt8) :
    nalHeader (getBits octet 0 5) (getBits octet 5 2) (getBits octet 7 1) = octet ∧
      (getBits octet 0 5 = 28 ↔ unitType octet = 28) := by
  revert octet
  exact forall_octet (by decide +kernel)

theorem receive_single (header : List UInt8) (headed : header.length = 12) (unit : NalUnit)
    (whole : unitType unit.header ≠ 28) (c : Client) :
    ∃ next, receive (header ++ unit.bytes) c = some ⟨next, startCode ++ unit.bytes⟩ := by
  have stored := read_behind c.buf headed unit.bytes
  rw [NalUnit.length_bytes, Buffer.read_succ] at stored
  obtain ⟨octet, body⟩ := List.cons.inj stored
  obtain ⟨same, type⟩ := nalHeader_bits unit.header
  have count : ((header ++ unit.bytes).length : Int) - 13 = unit.body.length := by
    rw [List.length_append, headed, NalUnit.length_bytes]
    omega
  have other : ¬ getBits unit.header 0 5 = 28 := fun fu => whole (type.mp fu)
  simp only [receive, decodeRtp2h264, octet, if_neg other, count, fwrite, if_pos (Int.natCast_nonneg _),
    Int.toNat_natCast, body, same, Option.map_some]
  exact ⟨_, rfl⟩

private theorem fuHeader_fields (header : UInt8) (start final : Bool) :
    (getBits (fuHeader start final (unitType header)) 6 1 = 1 ↔ final = true) ∧
      (getBits (fuHeader start final (unitType header)) 7 1 = 1 ↔ start = true) ∧
      getBits (fuHeader start final (unitType header)) 0 5 = unitType header := by
  revert header
  exact forall_octet (by cases start <;> cases final <;> decide +kernel)

private theorem announced_bits (k : Nat) (header : UInt8) :
    getBits (indicator header k) 0 5 = 28 ∧
      nalHeader (unitType header) (getBits (indicator header 0) 5 2) (getBits (indicator header 0) 7 1) =
        header &&& 0x1F := by
  unfold indicator
  revert header
  by_cases first : k = 0
  · simp only [if_pos first]
    exact forall_octet (by decide +kernel)
  · simp only [if_neg first]
    exact forall_octet (by decide +kernel)

theorem receive_fragment (s : Server) (unit : NalUnit) (large : ¬ unit.bytes.length ≤ udpMaxSize) (k : Nat)
    (c : Client) :
    ∃ next, receive (fragment s unit k) c = some ⟨next,
      (if k = 0 then startCode ++ [unit.header &&& 0x1F] else []) ++ piece udpMaxSize unit.bytes k⟩ := by
  obtain ⟨several, -, -, -⟩ := packetNum_bounds large
  have headed : (s.header k (k + 1 = packetNum unit.bytes.length)).length = 12 := rfl
  have stored := read_behind c.buf headed
    (indicator unit.header k :: fuHeader (k = 0) (k + 1 = packetNum unit.bytes.length) (unitType unit.header) ::
      piece udpMaxSize unit.bytes k)
  rw [List.length_cons, List.length_cons, Buffer.read_succ, Buffer.read_succ] at stored
  obtain ⟨first, second⟩ := List.cons.inj stored
  obtain ⟨fuOctet, data⟩ := List.cons.inj second
  obtain ⟨final, start, type⟩ := fuHeader_fields unit.header (k = 0) (k + 1 = packetNum unit.bytes.length)
  obtain ⟨fuA, header⟩ := announced_bits k unit.header
  have count : ((fragment s unit k).length : Int) - 14 = (piece udpMaxSize unit.bytes k).length := by
    simp only [fragment, List.length_append, List.length_cons, Server.header, length_rtpHeader]
    omega
  rw [decide_eq_true_iff] at final start
  unfold receive decodeRtp2h264
  rw [count]
  unfold fragment
  dsimp only
  simp only [first, if_pos fuA, fuOctet, fwrite, if_pos (Int.natCast_nonneg _), Int.toNat_natCast, data,
    Option.map_some]
  -- E is looked at before S
  by_cases last : k + 1 = packetNum unit.bytes.length
  · have inner : k ≠ 0 := by omega
    rw [if_pos (final.mpr last), if_neg inner]
    exact ⟨_, rfl⟩
  · rw [if_neg fun ended => last (final.mp ended)]
    by_cases opening : k = 0
    · subst opening
      rw [if_pos (start.mpr rfl), type, header]
      exact ⟨_, rfl⟩
    · rw [if_neg fun started => opening (start.mp started), if_neg opening]
      exact ⟨_, rfl⟩

theorem receive_fragments (s : Server) (unit : NalUnit) (large : ¬ unit.bytes.length ≤ udpMaxSize) (count : Nat)
    (c : Client) :
    ∃ next, attempt receive ((List.range (count + 1)).map (fragment s unit)) c = some ⟨next,
      startCode ++ (unit.header &&& 0x1F) ::
        ((List.range (count + 1)).map (piece udpMaxSize unit.bytes)).flatten⟩ := by
  induction count with
  | zero =>
      obtain ⟨next, written⟩ := receive_fragment s unit large 0 c
      have alone : attempt receive [] next = some (.quiet next) := rfl
      refine ⟨next, (attempt_cons written alone).trans ?_⟩
      simp
  | succ count ih =>
      obtain ⟨before, written⟩ := ih
      obtain ⟨next, more⟩ := receive_fragment s unit large (count + 1) before
      have alone : attempt receive [] next = some (.quiet next) := rfl
      rw [List.range_succ, List.map_append, List.map_append, List.map_singleton, List.map_singleton]
      refine ⟨next, (attempt_append written (attempt_cons more alone)).trans ?_⟩
      simp

/-- The unit as it arrives: a fragmented one has lost F and NRI. -/
def arrived (unit : NalUnit) : List UInt8 :=
  if unit.bytes.length ≤ udpMaxSize then unit.bytes else (unit.header &&& 0x1F) :: unit.body

theorem receive_unit (s : Server) (unit : NalUnit) (whole : unitType unit.header ≠ 28) (c : Client) :
    ∃ next, attempt receive (packetize (NALU.of unit.bytes) s).events c =
      some ⟨next, startCode ++ arrived unit⟩ := by
  have len : (NALU.of unit.bytes).len = unit.bytes.length := rfl
  let ticked : Server := { s with tsCurrent := s.tsCurrent + timestampIncrese }
  unfold packetize arrived
  rw [len]
  by_cases small : unit.bytes.length ≤ udpMaxSize
  · simp only [if_pos small]
    obtain ⟨next, written⟩ := receive_single (ticked.header 0 false) rfl unit whole c
    have alone : attempt receive [] next = some (.quiet next) := rfl
    rw [sendSingle_events ticked unit]
    refine ⟨next, (attempt_cons written alone).trans ?_⟩
    rw [Traced.quiet_events, Traced.quiet_state, List.append_nil]
  · simp only [if_neg small]
    -- the pieces follow a start code and a header of their own
    have start : Later ticked 0 ticked := ⟨by simp, rfl⟩
    obtain ⟨several, covers, -, -⟩ := packetNum_bounds small
    obtain ⟨count, number⟩ := Nat.exists_eq_succ_of_ne_zero (show packetNum unit.bytes.length ≠ 0 by omega)
    obtain ⟨next, written⟩ := receive_fragments ticked unit small count c
    rw [(sendFragments_sends ticked ticked unit small start).2, number]
    refine ⟨next, written.trans ?_⟩
    have nonempty : unit.bytes ≠ [] := List.cons_ne_nil _ _
    rw [number] at covers
    rw [flatten_pieces_all (by decide) nonempty (Nat.succ_pos count) covers]
    rfl

/-! ### Whole runs -/

def sendAll (units : List NalUnit) (s : Server) : Traced Server (List UInt8) :=
  run (fun unit => packetize (NALU.of unit.bytes)) units s

def written (units : List NalUnit) (s : Server) (c : Client) : Option (List UInt8) :=
  (attempt receive (sendAll units s).events c).map Traced.events

theorem written_eq (units : List NalUnit) (whole : ∀ unit ∈ units, unitType unit.header ≠ 28) (s : Server)
    (c : Client) : written units s c = some (units.flatMap fun unit => startCode ++ arrived unit) := by
  suffices run : ∃ next, attempt receive (sendAll units s).events c =
      some ⟨next, units.flatMap fun unit => startCode ++ arrived unit⟩ by
    obtain ⟨next, ran⟩ := run
    rw [written, ran]
    rfl
  induction units generalizing s c with
  | nil => exact ⟨c, rfl⟩
  | cons unit rest ih =>
      obtain ⟨middle, here⟩ := receive_unit s unit (whole unit (List.mem_cons_self ..)) c
      obtain ⟨next, later⟩ := ih (fun other member => whole other (List.mem_cons_of_mem unit member))
        (packetize (NALU.of unit.bytes) s).state middle
      exact ⟨next, attempt_append here later⟩

theorem flatMap_eq_iff {A B : Type} (f g : A → List B) (same : ∀ x, (f x).length = (g x).length) (xs : List A) :
    xs.flatMap f = xs.flatMap g ↔ ∀ x ∈ xs, f x = g x := by
  induction xs with
  | nil => simp
  | cons x rest ih =>
      rw [List.flatMap_cons, List.flatMap_cons, List.forall_mem_cons, ← ih]
      constructor
      · intro joined
        exact List.append_inj joined (same x)
      · rintro ⟨head, tail⟩
        rw [head, tail]

theorem arrived_eq_iff (unit : NalUnit) :
    startCode ++ arrived unit = startCode ++ unit.bytes ↔
      (1400 < unit.bytes.length → unit.header &&& 0xE0 = 0) := by
  have bits : unit.header &&& 0x1F = unit.header ↔ unit.header &&& 0xE0 = 0 := by
    generalize unit.header = header
    revert header
    exact forall_octet (by decide +kernel)
  rw [List.append_cancel_left_eq, arrived, ← bits]
  by_cases small : unit.bytes.length ≤ udpMaxSize
  · rw [if_pos small]
    exact ⟨fun _ large => absurd large (Nat.not_lt.mpr small), fun _ => rfl⟩
  · rw [if_neg small]
    have large : 1400 < unit.bytes.length := Nat.lt_of_not_le small
    constructor
    · intro same _
      exact (List.cons.inj same).1
    · intro kept
      rw [kept large]
      rfl

/-- The file is the sent units exactly when every fragmented one has F and NRI zero. -/
theorem written_units_iff (units : List NalUnit) (s : Server) (c : Client)
    (typed : ∀ unit ∈ units, 1 ≤ unitType unit.header ∧ unitType unit.header ≤ 23) :
    written units s c = some (units.flatMap fun unit => startCode ++ unit.bytes) ↔
      ∀ unit ∈ units, 1400 < unit.bytes.length → unit.header &&& 0xE0 = 0 := by
  have whole : ∀ unit ∈ units, unitType unit.header ≠ 28 := by
    intro unit member fu
    have small := (typed unit member).2
    rw [fu] at small
    exact absurd small (by decide)
  have same : ∀ unit : NalUnit, (startCode ++ arrived unit).length = (startCode ++ unit.bytes).length := by
    intro unit
    unfold arrived
    split <;> rfl
  rw [written_eq units whole, Option.some.injEq, flatMap_eq_iff _ _ same]
  exact forall₂_congr fun unit _ => arrived_eq_iff unit

def idleServer : Server := ⟨.untouched fun _ => 0, 0, 0⟩

def idleClient : Client := ⟨.untouched fun _ => 0, 0, 0⟩

def slices : List NalUnit := [⟨0x67, [0x42]⟩, ⟨0x01, List.replicate 1400 0⟩]

theorem written_units_iff_slices :
    written slices idleServer idleClient = some (slices.flatMap fun unit => startCode ++ unit.bytes) := by
  refine (written_units_iff slices idleServer idleClient (by decide)).mpr ?_
  -- the slice of 1401 octets has F and NRI zero
  intro unit member large
  rcases List.mem_pair.mp member with rfl | rfl
  · exact absurd large (by decide)
  · rfl

/-- A slice of 1401 octets with NRI 3 arrives as 05 instead of 65. -/
theorem written_loses_nri :
    written [⟨0x65, List.replicate 1400 0⟩] idleServer idleClient ≠
      some ([⟨0x65, List.replicate 1400 0⟩].flatMap fun unit : NalUnit => startCode ++ unit.bytes) := by
  have large : ¬ (⟨0x65, List.replicate 1400 0⟩ : NalUnit).bytes.length ≤ udpMaxSize := by
    rw [NalUnit.length_bytes, List.length_replicate]
    decide
  have whole : ∀ unit ∈ [(⟨0x65, List.replicate 1400 0⟩ : NalUnit)], unitType unit.header ≠ 28 := by
    intro unit member
    rw [List.mem_singleton.mp member]
    decide
  intro same
  rw [written_eq _ whole, Option.some.injEq, List.flatMap_singleton, List.flatMap_singleton, arrived,
    if_neg large] at same
  have header := (List.cons.inj (List.append_cancel_left same)).1
  exact absurd header (by decide)

end H264Streaming.UdpH264
