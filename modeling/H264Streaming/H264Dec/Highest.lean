import H264Streaming.H264Dec.Rtcp
import H264Streaming.H264Dec.Writing
import H264Streaming.Semantics.Numbering

/-! The highest sequence number over a run of packets, with reports sent in between.

It is the largest number received, so it follows the packets up to 65535 and stays
there when the numbers start again at 0. -/

set_option autoImplicit false

namespace H264Streaming.H264Dec

open H264Streaming.Bytes H264Streaming.Format H264Streaming.Semantics

structure Turn where
  reports : List Timeval
  arrival : Arrival

def Turn.seq (turn : Turn) : Nat := sequenceNumber turn.arrival.header

def takeTurn (delay : Timeval → Timeval → UInt32) (turn : Turn) (rtpSt : RtpStats) : Option (Traced RtpStats Call) :=
  parseArrival turn.arrival (run (rtcpReceiverReport delay) turn.reports rtpSt).state

def RtpStats.start (session : UInt32) : RtpStats := { RtpStats.reset with rtpIdentifier := session }

/-- The low half of the extended highest sequence number. -/
def reportedHighest (report : Report) : Nat := valueBE ((report.octets.drop 18).take 2)

/-! ### One packet -/

theorem Arrival.read_header (arrival : Arrival) {offset count : Nat} (inside : offset + count ≤ 12) :
    arrival.raw.read offset count = (arrival.header.drop offset).take count := by
  have within : offset + count ≤ (arrival.header ++ arrival.payload).length := by
    rw [List.length_append, arrival.plain]
    omega
  have read := Buffer.read_write_inside arrival.storage 0 _ within
  have headed := arrival.plain
  rw [Nat.zero_add, List.drop_append_of_le_length (by omega),
    List.take_append_of_le_length (by rw [List.length_drop]; omega)] at read
  exact read

theorem seq_decodeHeader (arrival : Arrival) :
    (decodeHeader arrival.raw).seq.toNat = sequenceNumber arrival.header := by
  have octets := arrival.read_header (show 2 + 2 ≤ 12 by decide)
  have high := UInt8.toNat_lt (arrival.raw.byte 2)
  have low := UInt8.toNat_lt (arrival.raw.byte 3)
  rw [sequenceNumber, ← octets]
  simp only [decodeHeader, value16, UInt16.toNat_ofNat', Buffer.read_succ, Buffer.read_zero, valueBE, List.foldl_cons,
    List.foldl_nil, Nat.reduceAdd]
  omega

theorem highestSeq_highest (rtpSt : RtpStats) (seq : UInt16) :
    (rtpSt.highest seq).highestSeq.toNat = max rtpSt.highestSeq.toNat seq.toNat := by
  unfold RtpStats.highest
  split
  · rename_i less
    exact (Nat.max_eq_right (Nat.le_of_lt (UInt16.lt_iff_toNat_lt.mp less))).symm
  · rename_i least
    exact (Nat.max_eq_left (Nat.le_of_not_lt fun less => least (UInt16.lt_iff_toNat_lt.mpr less))).symm

theorem highestSeq_rtpStatsUpdate (now : Timeval) (rtpH : RtpHeader) (rtpSt : RtpStats) :
    (rtpStatsUpdate now rtpH rtpSt).highestSeq.toNat = max rtpSt.highestSeq.toNat rtpH.seq.toNat := by
  have higher := highestSeq_highest { rtpSt with rtpReceived := rtpSt.rtpReceived + 1 } rtpH.seq
  unfold rtpStatsUpdate
  dsimp only
  split <;> exact higher

theorem parseArrival_highest (arrival : Arrival) (short : arrival.size ≤ 65535) (rtpSt : RtpStats) :
    ∃ ran, parseArrival arrival rtpSt = some ran ∧
      ran.state.highestSeq.toNat = max rtpSt.highestSeq.toNat (sequenceNumber arrival.header) := by
  have fits : ¬ payloadCapacity < arrival.payload.length := by
    unfold Arrival.size at short
    unfold payloadCapacity
    omega
  rw [parseArrival_eq, if_neg fits]
  refine ⟨_, rfl, ?_⟩
  rw [highestSeq_highest, highestSeq_rtpStatsUpdate, seq_decodeHeader, Nat.max_assoc, Nat.max_self]

/-! ### Reports -/

theorem rtcpReceiverReport_highest (delay : Timeval → Timeval → UInt32) (now : Timeval) (rtpSt : RtpStats) :
    (rtcpReceiverReport delay now rtpSt).state.highestSeq = rtpSt.highestSeq := by
  simp only [rtcpReceiverReport, rtcpDlsr]
  split <;> rfl

theorem reportedHighest_rtcpReceiverReport (delay : Timeval → Timeval → UInt32) (now : Timeval) (rtpSt : RtpStats) :
    (rtcpReceiverReport delay now rtpSt).events.map reportedHighest = [rtpSt.highestSeq.toNat] := by
  have octets := valueBE_be16 rtpSt.highestSeq.toNat
  rw [Nat.mod_eq_of_lt (UInt16.toNat_lt _)] at octets
  exact congrArg (fun value => [value]) octets

theorem run_reports_highest (delay : Timeval → Timeval → UInt32) (reports : List Timeval) (rtpSt : RtpStats) :
    (run (rtcpReceiverReport delay) reports rtpSt).state.highestSeq = rtpSt.highestSeq := by
  induction reports generalizing rtpSt with
  | nil => rfl
  | cons now rest ih => rw [run_cons, Traced.follow_state, ih, rtcpReceiverReport_highest]

/-! ### Runs -/

theorem attempt_turns_highest (delay : Timeval → Timeval → UInt32) (turns : List Turn)
    (short : ∀ turn ∈ turns, turn.arrival.size ≤ 65535) (rtpSt : RtpStats) :
    ∃ ran, attempt (takeTurn delay) turns rtpSt = some ran ∧
      ran.state.highestSeq.toNat = (turns.map Turn.seq).foldl max rtpSt.highestSeq.toNat := by
  induction turns generalizing rtpSt with
  | nil => exact ⟨.quiet rtpSt, rfl, rfl⟩
  | cons turn rest ih =>
      obtain ⟨first, here, highest⟩ := parseArrival_highest turn.arrival (short turn List.mem_cons_self)
        (run (rtcpReceiverReport delay) turn.reports rtpSt).state
      obtain ⟨later, ran, final⟩ := ih (fun other member => short other (List.mem_cons_of_mem turn member)) first.state
      rw [run_reports_highest] at highest
      refine ⟨_, attempt_cons here ran, ?_⟩
      rw [final, highest]
      rfl

theorem foldl_max_succ (number : Nat → Nat) (count initial : Nat) :
    ((List.range (count + 1)).map number).foldl max initial =
      max (((List.range count).map number).foldl max initial) (number count) := by
  rw [List.range_succ, List.map_append, List.foldl_append]
  rfl

theorem foldl_max_consecutive {start : Nat} (count : Nat) (below : start + count < 65536) :
    ((List.range (count + 1)).map fun k => (start + k) % 65536).foldl max 0 = start + count := by
  induction count with
  | zero => simpa using below
  | succ count ih =>
      rw [foldl_max_succ, ih (by omega), Nat.mod_eq_of_lt below]
      exact Nat.max_eq_right (by omega)

theorem foldl_max_wrapped {start count : Nat} (last : start + count = 65535) :
    ((List.range (count + 1 + 1)).map fun k => (start + k) % 65536).foldl max 0 = 65535 := by
  have wrapped : (start + (count + 1)) % 65536 = 0 := by omega
  rw [foldl_max_succ, foldl_max_consecutive count (by omega), wrapped, last]
  rfl

/-- After every packet of the run the statistics and the next report have its number. -/
def Current (delay : Timeval → Timeval → UInt32) (turns : List Turn) (rtpSt : RtpStats) : Prop :=
  ∀ k, (bound : k < turns.length) → ∃ ran, attempt (takeTurn delay) (turns.take (k + 1)) rtpSt = some ran ∧
    ran.state.highestSeq.toNat = turns[k].seq ∧
    ∀ now, (rtcpReceiverReport delay now ran.state).events.map reportedHighest = [turns[k].seq]

theorem numbers_taken {start : Nat} {turns : List Turn} (numbered : Numbered Turn.seq 65536 start turns) {k : Nat}
    (bound : k < turns.length) :
    (turns.take (k + 1)).map Turn.seq = (List.range (k + 1)).map fun j => (start + j) % 65536 := by
  apply List.ext_getElem
  · simp
    omega
  · intro j left right
    rw [List.length_map, List.length_take] at left
    rw [List.getElem_map, List.getElem_take, List.getElem_map, List.getElem_range]
    exact numbered j (by omega)

/-- A loss-free run keeps the reports right exactly when its numbers do not start again at 0. -/
theorem highest_current_iff (delay : Timeval → Timeval → UInt32) (session : UInt32) (turns : List Turn) (start : Nat)
    (first : start < 65536) (numbered : Numbered Turn.seq 65536 start turns)
    (short : ∀ turn ∈ turns, turn.arrival.size ≤ 65535) :
    Current delay turns (.start session) ↔ start + turns.length ≤ 65536 := by
  -- what the statistics hold after k + 1 packets
  have after : ∀ k, k < turns.length → ∃ ran, attempt (takeTurn delay) (turns.take (k + 1)) (.start session) = some ran ∧
      ran.state.highestSeq.toNat = ((List.range (k + 1)).map fun j => (start + j) % 65536).foldl max 0 := by
    intro k bound
    obtain ⟨ran, through, highest⟩ := attempt_turns_highest delay (turns.take (k + 1))
      (fun turn member => short turn (List.mem_of_mem_take member)) (.start session)
    rw [numbers_taken numbered bound] at highest
    exact ⟨ran, through, highest⟩
  constructor
  · intro current
    by_contra wraps
    obtain ⟨count, last⟩ := Nat.exists_eq_add_of_le (Nat.le_of_lt_succ first)
    have bound : count + 1 < turns.length := by omega
    obtain ⟨ran, through, highest⟩ := after _ bound
    obtain ⟨_, same, number, -⟩ := current _ bound
    rw [through] at same
    cases same
    have zero : turns[count + 1].seq = 0 := by
      rw [numbered _ bound]
      omega
    rw [foldl_max_wrapped last.symm, number, zero] at highest
    cases highest
  · intro below k bound
    obtain ⟨ran, through, highest⟩ := after k bound
    have number : turns[k].seq = start + k := by
      rw [numbered k bound, Nat.mod_eq_of_lt (by omega)]
    rw [foldl_max_consecutive k (by omega), ← number] at highest
    refine ⟨ran, through, highest, fun now => ?_⟩
    rw [reportedHighest_rtcpReceiverReport, highest]

def numberedTurn (seq : Nat) : Turn :=
  ⟨[], ⟨.untouched fun _ => 0, ⟨1, 0⟩, rtpHeader 0 seq 0 7, [0x41], rfl, by decide⟩⟩

theorem highest_current_two : Current (fun _ _ => 0) [⟨[⟨9, 0⟩], (numberedTurn 65534).arrival⟩, numberedTurn 65535]
    (.start 7) :=
  (highest_current_iff (fun _ _ => 0) 7 _ 65534 (by decide)
    (numbered_cons.mpr ⟨by decide, numbered_singleton.mpr (by decide)⟩) (by decide)).mpr (by decide)

/-- The packet behind number 65535 has number 0. -/
theorem highest_not_current : ¬ Current (fun _ _ => 0) [numberedTurn 65535, numberedTurn 65536] (.start 7) := by
  intro current
  obtain ⟨ran, through, highest, -⟩ := current 1 (by decide)
  obtain ⟨_, same, largest⟩ := attempt_turns_highest (fun _ _ => 0) [numberedTurn 65535, numberedTurn 65536] (by decide)
    (.start 7)
  rw [show List.take (1 + 1) [numberedTurn 65535, numberedTurn 65536] = [numberedTurn 65535, numberedTurn 65536] from
    rfl, same] at through
  cases through
  rw [highest] at largest
  exact absurd largest (by decide)

end H264Streaming.H264Dec
