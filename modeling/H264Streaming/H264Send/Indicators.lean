import H264Streaming.H264Send.WholeRun

/-! The FU indicator of a fragment, which `start` writes through the pointer that short units set. -/

set_option autoImplicit false

namespace H264Streaming.H264Send

open H264Streaming.Bytes H264Streaming.Format H264Streaming.Semantics

def fuIndicator (header : UInt8) : UInt8 := forbiddenBit header ||| nri header ||| 28

theorem indicator_bits (header : UInt8) :
    putBits (putBits (putBits 0 7 1 ((header &&& 0x80) >>> (7 : UInt8))) 5 2 ((header &&& 0x60) >>> (5 : UInt8))) 0 5 28 =
      fuIndicator header := by
  revert header
  exact forall_octet (by decide +kernel)

/-! ### One fragment -/

/-- The datagrams sent have this indicator, the pointer is aimed at it, and no assignment has gone astray. -/
structure Indicates (strayed : Nat) (header : UInt8) (sent : Traced State (List UInt8)) : Prop where
  octet : ∀ datagram ∈ sent.events, datagram[12]? = some (fuIndicator header)
  aim : sent.state.naluHdr = some 12
  strayed : sent.state.strayed = strayed

theorem octet_behind (t : State) (start final octet : UInt8) (octets : List UInt8) (size : Nat) :
    ∀ datagram ∈ (send (copyPayload (fillFuHdr t start final octet) 14 octets) (12 + 2 + size)).events,
      datagram[12]? = some (t.sendBuff.byte 12) := by
  intro datagram member
  have stored : (copyPayload (fillFuHdr t start final octet) 14 octets).sendBuff.byte 12 = t.sendBuff.byte 12 := by
    simp [copyPayload, fillFuHdr, Buffer.byte_setBits, Buffer.byte_write_of_lt]
  rw [List.mem_singleton.mp member, Buffer.byte_of_read rfl (by omega), Nat.zero_add, stored]

theorem fillNaluHdr_aimed {s : State} (aim : s.naluHdr = some 12) (octet type : UInt8) :
    (fillNaluHdr s octet type).sendBuff.byte 12 =
        putBits (putBits (putBits (s.sendBuff.byte 12) 7 1 ((octet &&& 0x80) >>> (7 : UInt8))) 5 2
          ((octet &&& 0x60) >>> (5 : UInt8))) 0 5 type ∧
      (fillNaluHdr s octet type).naluHdr = some 12 ∧ (fillNaluHdr s octet type).strayed = s.strayed := by
  simp [fillNaluHdr, setNaluHdr, aim, Buffer.byte_setBits]

theorem sendFu_indicates {s : State} (aim : s.naluHdr = some 12) (unit : NalUnit) (k : Nat) :
    Indicates s.strayed unit.header (sendFu unit.bytes k s) := by
  -- what all three copies of the code have in front of the FU header
  have filled (marker : UInt8) :
      let t := fillNaluHdr (fillRtpHdr (clearSendBuff s) marker) unit.header 28
      t.sendBuff.byte 12 = fuIndicator unit.header ∧ t.naluHdr = some 12 ∧ t.strayed = s.strayed := by
    have headed : (fillRtpHdr (clearSendBuff s) marker).naluHdr = some 12 := aim
    obtain ⟨octet, aimed, strayed⟩ := fillNaluHdr_aimed headed unit.header 28
    rw [fillRtpHdr_cleared, indicator_bits] at octet
    exact ⟨octet, aimed, strayed⟩
  have sends {t : State} (start final octet : UInt8) (octets : List UInt8) (size : Nat)
      (here : t.sendBuff.byte 12 = fuIndicator unit.header ∧ t.naluHdr = some 12 ∧ t.strayed = s.strayed) :
      Indicates s.strayed unit.header (send (copyPayload (fillFuHdr t start final octet) 14 octets) (12 + 2 + size)) := by
    refine ⟨fun datagram member => ?_, here.2.1, here.2.2⟩
    rw [octet_behind t start final octet octets size datagram member, here.1]
  unfold sendFu
  split
  · exact sends 1 0 _ _ _ (filled 0)
  · split
    · exact sends 0 0 _ _ _ (filled 0)
    · -- the last copy writes the type through fu_ind
      have direct := filled 1
      simp only [fillNaluHdr, setNaluHdr, fillRtpHdr, clearSendBuff, aim] at direct
      refine sends 0 1 _ _ _ ?_
      simp only [setNaluHdr, fillRtpHdr, clearSendBuff, aim]
      exact direct

theorem run_sendFu_indicates {s : State} (aim : s.naluHdr = some 12) (unit : NalUnit) (count : Nat) :
    Indicates s.strayed unit.header (run (sendFu unit.bytes) (List.range count) s) := by
  have one : ∀ k ∈ List.range count, ∀ t : State, t.naluHdr = some 12 ∧ t.strayed = s.strayed →
      ((sendFu unit.bytes k t).state.naluHdr = some 12 ∧ (sendFu unit.bytes k t).state.strayed = s.strayed) ∧
        ∀ datagram ∈ (sendFu unit.bytes k t).events, datagram[12]? = some (fuIndicator unit.header) := by
    rintro k - t ⟨aimed, strayed⟩
    have here := sendFu_indicates aimed unit k
    exact ⟨⟨here.aim, here.strayed.trans strayed⟩, here.octet⟩
  obtain ⟨⟨aimed, strayed⟩, octets⟩ := run_invariant one ⟨aim, rfl⟩
  exact ⟨octets, aimed, strayed⟩

/-! ### One unit -/

theorem sendSingle_aims (s : State) (unit : NalUnit) :
    (sendSingle s unit.bytes).state.naluHdr = some 12 ∧ (sendSingle s unit.bytes).state.strayed = s.strayed := by
  let aimed : State := { fillRtpHdr (clearSendBuff s) 0 with naluHdr := some 12 }
  have hits : aimed.naluHdr = some 12 := rfl
  have strayed : aimed.strayed = s.strayed := rfl
  obtain ⟨-, aim, kept⟩ := fillNaluHdr_aimed hits unit.header (unit.header &&& 0x1f)
  rw [strayed] at kept
  exact ⟨aim, kept⟩

theorem sendNalu_short (s : State) {unit : NalUnit} (short : unit.bytes.length ≤ rtpPayloadMaxSize) :
    (sendNalu unit.bytes s).state.naluHdr = some 12 ∧ (sendNalu unit.bytes s).state.strayed = s.strayed := by
  have nonempty : ¬ unit.bytes.length < 1 := Nat.not_lt.mpr (Nat.succ_le_succ (Nat.zero_le _))
  simp only [sendNalu, if_neg nonempty, if_pos short]
  exact sendSingle_aims _ unit

theorem sendNalu_long {s : State} (aim : s.naluHdr = some 12) {unit : NalUnit}
    (long : ¬ unit.bytes.length ≤ rtpPayloadMaxSize) : Indicates s.strayed unit.header (sendNalu unit.bytes s) := by
  have nonempty : ¬ unit.bytes.length < 1 := Nat.not_lt.mpr (Nat.succ_le_succ (Nat.zero_le _))
  simp only [sendNalu, if_neg nonempty, if_neg long]
  exact run_sendFu_indicates (s := { s with mTimestamp := s.mTimestamp + (s.mClock / frameRate).toUInt32 }) aim unit _

theorem run_sendNalu_aims {s : State} (aim : s.naluHdr = some 12) (units : List NalUnit) :
    (run sendNalu (units.map NalUnit.bytes) s).state.naluHdr = some 12 ∧
      (run sendNalu (units.map NalUnit.bytes) s).state.strayed = s.strayed := by
  have one : ∀ nal ∈ units.map NalUnit.bytes, ∀ t : State, t.naluHdr = some 12 ∧ t.strayed = s.strayed →
      ((sendNalu nal t).state.naluHdr = some 12 ∧ (sendNalu nal t).state.strayed = s.strayed) ∧
        ∀ datagram ∈ (sendNalu nal t).events, True := by
    rintro nal member t ⟨aimed, strayed⟩
    obtain ⟨unit, -, rfl⟩ := List.mem_map.mp member
    refine ⟨?_, fun _ _ => trivial⟩
    rw [← strayed]
    by_cases short : unit.bytes.length ≤ rtpPayloadMaxSize
    · exact sendNalu_short t short
    · exact ⟨(sendNalu_long aimed short).aim, (sendNalu_long aimed short).strayed⟩
  exact (run_invariant one ⟨aim, rfl⟩).1

/-! ### Whole runs -/

/-- In the run of `start`: every fragment has the indicator of its unit, `nalu_hdr` points to the
octet at 12 whenever a unit is cut, and no assignment goes through it while it is indeterminate. -/
structure Indicated (packetizer : H264RtpPacketizer) (content : Nat → UInt8) (units : List NalUnit) : Prop where
  octet : ∀ (i : Nat) (unit : NalUnit) (group : List (List UInt8)), units[i]? = some unit →
    (blocks sendNalu (units.map NalUnit.bytes) (enter packetizer content))[i]? = some group →
    rtpPayloadMaxSize < unit.bytes.length → ∀ datagram ∈ group, datagram[12]? = some (fuIndicator unit.header)
  aimed : ∀ (i : Nat) (unit : NalUnit), units[i]? = some unit → rtpPayloadMaxSize < unit.bytes.length →
    (run sendNalu ((units.take i).map NalUnit.bytes) (enter packetizer content)).state.naluHdr = some 12
  strayed : (start packetizer content (units.map NalUnit.bytes)).state.strayed = 0

/-- The indicators are right exactly when the first unit, if there is one, is not cut. -/
theorem start_indicators_iff (packetizer : H264RtpPacketizer) (content : Nat → UInt8) (units : List NalUnit) :
    Indicated packetizer content units ↔ ∀ first ∈ units.head?, first.bytes.length ≤ rtpPayloadMaxSize := by
  constructor
  · intro indicated first member
    by_contra long
    have aimed := indicated.aimed 0 first (by rwa [← List.head?_eq_getElem?]) (Nat.lt_of_not_le long)
    cases aimed
  · intro short
    cases units with
    | nil =>
        refine ⟨fun i unit group found => ?_, fun i unit found => ?_, rfl⟩
        · cases found
        · cases found
    | cons first rest =>
        have small := short first rfl
        obtain ⟨aim, strayed⟩ := sendNalu_short (enter packetizer content) small
        -- from the second unit on the pointer is aimed
        have later (i : Nat) :
            (run sendNalu (((first :: rest).take (i + 1)).map NalUnit.bytes) (enter packetizer content)).state.naluHdr =
              some 12 :=
          (run_sendNalu_aims aim (rest.take i)).1
        refine ⟨fun i unit group found block long datagram member => ?_, fun i unit found long => ?_,
          (run_sendNalu_aims aim rest).2.trans strayed⟩
        · cases i with
          | zero =>
              obtain rfl := Option.some.inj found
              exact absurd small (Nat.not_le_of_lt long)
          | succ i =>
              rw [blocks_getElem?, List.getElem?_map, found, ← List.map_take] at block
              obtain rfl := Option.some.inj block
              exact (sendNalu_long (later i) (Nat.not_le_of_lt long)).octet datagram member
        · cases i with
          | zero =>
              obtain rfl := Option.some.inj found
              exact absurd small (Nat.not_le_of_lt long)
          | succ i => exact later i

theorem start_long_first (packetizer : H264RtpPacketizer) (content : Nat → UInt8) (unit : NalUnit)
    (rest : List (List UInt8)) (long : ¬ unit.bytes.length ≤ rtpPayloadMaxSize) :
    (start packetizer content (unit.bytes :: rest)).events.head?.bind (·[12]?) = some 0 := by
  have nonempty : ¬ unit.bytes.length < 1 := Nat.not_lt.mpr (Nat.succ_le_succ (Nat.zero_le _))
  obtain ⟨several, -⟩ := fuPackNum_bounds long
  obtain ⟨count, pieces⟩ := Nat.exists_eq_add_of_lt (Nat.lt_of_lt_of_le Nat.zero_lt_two several)
  let s := enter packetizer content
  let ticked : State := { s with mTimestamp := s.mTimestamp + (s.mClock / frameRate).toUInt32 }
  have unset : ticked.naluHdr = none := rfl
  have first : run sendNalu (unit.bytes :: rest) s =
      ((sendFirst ticked unit.bytes).follow (run (sendFu unit.bytes) ((List.range count).map Nat.succ))).follow
        (run sendNalu rest) := by
    rw [run_cons, sendNalu, if_neg nonempty]
    simp only [if_neg long]
    rw [pieces, Nat.zero_add, List.range_succ_eq_map, run_cons]
    rfl
  -- no assignment reaches the buffer, which was cleared before
  have cleared : (fillNaluHdr (fillRtpHdr (clearSendBuff ticked) 0) unit.header 28).sendBuff.byte 12 = 0 := by
    simp only [fillNaluHdr, setNaluHdr, fillRtpHdr, clearSendBuff, unset]
    exact fillRtpHdr_cleared ticked 0
  have one : ∃ datagram, (sendFirst ticked unit.bytes).events = [datagram] ∧ datagram[12]? = some 0 := by
    refine ⟨_, rfl, ?_⟩
    rw [octet_behind _ 1 0 _ _ _ _ (List.mem_singleton.mpr rfl)]
    exact congrArg some cleared
  obtain ⟨datagram, sent, octet⟩ := one
  rw [start, first, Traced.follow_events, Traced.follow_events, sent]
  exact octet

/-- One unit of 1401 octets: the first fragment has 0 at 12, not the indicator 0x7C. -/
theorem start_indicators_broken :
    (start ⟨0, 0, 0, 90000⟩ (fun _ => 0) [0x65 :: List.replicate 1400 0x88]).events.head?.bind (·[12]?) = some 0 ∧
      fuIndicator 0x65 = 0x7C ∧
      ¬ Indicated ⟨0, 0, 0, 90000⟩ (fun _ => 0) [⟨0x65, List.replicate 1400 0x88⟩] := by
  have long : ¬ (NalUnit.bytes ⟨0x65, List.replicate 1400 0x88⟩).length ≤ rtpPayloadMaxSize := by
    rw [NalUnit.length_bytes, List.length_replicate]
    decide
  refine ⟨start_long_first ⟨0, 0, 0, 90000⟩ (fun _ => 0) ⟨0x65, List.replicate 1400 0x88⟩ [] long, by decide, ?_⟩
  intro indicated
  have aimed := indicated.aimed 0 _ rfl (Nat.lt_of_not_le long)
  cases aimed

end H264Streaming.H264Send
