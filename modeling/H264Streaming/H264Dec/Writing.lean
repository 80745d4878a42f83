import H264Streaming.Format.AnnexB
import H264Streaming.Format.Layout
import H264Streaming.H264Dec.Rtp

/-! What rtp_parse writes for whole units, aggregates and fragments.

A call keeps nothing of the payload, so the stream is the concatenation of what
each packet adds. -/

set_option autoImplicit false

namespace H264Streaming.H264Dec

open H264Streaming.Bytes H264Streaming.Format H264Streaming.Semantics

def streamed : List Write → Option (List UInt8)
  | [] => some []
  | .octets bytes :: rest => (streamed rest).map (bytes ++ ·)
  | .beyond _ _ :: _ => none

theorem streamed_append {first second : List Write} {left right : List UInt8} (front : streamed first = some left)
    (back : streamed second = some right) : streamed (first ++ second) = some (left ++ right) := by
  induction first generalizing left with
  | nil =>
      cases front
      exact back
  | cons write rest ih =>
      cases write with
      | beyond offset count => cases front
      | octets bytes =>
          obtain ⟨tail, later, rfl⟩ := Option.map_eq_some_iff.mp front
          simp [streamed, ih later]

/-! ### The payload array -/

def Arrival.array (arrival : Arrival) : Buffer := (Buffer.untouched fun _ => 0).write 0 arrival.payload

theorem Arrival.read_raw (arrival : Arrival) : arrival.raw.read 12 arrival.payload.length = arrival.payload :=
  read_behind arrival.storage arrival.plain arrival.payload

theorem Arrival.read_array (arrival : Arrival) :
    arrival.array.read 0 arrival.payload.length = arrival.payload :=
  Buffer.read_write_self _ _ _

theorem parseArrival_eq (arrival : Arrival) (rtpSt : RtpStats) :
    parseArrival arrival rtpSt =
      if payloadCapacity < arrival.payload.length then none
      else
        let rtpH := decodeHeader arrival.raw
        let updated := rtpStatsUpdate arrival.now rtpH { rtpSt with rtpIdentifier := rtpH.ssrc }
        let rawOffset := if otherNal (arrival.array.byte 0 &&& 0x1F) then 13 else 12
        some ⟨updated.highest rtpH.seq,
          [⟨rawOffset + arrival.payload.length, writePayload arrival.array arrival.payload.length⟩]⟩ := by
  have paysize : unsignedSub arrival.size 12 = arrival.payload.length := by
    rw [Arrival.size, unsignedSub_of_le (Nat.le_add_right 12 _) arrival.sized]
    exact Nat.add_sub_cancel_left 12 _
  simp only [parseArrival, rtpParse, paysize, payloadArray, arrival.read_raw]
  rfl

def written (arrivals : List Arrival) (rtpSt : RtpStats) : Option (List UInt8) :=
  (attempt parseArrival arrivals rtpSt).bind fun ran => streamed (ran.events.flatMap Call.writes)

def returned (arrivals : List Arrival) (rtpSt : RtpStats) : Option (List Nat) :=
  (attempt parseArrival arrivals rtpSt).map fun ran => ran.events.map Call.returned

theorem written_singleton (arrival : Arrival) (rtpSt : RtpStats) :
    written [arrival] rtpSt =
      if payloadCapacity < arrival.payload.length then none
      else streamed (writePayload arrival.array arrival.payload.length) := by
  unfold written
  by_cases large : payloadCapacity < arrival.payload.length
  · simp [attempt, parseArrival_eq, large]
  · simp [attempt, parseArrival_eq, large, Traced.quiet]

/-! ### Whole packets -/

inductive WholePacket where
  | single (unit : NalUnit) (typed : 1 ≤ unitType unit.header ∧ unitType unit.header ≤ 23)
  | stapA (header : UInt8) (units : List NalUnit) (typed : unitType header = 24)
      (sized : ∀ unit ∈ units, unit.bytes.length < 65536)

def WholePacket.units : WholePacket → List NalUnit
  | single unit _ => [unit]
  | stapA _ units _ _ => units

def WholePacket.payload : WholePacket → List UInt8
  | single unit _ => unit.bytes
  | stapA header units _ _ => header :: (units.map NalUnit.bytes).flatMap entry

/-- The packets that come through: a unit as long as `sizeof(paysize)`, and the empty aggregate. -/
def WholePacket.Intact : WholePacket → Prop
  | single unit _ => unit.bytes.length = 4
  | stapA _ units _ _ => units = []

/-- A unit behind its start code and the low octet of its size. -/
def oversized (unit : NalUnit) : List UInt8 := [0, 0, 0, 1] ++ UInt8.ofNat unit.bytes.length :: unit.bytes

theorem streamerWrite_inside {payload : Buffer} {offset count : Nat} (inside : offset + count ≤ payloadCapacity) :
    streamerWrite payload offset count = .octets (payload.read offset count) :=
  if_pos inside

theorem writeStapA_entry {payload : Buffer} {unit : List UInt8} {paysize nidx : Nat}
    (held : payload.read (1 + nidx) (entry unit).length = entry unit) (sized : unit.length < 65536)
    (nonempty : unit.length ≠ 0) (inside : 1 + nidx + (entry unit).length ≤ paysize)
    (within : paysize ≤ payloadCapacity) :
    writeStapA payload paysize nidx =
      streamerWriteNal :: .octets [UInt8.ofNat unit.length] :: .octets unit ::
        writeStapA payload paysize (nidx + (entry unit).length) := by
  obtain ⟨size, octets⟩ := read_entry held sized
  rw [length_entry] at inside
  have reaches : 1 + (nidx + 2) + unit.length ≤ payloadCapacity := by omega
  have data : streamerWrite payload (1 + (nidx + 2)) unit.length = .octets unit := by
    rw [streamerWrite_inside reaches, ← Nat.add_assoc, octets]
  have next : nidx + 2 + unit.length = nidx + (entry unit).length := by
    rw [length_entry]
    omega
  rw [writeStapA, if_pos (by omega)]
  simp only [size, if_neg nonempty, data, next]

theorem streamed_writeStapA {payload : Buffer} {paysize : Nat} (within : paysize ≤ payloadCapacity)
    {units : List NalUnit} (sized : ∀ unit ∈ units, unit.bytes.length < 65536) {nidx : Nat}
    (held : payload.read (1 + nidx) ((units.map NalUnit.bytes).flatMap entry).length =
      (units.map NalUnit.bytes).flatMap entry)
    (size : paysize = 1 + nidx + ((units.map NalUnit.bytes).flatMap entry).length) :
    streamed (writeStapA payload paysize nidx) = some (units.flatMap oversized) := by
  induction units generalizing nidx with
  | nil =>
      rw [List.map_nil, List.flatMap_nil, List.length_nil] at size
      rw [writeStapA, if_neg (by omega)]
      rfl
  | cons unit rest ih =>
      rw [List.map_cons, List.flatMap_cons, List.length_append] at held size
      rw [Buffer.read_add] at held
      obtain ⟨here, behind⟩ := List.append_inj held (by rw [Buffer.length_read])
      rw [Nat.add_assoc] at behind
      have later := ih (fun other member => sized other (List.mem_cons_of_mem unit member)) behind (by omega)
      rw [writeStapA_entry here (sized unit List.mem_cons_self) (Nat.succ_ne_zero _) (by omega) within]
      simp only [streamed, streamerWriteNal, later]
      simp [oversized]

theorem written_single {arrival : Arrival} {unit : NalUnit} (same : arrival.payload = unit.bytes)
    (typed : 1 ≤ unitType unit.header ∧ unitType unit.header ≤ 23) (rtpSt : RtpStats) :
    written [arrival] rtpSt =
      if payloadCapacity < unit.bytes.length then none else some ([0, 0, 0, 1] ++ arrival.array.read 0 4) := by
  have stored := arrival.read_array
  rw [same, NalUnit.length_bytes, Buffer.read_succ] at stored
  obtain ⟨octet, -⟩ := List.cons.inj stored
  have type : arrival.array.byte 0 &&& 0x1F = unitType unit.header := congrArg unitType octet
  have inside : streamerWrite arrival.array 0 4 = .octets (arrival.array.read 0 4) :=
    streamerWrite_inside (by decide)
  rw [written_singleton, same]
  simp only [writePayload, type, if_pos typed, writeSingle, inside, streamed, streamerWriteNal]
  rfl

theorem written_stapA {arrival : Arrival} {header : UInt8} {units : List NalUnit}
    (same : arrival.payload = header :: (units.map NalUnit.bytes).flatMap entry) (typed : unitType header = 24)
    (sized : ∀ unit ∈ units, unit.bytes.length < 65536) (rtpSt : RtpStats) :
    written [arrival] rtpSt =
      if payloadCapacity < arrival.payload.length then none else some (units.flatMap oversized) := by
  have stored := arrival.read_array
  rw [written_singleton]
  split
  · rfl
  · rename_i fits
    rw [same, List.length_cons] at stored fits
    rw [Buffer.read_succ] at stored
    obtain ⟨octet, behind⟩ := List.cons.inj stored
    have type : arrival.array.byte 0 &&& 0x1F = 24 := by
      rw [← typed, ← octet]
      rfl
    have small : ¬ (1 ≤ (24 : UInt8) ∧ (24 : UInt8) ≤ 23) := by decide
    simp only [writePayload, type, if_neg small, if_true, same, List.length_cons]
    exact streamed_writeStapA (Nat.le_of_not_lt fits) sized behind (by omega)

theorem length_units (units : List NalUnit) :
    (units.flatMap oversized).length = (annexB (units.map (CodedUnit.mk true))).length + units.length := by
  induction units with
  | nil => rfl
  | cons unit rest ih =>
      rw [List.map_cons, annexB, stream_cons, List.flatMap_cons, List.length_append, List.length_append, ih]
      simp [annexB, oversized, CodedUnit.bytes, CodedUnit.code]
      omega

/-- A call writes the units behind their start codes exactly when the packet is one
unit of four octets or carries none. -/
theorem written_whole_iff (packet : WholePacket) (arrival : Arrival) (same : arrival.payload = packet.payload)
    (rtpSt : RtpStats) :
    written [arrival] rtpSt = some (annexB (packet.units.map (CodedUnit.mk true))) ↔ packet.Intact := by
  cases packet with
  | single unit typed =>
      have expected : annexB ((WholePacket.single unit typed).units.map (CodedUnit.mk true)) =
          [0, 0, 0, 1] ++ unit.bytes := List.append_nil _
      rw [written_single same typed, expected, WholePacket.Intact]
      constructor
      · intro came
        split at came
        · cases came
        · have octets := List.append_cancel_left (Option.some.inj came)
          rw [← octets, Buffer.length_read]
      · intro four
        have stored := arrival.read_array
        have payload : arrival.payload = unit.bytes := same
        rw [payload, four] at stored
        rw [four, if_neg (by decide), stored]
  | stapA header units typed sized =>
      rw [written_stapA same typed sized, WholePacket.Intact, WholePacket.units]
      constructor
      · intro came
        split at came
        · cases came
        · have lengths := congrArg List.length (Option.some.inj came)
          rw [length_units] at lengths
          exact List.length_eq_zero_iff.mp (by omega)
      · rintro rfl
        have payload : arrival.payload = [header] := same
        rw [payload, List.length_singleton, if_neg (by decide)]
        rfl

def plainArrival (payload : List UInt8) (sized : 12 + payload.length < 4294967296) : Arrival :=
  ⟨.untouched fun _ => 0, ⟨1, 0⟩, List.replicate 12 0x80, payload, rfl, sized⟩

theorem written_whole_four :
    written [plainArrival [0x67, 0x42, 0, 0x1E] (by decide)] .reset =
      some (annexB [⟨true, ⟨0x67, [0x42, 0, 0x1E]⟩⟩]) :=
  (written_whole_iff (.single ⟨0x67, [0x42, 0, 0x1E]⟩ (by decide))
    (plainArrival [0x67, 0x42, 0, 0x1E] (by decide)) rfl .reset).mpr rfl

/-- A unit of two octets is followed by two octets of the zeroed array. -/
theorem written_two :
    written [plainArrival [0x09, 0xF0] (by decide)] .reset = some [0, 0, 0, 1, 0x09, 0xF0, 0, 0] ∧
      written [plainArrival [0x09, 0xF0] (by decide)] .reset ≠ some (annexB [⟨true, ⟨0x09, [0xF0]⟩⟩]) := by
  decide +kernel

/-! ### Fragments -/

/-- The calls write these octets and return the sizes they were given. -/
def Forwards (arrivals : List Arrival) (octets : List UInt8) : Prop :=
  ∀ rtpSt, written arrivals rtpSt = some octets ∧ returned arrivals rtpSt = some (arrivals.map Arrival.size)

theorem Forwards.cons {arrival : Arrival} {rest : List Arrival} {left right : List UInt8}
    (here : Forwards [arrival] left) (later : Forwards rest right) :
    Forwards (arrival :: rest) (left ++ right) := by
  intro rtpSt
  obtain ⟨wrote, size⟩ := here rtpSt
  obtain ⟨first, ran, streams⟩ := Option.bind_eq_some_iff.mp wrote
  obtain ⟨alone, ranAlone, sizes⟩ := Option.map_eq_some_iff.mp size
  rw [ran] at ranAlone
  cases ranAlone
  obtain ⟨wroteLater, sizeLater⟩ := later first.state
  obtain ⟨others, ranLater, streamsLater⟩ := Option.bind_eq_some_iff.mp wroteLater
  rw [returned, ranLater] at sizeLater
  have whole := attempt_append ran ranLater
  rw [List.singleton_append] at whole
  constructor
  · rw [written, whole, Option.bind_some, List.flatMap_append]
    exact streamed_append streams streamsLater
  · rw [returned, whole, Option.map_some, List.map_append, sizes]
    exact congrArg (fun later => some ([arrival.size] ++ later)) (Option.some.inj sizeLater)

private theorem nri_shifted (indicator : UInt8) :
    ((indicator &&& 0x60) >>> (5 : UInt8)) <<< (5 : UInt8) = nri indicator := by
  revert indicator
  exact forall_octet (by decide +kernel)

theorem streamed_fragment {payload : Buffer} {indicator header : UInt8} {start final : Bool} {piece : List UInt8}
    (fuA : unitType indicator = 28) (sameNri : nri indicator = nri header) (clear : forbiddenBit header = 0)
    (held : payload.read 0 (piece.length + 2) = indicator :: fuHeader start final (unitType header) :: piece)
    (short : piece.length ≤ 65533) :
    streamed (writePayload payload (piece.length + 2)) =
      some ((if start then [0, 0, 0, 1] ++ [header] else []) ++ piece) := by
  rw [Buffer.read_succ, Buffer.read_succ] at held
  obtain ⟨first, second⟩ := List.cons.inj held
  obtain ⟨fu, data⟩ := List.cons.inj second
  have type : indicator &&& 0x1F = 28 := fuA
  have single : ¬ (1 ≤ (28 : UInt8) ∧ (28 : UInt8) ≤ 23) := by decide
  have aggregate : ¬ (28 : UInt8) = 24 := by decide
  obtain ⟨startBit, -, typeBits⟩ := fuHeader_bits _ (unitType_unitType header) start final
  have key : nri header ||| (fuHeader start final (unitType header) &&& 0x1F) = header :=
    (congrArg (nri header ||| ·) typeBits).trans (nri_or_unitType header clear)
  have count : unsignedSub (piece.length + 2) 2 = piece.length := unsignedSub_of_le (by omega) (by omega)
  have inside : streamerWrite payload 2 piece.length = .octets piece := by
    have fits : 2 + piece.length ≤ payloadCapacity := by
      unfold payloadCapacity
      omega
    rw [streamerWrite_inside fits, data]
  simp only [writePayload, first, type, if_neg single, if_neg aggregate, if_true, writeFuA, fu, nri_shifted, sameNri,
    key, count, inside, startBit]
  cases start with
  | true => simp [streamed, streamerWriteNal]
  | false => simp [streamed]

theorem forwards_fragment (arrival : Arrival) (indicator header : UInt8) (start final : Bool) (piece : List UInt8)
    (fuA : unitType indicator = 28) (sameNri : nri indicator = nri header) (clear : forbiddenBit header = 0)
    (same : arrival.payload = indicator :: fuHeader start final (unitType header) :: piece)
    (short : arrival.size ≤ 65535) :
    Forwards [arrival] ((if start then [0, 0, 0, 1] ++ [header] else []) ++ piece) := by
  have size : arrival.payload.length = piece.length + 2 := by
    rw [same]
    rfl
  have fits : ¬ payloadCapacity < arrival.payload.length := by
    unfold Arrival.size at short
    unfold payloadCapacity
    omega
  have stored := arrival.read_array
  rw [size, same] at stored
  intro rtpSt
  constructor
  · rw [written_singleton, if_neg fits, size]
    refine streamed_fragment fuA sameNri clear stored ?_
    unfold Arrival.size at short
    omega
  · rw [Buffer.read_succ] at stored
    have first := (List.cons.inj stored).1
    have stays : otherNal (arrival.array.byte 0 &&& 0x1F) = false := by
      rw [first, show indicator &&& 0x1F = 28 from fuA]
      rfl
    simp [returned, attempt, parseArrival_eq, fits, stays, Traced.quiet, Arrival.size]

/-- However a unit is cut into fragments, they leave it whole behind one start code. -/
theorem forwards_unit (unit : NalUnit) (pieces : List (List UInt8)) (indicator : UInt8) (arrivals : List Arrival)
    (clear : forbiddenBit unit.header = 0) (split : pieces.flatten = unit.body) (several : 2 ≤ pieces.length)
    (fuA : unitType indicator = 28) (sameNri : nri indicator = nri unit.header)
    (same : arrivals.map Arrival.payload = fragments indicator (unitType unit.header) true pieces)
    (short : ∀ arrival ∈ arrivals, arrival.size ≤ 65535) :
    Forwards arrivals (CodedUnit.mk true unit).bytes := by
  have some_piece : pieces ≠ [] := by
    rintro rfl
    exact absurd several (by decide)
  have one : ∀ arrival ∈ arrivals, ∀ start final piece,
      arrival.payload = indicator :: fuHeader start final (unitType unit.header) :: piece →
        Forwards [arrival] ((if start then [0, 0, 0, 1] ++ [unit.header] else []) ++ piece) :=
    fun arrival member start final piece carried =>
      forwards_fragment arrival indicator unit.header start final piece fuA sameNri clear carried (short arrival member)
  have whole := fragments_forwarded Forwards.cons one some_piece same
  rwa [split, if_pos rfl, List.append_assoc] at whole

theorem forwards_unit_three :
    Forwards [plainArrival [0x7C, 0x85, 1, 2] (by decide), plainArrival [0x7C, 0x05, 3] (by decide),
      plainArrival [0x7C, 0x45] (by decide)] (CodedUnit.mk true ⟨0x65, [1, 2, 3]⟩).bytes :=
  forwards_unit ⟨0x65, [1, 2, 3]⟩ [[1, 2], [3], []] 0x7C _ (by decide) rfl (by decide) (by decide) (by decide) rfl
    (by decide)

end H264Streaming.H264Dec
