import H264Streaming.RtpSend.RoundTrip

/-! Which units a packet carries, by their number in the stream.

The splitter hands over whatever lies between two start codes, so a unit may be
empty. A receiver counts the units of aggregates and the last fragments; nothing
else of their content matters for that. -/

set_option autoImplicit false

namespace H264Streaming.RtpSend

open H264Streaming.Bytes H264Streaming.Format H264Streaming.Semantics

/-! ### The receiver's count -/

/-- The numbers of the units in a payload, where `next` is the first unit not yet
complete. A fragment carries that unit and completes it when it has E. -/
def number (payload : List UInt8) (next : Nat) : Traced Nat Nat :=
  match payload with
  | [] => .quiet next
  | header :: rest =>
      if unitType header = 24 then
        ⟨next + (aggregated rest).length, List.range' next (aggregated rest).length⟩
      else if unitType header = 28 ∧ rest.headD 0 &&& 0x40 = 0 then ⟨next, [next]⟩
      else ⟨next + 1, [next]⟩

theorem number_aggregate {header : UInt8} {units : List (List UInt8)} (typed : unitType header = 24)
    (sized : ∀ unit ∈ units, unit.length < 65536) (next : Nat) :
    number (header :: units.flatMap entry) next = ⟨next + units.length, List.range' next units.length⟩ := by
  simp only [number, typed, if_true, aggregated_entries units sized]

theorem number_fragment {indicator type : UInt8} (fuA : unitType indicator = 28) (small : unitType type = type)
    (start final : Bool) (piece : List UInt8) (next : Nat) :
    number (indicator :: fuHeader start final type :: piece) next =
      ⟨if final then next + 1 else next, [next]⟩ := by
  obtain ⟨-, last, -⟩ := fuHeader_bits type small start final
  have other : ¬ (28 : UInt8) = 24 := by decide
  rw [number, fuA, if_neg other, List.headD_cons]
  cases final with
  | true => rw [if_neg fun both => last.mpr rfl both.2, if_pos rfl]
  | false =>
      have unset : fuHeader start false type &&& 0x40 = 0 := by
        by_contra set
        cases last.mp set
      rw [if_pos ⟨rfl, unset⟩, if_neg Bool.false_ne_true]

theorem run_number_fragments {indicator type : UInt8} (fuA : unitType indicator = 28) (small : unitType type = type)
    (start : Bool) (pieces : List (List UInt8)) (some_piece : pieces ≠ []) (next : Nat) :
    run number (fragments indicator type start pieces) next =
      ⟨next + 1, List.replicate pieces.length next⟩ := by
  induction pieces generalizing start with
  | nil => exact absurd rfl some_piece
  | cons piece rest ih =>
      by_cases alone : rest = []
      · subst alone
        rw [fragments, run_cons, number_fragment fuA small]
        rfl
      · rw [fragments_cons _ _ _ _ _ alone, run_cons, number_fragment fuA small, if_neg Bool.false_ne_true]
        simp [Traced.follow, ih false alone, List.replicate_succ]

/-! ### What waits in the buffer -/

structure Holds (ctx : RTPMuxContext) (units : List (List UInt8)) : Prop where
  aggregating : ctx.aggregation ≠ 0
  sized : ∀ unit ∈ units, unit.length < 65536
  extent : ctx.bufPtr = if units = [] then 0 else 1 + (units.flatMap entry).length
  typed : units ≠ [] → unitType (ctx.buf.byte 0) = 24
  content : ctx.buf.read 1 (units.flatMap entry).length = units.flatMap entry

theorem Holds.empty {ctx : RTPMuxContext} (aggregating : ctx.aggregation ≠ 0) (reset : ctx.bufPtr = 0) :
    Holds ctx [] :=
  ⟨aggregating, fun _ member => absurd member List.not_mem_nil, reset, fun some_unit => absurd rfl some_unit, rfl⟩

theorem Holds.tick {ctx : RTPMuxContext} {units : List (List UInt8)} (held : Holds ctx units) (timestamp : UInt32) :
    Holds { ctx with timestamp } units :=
  ⟨held.aggregating, held.sized, held.extent, held.typed, held.content⟩

theorem Holds.number {ctx : RTPMuxContext} {units : List (List UInt8)} (held : Holds ctx units) (next : Nat) :
    number (ctx.buf.read 0 ctx.bufPtr) next = ⟨next + units.length, List.range' next units.length⟩ := by
  by_cases none : units = []
  · subst none
    rw [held.extent, if_pos rfl]
    rfl
  · rw [held.extent, if_neg none, Nat.add_comm 1, Buffer.read_succ, held.content]
    exact number_aggregate (held.typed none) held.sized next

theorem storeUnit_holds {ctx : RTPMuxContext} {units : List (List UInt8)} (held : Holds ctx units) (first : UInt8)
    {nal : List UInt8} {size : Nat} (enough : size ≤ nal.length) (sized : size < 65536) :
    Holds (storeUnit (storeHeader ctx ctx.bufPtr first) nal size) (units ++ [nal.take size]) := by
  obtain ⟨aggregation, pointer, header, behind⟩ := storeHeader_eq ctx first
  have length : (nal.take size).length = size := List.length_take_of_le enough
  have word : (UInt16.ofNat size).toNat = size := by rw [UInt16.toNat_ofNat', Nat.mod_eq_of_lt sized]
  have octets : (units ++ [nal.take size]).flatMap entry = units.flatMap entry ++ (be16 size ++ nal.take size) := by
    rw [List.flatMap_append, List.flatMap_singleton, entry, length]
  have start : (storeHeader ctx ctx.bufPtr first).bufPtr = 1 + (units.flatMap entry).length := by
    rw [pointer, held.extent]
    by_cases none : units = []
    · rw [if_pos none, if_pos rfl, none]
      rfl
    · rw [if_neg none, if_neg (by omega)]
  have stored : (storeUnit (storeHeader ctx ctx.bufPtr first) nal size).buf =
      (storeHeader ctx ctx.bufPtr first).buf.write (1 + (units.flatMap entry).length) (be16 size ++ nal.take size) := by
    rw [← Buffer.write_write, length_be16]
    simp only [storeUnit, load16_eq, start, word]
  constructor
  · exact fun zero => held.aggregating (aggregation.symm.trans zero)
  · intro unit member
    rcases List.mem_append.mp member with earlier | new
    · exact held.sized unit earlier
    · rwa [List.mem_singleton.mp new, length]
  · rw [if_neg (by simp), octets]
    simp only [storeUnit, load16_eq, start, List.length_append, length, length_be16]
    omega
  · intro _
    rw [stored, Buffer.byte_write_of_lt _ _ _ (by omega), header, unitType_mergeHeader, held.extent]
    by_cases none : units = []
    · rw [if_pos none, if_pos rfl]
      rfl
    · rw [if_neg none, if_neg (by omega), held.typed none]
  · rw [octets, List.length_append, Buffer.read_add, stored, Buffer.read_write_self,
      Buffer.read_write_below _ _ _ (Nat.le_refl _), behind, held.content]

/-! ### One call -/

/-- What a call with one more unit does to the units that wait, and the numbers it sends. -/
inductive Outcome (units : List (List UInt8)) (unit : List UInt8) (last : Int) (next : Nat) :
    List (List UInt8) → Traced Nat Nat → Prop where
  | buffered : unit.length ≤ rtpPayloadMax → last ≠ 1 → Outcome units unit last next (units ++ [unit]) (.quiet next)
  | flushed : unit.length ≤ rtpPayloadMax → last ≠ 1 →
      Outcome units unit last next [unit] ⟨next + units.length, List.range' next units.length⟩
  | emptied (count : Nat) : 0 < count → last = 1 ∨ ¬ unit.length ≤ rtpPayloadMax →
      Outcome units unit last next []
        ⟨next + units.length + 1, List.range' next units.length ++ List.replicate count (next + units.length)⟩

theorem Outcome.advances {units kept : List (List UInt8)} {unit : List UInt8} {last : Int} {next : Nat}
    {numbers : Traced Nat Nat} (outcome : Outcome units unit last next kept numbers) :
    numbers.state + kept.length = next + units.length + 1 := by
  cases outcome with
  | buffered small more => rw [List.length_append, Traced.quiet_state, List.length_singleton, Nat.add_assoc]
  | flushed small more => rw [List.length_singleton]
  | emptied count some_packet ended => rw [List.length_nil, Nat.add_zero]

def Sends (units : List (List UInt8)) (unit : List UInt8) (last : Int) (next : Nat)
    (sent : Traced RTPMuxContext Packet) : Prop :=
  ∃ kept, Holds sent.state kept ∧
    Outcome units unit last next kept (run number (sent.events.map Packet.payload) next)

theorem flush_sends {ctx : RTPMuxContext} {units : List (List UInt8)} (held : Holds ctx units) (mark : Int) (next : Nat) :
    Holds (rtpSendData ctx (ctx.buf.read 0 ctx.bufPtr) mark).state [] ∧
      run number ((rtpSendData ctx (ctx.buf.read 0 ctx.bufPtr) mark).events.map Packet.payload) next =
        ⟨next + units.length, List.range' next units.length⟩ := by
  refine ⟨.empty held.aggregating rfl, ?_⟩
  rw [rtpSendData_events, List.map_singleton, run_cons, held.number]
  simp [Traced.follow]

theorem stored_sends {ctx : RTPMuxContext} {units : List (List UInt8)} (held : Holds ctx units) {nal : List UInt8}
    {size : Nat} (enough : size ≤ nal.length) (sized : size < 65536) (last : Int) (next : Nat) :
    let filled := storeUnit (storeHeader ctx ctx.bufPtr (nal.headD 0)) nal size
    let finished := if last = 1 then rtpSendData filled (filled.buf.read 0 filled.bufPtr) 1 else .quiet filled
    Holds finished.state (if last = 1 then [] else units ++ [nal.take size]) ∧
      run number (finished.events.map Packet.payload) next =
        if last = 1 then ⟨next + units.length + 1, List.range' next units.length ++ [next + units.length]⟩
        else .quiet next := by
  have next_held := storeUnit_holds held (nal.headD 0) enough sized
  by_cases final : last = 1
  · obtain ⟨emptied, numbers⟩ := flush_sends next_held 1 next
    simp only [if_pos final]
    refine ⟨emptied, ?_⟩
    rw [numbers, List.length_append, List.length_singleton, List.range'_concat, Nat.one_mul, Nat.add_assoc]
  · simp only [if_neg final]
    exact ⟨next_held, rfl⟩

theorem sendAggregated_sends {ctx : RTPMuxContext} {units : List (List UInt8)} (held : Holds ctx units)
    {nal : List UInt8} {size : Nat} (enough : size ≤ nal.length) (small : size ≤ rtpPayloadMax) (last : Int)
    (next : Nat) : Sends units (nal.take size) last next (sendAggregated ctx nal size last) := by
  have sized : size < 65536 := Nat.lt_of_le_of_lt small (by decide)
  have fits : (nal.take size).length ≤ rtpPayloadMax := by rwa [List.length_take_of_le enough]
  unfold sendAggregated
  by_cases full : ctx.bufPtr + 2 + size > rtpPayloadMax
  · -- what waits leaves first, and the unit goes into an empty buffer
    obtain ⟨emptied, flushed⟩ := flush_sends held 0 next
    obtain ⟨kept, numbers⟩ := stored_sends emptied enough sized last (next + units.length)
    simp only [if_pos full]
    refine ⟨_, kept, ?_⟩
    rw [Traced.follow_events, List.map_append, run_append, flushed]
    have whole := congrArg (fun later : Traced Nat Nat =>
      (⟨later.state, List.range' next units.length ++ later.events⟩ : Traced Nat Nat)) numbers
    refine Eq.subst (motive := Outcome units (nal.take size) last next _) whole.symm ?_
    by_cases final : last = 1
    · rw [if_pos final, if_pos final]
      exact .emptied 1 Nat.one_pos (.inl final)
    · rw [if_neg final, if_neg final, List.nil_append, Traced.quiet, List.append_nil]
      exact .flushed fits final
  · obtain ⟨kept, numbers⟩ := stored_sends held enough sized last next
    simp only [if_neg full, Traced.quiet_follow]
    refine ⟨_, kept, ?_⟩
    rw [numbers]
    by_cases final : last = 1
    · rw [if_pos final, if_pos final]
      exact .emptied 1 Nat.one_pos (.inl final)
    · rw [if_neg final, if_neg final]
      exact .buffered fits final

theorem flush_waiting {ctx : RTPMuxContext} {units : List (List UInt8)} (held : Holds ctx units) (next : Nat) :
    let flushed := if ctx.bufPtr > 0 then rtpSendData ctx (ctx.buf.read 0 ctx.bufPtr) 0 else .quiet ctx
    Holds flushed.state [] ∧
      run number (flushed.events.map Packet.payload) next = ⟨next + units.length, List.range' next units.length⟩ := by
  by_cases none : units = []
  · have reset : ctx.bufPtr = 0 := by rw [held.extent, if_pos none]
    have empty : ¬ ctx.bufPtr > 0 := by omega
    subst none
    simp only [if_neg empty]
    exact ⟨held, rfl⟩
  · have waits : ctx.bufPtr > 0 := by
      rw [held.extent, if_neg none]
      omega
    simp only [if_pos waits]
    exact flush_sends held 0 next

theorem run_number_unit (unit : NalUnit) (next : Nat) :
    run number (fragments (28 ||| nri unit.header) (unitType unit.header) true (pieces unit.body)) next =
      ⟨next + 1, List.replicate (pieces unit.body).length next⟩ := by
  have fuA : unitType (28 ||| nri unit.header) = 28 := by
    generalize unit.header = octet
    revert octet
    exact forall_octet (by decide +kernel)
  exact run_number_fragments fuA (unitType_unitType _) true _ (pieces_ne_nil _) next

theorem sendFragmented_sends {ctx : RTPMuxContext} {units : List (List UInt8)} (held : Holds ctx units)
    {nal : List UInt8} {size : Nat} (enough : size ≤ nal.length) (large : ¬ size ≤ rtpPayloadMax) (last : Int)
    (next : Nat) : Sends units (nal.take size) last next (sendFragmented ctx nal size last) := by
  have longer : ¬ (nal.take size).length ≤ rtpPayloadMax := by rwa [List.length_take_of_le enough]
  obtain ⟨header, rest, rfl⟩ := List.exists_cons_of_length_pos (show 0 < nal.length by omega)
  -- the unit is what the pointer reaches within its size
  let unit : NalUnit := ⟨header, rest.take (size - 1)⟩
  have body : unit.body ++ rest.drop (size - 1) = rest := List.take_append_drop _ rest
  have count : unit.body.length = size - 1 := by
    rw [List.length_cons] at enough
    exact List.length_take_of_le (by omega)
  obtain ⟨emptied, flushed⟩ := flush_waiting held next
  unfold sendFragmented
  dsimp only at emptied flushed ⊢
  generalize (if ctx.bufPtr > 0 then rtpSendData ctx (ctx.buf.read 0 ctx.bufPtr) 0 else .quiet ctx) = front
    at emptied flushed ⊢
  obtain ⟨⟨reset, kept⟩, payloads⟩ := fuLoop_unit front.state unit (rest.drop (size - 1)) last
  rw [body, count] at reset kept payloads
  refine ⟨[], .empty (fun zero => emptied.aggregating (kept.symm.trans zero)) reset, ?_⟩
  have numbers := run_number_unit unit (next + units.length)
  rw [← payloads] at numbers
  rw [Traced.follow_events, List.map_append, run_append, flushed]
  have whole := congrArg (fun later : Traced Nat Nat =>
    (⟨later.state, List.range' next units.length ++ later.events⟩ : Traced Nat Nat)) numbers
  refine Eq.subst (motive := Outcome units _ last next []) whole.symm ?_
  exact .emptied _ (List.length_pos_iff.mpr (pieces_ne_nil _)) (.inr longer)

/-- Every call of rtpSendNAL, with aggregation on, for whatever the splitter hands over. -/
theorem rtpSendNAL_sends {ctx : RTPMuxContext} {units : List (List UInt8)} (held : Holds ctx units)
    {nal : List UInt8} {size : Nat} (enough : size ≤ nal.length) (last : Int) (next : Nat) :
    Sends units (nal.take size) last next (rtpSendNAL ctx nal size last) := by
  unfold rtpSendNAL
  by_cases small : size ≤ rtpPayloadMax
  · rw [if_pos small, if_pos held.aggregating]
    exact sendAggregated_sends held enough small last next
  · rw [if_neg small]
    exact sendFragmented_sends held enough small last next

end H264Streaming.RtpSend
