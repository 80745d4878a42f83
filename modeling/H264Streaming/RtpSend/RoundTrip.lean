import H264Streaming.RtpSend.Aggregation

/-! A receiver recovers every unit, in order, whatever mix of sizes was sent. -/

set_option autoImplicit false

namespace H264Streaming.RtpSend

open H264Streaming.Bytes H264Streaming.Semantics H264Streaming.Format

def flagged : List NalUnit → List (NalUnit × Int)
  | [] => []
  | [unit] => [(unit, 1)]
  | unit :: rest => (unit, 0) :: flagged rest

theorem flagged_snoc (front : List NalUnit) (final : NalUnit) :
    flagged (front ++ [final]) = front.map (·, 0) ++ [(final, 1)] := by
  induction front with
  | nil => rfl
  | cons unit rest ih =>
      have more : flagged (unit :: (rest ++ [final])) = (unit, 0) :: flagged (rest ++ [final]) := by
        cases rest <;> rfl
      rw [List.cons_append, more, ih]
      rfl

theorem unitType_mergeHeader (header next : UInt8) : unitType (mergeHeader header next) = unitType header := by
  have split (a b : UInt8) : unitType (a ||| b) = unitType a ||| unitType b :=
    UInt8.toBitVec_inj.mp BitVec.and_or_distrib_right
  have kept : unitType (header &&& 0x9F) = unitType header := by
    revert header
    exact forall_octet (by decide +kernel)
  have quiet : unitType (nri next) = 0 ∧ unitType (forbiddenBit next) = 0 := by
    revert next
    exact forall_octet (by decide +kernel)
  unfold mergeHeader
  rw [split, quiet.2, UInt8.or_zero]
  split
  · rw [split, kept, quiet.1, UInt8.or_zero]
  · rfl

theorem unitType_stapHeader (units : List NalUnit) : unitType (stapHeader units) = 24 := by
  induction units using List.reverseRecOn with
  | nil => rfl
  | append_singleton front unit ih => rw [stapHeader_snoc, unitType_mergeHeader, ih]

def Small (waiting : List NalUnit) : Prop := ∀ unit ∈ waiting, unit.bytes.length ≤ rtpPayloadMax

theorem Small.nil : Small [] := fun _ member => absurd member List.not_mem_nil

theorem Small.snoc {waiting : List NalUnit} (small : Small waiting) {unit : NalUnit}
    (fits : unit.bytes.length ≤ rtpPayloadMax) : Small (waiting ++ [unit]) := by
  intro other member
  rcases List.mem_append.mp member with earlier | new
  · exact small other earlier
  · rw [List.mem_singleton.mp new]
    exact fits

theorem reads_aggregate {waiting : List NalUnit} (small : Small waiting) :
    Reads [aggregate waiting] (waiting.map NalUnit.bytes) := by
  cases waiting with
  | nil => rfl
  | cons unit rest =>
      have sized : ∀ bytes ∈ (unit :: rest).map NalUnit.bytes, bytes.length < 65536 := by
        intro bytes member
        obtain ⟨other, waits, rfl⟩ := List.mem_map.mp member
        exact Nat.lt_of_le_of_lt (small other waits) (by decide)
      simp only [Reads, run_cons, aggregate, entries,
        depacketize_aggregate _ _ _ (unitType_stapHeader _) sized]
      simp [Traced.follow]

theorem reads_large (unit : NalUnit) (clear : forbiddenBit unit.header = 0)
    (large : ¬ unit.bytes.length ≤ rtpPayloadMax) :
    Reads (fragments (28 ||| nri unit.header) (unitType unit.header) true (pieces unit.body)) [unit.bytes] := by
  have header : unitType (28 ||| nri unit.header) = 28 ∧ nri (28 ||| nri unit.header) = nri unit.header := by
    generalize unit.header = octet
    revert octet
    exact forall_octet (by decide +kernel)
  obtain ⟨fuA, kept⟩ := header
  obtain ⟨first, second, rest, cut⟩ := pieces_large unit.body (by
    rw [NalUnit.length_bytes] at large
    omega)
  have whole := flatten_pieces unit.body
  rw [cut] at whole
  have reads := reads_fragments (28 ||| nri unit.header) (unitType unit.header) first second rest fuA
    (unitType_unitType unit.header)
  rw [whole, kept, nri_or_unitType unit.header clear, ← cut] at reads
  exact reads

/-- One unit: what is read out of its payloads, followed by what waits after it,
is what waited before it followed by the unit. -/
theorem plan_carries (unit : NalUnit) (last : Int) {waiting : List NalUnit} (small : Small waiting)
    (clear : forbiddenBit unit.header = 0) :
    Small (plan (unit, last) waiting).state ∧ ∃ units, Reads (plan (unit, last) waiting).events units ∧
      units ++ (plan (unit, last) waiting).state.map NalUnit.bytes =
        waiting.map NalUnit.bytes ++ [unit.bytes] := by
  by_cases fits : unit.bytes.length ≤ rtpPayloadMax
  · have stored : ∀ others : List NalUnit, Small others →
        let finished : Traced (List NalUnit) (List UInt8) :=
          if last = 1 then ⟨[], [aggregate (others ++ [unit])]⟩ else .quiet (others ++ [unit])
        Small finished.state ∧ ∃ units, Reads finished.events units ∧
          units ++ finished.state.map NalUnit.bytes = others.map NalUnit.bytes ++ [unit.bytes] := by
      intro others smallOthers
      have joined := smallOthers.snoc fits
      by_cases final : last = 1
      · simp only [if_pos final]
        exact ⟨.nil, _, reads_aggregate joined, by simp⟩
      · simp only [if_neg final]
        exact ⟨joined, [], Reads.nil, by simp⟩
    -- a full buffer is flushed first, and the unit starts the next aggregate
    by_cases full : (aggregate waiting).length + 2 + unit.bytes.length > rtpPayloadMax
    · obtain ⟨kept, units, reads, same⟩ := stored [] .nil
      simp only [plan, if_pos fits, if_pos full, Traced.follow_state, Traced.follow_events]
      refine ⟨kept, _, (reads_aggregate small).append reads, ?_⟩
      rw [List.append_assoc, same, List.map_nil, List.nil_append]
    · simpa only [plan, if_pos fits, if_neg full, Traced.quiet_follow] using stored waiting small
  · simp only [plan, if_neg fits]
    refine ⟨.nil, ?_⟩
    have sent := reads_large unit clear fits
    cases waiting with
    | nil => exact ⟨_, sent, by simp⟩
    | cons other rest => exact ⟨_, (reads_aggregate small).append sent, by simp⟩

theorem plan_last (unit : NalUnit) (waiting : List NalUnit) : (plan (unit, 1) waiting).state = [] := by
  unfold plan
  split
  · simp
  · rfl

def Carries (done : List (NalUnit × Int)) (waiting : List NalUnit) (payloads : List (List UInt8)) : Prop :=
  Small waiting ∧ ∃ units, Reads payloads units ∧
    units ++ waiting.map NalUnit.bytes = done.map fun input => input.1.bytes

theorem run_plan_carries (inputs : List (NalUnit × Int))
    (clear : ∀ input ∈ inputs, forbiddenBit input.1.header = 0) :
    Carries inputs (run plan inputs []).state (run plan inputs []).events := by
  apply run_history (P := Carries)
  · rintro done ⟨unit, last⟩ member waiting payloads ⟨small, units, reads, carried⟩
    obtain ⟨kept, more, readsMore, same⟩ := plan_carries unit last small (clear (unit, last) member)
    refine ⟨kept, units ++ more, reads.append readsMore, ?_⟩
    rw [List.append_assoc, same, ← List.append_assoc, carried]
    simp
  · exact ⟨.nil, [], .nil, rfl⟩

/-- h264RtpSend round trip: the payloads of a run that ends with a last unit carry exactly its units. -/
theorem rtpSendNAL_round_trip (ctx : RTPMuxContext) (units : List NalUnit) (nonempty : units ≠ [])
    (clear : ∀ unit ∈ units, forbiddenBit unit.header = 0) :
    depacketized ((sendUnits (flagged units) (initRTPMuxContext ctx)).events.map Packet.payload) =
      units.map NalUnit.bytes := by
  obtain ⟨front, final, same⟩ := (List.eq_nil_or_concat units).resolve_left nonempty
  rw [List.concat_eq_append] at same
  subst same
  have initial : Buffers (initRTPMuxContext ctx) [] := .empty Int.one_ne_zero rfl
  have clearInputs : ∀ input ∈ flagged (front ++ [final]), forbiddenBit input.1.header = 0 := by
    intro input member
    apply clear
    rw [flagged_snoc] at member
    rcases List.mem_append.mp member with early | late
    · obtain ⟨unit, within, rfl⟩ := List.mem_map.mp early
      exact List.mem_append_left _ within
    · rw [List.mem_singleton.mp late]
      exact List.mem_append_right _ (List.mem_singleton_self final)
  obtain ⟨-, sent, reads, carried⟩ := run_plan_carries _ clearInputs
  -- the flag of the last unit empties the buffer
  have flushed : (run plan (flagged (front ++ [final])) []).state = [] := by
    rw [flagged_snoc, run_snoc]
    exact plan_last final _
  rw [(sendUnits_refines initial _).2, reads.depacketized]
  rw [flushed, List.map_nil, List.append_nil] at carried
  rw [carried, flagged_snoc]
  simp

theorem rtpSendNAL_round_trip_slices :
    depacketized ((sendUnits (flagged [⟨0x67, [0x42]⟩, ⟨0x65, List.replicate 5000 0x88⟩])
      (initRTPMuxContext blankContext)).events.map Packet.payload) =
        [[0x67, 0x42], 0x65 :: List.replicate 5000 0x88] :=
  rtpSendNAL_round_trip blankContext _ (List.cons_ne_nil _ _) (by
    intro unit member
    rcases List.mem_pair.mp member with rfl | rfl <;> rfl)

end H264Streaming.RtpSend
