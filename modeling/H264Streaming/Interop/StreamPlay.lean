import H264Streaming.Interop.Playing
import H264Streaming.RtpSend.Safety
import H264Streaming.RtpSend.Units

/-! A file sent by h264RtpSend and played by rtsp_client, over a network that neither loses nor reorders
a datagram. The player has no use for an aggregate, and whatever fits in a packet leaves in one. -/

set_option autoImplicit false

namespace H264Streaming.Interop

open H264Streaming.Bytes H264Streaming.Format H264Streaming.Semantics H264Streaming.RtpSend
open H264Streaming.RtspClient (Delivery Writes handleRtpMsg startCode)

/-! ### Payloads -/

def Shows (payloads : List (List UInt8)) (octets : List UInt8) : Prop :=
  ∀ deliveries : List Delivery, deliveries.map Delivery.payload = payloads → Writes deliveries octets

theorem Shows.nil : Shows [] [] := by
  intro deliveries same
  rw [List.map_eq_nil_iff.mp same]
  exact .nil

theorem Shows.append {first second : List (List UInt8)} {left right : List UInt8} (front : Shows first left)
    (back : Shows second right) : Shows (first ++ second) (left ++ right) := by
  intro deliveries same
  obtain ⟨early, late, rfl, carried, others⟩ := List.map_eq_append_iff.mp same
  exact (front early carried).append (back late others)

private theorem other_bits (header : UInt8) :
    unitType header = 24 → ¬ getBits header 0 5 < 24 ∧ ¬ getBits header 0 5 = 28 := by
  revert header
  exact forall_octet (by decide +kernel)

theorem shows_other {header : UInt8} (rest : List UInt8) (typed : unitType header = 24) : Shows [header :: rest] [] := by
  intro deliveries same
  obtain ⟨delivery, rfl, carried⟩ := List.map_eq_singleton_iff.mp same
  have bits := other_bits header typed
  have stored := delivery.read_payload
  rw [carried, List.length_cons, Buffer.read_succ] at stored
  obtain ⟨octet, -⟩ := List.cons.inj stored
  refine ⟨[], ?_, rfl⟩
  rw [List.flatMap_singleton]
  simp only [Delivery.handled, handleRtpMsg, carried, octet, if_neg bits.1, if_neg bits.2]
  rfl

theorem shows_aggregate {waiting : List NalUnit} (some_unit : waiting ≠ []) : Shows [aggregate waiting] [] := by
  obtain ⟨unit, rest, rfl⟩ := List.exists_cons_of_ne_nil some_unit
  exact shows_other _ (unitType_stapHeader _)

/-- The unit without its forbidden bit, which the indicator of its fragments lacks. -/
def cleared (unit : NalUnit) : NalUnit := ⟨unit.header &&& 0x7F, unit.body⟩

private theorem indicator_bits (header : UInt8) :
    28 ||| nri header = ((header &&& 0x7F) &&& 0xE0) ||| 28 ∧ unitType header = unitType (header &&& 0x7F) := by
  revert header
  exact forall_octet (by decide +kernel)

theorem shows_fragments (unit : NalUnit) (large : ¬ unit.bytes.length ≤ rtpPayloadMax) :
    Shows (fragments (28 ||| nri unit.header) (unitType unit.header) true (RtpSend.pieces unit.body))
      (startCode ++ (cleared unit).bytes) := by
  obtain ⟨indicator, type⟩ := indicator_bits unit.header
  obtain ⟨first, second, rest, cut⟩ := pieces_large unit.body (by
    rw [NalUnit.length_bytes] at large
    omega)
  intro deliveries same
  rw [indicator, type] at same
  have several : 2 ≤ (RtpSend.pieces unit.body).length := by
    rw [cut]
    exact Nat.le_add_left 2 _
  have carried : RtspClient.Carries (cleared unit) _ := .fragmented _ several (flatten_pieces unit.body)
  exact carried.writes same

/-! ### Units -/

def large (units : List NalUnit) : List NalUnit :=
  (units.filter fun unit => rtpPayloadMax < unit.bytes.length).map cleared

theorem large_singleton (unit : NalUnit) :
    large [unit] = if rtpPayloadMax < unit.bytes.length then [cleared unit] else [] := by
  simp only [large, List.filter_cons, List.filter_nil, decide_eq_true_eq]
  split <;> rfl

theorem plan_shows (input : NalUnit × Int) (roomy : ¬ Cramped input.1.bytes.length) (waiting : List NalUnit) :
    Shows (plan input waiting).events (copied (large [input.1])) := by
  obtain ⟨unit, last⟩ := input
  unfold plan
  by_cases fits : unit.bytes.length ≤ rtpPayloadMax
  · have none : large [unit] = [] := by rw [large_singleton, if_neg (Nat.not_lt.mpr fits)]
    have stored (others : List NalUnit) :
        Shows (if last = 1 then (⟨[], [aggregate (others ++ [unit])]⟩ : Traced (List NalUnit) (List UInt8))
          else .quiet (others ++ [unit])).events [] := by
      split
      · exact shows_aggregate (by simp)
      · exact .nil
    rw [none]
    simp only [if_pos fits]
    split
    · next full =>
      -- an empty buffer leaves the unit room
      have waits : waiting ≠ [] := by
        rintro rfl
        simp only [Cramped, aggregate, List.length_nil] at roomy full
        omega
      exact (shows_aggregate waits).append (stored [])
    · rw [Traced.quiet_follow]
      exact stored waiting
  · have kept : large [unit] = [cleared unit] := by rw [large_singleton, if_pos (Nat.lt_of_not_le fits)]
    have flushed : Shows (if waiting = [] then [] else [aggregate waiting]) [] := by
      split
      · exact .nil
      · next waits => exact shows_aggregate waits
    simp only [kept, if_neg fits]
    have written := flushed.append (shows_fragments unit fits)
    simpa [copied] using written

theorem run_plan_shows (inputs : List (NalUnit × Int)) (roomy : ∀ input ∈ inputs, ¬ Cramped input.1.bytes.length)
    (waiting : List NalUnit) : Shows (run plan inputs waiting).events (copied (large (inputs.map Prod.fst))) := by
  induction inputs generalizing waiting with
  | nil => exact .nil
  | cons input rest ih =>
      obtain ⟨here, others⟩ := List.forall_mem_cons.mp roomy
      have split : copied (large ((input :: rest).map Prod.fst)) =
          copied (large [input.1]) ++ copied (large (rest.map Prod.fst)) := by
        rw [List.map_cons, ← List.singleton_append, large, List.filter_append, List.map_append, copied,
          List.flatMap_append]
        rfl
      rw [run_cons, Traced.follow_events, split]
      exact (plan_shows input here waiting).append (ih others _)

theorem units_flagged (units : List NalUnit) : (flagged units).map Prod.fst = units := by
  induction units with
  | nil => rfl
  | cons unit rest ih =>
      cases rest with
      | nil => rfl
      | cons next later => exact congrArg (unit :: ·) ih

/-- Sent and played, a file keeps its units of more than 1400 octets, and none of the others. -/
theorem plays_large (base : Nat) (ctx : RTPMuxContext) (coded : List CodedUnit)
    (escaped : ∀ unit ∈ coded, Escaped unit.unit.bytes)
    (roomy : ∀ unit ∈ coded, ¬ (1398 ≤ unit.unit.bytes.length ∧ unit.unit.bytes.length ≤ 1400)) :
    ∃ sent, rtpSendH264HEVC base (annexB coded) (initRTPMuxContext ctx) = some sent ∧
      Plays (sent.events.map Packet.datagram) (copied (large (coded.map CodedUnit.unit))) := by
  obtain ⟨slices, sent, payloads⟩ := rtpSendH264HEVC_annexB base ctx escaped
  refine ⟨_, sent, ?_⟩
  have heads := run_sendSlice_heads (annexB coded) slices (initRTPMuxContext ctx)
  generalize run (sendSlice (annexB coded)) slices (initRTPMuxContext ctx) = sent at payloads heads ⊢
  have spared : ∀ input ∈ flagged (coded.map CodedUnit.unit), ¬ Cramped input.1.bytes.length := by
    intro input member cramped
    have among := List.mem_map_of_mem (f := Prod.fst) member
    rw [units_flagged] at among
    obtain ⟨unit, within, same⟩ := List.mem_map.mp among
    obtain ⟨above, below⟩ := cramped
    simp only [rtpPayloadMax] at above below
    exact roomy unit within ⟨by rw [same]; omega, by rw [same]; exact below⟩
  have shows := run_plan_shows _ spared []
  rw [units_flagged, ← payloads] at shows
  have behind : (sent.events.map Packet.datagram).map (·.drop 12) = sent.events.map Packet.payload := by
    rw [List.map_map]
    refine List.map_congr_left fun packet member => ?_
    obtain ⟨header, plain, whole⟩ := heads packet member
    rw [Function.comp_apply, whole, List.drop_left' plain]
  refine plays_of_writes ?_ fun deliveries same => shows deliveries (same.trans behind)
  intro datagram member
  obtain ⟨packet, among, rfl⟩ := List.mem_map.mp member
  obtain ⟨header, plain, whole⟩ := heads packet among
  rw [whole, List.length_append, plain]
  exact Nat.le_add_right 12 _

theorem plays_large_slice :
    ∃ sent, rtpSendH264HEVC 1 (annexB [⟨true, ⟨0x67, [0x42]⟩⟩, ⟨false, ⟨0xE5, List.replicate 1500 0x88⟩⟩])
        (initRTPMuxContext blankContext) = some sent ∧
      Plays (sent.events.map Packet.datagram) ([0, 0, 0, 1, 0x65] ++ List.replicate 1500 0x88) := by
  have length : (List.replicate 1500 (0x88 : UInt8)).length = 1500 := List.length_replicate
  have octets : ∀ octet ∈ List.replicate 1500 (0x88 : UInt8), octet ≠ 0 := by
    intro octet member
    rw [List.eq_of_mem_replicate member]
    decide
  generalize List.replicate 1500 (0x88 : UInt8) = body at length octets ⊢
  let coded : List CodedUnit := [⟨true, ⟨0x67, [0x42]⟩⟩, ⟨false, ⟨0xE5, body⟩⟩]
  have sizes : ∀ unit ∈ coded, unit.unit.bytes.length = 2 ∨ unit.unit.bytes.length = 1501 := by
    simp [coded, length]
  have nonzero : ∀ unit ∈ coded, 0 ∉ unit.unit.bytes := by
    simp only [coded, List.forall_mem_cons]
    refine ⟨by decide, fun zero => ?_, nofun⟩
    rcases List.mem_cons.mp zero with header | within
    · cases header
    · exact octets 0 within rfl
  have escaped : ∀ unit ∈ coded, Escaped unit.unit.bytes := by
    intro unit member
    have absent (octet : UInt8) : ¬ [0, 0, octet] <:+: unit.unit.bytes := fun code =>
      nonzero unit member (code.subset List.mem_cons_self)
    exact ⟨absent 0, absent 1, fun last => nonzero unit member (List.mem_of_getLast? last)⟩
  obtain ⟨sent, ran, played⟩ := plays_large 1 blankContext coded escaped fun unit member => by
    have size := sizes unit member
    omega
  have kept : copied (large (coded.map CodedUnit.unit)) = [0, 0, 0, 1, 0x65] ++ body := by
    have bits : (0xE5 : UInt8) &&& 0x7F = 0x65 := by decide
    simp [coded, copied, large, cleared, rtpPayloadMax, startCode, NalUnit.bytes, length, bits]
  exact ⟨sent, ran, kept ▸ played⟩

end H264Streaming.Interop
