import H264Streaming.RtpSend.RoundTrip
import H264Streaming.RtpSend.Splitting
import H264Streaming.RtpSend.Timing

/-! A file of units through rtpSendH264HEVC: the splitter hands over the units of the file,
and rtpSendNAL carries out the plan for them. -/

set_option autoImplicit false

namespace H264Streaming.RtpSend

open H264Streaming.Bytes H264Streaming.Format H264Streaming.Semantics

/-! ### The units that are handed over -/

def calls (units : List NalUnit) : List (List UInt8 × Int) := (flagged units).map fun input => (input.1.bytes, input.2)

theorem Carves.starts {octets : List UInt8} {sent : List (List UInt8 × Int)} (carves : Carves octets sent) :
    ∃ code rest, StartCode code ∧ octets = code ++ rest := by
  cases carves with
  | last isCode => exact ⟨_, _, isCode, rfl⟩
  | more isCode => exact ⟨_, _, isCode, List.append_assoc _ _ _⟩

theorem code_inside {octets front code behind : List UInt8} (isCode : StartCode code) (some_octet : behind ≠ [])
    (same : octets = front ++ (code ++ behind)) : [0, 0, 1] <:+: octets.dropLast := by
  have inside : octets.dropLast = front ++ (code ++ behind.dropLast) := by
    rw [same, ← List.append_assoc, ← List.append_assoc, List.dropLast_append_of_ne_nil some_octet]
  obtain ⟨before, rfl⟩ := isCode.facts.2.2.2
  exact ⟨front ++ before, behind.dropLast, by rw [inside]; simp⟩

theorem code_within {octets front code behind : List UInt8} (isCode : StartCode code)
    (same : octets = front ++ (code ++ behind)) : [0, 0, 1] <:+: octets := by
  obtain ⟨before, rfl⟩ := isCode.facts.2.2.2
  exact ⟨front ++ before, behind, by rw [same]; simp⟩

theorem Carves.calls {octets : List UInt8} {sent : List (List UInt8 × Int)} (carves : Carves octets sent)
    {code : List UInt8} (isCode : StartCode code) {unit : NalUnit} {rest : List CodedUnit}
    (escaped : Escaped unit.bytes) (others : ∀ coded ∈ rest, Escaped coded.unit.bytes)
    (same : octets = code ++ (unit.bytes ++ annexB rest)) : sent = RtpSend.calls (unit :: rest.map CodedUnit.unit) := by
  induction carves generalizing code unit rest with
  | @last own octets isOwn _ clean =>
      obtain ⟨-, rfl⟩ := isOwn.unique isCode same
      cases rest with
      | nil =>
          rw [annexB, stream_nil, List.append_nil]
          rfl
      | cons next later =>
          rw [annexB_cons] at clean
          exact absurd (code_inside next.isCode (List.cons_ne_nil _ _) rfl) clean
  | @more own octets left sent isOwn clean apart carves ih =>
      rw [List.append_assoc] at same
      obtain ⟨-, behind⟩ := isOwn.unique isCode same
      obtain ⟨following, tail, isFollowing, rfl⟩ := carves.starts
      cases rest with
      | nil =>
          rw [annexB, stream_nil, List.append_nil] at behind
          exact absurd (code_within isFollowing behind.symm) escaped.noCode
      | cons next later =>
          obtain ⟨own, others⟩ := List.forall_mem_cons.mp others
          rw [annexB_cons] at behind
          obtain ⟨ends, rfl⟩ := isFollowing.meet next.isCode behind clean escaped.noCode
          have zero (short : following = [0, 0, 1]) : octets.getLast? ≠ some 0 :=
            apart (short ▸ List.prefix_append _ _)
          obtain ⟨rfl, -⟩ := isFollowing.in_front next.isCode ends escaped.last zero
          rw [ih isFollowing own others rfl]
          rfl

theorem Coded.found {buf : List UInt8} {start out : Nat} (coded : Coded buf 0 start)
    (found : Found (buf[·]?) 0 buf.length out) : out = 0 := by
  have passed := found.passed
  cases coded with
  | short code room =>
      by_contra later
      exact passed 0 (Nat.le_refl 0) (Nat.pos_of_ne_zero later) ⟨room, code⟩
  | long zero code room =>
      have early : out ≤ 1 := Nat.le_of_not_lt fun later => passed 1 (Nat.zero_le 1) later ⟨room, code⟩
      cases found with
      | nowhere => omega
      | short _ nonzero =>
          by_contra later
          obtain rfl : out = 1 := by omega
          exact nonzero Nat.one_pos zero
      | long first =>
          have before : out + 1 ≤ 1 := Nat.le_of_not_lt fun later => first.2.2 1 (Nat.zero_le 1) later ⟨room, code⟩
          omega

theorem coded_annexB (first : CodedUnit) (rest : List CodedUnit) : ∃ start, Coded (annexB (first :: rest)) 0 start := by
  obtain ⟨long, unit⟩ := first
  rw [annexB_cons, NalUnit.bytes]
  cases long with
  | true => exact ⟨_, .long rfl ⟨rfl, rfl, rfl⟩ (by simp [CodedUnit.code])⟩
  | false => exact ⟨_, .short ⟨rfl, rfl, rfl⟩ (by simp [CodedUnit.code])⟩

theorem split_annexB (base : Nat) {coded : List CodedUnit} (escaped : ∀ unit ∈ coded, Escaped unit.unit.bytes) :
    ∃ slices, split base (annexB coded) = some slices ∧
      (∀ slice ∈ slices, slice.start ≤ slice.stop ∧ slice.stop ≤ (annexB coded).length) ∧
      (slices.map fun slice => (slice.unit (annexB coded), slice.last (annexB coded))) =
        calls (coded.map CodedUnit.unit) := by
  obtain ⟨out, slices, -, found, units, shape⟩ := split_cuts base (annexB coded)
  cases coded with
  | nil =>
      obtain ⟨-, rfl⟩ | ⟨before, -⟩ := shape
      · exact ⟨[], units, nofun, rfl⟩
      · exact absurd before (Nat.not_lt_zero out)
  | cons first rest =>
      obtain ⟨own, others⟩ := List.forall_mem_cons.mp escaped
      obtain ⟨start, code⟩ := coded_annexB first rest
      have some_octet := code.bounds
      obtain rfl := code.found found
      obtain ⟨atEnd, -⟩ | ⟨-, cuts⟩ := shape
      · omega
      · obtain ⟨front, final, -, bounded, -, -⟩ := cuts.finds
        have carves := cuts.carves
        rw [List.drop_zero] at carves
        exact ⟨slices, units, bounded, carves.calls first.isCode own others (annexB_cons first rest)⟩

/-! ### What they become -/

structure Gives (buf : List UInt8) (slice : Slice) (input : NalUnit × Int) : Prop where
  bounded : slice.start ≤ slice.stop ∧ slice.stop ≤ buf.length
  unit : slice.unit buf = input.1.bytes
  last : slice.last buf = input.2

theorem Buffers.tick {ctx : RTPMuxContext} {waiting : List NalUnit} (held : Buffers ctx waiting) (timestamp : UInt32) :
    Buffers { ctx with timestamp } waiting :=
  ⟨held.aggregating, held.extent, held.content⟩

theorem sendSlice_refines {ctx : RTPMuxContext} {waiting : List NalUnit} (held : Buffers ctx waiting) {buf : List UInt8}
    {slice : Slice} {input : NalUnit × Int} (gives : Gives buf slice input) :
    Buffers (sendSlice buf slice ctx).state (plan input waiting).state ∧
      (sendSlice buf slice ctx).events.map Packet.payload = (plan input waiting).events := by
  obtain ⟨unit, flag⟩ := input
  obtain ⟨bounded, same, rfl⟩ := gives
  have size : slice.stop - slice.start = unit.bytes.length := by rw [← same, length_unit bounded]
  have octets : buf.drop slice.start = unit.bytes ++ (buf.drop slice.start).drop (slice.stop - slice.start) := by
    rw [← same, Slice.unit, List.take_append_drop]
  obtain ⟨kept, payloads⟩ :=
    rtpSendNAL_refines held unit ((buf.drop slice.start).drop (slice.stop - slice.start)) (slice.last buf)
  rw [← octets, ← size] at kept payloads
  have events : (sendSlice buf slice ctx).events =
      (rtpSendNAL ctx (buf.drop slice.start) (slice.stop - slice.start) (slice.last buf)).events :=
    List.append_nil _
  exact ⟨kept.tick _, by rw [events]; exact payloads⟩

theorem run_sendSlice_refines {buf : List UInt8} {slices : List Slice} {inputs : List (NalUnit × Int)}
    (gives : List.Forall₂ (Gives buf) slices inputs) {ctx : RTPMuxContext} {waiting : List NalUnit}
    (held : Buffers ctx waiting) :
    (run (sendSlice buf) slices ctx).events.map Packet.payload = (run plan inputs waiting).events := by
  induction gives generalizing ctx waiting with
  | nil => rfl
  | cons here _ ih =>
      obtain ⟨kept, payloads⟩ := sendSlice_refines held here
      rw [run_cons, run_cons, Traced.follow_events, Traced.follow_events, List.map_append, payloads, ih kept]

/-- The payloads for a file of units are those that the plan has for the units. -/
theorem rtpSendH264HEVC_annexB (base : Nat) (ctx : RTPMuxContext) {coded : List CodedUnit}
    (escaped : ∀ unit ∈ coded, Escaped unit.unit.bytes) :
    ∃ slices, rtpSendH264HEVC base (annexB coded) (initRTPMuxContext ctx) =
        some (run (sendSlice (annexB coded)) slices (initRTPMuxContext ctx)) ∧
      (run (sendSlice (annexB coded)) slices (initRTPMuxContext ctx)).events.map Packet.payload =
        (run plan (flagged (coded.map CodedUnit.unit)) []).events := by
  obtain ⟨slices, units, bounded, same⟩ := split_annexB base escaped
  have initial : Buffers (initRTPMuxContext ctx) [] := .empty Int.one_ne_zero rfl
  refine ⟨slices, by rw [rtpSendH264HEVC_eq, units, Option.map_some], run_sendSlice_refines ?_ initial⟩
  have alike : List.Forall₂ (fun slice input => (slice.unit (annexB coded), slice.last (annexB coded)) =
      (input.1.bytes, input.2)) slices (flagged (coded.map CodedUnit.unit)) := by
    rw [calls, ← List.forall₂_eq_eq_eq, List.forall₂_map_left_iff, List.forall₂_map_right_iff] at same
    exact same
  refine ((List.forall₂_and_left _ _).mpr ⟨bounded, alike⟩).imp fun slice input both => ?_
  obtain ⟨unit, last⟩ := Prod.mk.inj both.2
  exact ⟨both.1, unit, last⟩

/-! ### Datagrams -/

def Packet.Headed (packet : Packet) : Prop := ∃ header : List UInt8, header.length = 12 ∧ packet.datagram = header ++ packet.payload

def Heads (sent : Traced RTPMuxContext Packet) : Prop := ∀ packet ∈ sent.events, packet.Headed

theorem Heads.quiet (ctx : RTPMuxContext) : Heads (.quiet ctx) := fun _ member => absurd member List.not_mem_nil

theorem Heads.follow {sent : Traced RTPMuxContext Packet} {next : RTPMuxContext → Traced RTPMuxContext Packet}
    (first : Heads sent) (second : Heads (next sent.state)) : Heads (sent.follow next) := by
  intro packet member
  rcases List.mem_append.mp member with early | late
  · exact first packet early
  · exact second packet late

theorem rtpSendData_heads (ctx : RTPMuxContext) (payload : List UInt8) (mark : Int) :
    Heads (rtpSendData ctx payload mark) := by
  intro packet member
  rw [rtpSendData_events] at member
  rw [List.mem_singleton.mp member]
  exact ⟨_, length_rtpHeader _ _ _ _, rfl⟩

theorem sendAggregated_heads (ctx : RTPMuxContext) (nal : List UInt8) (size : Nat) (last : Int) :
    Heads (sendAggregated ctx nal size last) := by
  have stored (ctx : RTPMuxContext) : Heads (if last = 1 then rtpSendData ctx (ctx.buf.read 0 ctx.bufPtr) 1 else .quiet ctx) := by
    split
    · exact rtpSendData_heads _ _ _
    · exact .quiet _
  unfold sendAggregated
  dsimp only
  split
  · exact (rtpSendData_heads ctx _ 0).follow (stored _)
  · rw [Traced.quiet_follow]
    exact stored _

theorem fuLoop_heads (ctx : RTPMuxContext) (nal : List UInt8) (size : Nat) (last : Int) :
    Heads (fuLoop ctx nal size last) := by
  fun_induction fuLoop ctx nal size last with
  | case1 ctx nal size large filled ih => exact (rtpSendData_heads filled _ 0).follow (ih _)
  | case2 ctx nal size small marked filled => exact rtpSendData_heads filled _ last

theorem rtpSendNAL_heads (ctx : RTPMuxContext) (nal : List UInt8) (size : Nat) (last : Int) :
    Heads (rtpSendNAL ctx nal size last) := by
  unfold rtpSendNAL sendFragmented
  split
  · split
    · exact sendAggregated_heads ctx nal size last
    · exact rtpSendData_heads ctx _ last
  · dsimp only
    split
    · exact (rtpSendData_heads ctx _ 0).follow (fuLoop_heads _ _ _ _)
    · rw [Traced.quiet_follow]
      exact fuLoop_heads _ _ _ _

theorem run_sendSlice_heads (buf : List UInt8) (slices : List Slice) (ctx : RTPMuxContext) :
    Heads (run (sendSlice buf) slices ctx) := by
  induction slices generalizing ctx with
  | nil => exact .quiet ctx
  | cons slice rest ih =>
      have here : Heads (sendSlice buf slice ctx) := by
        unfold sendSlice
        exact (rtpSendNAL_heads ctx _ _ _).follow (Heads.quiet _)
      exact here.follow (ih _)

end H264Streaming.RtpSend
