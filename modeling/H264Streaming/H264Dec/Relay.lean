import H264Streaming.H264Dec.Bursts
import H264Streaming.H264Dec.Streamer
import H264Streaming.H264Dec.Writing

/-! From the interleaved stream of a server to the client of streamer_worker: rtsp_loop with its rtp_parse,
which writes to the pipe, and the worker at the other end of it.

What rtp_parse writes and returns depends on the octets of the packet alone, not on the time or on the
statistics; rtcp_decode and the reports write nothing to the pipe.
-/

set_option autoImplicit false

namespace H264Streaming.H264Dec

open H264Streaming.Bytes H264Streaming.Format H264Streaming.Semantics

/-- rtp_parse behind rtsp_loop, at a fixed time; a payload on another channel goes to rtcp_decode. -/
def handle (handed : Handed) (rtpSt : RtpStats) : Option (Traced RtpStats Call) :=
  if 1 ≤ handed.channel then some (.quiet rtpSt)
  else rtpParse ⟨0, 0⟩ ((Buffer.untouched fun _ => 0).write 0 handed.payload) handed.payload.length rtpSt

def rtpReturns (payload : List UInt8) : Int :=
  let ran := rtpParse ⟨0, 0⟩ ((Buffer.untouched fun _ => 0).write 0 payload) payload.length .reset
  ((ran.map fun ran => (ran.events.map Call.returned).sum).getD 0 : Nat)

/-- The octets that the calls for a run hand to streamer_write and streamer_write_nal, call by call. -/
def handedOn (handed : List Handed) : Option (List Write) :=
  (attempt handle handed .reset).map fun ran => ran.events.flatMap Call.writes

/-! ### The stream of a server -/

structure MediaPacket where
  header : List UInt8
  payload : List UInt8
  plain : header.length = 12
  sized : 12 + payload.length < 65536

namespace MediaPacket

variable (packet : MediaPacket)

theorem frame_sized :
    1 ≤ (packet.header ++ packet.payload).length ∧ (packet.header ++ packet.payload).length < 65536 := by
  have sized := packet.sized
  rw [List.length_append, packet.plain]
  omega

def frame : Frame := ⟨0, packet.header ++ packet.payload, packet.frame_sized⟩

theorem arrival_sized : 12 + packet.payload.length < 4294967296 := Nat.lt_trans packet.sized (by decide)

def arrival : Arrival :=
  ⟨.untouched fun _ => 0, ⟨0, 0⟩, packet.header, packet.payload, packet.plain, packet.arrival_sized⟩

end MediaPacket

inductive Item where
  | rtp (packet : MediaPacket)
  | rtcp (frame : Frame) (other : 1 ≤ frame.channel)

def Item.frame : Item → Frame
  | rtp packet => packet.frame
  | rtcp frame _ => frame

def Item.packet : Item → Option MediaPacket
  | rtp packet => some packet
  | rtcp _ _ => none

structure Fragmented where
  unit : NalUnit
  indicator : UInt8
  pieces : List (List UInt8)
  clear : forbiddenBit unit.header = 0
  split : pieces.flatten = unit.body
  several : 2 ≤ pieces.length
  fuA : unitType indicator = 28
  sameNri : nri indicator = nri unit.header

namespace Fragmented

variable (fragmented : Fragmented)

def payloads : List (List UInt8) :=
  fragments fragmented.indicator (unitType fragmented.unit.header) true fragmented.pieces

def coded : CodedUnit := ⟨true, fragmented.unit⟩

theorem some_piece : fragmented.pieces ≠ [] := by
  intro none
  have several := fragmented.several
  rw [none] at several
  exact absurd several (by decide)

theorem forwards_one {packet : MediaPacket} {start final : Bool} {piece : List UInt8}
    (carried : packet.payload =
      fragmented.indicator :: fuHeader start final (unitType fragmented.unit.header) :: piece) :
    Forwards [packet.arrival] ((if start then [0, 0, 0, 1] ++ [fragmented.unit.header] else []) ++ piece) :=
  forwards_fragment packet.arrival fragmented.indicator fragmented.unit.header start final piece fragmented.fuA
    fragmented.sameNri fragmented.clear carried (Nat.le_of_lt_succ packet.sized)

end Fragmented

/-! ### What the calls do -/

theorem Forwards.append {first second : List Arrival} {left right : List UInt8} (here : Forwards first left)
    (later : Forwards second right) : Forwards (first ++ second) (left ++ right) := by
  intro rtpSt
  obtain ⟨wrote, size⟩ := here rtpSt
  obtain ⟨front, ran, streams⟩ := Option.bind_eq_some_iff.mp wrote
  rw [returned, ran, Option.map_some] at size
  obtain ⟨wroteLater, sizeLater⟩ := later front.state
  obtain ⟨behind, ranLater, streamsLater⟩ := Option.bind_eq_some_iff.mp wroteLater
  rw [returned, ranLater, Option.map_some] at sizeLater
  have whole := attempt_append ran ranLater
  constructor
  · rw [written, whole, Option.bind_some, List.flatMap_append]
    exact streamed_append streams streamsLater
  · rw [returned, whole, Option.map_some, List.map_append, List.map_append, Option.some.inj size,
      Option.some.inj sizeLater]

theorem forwards_units {units : List Fragmented} {packets : List MediaPacket}
    (carries : packets.map MediaPacket.payload = units.flatMap Fragmented.payloads) :
    Forwards (packets.map MediaPacket.arrival) (annexB (units.map Fragmented.coded)) := by
  induction units generalizing packets with
  | nil =>
      rw [List.map_eq_nil_iff.mp carries]
      exact fun rtpSt => ⟨rfl, rfl⟩
  | cons fragmented rest ih =>
      rw [List.flatMap_cons] at carries
      obtain ⟨first, later, rfl, here, behind⟩ := List.map_eq_append_iff.mp carries
      have payloads : (first.map MediaPacket.arrival).map Arrival.payload = fragmented.payloads := by
        rw [List.map_map]
        exact here
      have one : ∀ arrival ∈ first.map MediaPacket.arrival, ∀ start final piece,
          arrival.payload = fragmented.indicator :: fuHeader start final (unitType fragmented.unit.header) :: piece →
            Forwards [arrival] ((if start then [0, 0, 0, 1] ++ [fragmented.unit.header] else []) ++ piece) := by
        intro arrival member start final piece carried
        obtain ⟨packet, -, rfl⟩ := List.mem_map.mp member
        exact fragmented.forwards_one carried
      have unit := fragments_forwarded Forwards.cons one fragmented.some_piece payloads
      rw [fragmented.split, if_pos rfl, List.append_assoc] at unit
      rw [List.map_append, List.map_cons, annexB, stream_cons]
      exact unit.append (ih behind)

theorem mem_fragments {indicator type : UInt8} {start : Bool} {pieces : List (List UInt8)} {payload : List UInt8}
    (member : payload ∈ fragments indicator type start pieces) :
    ∃ start final piece, payload = indicator :: fuHeader start final type :: piece := by
  induction pieces generalizing start with
  | nil => cases member
  | cons piece rest ih =>
      by_cases alone : rest = []
      · subst alone
        exact ⟨start, true, piece, List.mem_singleton.mp member⟩
      · rw [fragments_cons _ _ _ _ _ alone] at member
        rcases List.mem_cons.mp member with here | later
        · exact ⟨start, false, piece, here⟩
        · exact ih later

theorem rtpParse_packet (packet : MediaPacket) (rtpSt : RtpStats) :
    rtpParse ⟨0, 0⟩ ((Buffer.untouched fun _ => 0).write 0 (packet.header ++ packet.payload))
      (packet.header ++ packet.payload).length rtpSt = parseArrival packet.arrival rtpSt := by
  rw [List.length_append, packet.plain]
  rfl

theorem returns_packet {packet : MediaPacket} {octets : List UInt8} (forwards : Forwards [packet.arrival] octets) :
    rtpReturns (packet.header ++ packet.payload) = (packet.header ++ packet.payload).length := by
  have size : (packet.header ++ packet.payload).length = packet.arrival.size := by
    rw [List.length_append, packet.plain, Arrival.size]
    rfl
  obtain ⟨ran, through, sizes⟩ := Option.map_eq_some_iff.mp (forwards .reset).2
  obtain ⟨one, later, call, rest, rfl⟩ := attempt_cons_iff.mp through
  cases rest
  have sizes : one.events.map Call.returned = [packet.arrival.size] := by
    rw [Traced.quiet_events, List.append_nil] at sizes
    exact sizes
  have parsed := (rtpParse_packet packet .reset).trans call
  rw [rtpReturns, parsed, Option.map_some, Option.getD_some, sizes, List.sum_singleton, size]

theorem media_channel : ¬ (1 : UInt8) ≤ 0 := by decide

theorem attempt_handle (items : List Item) (rtpSt : RtpStats) :
    attempt handle ((items.map Item.frame).map Frame.handed) rtpSt =
      attempt parseArrival ((items.filterMap Item.packet).map MediaPacket.arrival) rtpSt := by
  induction items generalizing rtpSt with
  | nil => rfl
  | cons item rest ih =>
      cases item with
      | rtp packet =>
          have same : handle packet.frame.handed rtpSt = parseArrival packet.arrival rtpSt :=
            (if_neg media_channel).trans (rtpParse_packet packet rtpSt)
          exact attempt_cons_congr same ih
      | rtcp frame other =>
          have quiet : handle frame.handed rtpSt = some (.quiet rtpSt) := if_pos other
          exact (attempt_cons_quiet quiet).trans (ih rtpSt)

theorem octets_of_streamed {writes : List Write} {octets : List UInt8} (streams : streamed writes = some octets) :
    ∃ parts : List (List UInt8), writes = parts.map Write.octets ∧ parts.flatten = octets := by
  induction writes generalizing octets with
  | nil =>
      cases streams
      exact ⟨[], rfl, rfl⟩
  | cons write rest ih =>
      cases write with
      | beyond offset count => cases streams
      | octets bytes =>
          obtain ⟨tail, later, rfl⟩ := Option.map_eq_some_iff.mp streams
          obtain ⟨parts, same, joined⟩ := ih later
          exact ⟨bytes :: parts, by rw [same, List.map_cons], by rw [List.flatten_cons, joined]⟩

/-! ### The relay -/

/-- A session of any length: frames that come in bursts, the media in them units sent in fragments. -/
structure Session where
  bursts : List Burst
  items : List Item
  units : List Fragmented
  frames : bursts.flatMap Burst.frames = items.map Item.frame
  carries : (items.filterMap Item.packet).map MediaPacket.payload = units.flatMap Fragmented.payloads

namespace Session

variable (session : Session)

def received (memory : Nat → UInt8) : List Handed :=
  (run (step rtpReturns) (session.bursts.flatMap Burst.chunks) (.start memory)).events

theorem moves : ∀ frame ∈ session.bursts.flatMap Burst.frames,
    consumed rtpReturns frame.channel frame.payload = frame.payload.length := by
  rw [session.frames]
  intro frame member
  obtain ⟨item, among, rfl⟩ := List.mem_map.mp member
  cases item with
  | rtcp frame other => exact if_pos other
  | rtp packet =>
      have carried : packet.payload ∈ session.units.flatMap Fragmented.payloads := by
        rw [← session.carries]
        exact List.mem_map_of_mem (List.mem_filterMap.mpr ⟨.rtp packet, among, rfl⟩)
      obtain ⟨fragmented, -, fragment⟩ := List.mem_flatMap.mp carried
      obtain ⟨start, final, piece, same⟩ := mem_fragments fragment
      have returns := returns_packet (fragmented.forwards_one same)
      have filled : ¬ rtpReturns (packet.header ++ packet.payload) ≤ 0 := by
        have sized := packet.frame_sized.1
        omega
      show consumed rtpReturns 0 (packet.header ++ packet.payload) = (packet.header ++ packet.payload).length
      rw [consumed, if_neg media_channel, if_neg filled, returns, Int.toNat_natCast]

theorem handedOn_received (memory : Nat → UInt8) :
    ∃ parts : List (List UInt8), handedOn (session.received memory) = some (parts.map Write.octets) ∧
      parts.flatten = annexB (session.units.map Fragmented.coded) := by
  obtain ⟨wrote, -⟩ := forwards_units session.carries .reset
  obtain ⟨ran, through, streams⟩ := Option.bind_eq_some_iff.mp wrote
  obtain ⟨parts, same, joined⟩ := octets_of_streamed streams
  refine ⟨parts, ?_, joined⟩
  rw [handedOn, received, run_bursts session.moves (drained_start memory), session.frames, attempt_handle, through,
    Option.map_some, same]

end Session

theorem flatten_prefix {first second : List (List UInt8)} (initial : first <+: second) :
    first.flatten <+: second.flatten := by
  obtain ⟨rest, rfl⟩ := initial
  rw [List.flatten_append]
  exact List.prefix_append _ _

def slicedSession : Session :=
  let first : MediaPacket := ⟨List.replicate 12 0x80, [0x7C, 0x85, 1, 2], by decide, by decide⟩
  let second : MediaPacket := ⟨List.replicate 12 0x80, [0x7C, 0x45, 3], by decide, by decide⟩
  let frames := [first.frame, report, second.frame]
  let octets := stream Frame.bytes frames
  { bursts := [{
      frames
      chunks := [octets.take 2, (octets.drop 2).take 30, octets.drop 32]
      filled := by decide +kernel
      cutting := by decide +kernel
      fits := by decide +kernel
      uncut := by
        rintro front - ⟨before, frame, after, split, long, -⟩
        have short : ∀ frame ∈ frames, frame.payload.length < 256 := by decide +kernel
        have member : frame ∈ frames := split ▸ List.mem_append_right before List.mem_cons_self
        exact absurd long (Nat.not_le_of_lt (short frame member)) }]
    items := [.rtp first, .rtcp report (by decide), .rtp second]
    units := [⟨⟨0x65, [1, 2, 3]⟩, 0x7C, [[1, 2], [3]], by decide, by decide, by decide, by decide, by decide⟩]
    frames := rfl
    carries := by decide +kernel }

end H264Streaming.H264Dec
