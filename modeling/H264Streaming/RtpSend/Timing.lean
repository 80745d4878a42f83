import H264Streaming.RtpSend.Carrying
import H264Streaming.RtpSend.Stream

/-! Timestamps of the packets and of the units they carry.

A packet has the time of the call that sends it. A unit that waits in the buffer
leaves in a later call, so its time is right only if it never waits. -/

set_option autoImplicit false

namespace H264Streaming.RtpSend

open H264Streaming.Bytes H264Streaming.Format H264Streaming.Semantics

/-! ### The times of units -/

def stamps (packet : Packet) (next : Nat) : Traced Nat (Nat × Nat) :=
  ⟨(number packet.payload next).state,
    (number packet.payload next).events.map fun unit => (unit, timestamp packet.datagram)⟩

theorem run_stamps {packets : List Packet} {time : Nat}
    (stamped : ∀ packet ∈ packets, timestamp packet.datagram = time) (next : Nat) :
    run stamps packets next =
      ⟨(run number (packets.map Packet.payload) next).state,
        (run number (packets.map Packet.payload) next).events.map (·, time)⟩ := by
  induction packets generalizing next with
  | nil => rfl
  | cons packet rest ih =>
      have here := stamped packet List.mem_cons_self
      have later := ih fun other member => stamped other (List.mem_cons_of_mem packet member)
      simp only [run_cons, List.map_cons, Traced.follow, stamps, here, later, List.map_append]

def due (t0 : UInt32) (i : Nat) : Nat := (t0.toNat + 3600 * i) % 4294967296

def Timely (t0 : UInt32) (packets : List Packet) : Prop :=
  ∀ stamp ∈ (run stamps packets 0).events, stamp.2 = due t0 stamp.1

theorem due_succ (t0 : UInt32) (i : Nat) : due t0 (i + 1) ≠ due t0 i := by
  unfold due
  omega

/-- Between two calls: these units wait, the receiver has completed those before
them, and the clock stands at the next unit. -/
structure Position (t0 : UInt32) (ctx : RTPMuxContext) (units : List (List UInt8)) (next : Nat) : Prop where
  held : Holds ctx units
  clock : ctx.timestamp.toNat = due t0 (next + units.length)

section
variable {t0 : UInt32} {buf : List UInt8} {slice : Slice} {ctx : RTPMuxContext} {units : List (List UInt8)}
  {next : Nat}

theorem Position.step (position : Position t0 ctx units next)
    (inside : slice.start ≤ slice.stop ∧ slice.stop ≤ buf.length) :
    ∃ kept numbers, Outcome units (slice.unit buf) (slice.last buf) next kept numbers ∧
      Position t0 (sendSlice buf slice ctx).state kept numbers.state ∧
      run stamps (sendSlice buf slice ctx).events next =
        ⟨numbers.state, numbers.events.map (·, due t0 (next + units.length))⟩ := by
  have enough : slice.stop - slice.start ≤ (buf.drop slice.start).length := by
    rw [List.length_drop]
    omega
  obtain ⟨kept, holds, outcome⟩ := rtpSendNAL_sends position.held enough (slice.last buf) next
  obtain ⟨-, time, stamped⟩ := rtpSendNAL_keeps ctx (buf.drop slice.start) (slice.stop - slice.start) (slice.last buf)
  refine ⟨kept, _, outcome, ⟨holds.tick _, ?_⟩, ?_⟩
  · have ticked : (sendSlice buf slice ctx).state.timestamp = ctx.timestamp + 3600 := congrArg (· + 3600) time
    rw [ticked, outcome.advances, UInt32.toNat_add, position.clock]
    unfold due
    simp only [UInt32.reduceToNat]
    omega
  · have events : (sendSlice buf slice ctx).events =
        (rtpSendNAL ctx (buf.drop slice.start) (slice.stop - slice.start) (slice.last buf)).events :=
      List.append_nil _
    rw [events, run_stamps (fun packet member => (stamped packet member).trans position.clock)]

end

/-! ### Runs -/

def sentStamps (buf : List UInt8) (slices : List Slice) (ctx : RTPMuxContext) (next : Nat) : Traced Nat (Nat × Nat) :=
  run stamps (run (sendSlice buf) slices ctx).events next

def Bounded (buf : List UInt8) (slices : List Slice) : Prop :=
  ∀ slice ∈ slices, slice.start ≤ slice.stop ∧ slice.stop ≤ buf.length

theorem sentStamps_cons {t0 : UInt32} {buf : List UInt8} {slice : Slice} {rest : List Slice} {ctx : RTPMuxContext}
    {units : List (List UInt8)} {next : Nat} (position : Position t0 ctx units next)
    (within : Bounded buf (slice :: rest)) :
    ∃ kept numbers, Outcome units (slice.unit buf) (slice.last buf) next kept numbers ∧
      Position t0 (sendSlice buf slice ctx).state kept numbers.state ∧ Bounded buf rest ∧
      (sentStamps buf (slice :: rest) ctx next).state =
        (sentStamps buf rest (sendSlice buf slice ctx).state numbers.state).state ∧
      (sentStamps buf (slice :: rest) ctx next).events =
        numbers.events.map (·, due t0 (next + units.length)) ++
          (sentStamps buf rest (sendSlice buf slice ctx).state numbers.state).events := by
  obtain ⟨kept, numbers, outcome, after, sent⟩ := position.step (within slice List.mem_cons_self)
  refine ⟨kept, numbers, outcome, after, fun other member => within other (List.mem_cons_of_mem slice member), ?_, ?_⟩
  · rw [sentStamps, run_cons, Traced.follow_events, run_append, sent]
    rfl
  · rw [sentStamps, run_cons, Traced.follow_events, run_append, sent]
    rfl

theorem run_position {t0 : UInt32} {buf : List UInt8} {slices : List Slice} {ctx : RTPMuxContext}
    {units : List (List UInt8)} {next : Nat} (position : Position t0 ctx units next) (within : Bounded buf slices) :
    ∃ kept, Position t0 (run (sendSlice buf) slices ctx).state kept (sentStamps buf slices ctx next).state := by
  induction slices generalizing ctx units next with
  | nil => exact ⟨units, position⟩
  | cons slice rest ih =>
      obtain ⟨kept, numbers, -, after, inside, state, -⟩ := sentStamps_cons position within
      rw [state]
      exact ih after inside

theorem sentStamps_timely {t0 : UInt32} {buf : List UInt8} {slices : List Slice} {ctx : RTPMuxContext} {next : Nat}
    (position : Position t0 ctx [] next) (within : Bounded buf slices)
    (prompt : ∀ slice ∈ slices, slice.last buf = 1 ∨ ¬ (slice.unit buf).length ≤ rtpPayloadMax) :
    ∀ stamp ∈ (sentStamps buf slices ctx next).events, stamp.2 = due t0 stamp.1 := by
  induction slices generalizing ctx next with
  | nil => exact fun stamp member => absurd member List.not_mem_nil
  | cons slice rest ih =>
      obtain ⟨kept, numbers, outcome, after, inside, -, events⟩ := sentStamps_cons position within
      have now := prompt slice List.mem_cons_self
      rw [events]
      cases outcome with
      | buffered small more => exact absurd now (not_or.mpr ⟨more, not_not.mpr small⟩)
      | flushed small more => exact absurd now (not_or.mpr ⟨more, not_not.mpr small⟩)
      | emptied count some_packet ended =>
          have later := ih after inside fun other member => prompt other (List.mem_cons_of_mem slice member)
          intro stamp member
          rcases List.mem_append.mp member with early | late
          · obtain ⟨unit, among, rfl⟩ := List.mem_map.mp early
            rw [List.mem_replicate.mp among |>.2]
          · exact later stamp late

theorem sentStamps_together {t0 : UInt32} {buf : List UInt8} {slices : List Slice} {ctx : RTPMuxContext}
    {units : List (List UInt8)} {next : Nat} (position : Position t0 ctx units next) (within : Bounded buf slices)
    (ends : ∃ slice ∈ slices, slice.last buf = 1) :
    ∃ time, ∀ j < units.length, (next + j, time) ∈ (sentStamps buf slices ctx next).events := by
  induction slices generalizing ctx units next with
  | nil =>
      obtain ⟨slice, member, -⟩ := ends
      exact absurd member List.not_mem_nil
  | cons slice rest ih =>
      obtain ⟨kept, numbers, outcome, after, inside, -, events⟩ := sentStamps_cons position within
      rw [events]
      cases outcome with
      | buffered small more =>
          obtain ⟨final, member, last⟩ := ends
          have later : final ∈ rest := by
            rcases List.mem_cons.mp member with rfl | later
            · exact absurd last more
            · exact later
          obtain ⟨time, together⟩ := ih after inside ⟨final, later, last⟩
          refine ⟨time, fun j waits => List.mem_append_right _ (together j ?_)⟩
          rw [List.length_append]
          omega
      | flushed small more =>
          refine ⟨due t0 (next + units.length), fun j waits => List.mem_append_left _ ?_⟩
          exact List.mem_map.mpr ⟨next + j, List.mem_range'_1.mpr (by omega), rfl⟩
      | emptied count some_packet ended =>
          refine ⟨due t0 (next + units.length), fun j waits => List.mem_append_left _ ?_⟩
          exact List.mem_map.mpr
            ⟨next + j, List.mem_append_left _ (List.mem_range'_1.mpr (by omega)), rfl⟩

theorem waiting_late {t0 : UInt32} {buf : List UInt8} {slices : List Slice} {ctx : RTPMuxContext}
    {front : List (List UInt8)} {unit : List UInt8} {next : Nat} (position : Position t0 ctx (front ++ [unit]) next)
    (bounded : Bounded buf slices) (ends : ∃ final ∈ slices, final.last buf = 1) :
    ∃ stamp ∈ (sentStamps buf slices ctx next).events, stamp.2 ≠ due t0 stamp.1 := by
  obtain ⟨final, member, last⟩ := ends
  obtain ⟨slice, rest, rfl⟩ := List.exists_cons_of_ne_nil (List.ne_nil_of_mem member)
  obtain ⟨kept, numbers, outcome, after, inside, -, events⟩ := sentStamps_cons position bounded
  have count : (front ++ [unit]).length = front.length + 1 := by rw [List.length_append, List.length_singleton]
  have waits : next + front.length ∈ List.range' next (front ++ [unit]).length :=
    List.mem_range'_1.mpr (by omega)
  have late : due t0 (next + (front ++ [unit]).length) ≠ due t0 (next + front.length) := by
    rw [count]
    exact due_succ t0 (next + front.length)
  rw [events]
  cases outcome with
  | flushed small more => exact ⟨_, List.mem_append_left _ (List.mem_map.mpr ⟨_, waits, rfl⟩), late⟩
  | emptied count some_packet ended =>
      exact ⟨_, List.mem_append_left _ (List.mem_map.mpr ⟨_, List.mem_append_left _ waits, rfl⟩), late⟩
  | buffered small more =>
      have later : final ∈ rest := by
        rcases List.mem_cons.mp member with rfl | later
        · exact absurd last more
        · exact later
      obtain ⟨time, together⟩ := sentStamps_together after inside ⟨final, later, last⟩
      have first := together front.length (by rw [List.length_append, count]; omega)
      have second := together (front.length + 1) (by rw [List.length_append, count, List.length_singleton]; omega)
      -- one time cannot be right for two units
      by_cases right : time = due t0 (next + front.length)
      · refine ⟨_, List.mem_append_right _ second, fun same => due_succ t0 (next + front.length) ?_⟩
        exact same.symm.trans right
      · exact ⟨_, List.mem_append_right _ first, right⟩

theorem sentStamps_late {t0 : UInt32} {buf : List UInt8} {slice : Slice} {rest : List Slice} {ctx : RTPMuxContext}
    {units : List (List UInt8)} {next : Nat} (position : Position t0 ctx units next)
    (bounded : Bounded buf (slice :: rest)) (small : (slice.unit buf).length ≤ rtpPayloadMax)
    (more : slice.last buf ≠ 1) (ends : ∃ final ∈ rest, final.last buf = 1) :
    ∃ stamp ∈ (sentStamps buf (slice :: rest) ctx next).events, stamp.2 ≠ due t0 stamp.1 := by
  obtain ⟨kept, numbers, outcome, after, inside, -, events⟩ := sentStamps_cons position bounded
  -- the unit is the last one that waits
  have waits : ∃ front, kept = front ++ [slice.unit buf] := by
    cases outcome with
    | buffered => exact ⟨units, rfl⟩
    | flushed => exact ⟨[], rfl⟩
    | emptied count some_packet ended =>
        rcases ended with last | large
        · exact absurd last more
        · exact absurd small large
  obtain ⟨front, rfl⟩ := waits
  obtain ⟨stamp, member, late⟩ := waiting_late after inside ends
  rw [events]
  exact ⟨stamp, List.mem_append_right _ member, late⟩

def startAt (ctx : RTPMuxContext) (t0 : UInt32) : RTPMuxContext :=
  { initRTPMuxContext ctx with timestamp := t0 }

theorem startAt_position (ctx : RTPMuxContext) (t0 : UInt32) : Position t0 (startAt ctx t0) [] 0 :=
  ⟨.empty Int.one_ne_zero rfl, (Nat.mod_eq_of_lt t0.toNat_lt).symm⟩

theorem split_finds (base : Nat) (buf : List UInt8) :
    ∃ slices, split base buf = some slices ∧ Bounded buf slices ∧ (slices = [] ∨
      ∃ front final, slices = front ++ [final] ∧ (∀ slice ∈ front, slice.stop ≠ buf.length) ∧
        final.stop = buf.length) := by
  obtain ⟨out, slices, -, -, units, ⟨-, rfl⟩ | ⟨-, cuts⟩⟩ := split_cuts base buf
  · exact ⟨[], units, fun slice member => absurd member List.not_mem_nil, .inl rfl⟩
  · obtain ⟨front, final, same, bounded, inner, last⟩ := cuts.finds
    exact ⟨slices, units, bounded, .inr ⟨front, final, same, inner, last⟩⟩

theorem sentStamps_append (buf : List UInt8) (first second : List Slice) (ctx : RTPMuxContext) (next : Nat) :
    (sentStamps buf (first ++ second) ctx next).events =
      (sentStamps buf first ctx next).events ++
        (sentStamps buf second (run (sendSlice buf) first ctx).state (sentStamps buf first ctx next).state).events := by
  rw [sentStamps, run_append, Traced.follow_events, run_append]
  rfl

theorem length_unit {buf : List UInt8} {slice : Slice}
    (inside : slice.start ≤ slice.stop ∧ slice.stop ≤ buf.length) :
    (slice.unit buf).length = slice.stop - slice.start := by
  apply List.length_take_of_le
  rw [List.length_drop]
  omega

/-- All packets of a stream are in time exactly when no unit waits: each one but the
last is too large for one packet. -/
theorem rtpSendH264HEVC_timely_iff (base : Nat) (buf : List UInt8) (ctx : RTPMuxContext) (t0 : UInt32) :
    (∃ sent, rtpSendH264HEVC base buf (startAt ctx t0) = some sent ∧ Timely t0 sent.events) ↔
      ∃ slices, split base buf = some slices ∧
        ∀ slice ∈ slices.dropLast, rtpPayloadMax < slice.stop - slice.start := by
  obtain ⟨slices, found, bounded, shape⟩ := split_finds base buf
  have start := startAt_position ctx t0
  simp only [rtpSendH264HEVC_eq, found, Option.map_some, Option.some.injEq, exists_eq_left']
  rcases shape with rfl | ⟨front, final, rfl, inner, last⟩
  · exact ⟨fun _ slice member => absurd member List.not_mem_nil, fun _ stamp member => absurd member List.not_mem_nil⟩
  have ends : final.last buf = 1 := if_pos last
  rw [List.dropLast_concat]
  constructor
  · intro timely slice member
    by_contra small
    obtain ⟨before, behind, rfl⟩ := List.append_of_mem member
    rw [List.append_assoc, List.cons_append] at bounded timely
    have first : Bounded buf before := fun other among => bounded other (List.mem_append_left _ among)
    have second : Bounded buf (slice :: (behind ++ [final])) := fun other among =>
      bounded other (List.mem_append_right _ among)
    obtain ⟨kept, position⟩ := run_position start first
    obtain ⟨stamp, sent, late⟩ := sentStamps_late position second
      (by rw [length_unit (second slice List.mem_cons_self)]; omega) (by rw [Slice.last, if_neg (inner slice member)]; decide)
      ⟨final, List.mem_append_right _ List.mem_cons_self, ends⟩
    refine late (timely stamp ?_)
    have whole := sentStamps_append buf before (slice :: (behind ++ [final])) (startAt ctx t0) 0
    unfold sentStamps at whole sent
    rw [whole]
    exact List.mem_append_right _ sent
  · intro large
    refine sentStamps_timely start bounded ?_
    intro slice member
    rcases List.mem_append.mp member with within | only
    · have longer := large slice within
      rw [length_unit (bounded slice member)]
      exact .inr (by omega)
    · rw [List.mem_singleton.mp only]
      exact .inl ends

/-- Two parameter sets share a packet that leaves with the second: its time is 3600, the first one's is 0. -/
theorem rtpSendH264HEVC_late :
    ((rtpSendH264HEVC 0 [0, 0, 1, 0x67, 0x42, 0, 0, 1, 0x68, 0xCE] (startAt blankContext 0)).map fun sent =>
        (run stamps sent.events 0).events) = some [(0, 3600), (1, 3600)] ∧
      ¬ ∃ sent, rtpSendH264HEVC 0 [0, 0, 1, 0x67, 0x42, 0, 0, 1, 0x68, 0xCE] (startAt blankContext 0) = some sent ∧
        Timely 0 sent.events := by
  have times : ((rtpSendH264HEVC 0 [0, 0, 1, 0x67, 0x42, 0, 0, 1, 0x68, 0xCE] (startAt blankContext 0)).map fun sent =>
      (run stamps sent.events 0).events) = some [(0, 3600), (1, 3600)] := by decide +kernel
  refine ⟨times, ?_⟩
  rintro ⟨sent, same, timely⟩
  rw [same, Option.map_some] at times
  have first := timely (0, 3600) (by rw [Option.some.inj times]; exact List.mem_cons_self)
  exact absurd first (by decide)

end H264Streaming.RtpSend
