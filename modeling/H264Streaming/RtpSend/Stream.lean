import H264Streaming.RtpSend.AVC
import H264Streaming.RtpSend.RTPEnc
import H264Streaming.Semantics.Numbering

/-! A whole byte stream through rtpSendH264HEVC: one call of rtpSendNAL for every
unit found, numbered packets throughout, and nothing left in the buffer. -/

set_option autoImplicit false

namespace H264Streaming.RtpSend

open H264Streaming.Bytes H264Streaming.Format H264Streaming.Semantics

/-- `while (!*(r++));` over the octets from r on. -/
def skipStartcode : List UInt8 → Nat → Option Nat
  | [], _ => none
  | octet :: rest, r => if octet = 0 then skipStartcode rest (r + 1) else some (r + 1)

structure Slice where
  start : Nat
  stop : Nat
  deriving DecidableEq, Repr

section
variable (base : Nat) (buf : List UInt8)

def nextSlice (r : Nat) : Option Slice := do
  let r ← skipStartcode (buf.drop r) r
  let r1 ← ffAvcFindStartcode (buf[·]?) base r buf.length
  return ⟨r, r1⟩

/-- `last` is r1 == end; every unit advances the timestamp by 90000.0/25. -/
def sendSlice (slice : Slice) (ctx : RTPMuxContext) : Traced RTPMuxContext Packet :=
  let last := if slice.stop = buf.length then 1 else 0
  (rtpSendNAL ctx (buf.drop slice.start) (slice.stop - slice.start) last).follow fun ctx =>
    .quiet { ctx with timestamp := ctx.timestamp + 3600 }

/-- The loop over the units. It fails when the stream is read outside its bounds
or the iterations do not suffice. -/
def sendLoop : Nat → Nat → RTPMuxContext → Option (Traced RTPMuxContext Packet)
  | 0, _, _ => none
  | iterations + 1, r, ctx =>
      if r < buf.length then do
        let slice ← nextSlice base buf r
        let sent := sendSlice buf slice ctx
        let rest ← sendLoop iterations slice.stop sent.state
        return ⟨rest.state, sent.events ++ rest.events⟩
      else some (.quiet ctx)

def rtpSendH264HEVC (ctx : RTPMuxContext) : Option (Traced RTPMuxContext Packet) :=
  if buf.length = 0 then some (.quiet ctx)
  else do
    let r ← ffAvcFindStartcode (buf[·]?) base 0 buf.length
    sendLoop base buf (buf.length + 1) r ctx

end

/-! ### The units found -/

/-- A position the search may return: the end, or a start code followed by an octet. -/
def AtCode (buf : List UInt8) (r : Nat) : Prop :=
  r = buf.length ∨ r + 3 < buf.length ∧ StartsCode (buf[·]?) r ∨
    r + 4 < buf.length ∧ buf[r]? = some 0 ∧ StartsCode (buf[·]?) (r + 1)

theorem search_found (base : Nat) (buf : List UInt8) (p : Nat) :
    ∃ out, ffAvcFindStartcode (buf[·]?) base p buf.length = some out ∧ Found (buf[·]?) p buf.length out :=
  ffAvcFindStartcode_exact (fun i _ before => ⟨buf[i], List.getElem?_eq_getElem before⟩) base (Nat.zero_le p)

theorem Found.atCode {buf : List UInt8} {p out : Nat} (found : Found (buf[·]?) p buf.length out) :
    AtCode buf out := by
  cases found with
  | nowhere => exact .inl rfl
  | short first => exact .inr (.inl first.2.1)
  | long first after zero =>
      obtain ⟨-, ⟨room, code⟩, -⟩ := first
      exact .inr (.inr ⟨by omega, zero, code⟩)

theorem Found.forward {buf : List UInt8} {p out : Nat} (found : Found (buf[·]?) p buf.length out)
    (inside : p ≤ buf.length) : p ≤ out := by
  cases found with
  | nowhere => exact inside
  | short first => exact first.1
  | long _ after => exact after

theorem skipStartcode_step {buf : List UInt8} {r : Nat} {octet : UInt8} (here : buf[r]? = some octet) :
    skipStartcode (buf.drop r) r =
      if octet = 0 then skipStartcode (buf.drop (r + 1)) (r + 1) else some (r + 1) := by
  obtain ⟨inside, same⟩ := List.getElem?_eq_some_iff.mp here
  rw [List.drop_eq_getElem_cons inside, same, skipStartcode]

theorem skipStartcode_code {buf : List UInt8} {r : Nat} (code : StartsCode (buf[·]?) r) :
    skipStartcode (buf.drop r) r = some (r + 3) := by
  obtain ⟨first, second, third⟩ := code
  rw [skipStartcode_step first, if_pos rfl, skipStartcode_step second, if_pos rfl, skipStartcode_step third,
    if_neg (by decide)]

inductive Coded (buf : List UInt8) (r : Nat) : Nat → Prop where
  | short : StartsCode (buf[·]?) r → r + 3 < buf.length → Coded buf r (r + 3)
  | long : buf[r]? = some 0 → StartsCode (buf[·]?) (r + 1) → r + 1 + 3 < buf.length → Coded buf r (r + 1 + 3)

theorem AtCode.coded {buf : List UInt8} {r : Nat} (code : AtCode buf r) (before : r < buf.length) :
    ∃ start, Coded buf r start := by
  rcases code with atEnd | ⟨room, code⟩ | ⟨room, zero, code⟩
  · omega
  · exact ⟨_, .short code room⟩
  · exact ⟨_, .long zero code (by omega)⟩

theorem Coded.bounds {buf : List UInt8} {r start : Nat} (coded : Coded buf r start) :
    r < start ∧ start < buf.length := by
  cases coded with
  | short _ room => omega
  | long _ _ room => omega

theorem Coded.skips {buf : List UInt8} {r start : Nat} (coded : Coded buf r start) :
    skipStartcode (buf.drop r) r = some start := by
  cases coded with
  | short code => exact skipStartcode_code code
  | long zero code => rw [skipStartcode_step zero, if_pos rfl, skipStartcode_code code]

theorem nextSlice_found (base : Nat) {buf : List UInt8} {r start : Nat} (coded : Coded buf r start) :
    ∃ stop, nextSlice base buf r = some ⟨start, stop⟩ ∧ Found (buf[·]?) start buf.length stop := by
  obtain ⟨stop, ran, found⟩ := search_found base buf start
  exact ⟨stop, by simp [nextSlice, coded.skips, ran], found⟩

inductive Cuts (buf : List UInt8) : Nat → List Slice → Prop where
  | last {r start : Nat} : Coded buf r start → Found (buf[·]?) start buf.length buf.length →
      Cuts buf r [⟨start, buf.length⟩]
  | more {r start stop : Nat} {rest : List Slice} : Coded buf r start → Found (buf[·]?) start buf.length stop →
      stop < buf.length → Cuts buf stop rest → Cuts buf r (⟨start, stop⟩ :: rest)

theorem Cuts.finds {buf : List UInt8} {r : Nat} {slices : List Slice} (cuts : Cuts buf r slices) :
    ∃ front final, slices = front ++ [final] ∧
      (∀ slice ∈ slices, slice.start ≤ slice.stop ∧ slice.stop ≤ buf.length) ∧
      (∀ slice ∈ front, slice.stop ≠ buf.length) ∧ final.stop = buf.length := by
  induction cuts with
  | @last r start coded found =>
      refine ⟨[], ⟨start, buf.length⟩, rfl, ?_, fun _ member => absurd member List.not_mem_nil, rfl⟩
      intro slice member
      rw [List.mem_singleton.mp member]
      exact ⟨Nat.le_of_lt coded.bounds.2, Nat.le_refl _⟩
  | @more r start stop rest coded found before _ ih =>
      obtain ⟨front, final, rfl, within, inner, last⟩ := ih
      have here : start ≤ stop := found.forward (Nat.le_of_lt coded.bounds.2)
      refine ⟨⟨start, stop⟩ :: front, final, rfl, ?_, ?_, last⟩
      · rw [List.forall_mem_cons]
        exact ⟨⟨here, Nat.le_of_lt before⟩, within⟩
      · rw [List.forall_mem_cons]
        exact ⟨Nat.ne_of_lt before, inner⟩

def splitLoop (base : Nat) (buf : List UInt8) : Nat → Nat → Option (List Slice)
  | 0, _ => none
  | iterations + 1, r =>
      if r < buf.length then do
        let slice ← nextSlice base buf r
        let rest ← splitLoop base buf iterations slice.stop
        return slice :: rest
      else some []

theorem sendLoop_eq (base : Nat) (buf : List UInt8) (iterations r : Nat) (ctx : RTPMuxContext) :
    sendLoop base buf iterations r ctx =
      (splitLoop base buf iterations r).map fun slices => run (sendSlice buf) slices ctx := by
  induction iterations generalizing r ctx with
  | zero => rfl
  | succ iterations ih =>
      rw [sendLoop, splitLoop]
      split
      · cases nextSlice base buf r with
        | none => rfl
        | some slice =>
            simp only [Option.bind_eq_bind, Option.bind_some, ih]
            cases splitLoop base buf iterations slice.stop <;> rfl
      · rfl

theorem splitLoop_cuts (base : Nat) (buf : List UInt8) (iterations r : Nat) (enough : buf.length < iterations + r)
    (before : r < buf.length) (code : AtCode buf r) :
    ∃ slices, splitLoop base buf iterations r = some slices ∧ Cuts buf r slices := by
  induction iterations generalizing r with
  | zero => omega
  | succ iterations ih =>
      obtain ⟨start, coded⟩ := code.coded before
      obtain ⟨after, inside⟩ := coded.bounds
      obtain ⟨stop, ran, found⟩ := nextSlice_found base coded
      have forward : start ≤ stop := found.forward (Nat.le_of_lt inside)
      rw [splitLoop, if_pos before, ran]
      simp only [Option.bind_eq_bind, Option.bind_some]
      by_cases atEnd : stop < buf.length
      · obtain ⟨rest, others, cuts⟩ := ih stop (by omega) atEnd found.atCode
        exact ⟨_, by rw [others]; rfl, .more coded found atEnd cuts⟩
      · obtain rfl : stop = buf.length := by
          rcases found.atCode with same | ⟨room, -⟩ | ⟨room, -⟩ <;> omega
        have exhausted : splitLoop base buf iterations buf.length = some [] := by
          cases iterations with
          | zero => omega
          | succ more => rw [splitLoop, if_neg (Nat.lt_irrefl _)]
        exact ⟨_, by rw [exhausted]; rfl, .last coded found⟩

def split (base : Nat) (buf : List UInt8) : Option (List Slice) := do
  let r ← ffAvcFindStartcode (buf[·]?) base 0 buf.length
  splitLoop base buf (buf.length + 1) r

theorem split_cuts (base : Nat) (buf : List UInt8) :
    ∃ out slices, ffAvcFindStartcode (buf[·]?) base 0 buf.length = some out ∧ Found (buf[·]?) 0 buf.length out ∧
      split base buf = some slices ∧ (out = buf.length ∧ slices = [] ∨ out < buf.length ∧ Cuts buf out slices) := by
  obtain ⟨out, ran, found⟩ := search_found base buf 0
  by_cases before : out < buf.length
  · obtain ⟨slices, units, cuts⟩ := splitLoop_cuts base buf (buf.length + 1) out (by omega) before found.atCode
    exact ⟨out, slices, ran, found, by rw [split, ran]; exact units, .inr ⟨before, cuts⟩⟩
  · obtain rfl : out = buf.length := by
      rcases found.atCode with same | ⟨room, -⟩ | ⟨room, -⟩ <;> omega
    refine ⟨_, [], ran, found, ?_, .inl ⟨rfl, rfl⟩⟩
    rw [split, ran, Option.bind_eq_bind, Option.bind_some, splitLoop, if_neg before]

theorem rtpSendH264HEVC_eq (base : Nat) (buf : List UInt8) (ctx : RTPMuxContext) :
    rtpSendH264HEVC base buf ctx = (split base buf).map fun slices => run (sendSlice buf) slices ctx := by
  by_cases none : buf.length = 0
  · obtain rfl := List.length_eq_zero_iff.mp none
    obtain ⟨out, slices, -, -, units, ⟨-, rfl⟩ | ⟨before, -⟩⟩ := split_cuts base []
    · rw [units]
      rfl
    · exact absurd before (Nat.not_lt_zero out)
  · rw [rtpSendH264HEVC, if_neg none, split]
    cases ffAvcFindStartcode (buf[·]?) base 0 buf.length with
    | none => rfl
    | some r => exact sendLoop_eq base buf (buf.length + 1) r ctx

def Slice.unit (slice : Slice) (buf : List UInt8) : List UInt8 :=
  (buf.drop slice.start).take (slice.stop - slice.start)

def Slice.last (slice : Slice) (buf : List UInt8) : Int := if slice.stop = buf.length then 1 else 0

/-! ### Numbers and marks of the packets -/

def Packet.number (packet : Packet) : Nat := sequenceNumber packet.datagram

def Packet.marked (packet : Packet) : Bool := Format.marked packet.datagram

/-- Packets numbered from `seq`, the counter left behind them, and no mark except,
if `final`, on the last packet, after which the buffer is empty. -/
structure Emits (seq : UInt32) (final : Bool) (sent : Traced RTPMuxContext Packet) : Prop where
  numbered : Numbered Packet.number 65536 seq.toNat sent.events
  counter : sent.state.seq.toNat % 65536 = (seq.toNat + sent.events.length) % 65536
  marks : ∃ count, sent.events.map Packet.marked = List.replicate count false ++ if final then [true] else []
  emptied : final = true → sent.state.bufPtr = 0

theorem Emits.quiet {seq : UInt32} {ctx : RTPMuxContext} (same : ctx.seq = seq) :
    Emits seq false (.quiet ctx) :=
  ⟨.nil, by rw [Traced.quiet_state, same]; rfl, ⟨0, rfl⟩, nofun⟩

theorem Emits.follow {seq : UInt32} {final : Bool} {sent : Traced RTPMuxContext Packet}
    {next : RTPMuxContext → Traced RTPMuxContext Packet} (first : Emits seq false sent)
    (second : Emits sent.state.seq final (next sent.state)) : Emits seq final (sent.follow next) := by
  obtain ⟨early, marksEarly⟩ := first.marks
  obtain ⟨late, marksLate⟩ := second.marks
  refine ⟨first.numbered.append ?_, ?_, ⟨early + late, ?_⟩, second.emptied⟩
  · rw [← numbered_residue, ← first.counter, numbered_residue]
    exact second.numbered
  · rw [Traced.follow_state, second.counter, Nat.add_mod, first.counter, ← Nat.add_mod, Traced.follow_events,
      List.length_append, Nat.add_assoc]
  · rw [Traced.follow_events, List.map_append, marksEarly, marksLate, if_neg Bool.false_ne_true, List.append_nil,
      ← List.append_assoc, List.replicate_append_replicate]

theorem rtpSendData_emits (ctx : RTPMuxContext) (payload : List UInt8) (final : Bool) :
    Emits ctx.seq final (rtpSendData ctx payload (if final then 1 else 0)) := by
  refine ⟨?_, ?_, ?_, fun _ => rfl⟩
  · rw [rtpSendData_events, numbered_singleton]
    exact sequenceNumber_rtpHeader _ _ _ _ _
  · have masked := Nat.and_two_pow_sub_one_eq_mod ((ctx.seq.toNat + 1) % 4294967296) 16
    have next : ((ctx.seq + 1) &&& 0xffff).toNat = (ctx.seq.toNat + 1) % 4294967296 % 65536 := by
      rw [← masked]
      simp
    rw [rtpSendData_seq, rtpSendData_events, next, List.length_singleton]
    omega
  · have octet : UInt8.ofNat ((if final then (1 : Int) else 0) % 2).toNat = bit final := by
      cases final <;> rfl
    have mark : Packet.marked ⟨payload, ctx.header (if final then 1 else 0) ++ payload⟩ = final := by
      rw [Packet.marked, RTPMuxContext.header, octet]
      exact marked_rtpHeader _ _ _ _ final
    rw [rtpSendData_events, List.map_singleton, mark]
    cases final with
    | true => exact ⟨0, rfl⟩
    | false => exact ⟨1, rfl⟩

theorem rtpSendData_unmarked (ctx : RTPMuxContext) (payload : List UInt8) :
    Emits ctx.seq false (rtpSendData ctx payload 0) :=
  rtpSendData_emits ctx payload false

theorem sendAggregated_emits (ctx : RTPMuxContext) (nal : List UInt8) (size : Nat) (final : Bool) :
    Emits ctx.seq final (sendAggregated ctx nal size (if final then 1 else 0)) := by
  have stored : ∀ (ctx : RTPMuxContext) (buffered : Nat),
      Emits ctx.seq final (let ctx := storeUnit (storeHeader ctx buffered (nal.headD 0)) nal size
        if (if final then (1 : Int) else 0) = 1 then rtpSendData ctx (ctx.buf.read 0 ctx.bufPtr) 1
        else .quiet ctx) := by
    intro ctx buffered
    have same := (storeUnit_header_keeps ctx buffered nal size).1
    cases final with
    | true => exact same ▸ rtpSendData_emits _ _ true
    | false => exact .quiet same
  unfold sendAggregated
  dsimp only
  split
  · exact (rtpSendData_unmarked ctx _).follow (stored _ _)
  · rw [Traced.quiet_follow]
    exact stored ctx _

theorem fuLoop_emits (ctx : RTPMuxContext) (nal : List UInt8) (size : Nat) (final : Bool) :
    Emits ctx.seq final (fuLoop ctx nal size (if final then 1 else 0)) := by
  fun_induction fuLoop ctx nal size (if final then 1 else 0) with
  | case1 ctx nal size large filled ih => exact (rtpSendData_unmarked filled _).follow (ih (rtpSendData filled _ 0).state)
  | case2 ctx nal size small marked filled => exact rtpSendData_emits filled _ final

theorem sendFragmented_emits (ctx : RTPMuxContext) (nal : List UInt8) (size : Nat) (final : Bool) :
    Emits ctx.seq final (sendFragmented ctx nal size (if final then 1 else 0)) := by
  have fragments : ∀ (ctx : RTPMuxContext) (buf : Buffer),
      Emits ctx.seq final (fuLoop { ctx with buf } (nal.drop 1) (size - 1) (if final then 1 else 0)) :=
    fun ctx buf => fuLoop_emits { ctx with buf } _ _ final
  unfold sendFragmented
  split
  · exact (rtpSendData_unmarked ctx _).follow (fragments _ _)
  · rw [Traced.quiet_follow]
    exact fragments ctx _

theorem rtpSendNAL_emits (ctx : RTPMuxContext) (nal : List UInt8) (size : Nat) (final : Bool) :
    Emits ctx.seq final (rtpSendNAL ctx nal size (if final then 1 else 0)) := by
  unfold rtpSendNAL
  split
  · split
    · exact sendAggregated_emits ctx nal size final
    · exact rtpSendData_emits ctx _ final
  · exact sendFragmented_emits ctx nal size final

-- Between two units only the timestamp moves.
theorem Emits.advance {seq : UInt32} {final : Bool} {sent : Traced RTPMuxContext Packet}
    (emits : Emits seq final sent) (ticks : UInt32) :
    Emits seq final (sent.follow fun ctx => .quiet { ctx with timestamp := ctx.timestamp + ticks }) := by
  obtain ⟨numbered, counter, marks, emptied⟩ := emits
  constructor
  all_goals simp only [Traced.follow_events, Traced.quiet_events, List.append_nil, Traced.follow_state,
    Traced.quiet_state]
  · exact numbered
  · exact counter
  · exact marks
  · exact emptied

theorem sendSlice_emits (buf : List UInt8) (slice : Slice) (ctx : RTPMuxContext) :
    Emits ctx.seq (slice.stop = buf.length) (sendSlice buf slice ctx) := by
  have sent := rtpSendNAL_emits ctx (buf.drop slice.start) (slice.stop - slice.start) (slice.stop = buf.length)
  simp only [decide_eq_true_eq] at sent
  exact sent.advance 3600

theorem run_sendSlice_emits (buf : List UInt8) (slices : List Slice)
    (inner : ∀ slice ∈ slices, slice.stop ≠ buf.length) (ctx : RTPMuxContext) :
    Emits ctx.seq false (run (sendSlice buf) slices ctx) := by
  induction slices generalizing ctx with
  | nil => exact .quiet rfl
  | cons slice rest ih =>
      have here := sendSlice_emits buf slice ctx
      rw [decide_eq_false (inner slice (List.mem_cons_self ..))] at here
      exact here.follow (ih (fun other member => inner other (List.mem_cons_of_mem slice member)) _)

/-- A stream with a start code: the packets of the whole run are numbered without
gap, the last one alone is marked, and the buffer is empty at the end. -/
theorem rtpSendH264HEVC_numbers (base : Nat) (buf : List UInt8) (ctx : RTPMuxContext) (r : Nat)
    (found : ffAvcFindStartcode (buf[·]?) base 0 buf.length = some r) (before : r < buf.length) :
    ∃ sent, rtpSendH264HEVC base buf ctx = some sent ∧
      Numbered Packet.number 65536 ctx.seq.toNat sent.events ∧
      (∃ count, sent.events.map Packet.marked = List.replicate count false ++ [true]) ∧
      sent.state.bufPtr = 0 := by
  obtain ⟨out, slices, same, -, units, ⟨atEnd, -⟩ | ⟨-, cuts⟩⟩ := split_cuts base buf
  · rw [found] at same
    exact absurd (Option.some.inj same ▸ before) (atEnd ▸ Nat.lt_irrefl _)
  obtain ⟨front, final, rfl, -, inner, last⟩ := cuts.finds
  -- only the slice that ends the buffer carries the flag
  have whole : Emits ctx.seq true (run (sendSlice buf) (front ++ [final]) ctx) := by
    rw [run_snoc]
    have closing := sendSlice_emits buf final (run (sendSlice buf) front ctx).state
    rw [decide_eq_true last] at closing
    exact (run_sendSlice_emits buf front inner ctx).follow closing
  refine ⟨_, ?_, whole.numbered, by simpa using whole.marks, whole.emptied rfl⟩
  rw [rtpSendH264HEVC_eq, units, Option.map_some]

theorem rtpSendH264HEVC_numbers_wrap :
    ∃ sent, rtpSendH264HEVC 1 [0, 0, 1, 0x67, 0x42, 0, 0, 0, 1, 0x65, 0x88] { blankContext with seq := 65535 } =
        some sent ∧
      Numbered Packet.number 65536 65535 sent.events ∧
      (∃ count, sent.events.map Packet.marked = List.replicate count false ++ [true]) ∧
      sent.state.bufPtr = 0 :=
  rtpSendH264HEVC_numbers 1 _ { blankContext with seq := 65535 } 0 (by decide +kernel) (by decide)

end H264Streaming.RtpSend
