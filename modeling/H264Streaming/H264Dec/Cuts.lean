import H264Streaming.H264Dec.Demux
import H264Streaming.Semantics.Framing

/-! Interleaved frames under every cutting of their stream.

Between two recv calls the buffer holds a proper part of the next frame and zeros behind
it, so a part shorter than the frame header is read as a frame with zeros in its place.
-/

set_option autoImplicit false

namespace H264Streaming.H264Dec

open H264Streaming.Bytes H264Streaming.Semantics

structure Frame where
  channel : UInt8
  payload : List UInt8
  sized : 1 ≤ payload.length ∧ payload.length < 65536

def Frame.bytes (frame : Frame) : List UInt8 :=
  0x24 :: frame.channel :: be16 frame.payload.length ++ frame.payload

def Frame.handed (frame : Frame) : Handed := ⟨frame.channel, frame.payload, true⟩

@[simp] theorem Frame.length_bytes (frame : Frame) : frame.bytes.length = frame.payload.length + 4 := by
  rw [Frame.bytes, List.length_append]
  exact Nat.add_comm _ _

/-- What the loop knows between two recv calls: the octets waiting, and zeros behind them. -/
structure Waiting (d : Demux) (part : List UInt8) : Prop where
  running : d.running = true
  ordered : d.rawOffset ≤ d.rawLength
  contents : d.raw.read d.rawOffset (d.rawLength - d.rawOffset) = part
  blank : ∀ j, d.rawLength ≤ j → j < maxBufSize → d.raw.byte j = 0

namespace Waiting

variable {d : Demux} {part : List UInt8}

theorem length (waiting : Waiting d part) : d.rawOffset + part.length = d.rawLength := by
  have ordered := waiting.ordered
  rw [← waiting.contents, Buffer.length_read]
  omega

theorem byte (waiting : Waiting d part) {k : Nat} (within : d.rawOffset + k < maxBufSize) :
    d.raw.byte (d.rawOffset + k) = part[k]?.getD 0 := by
  have length := waiting.length
  by_cases inside : k < part.length
  · have octet : part[k] = d.raw.byte (d.rawOffset + k) := by
      simp only [← waiting.contents, Buffer.read, List.getElem_map, List.getElem_range]
    rw [List.getElem?_eq_getElem inside, Option.getD_some, octet]
  · rw [List.getElem?_eq_none (by omega), Option.getD_none]
    exact waiting.blank _ (by omega) within

theorem skip {piece rest : List UInt8} (waiting : Waiting d (piece ++ rest)) :
    Waiting { d with rawOffset := d.rawOffset + piece.length } rest where
  running := waiting.running
  ordered := by
    have length := waiting.length
    rw [List.length_append] at length
    dsimp only
    omega
  contents := by
    have length := waiting.length
    rw [List.length_append] at length
    have inside : piece.length ≤ d.rawLength - d.rawOffset := by omega
    have tail := Buffer.read_drop d.raw d.rawOffset (d.rawLength - d.rawOffset) inside
    rw [waiting.contents, List.drop_left, Nat.sub_sub] at tail
    exact tail.symm
  blank := waiting.blank

theorem receive {chunk : List UInt8} (waiting : Waiting d part) :
    Waiting { d with raw := d.raw.write d.rawLength chunk, rawLength := d.rawLength + chunk.length }
      (part ++ chunk) where
  running := waiting.running
  ordered := Nat.le_trans waiting.ordered (Nat.le_add_right _ _)
  contents := by
    have length := waiting.length
    have count : d.rawLength + chunk.length - d.rawOffset = (d.rawLength - d.rawOffset) + chunk.length := by omega
    have middle : d.rawOffset + (d.rawLength - d.rawOffset) = d.rawLength := by omega
    dsimp only
    rw [count, Buffer.read_add, middle, Buffer.read_write_below _ _ _ (by omega), waiting.contents,
      Buffer.read_write_self]
  blank := by
    intro j behind within
    dsimp only at behind ⊢
    rw [Buffer.byte_write_of_ge _ _ _ behind]
    exact waiting.blank j (by omega) within

theorem read (waiting : Waiting d part) {skipped count : Nat} (inside : skipped + count ≤ part.length) :
    d.raw.read (d.rawOffset + skipped) count = (part.drop skipped).take count := by
  have length := waiting.length
  have ahead : skipped ≤ d.rawLength - d.rawOffset := by omega
  have enough : count ≤ d.rawLength - d.rawOffset - skipped := by omega
  rw [← waiting.contents, Buffer.read_drop _ _ _ ahead, Buffer.read_take _ _ _ enough]

theorem clear (waiting : Waiting d []) : Waiting d.clear [] where
  running := waiting.running
  ordered := Nat.le_refl _
  contents := rfl
  blank := fun _ _ within => Buffer.byte_write_replicate _ _ within

end Waiting

theorem waiting_start (memory : Nat → UInt8) : Waiting (Demux.start memory) [] where
  running := rfl
  ordered := Nat.le_refl _
  contents := rfl
  blank := fun _ _ within => Buffer.byte_write_replicate _ _ within

/-! ### One frame -/

section
variable {rtpParse : List UInt8 → Int}

theorem consumed_eq (consumes : ∀ payload, rtpParse payload ≤ 0 ∨ rtpParse payload = payload.length)
    (channel : UInt8) (payload : List UInt8) : consumed rtpParse channel payload = payload.length := by
  unfold consumed
  split
  · rfl
  · split
    · rfl
    · next positive =>
        rcases consumes payload with none | all
        · exact absurd none positive
        · rw [all, Int.toNat_natCast]

theorem frame_read {d : Demux} {frame : Frame} (contents : d.raw.read d.rawOffset frame.bytes.length = frame.bytes) :
    d.raw.byte d.rawOffset = 0x24 ∧ d.raw.byte (d.rawOffset + 1) = frame.channel ∧
      value16 (d.raw.byte (d.rawOffset + 2)) (d.raw.byte (d.rawOffset + 3)) = frame.payload.length ∧
      d.raw.read (d.rawOffset + 4) frame.payload.length = frame.payload := by
  have header {k : Nat} (below : k < 4) : frame.bytes[k]? = some (d.raw.byte (d.rawOffset + k)) :=
    Buffer.byte_of_read contents (by rw [Frame.length_bytes]; omega)
  have magic : some 0x24 = some (d.raw.byte d.rawOffset) := header (by decide : 0 < 4)
  have channel : some frame.channel = some (d.raw.byte (d.rawOffset + 1)) := header (by decide : 1 < 4)
  have high : some (UInt8.ofNat (frame.payload.length / 256)) = some (d.raw.byte (d.rawOffset + 2)) :=
    header (by decide : 2 < 4)
  have low : some (UInt8.ofNat frame.payload.length) = some (d.raw.byte (d.rawOffset + 3)) := header (by decide : 3 < 4)
  refine ⟨(Option.some.inj magic).symm, (Option.some.inj channel).symm, ?_, ?_⟩
  · rw [← Option.some.inj high, ← Option.some.inj low, value16_be16, Nat.mod_eq_of_lt frame.sized.2]
  · have tail := d.raw.read_drop d.rawOffset frame.bytes.length (by simp : 4 ≤ frame.bytes.length)
    rw [contents, Frame.length_bytes, Nat.add_sub_cancel] at tail
    exact tail.symm

theorem parse_frame (consumes : ∀ payload, rtpParse payload ≤ 0 ∨ rtpParse payload = payload.length) {d : Demux}
    {frame : Frame} {rest : List UInt8} (waiting : Waiting d (frame.bytes ++ rest)) (bounded : d.rawLength < maxBufSize) :
    let next := parse rtpParse { d with rawOffset := d.rawOffset + frame.bytes.length }
    parse rtpParse d = ⟨next.state, frame.handed :: next.events⟩ := by
  have length := waiting.length
  have small : d.rawLength < 4294967296 := Nat.lt_trans bounded (by decide)
  rw [List.length_append, Frame.length_bytes] at length
  have contents : d.raw.read (d.rawOffset + 0) frame.bytes.length = frame.bytes := by
    rw [waiting.read (by rw [List.length_append]; omega), List.drop_zero, List.take_left]
  obtain ⟨magic, channel, rtpLength, payload⟩ := frame_read contents
  have available : ¬ unsignedSub d.rawLength (d.rawOffset + 4) < frame.payload.length := by
    rw [unsignedSub_of_le (by omega) small]
    omega
  have inside : d.rawOffset < d.rawLength := by omega
  have filled : ¬ frame.payload.length = 0 := Nat.ne_of_gt frame.sized.1
  have arrived : d.rawOffset + 4 + frame.payload.length ≤ d.rawLength := by omega
  intro next
  rw [parse, if_pos inside, if_pos magic]
  dsimp only
  rw [rtpLength, if_neg filled, if_neg available, payload, consumed_eq consumes, channel, decide_eq_true arrived]
  have after : d.rawOffset + 4 + frame.payload.length = d.rawOffset + frame.bytes.length := by
    rw [Frame.length_bytes]
    omega
  rw [after]
  rfl

theorem header_of_part {d : Demux} {frame : Frame} {part : List UInt8} (waiting : Waiting d part)
    (started : part <+: frame.bytes) (nonempty : part ≠ []) (room : d.rawOffset + 3 < maxBufSize) :
    d.raw.byte d.rawOffset = 0x24 ∧
      value16 (d.raw.byte (d.rawOffset + 2)) (d.raw.byte (d.rawOffset + 3)) =
        (if part.length < 3 then 0 else if part.length = 3 then frame.payload.length / 256 * 256
          else frame.payload.length) := by
  have sized := frame.sized.2
  have magic := waiting.byte (k := 0) (by omega)
  have high := waiting.byte (k := 2) (by omega)
  have low := waiting.byte (k := 3) (by omega)
  obtain ⟨missing, whole⟩ := started
  have highOctet : frame.payload.length / 256 % 256 = frame.payload.length / 256 := by omega
  have both : frame.payload.length / 256 * 256 + frame.payload.length % 256 = frame.payload.length := by omega
  rcases part with _ | ⟨first, _ | ⟨second, _ | ⟨third, _ | ⟨fourth, more⟩⟩⟩⟩
  · exact absurd rfl nonempty
  all_goals
    simp only [Frame.bytes, be16, List.cons_append, List.nil_append, List.cons.injEq] at whole
    simp only [List.getElem?_cons_zero, List.getElem?_cons_succ, List.getElem?_nil, Option.getD_some,
      Option.getD_none, Nat.add_zero] at magic high low
    refine ⟨magic.trans whole.1, ?_⟩
    rw [high, low]
    -- the lengths decide which octets are there
    simp +arith [value16, whole, highOctet, both]

variable (rtpParse) in
/-- A part waits for the rest of its frame, unless the low octet of a long frame's length is missing. -/
theorem parse_part {d : Demux} {frame : Frame} {part : List UInt8} (waiting : Waiting d part)
    (started : part <+: frame.bytes) (unfinished : part.length < frame.bytes.length) (nonempty : part ≠ [])
    (room : d.rawOffset + 3 < maxBufSize) (bounded : d.rawLength < maxBufSize)
    (uncut : part.length = 3 → frame.payload.length < 256) : parse rtpParse d = .quiet d := by
  have length := waiting.length
  have filled := List.length_pos_of_ne_nil nonempty
  have inside : d.rawOffset < d.rawLength := by omega
  obtain ⟨magic, rtpLength⟩ := header_of_part waiting started nonempty room
  rw [Frame.length_bytes] at unfinished
  rw [parse, if_pos inside, if_pos magic]
  dsimp only
  rw [rtpLength]
  -- a length field of which nothing has arrived reads as zero, and zero also waits
  by_cases short : part.length < 3
  · rw [if_pos short, if_pos rfl]
  · rw [if_neg short]
    by_cases three : part.length = 3
    · have low : frame.payload.length / 256 * 256 = 0 := by
        have := uncut three
        omega
      rw [if_pos three, low, if_pos rfl]
    · have small : d.rawLength < 4294967296 := Nat.lt_trans bounded (by decide)
      have pending : unsignedSub d.rawLength (d.rawOffset + 4) < frame.payload.length := by
        rw [unsignedSub_of_le (by omega) small]
        omega
      rw [if_neg three, if_neg (Nat.ne_of_gt frame.sized.1), if_pos pending]

variable (rtpParse) in
/-- Three octets of a long frame are handed over as a frame of which nothing has arrived. -/
theorem parse_lost {d : Demux} {frame : Frame} {part : List UInt8} (waiting : Waiting d part)
    (started : part <+: frame.bytes) (cut : part.length = 3) (long : 256 ≤ frame.payload.length)
    (room : d.rawOffset + 3 < maxBufSize) : ∃ handed ∈ (parse rtpParse d).events, handed.arrived = false := by
  have length := waiting.length
  have sized := frame.sized.2
  have nonempty : part ≠ [] := by
    intro empty
    rw [empty] at cut
    cases cut
  have inside : d.rawOffset < d.rawLength := by omega
  obtain ⟨magic, rtpLength⟩ := header_of_part waiting started nonempty room
  rw [if_neg (by omega), if_pos cut] at rtpLength
  -- raw_length - raw_offset wraps, with raw_offset one past raw_length
  have wrapped : unsignedSub d.rawLength (d.rawOffset + 4) = 4294967295 := by
    unfold unsignedSub
    omega
  have filled : ¬ frame.payload.length / 256 * 256 = 0 := by omega
  have available : ¬ unsignedSub d.rawLength (d.rawOffset + 4) < frame.payload.length / 256 * 256 := by omega
  have missing : ¬ d.rawOffset + 4 + frame.payload.length / 256 * 256 ≤ d.rawLength := by omega
  rw [parse, if_pos inside, if_pos magic]
  dsimp only
  rw [rtpLength, if_neg filled, if_neg available]
  exact ⟨_, List.mem_cons_self, decide_eq_false missing⟩

variable (rtpParse) in
theorem parse_drained {d : Demux} (waiting : Waiting d []) : parse rtpParse d = .quiet d.clear := by
  have length := waiting.length
  have drained : ¬ d.rawOffset < d.rawLength := by
    rw [List.length_nil] at length
    omega
  rw [parse, if_neg drained]

theorem parse_frames (consumes : ∀ payload, rtpParse payload ≤ 0 ∨ rtpParse payload = payload.length)
    (frames : List Frame) {d : Demux} {part : List UInt8} (waiting : Waiting d (stream Frame.bytes frames ++ part))
    (bounded : d.rawLength < maxBufSize) :
    let next : Demux := { d with rawOffset := d.rawOffset + (stream Frame.bytes frames).length }
    Waiting next part ∧ (parse rtpParse d).state = (parse rtpParse next).state ∧
      (parse rtpParse d).events = frames.map Frame.handed ++ (parse rtpParse next).events := by
  induction frames generalizing d with
  | nil => exact ⟨waiting, rfl, rfl⟩
  | cons frame rest ih =>
      rw [stream_cons, List.append_assoc] at waiting
      obtain ⟨behind, state, events⟩ := ih waiting.skip bounded
      have first := parse_frame consumes waiting bounded
      dsimp only at first behind state events ⊢
      rw [stream_cons, List.length_append, ← Nat.add_assoc]
      refine ⟨behind, ?_, ?_⟩
      · rw [first]
        exact state
      · rw [first, List.map_cons, List.cons_append, ← events]

variable (rtpParse) in
theorem parse_rest {d : Demux} {left : List Frame} {part : List UInt8} (waiting : Waiting d part)
    (started : part <+: stream Frame.bytes left)
    (unfinished : ∀ frame ∈ left.head?, part.length < frame.bytes.length)
    (room : d.rawOffset + (stream Frame.bytes left).length < maxBufSize) (bounded : d.rawLength < maxBufSize) :
    (¬ (part.length = 3 ∧ ∃ frame ∈ left.head?, 256 ≤ frame.payload.length) ∧
        ∃ next, parse rtpParse d = .quiet next ∧ Waiting next part ∧ next.rawLength ≤ d.rawLength) ∨
      ((part.length = 3 ∧ ∃ frame ∈ left.head?, 256 ≤ frame.payload.length) ∧
        ∃ handed ∈ (parse rtpParse d).events, handed.arrived = false) := by
  by_cases empty : part = []
  · subst empty
    exact Or.inl ⟨fun cut => absurd cut.1 (by decide), d.clear, parse_drained rtpParse waiting, waiting.clear, Nat.zero_le _⟩
  · cases left with
    | nil => exact absurd (List.prefix_nil.mp started) empty
    | cons frame rest =>
        have short := unfinished frame rfl
        have own : part <+: frame.bytes :=
          List.prefix_of_prefix_length_le started (List.prefix_append _ _) (Nat.le_of_lt short)
        have near : d.rawOffset + 3 < maxBufSize := by
          rw [stream_cons, List.length_append, Frame.length_bytes] at room
          omega
        by_cases cut : part.length = 3 ∧ 256 ≤ frame.payload.length
        · exact Or.inr ⟨⟨cut.1, frame, rfl, cut.2⟩, parse_lost rtpParse waiting own cut.1 cut.2 near⟩
        · have uncut : part.length = 3 → frame.payload.length < 256 :=
            fun three => Nat.lt_of_not_le fun long => cut ⟨three, long⟩
          refine Or.inl ⟨?_, d, parse_part rtpParse waiting own short empty near bounded uncut, waiting, Nat.le_refl _⟩
          rintro ⟨three, first, head, long⟩
          cases head
          exact cut ⟨three, long⟩

/-! ### Runs -/

/-- The octets received end between the two octets of the length field of a frame of 256 or more. -/
def CutInLength (frames : List Frame) (received : List UInt8) : Prop :=
  ∃ before frame after, frames = before ++ frame :: after ∧ 256 ≤ frame.payload.length ∧
    received.length = (stream Frame.bytes before).length + 3

theorem cutInLength_iff {frames done left : List Frame} {received part : List UInt8}
    (initial : received <+: stream Frame.bytes frames) (reach : Reaches Frame.bytes frames received done left part) :
    CutInLength frames received ↔ part.length = 3 ∧ ∃ frame ∈ left.head?, 256 ≤ frame.payload.length := by
  constructor
  -- such a cut is where the reach ends, which is unique
  · rintro ⟨before, frame, after, split, long, length⟩
    have inside : stream Frame.bytes before <+: received := by
      refine List.prefix_of_prefix_length_le ?_ initial (by omega)
      rw [split, stream_append]
      exact List.prefix_append _ _
    obtain ⟨piece, same⟩ := inside
    have three : piece.length = 3 := by
      rw [← same, List.length_append] at length
      omega
    have other : Reaches Frame.bytes frames received before (frame :: after) piece := by
      refine ⟨split, same.symm, ?_, fun first head => ?_⟩
      · rw [split, stream_append, ← same, List.prefix_append_right_inj] at initial
        exact initial
      · cases head
        rw [Frame.length_bytes]
        omega
    obtain ⟨_, leftover, equal⟩ := reach.unique other
    rw [leftover, equal]
    exact ⟨three, frame, rfl, long⟩
  · rintro ⟨three, frame, head, long⟩
    cases left with
    | nil => cases head
    | cons first after =>
        cases head
        refine ⟨done, frame, after, reach.frames_eq, long, ?_⟩
        rw [reach.received_eq, List.length_append, three]

structure Progress (frames : List Frame) (received : List UInt8) (d : Demux) (events : List Handed) : Prop where
  reach : ∃ done left part, Reaches Frame.bytes frames received done left part ∧ Waiting d part ∧
    events = done.map Frame.handed
  bounded : d.rawLength ≤ received.length

variable (rtpParse) in
theorem step_waiting {d : Demux} {part chunk : List UInt8} (waiting : Waiting d part) (filled : chunk ≠ [])
    (room : d.rawLength + chunk.length < maxBufSize) :
    step rtpParse chunk d =
      parse rtpParse { d with raw := d.raw.write d.rawLength chunk, rawLength := d.rawLength + chunk.length } := by
  have same : reset d = d := if_neg (by omega)
  have whole : chunk.take (maxBufSize - d.rawLength) = chunk := List.take_of_length_le (by omega)
  rw [step, if_pos waiting.running]
  dsimp only
  rw [same, whole, if_neg filled]

/-- One recv: all frames completed are handed over, or the cut loses one. -/
theorem step_progress (consumes : ∀ payload, rtpParse payload ≤ 0 ∨ rtpParse payload = payload.length)
    {frames : List Frame} {received chunk : List UInt8} {d : Demux} {events : List Handed}
    (progress : Progress frames received d events) (filled : chunk ≠ [])
    (initial : received ++ chunk <+: stream Frame.bytes frames)
    (fits : (stream Frame.bytes frames).length < maxBufSize) :
    (¬ CutInLength frames (received ++ chunk) ∧
        Progress frames (received ++ chunk) (step rtpParse chunk d).state (events ++ (step rtpParse chunk d).events)) ∨
      (CutInLength frames (received ++ chunk) ∧ ∃ handed ∈ (step rtpParse chunk d).events, handed.arrived = false) := by
  -- the stream is followed from the frame that waits
  obtain ⟨⟨done, left, part, reach, waiting, same⟩, bounded⟩ := progress
  have total := initial.length_le
  rw [List.length_append] at total
  have ahead : part ++ chunk <+: stream Frame.bytes left := by
    rw [reach.frames_eq, reach.received_eq, stream_append, List.append_assoc, List.prefix_append_right_inj] at initial
    exact initial
  obtain ⟨more, after, next, further⟩ := exists_reach ahead
  have reached := reach.extend further
  have arrived : Waiting _ (part ++ chunk) := waiting.receive
  rw [further.received_eq] at arrived
  obtain ⟨behind, state, handed⟩ := parse_frames consumes more arrived (by dsimp only; omega)
  have place := behind.length
  have length := congrArg List.length reached.received_eq
  have whole := congrArg List.length (congrArg (stream Frame.bytes) reached.frames_eq)
  rw [List.length_append, List.length_append] at length
  rw [stream_append, List.length_append] at whole
  dsimp only at place
  rw [step_waiting rtpParse waiting filled (by omega), cutInLength_iff initial reached, state, handed]
  rcases parse_rest rtpParse behind reached.started reached.unfinished (by dsimp only; omega)
    (by dsimp only; omega) with ⟨uncut, final, rest, kept, less⟩ | ⟨cut, lost, member, missing⟩
  · rw [rest]
    refine Or.inl ⟨uncut, ⟨done ++ more, after, next, reached, kept, ?_⟩, ?_⟩
    · rw [Traced.quiet_events, List.append_nil, same, List.map_append]
    · rw [Traced.quiet_state, List.length_append]
      dsimp only at less
      omega
  · exact Or.inr ⟨cut, lost, List.mem_append_right _ member, missing⟩

def History (frames : List Frame) (front : List (List UInt8)) (d : Demux) (events : List Handed) : Prop :=
  ((∀ before, before <+: front → ¬ CutInLength frames before.flatten) ∧ Progress frames front.flatten d events) ∨
    ((∃ before, before <+: front ∧ CutInLength frames before.flatten) ∧ ∃ handed ∈ events, handed.arrived = false)

theorem history_start (frames : List Frame) (memory : Nat → UInt8) : History frames [] (.start memory) [] := by
  have reach : Reaches Frame.bytes frames [] [] frames [] := by
    refine ⟨rfl, rfl, List.nil_prefix, fun frame _ => ?_⟩
    rw [Frame.length_bytes]
    exact Nat.succ_pos _
  refine Or.inl ⟨fun before initial => ?_, ⟨[], frames, [], reach, waiting_start memory, rfl⟩, Nat.zero_le _⟩
  rw [List.prefix_nil.mp initial]
  rintro ⟨_, _, _, _, _, length⟩
  cases length

theorem history_step (consumes : ∀ payload, rtpParse payload ≤ 0 ∨ rtpParse payload = payload.length)
    {frames : List Frame} {front : List (List UInt8)} {chunk : List UInt8} {d : Demux} {events : List Handed}
    (history : History frames front d events) (filled : chunk ≠ [])
    (initial : front.flatten ++ chunk <+: stream Frame.bytes frames)
    (fits : (stream Frame.bytes frames).length < maxBufSize) :
    History frames (front ++ [chunk]) (step rtpParse chunk d).state (events ++ (step rtpParse chunk d).events) := by
  have received : (front ++ [chunk]).flatten = front.flatten ++ chunk := List.flatten_concat
  rcases history with ⟨uncut, progress⟩ | ⟨⟨before, early, cut⟩, lost, member, missing⟩
  · rcases step_progress consumes progress filled initial fits with ⟨here, next⟩ | ⟨here, lost, member, missing⟩
    · refine Or.inl ⟨fun before early => ?_, received ▸ next⟩
      rcases List.prefix_concat_iff.mp early with all | less
      · rw [all, received]
        exact here
      · exact uncut before less
    · refine Or.inr ⟨⟨front ++ [chunk], List.prefix_rfl, received ▸ here⟩, lost, ?_, missing⟩
      exact List.mem_append_right events member
  · refine Or.inr ⟨⟨before, early.trans (List.prefix_append _ _), cut⟩, lost, ?_, missing⟩
    exact List.mem_append_left _ member

/-- Whatever the cutting, frames are handed over as they are unless a cut falls between the two
octets of the length of a frame of 256 octets or more. -/
theorem handed_iff_uncut (rtpParse : List UInt8 → Int)
    (consumes : ∀ payload, rtpParse payload ≤ 0 ∨ rtpParse payload = payload.length) (memory : Nat → UInt8)
    (frames : List Frame) (fits : (stream Frame.bytes frames).length < maxBufSize) (chunks : List (List UInt8))
    (filled : ∀ chunk ∈ chunks, chunk ≠ []) (cutting : chunks.flatten = stream Frame.bytes frames) :
    (run (step rtpParse) chunks (.start memory)).events = frames.map Frame.handed ↔
      ∀ front, front <+: chunks → ¬ CutInLength frames front.flatten := by
  have history : chunks <+: chunks → History frames chunks (run (step rtpParse) chunks (.start memory)).state
      (run (step rtpParse) chunks (.start memory)).events := by
    refine run_history (P := fun front d events => front <+: chunks → History frames front d events) ?_
      (fun _ => history_start frames memory)
    intro front chunk member d events before initial
    have earlier : front <+: chunks := (List.prefix_append front [chunk]).trans initial
    have received : front.flatten ++ chunk <+: stream Frame.bytes frames := by
      obtain ⟨rest, same⟩ := initial
      rw [← cutting, ← same, List.flatten_append, List.flatten_concat]
      exact List.prefix_append _ _
    exact history_step consumes (before earlier) (filled chunk member) received fits
  -- either both sides hold or neither does
  rcases history List.prefix_rfl with ⟨uncut, progress⟩ | ⟨⟨before, early, cut⟩, lost, member, missing⟩
  · obtain ⟨⟨done, left, part, reach, _, same⟩, _⟩ := progress
    rw [cutting] at reach
    rw [same, reach.complete]
    exact ⟨fun _ => uncut, fun _ => rfl⟩
  · constructor
    · intro same
      rw [same] at member
      obtain ⟨frame, _, equal⟩ := List.mem_map.mp member
      rw [← equal] at missing
      cases missing
    · intro uncut
      exact absurd cut (uncut before early)

end

def longFrame : Frame where
  channel := 0
  payload := List.replicate 256 7
  sized := by
    rw [List.length_replicate]
    decide

def report : Frame := ⟨1, [0x80, 0xc9, 0, 1, 0, 0, 0, 1], by decide⟩

set_option maxRecDepth 10000 in
theorem handed_iff_uncut_header :
    (run (step fun payload => payload.length) [report.bytes ++ longFrame.bytes.take 4, longFrame.bytes.drop 4]
        (.start fun _ => 0)).events = [report, longFrame].map Frame.handed ↔
      ∀ front, front <+: [report.bytes ++ longFrame.bytes.take 4, longFrame.bytes.drop 4] →
        ¬ CutInLength [report, longFrame] front.flatten :=
  handed_iff_uncut (fun payload => payload.length) (fun _ => Or.inr rfl) (fun _ => 0) [report, longFrame]
    (by decide +kernel) _ (by decide +kernel) (by decide +kernel)

set_option maxRecDepth 10000 in
/-- A cut after the third octet hands over 256 octets that have not arrived, and the frame never. -/
theorem cut_loses_frame :
    [longFrame.bytes.take 3, longFrame.bytes.drop 3].flatten = stream Frame.bytes [longFrame] ∧
      (run (step fun payload => payload.length) [longFrame.bytes.take 3, longFrame.bytes.drop 3]
        (.start fun _ => 0)).events = [⟨0, List.replicate 256 0, false⟩] := by
  decide +kernel

end H264Streaming.H264Dec
