import H264Streaming.Jrtplib.Session

/-! Whether the receiver gets the sender's buffers back one by one.

Its only delimiter is the marker. The sender marks the rest of a buffer behind the
full packets; a longer buffer that comes out even has no rest, and no mark. -/

set_option autoImplicit false

namespace H264Streaming.Jrtplib

open H264Streaming.Bytes H264Streaming.Semantics

/-! ### What is sent -/

def unmarked (type : UInt8) (payload : List UInt8) : RTPPacket := ⟨payload, false, type⟩

def full (h264buf : List UInt8) (k : Nat) : List UInt8 := (h264buf.drop (k * maxLen)).take maxLen

theorem flatten_full (h264buf : List UInt8) (count : Nat) :
    ((List.range count).map (full h264buf)).flatten = h264buf.take (count * maxLen) := by
  induction count with
  | zero => rw [Nat.zero_mul, List.take_zero]; rfl
  | succ count ih =>
      rw [List.range_succ, List.map_append, List.flatten_append, ih, Nat.succ_mul, List.take_add]
      simp [full]

def lastPacket (h264buf : List UInt8) (type : UInt8) : List RTPPacket :=
  if 0 < h264buf.length % maxLen then [⟨h264buf.drop (h264buf.length / maxLen * maxLen), true, type⟩] else []

theorem sendLoop_sends (h264buf : List UInt8) {all : Nat} (quotient : h264buf.length / maxLen = all)
    (some_packet : 0 < all) (left k iterations : Nat) (here : k + left = all) (enough : left + 2 ≤ iterations)
    (sess : RTPSession) :
    ∃ mark, sendLoop h264buf all (h264buf.length % maxLen) iterations k sess =
      some ⟨⟨mark, sess.defaultPayloadType⟩,
        (List.range' k left).map (fun k => unmarked sess.defaultPayloadType (full h264buf k)) ++
          lastPacket h264buf sess.defaultPayloadType⟩ := by
  induction left generalizing k iterations sess with
  | zero =>
      obtain ⟨more, rfl⟩ := Nat.exists_eq_add_of_le' enough
      have finished : sendLoop h264buf all (h264buf.length % maxLen) (more + 1) (k + 1) =
          fun sess => some (.quiet sess) := by
        funext sess
        rw [sendLoop, if_neg (by omega)]
      rw [sendLoop]
      by_cases rest : 0 < h264buf.length % maxLen
      · have whole : (h264buf.drop (k * maxLen)).take (h264buf.length - k * maxLen) = h264buf.drop (k * maxLen) := by
          rw [← List.length_drop, List.take_length]
        have reached : h264buf.length / maxLen = k := by omega
        rw [if_pos (by omega), if_neg (by omega), if_pos (by omega)]
        simp only [if_pos rest, whole, finished, lastPacket, reached]
        exact ⟨true, rfl⟩
      · rw [if_neg (by omega), lastPacket, if_neg rest]
        exact ⟨sess.defaultMark, rfl⟩
  | succ left ih =>
      obtain ⟨more, rfl⟩ := Nat.exists_eq_add_of_le' (show 1 ≤ iterations by omega)
      obtain ⟨mark, sent⟩ := ih (k + 1) more (by omega) (by omega) (sess.setDefaultMark false)
      rw [sendLoop, if_pos (by omega), if_pos (by omega)]
      simp only [RTPSession.sendPacket, sent]
      exact ⟨mark, rfl⟩

theorem sendH264Nalu_large {h264buf : List UInt8} (large : maxLen < h264buf.length) (mark : Bool) (type : UInt8) :
    ∃ final, sendH264Nalu h264buf ⟨mark, type⟩ = some ⟨⟨final, type⟩,
      ((List.range (h264buf.length / maxLen)).map (full h264buf)).map (unmarked type) ++ lastPacket h264buf type⟩ := by
  have some_packet : 0 < h264buf.length / maxLen := Nat.div_pos (Nat.le_of_lt large) (by decide)
  obtain ⟨final, sent⟩ := sendLoop_sends h264buf rfl some_packet (h264buf.length / maxLen) 0 _ (Nat.zero_add _)
    (Nat.le_refl _) ⟨mark, type⟩
  rw [sendH264Nalu, if_neg (Nat.not_le.mpr large), List.map_map, List.range_eq_range']
  exact ⟨final, sent⟩

/-! ### What is received -/

structure Collects (r : Receiver) (content : List UInt8) : Prop where
  pos : r.pos = content.length
  read : r.buff.read 0 r.pos = content

theorem Collects.empty {r : Receiver} (reset : r.pos = 0) : Collects r [] :=
  ⟨reset, by rw [reset]; rfl⟩

theorem Collects.store {r : Receiver} {content : List UInt8} (held : Collects r content) (payload : List UInt8) :
    Collects ⟨r.buff.write r.pos payload, r.pos + payload.length⟩ (content ++ payload) where
  pos := by rw [held.pos, List.length_append]
  read := by rw [Buffer.read_write_extend _ payload _ _ rfl, held.read]

theorem receive_unmarked (payload : List UInt8) (r : Receiver) :
    receive (unmarked 96 payload) r =
      if buffSize < r.pos + payload.length then none
      else some (.quiet ⟨r.buff.write r.pos payload, r.pos + payload.length⟩) :=
  rfl

theorem attempt_unmarked (payloads : List (List UInt8)) {r : Receiver} {content : List UInt8}
    (held : Collects r content) (fits : content.length + payloads.flatten.length ≤ buffSize) :
    ∃ next, attempt receive (payloads.map (unmarked 96)) r = some (.quiet next) ∧
      Collects next (content ++ payloads.flatten) := by
  induction payloads generalizing r content with
  | nil => exact ⟨r, rfl, by rwa [List.flatten_nil, List.append_nil]⟩
  | cons payload rest ih =>
      rw [List.flatten_cons, List.length_append] at fits
      have room : ¬ buffSize < r.pos + payload.length := by
        rw [held.pos]
        omega
      obtain ⟨next, received, collected⟩ := ih (held.store payload) (by rw [List.length_append]; omega)
      have here := receive_unmarked payload r
      rw [if_neg room] at here
      refine ⟨next, attempt_cons here received, ?_⟩
      rwa [List.append_assoc] at collected

theorem attempt_unmarked_pos (payloads : List (List UInt8)) {r : Receiver} {received : Traced Receiver (List UInt8)}
    (arrived : attempt receive (payloads.map (unmarked 96)) r = some received) :
    received.state.pos = r.pos + payloads.flatten.length := by
  induction payloads generalizing r received with
  | nil =>
      cases arrived
      rfl
  | cons payload rest ih =>
      obtain ⟨first, later, here, after, rfl⟩ := attempt_cons_iff.mp arrived
      rw [receive_unmarked] at here
      split at here
      · cases here
      · cases here
        rw [ih after, List.flatten_cons, List.length_append, ← Nat.add_assoc]
        rfl

theorem receive_marked {r : Receiver} {content : List UInt8} (held : Collects r content) (payload : List UInt8)
    (fits : content.length + payload.length ≤ buffSize) :
    ∃ next, receive ⟨payload, true, 96⟩ r = some ⟨next, [content ++ payload]⟩ ∧ next.pos = 0 := by
  have room : ¬ buffSize < r.pos + payload.length := by
    rw [held.pos]
    omega
  have flushed := (held.store payload).read
  dsimp only at flushed
  refine ⟨⟨r.buff.write r.pos payload, 0⟩, ?_, rfl⟩
  simp [receive, room, flushed]

/-! ### One buffer -/

structure Ready (ends : RTPSession × Receiver) : Prop where
  type : ends.1.defaultPayloadType = 96
  pos : ends.2.pos = 0

/-- The buffer fits into the receiver's, and if it is longer than a packet it does not come out even. -/
def Framed (h264buf : List UInt8) : Prop :=
  h264buf.length ≤ buffSize ∧ (maxLen < h264buf.length → h264buf.length % maxLen ≠ 0)

theorem flatten_all (h264buf : List UInt8) :
    ((List.range (h264buf.length / maxLen)).map (full h264buf)).flatten ++
      h264buf.drop (h264buf.length / maxLen * maxLen) = h264buf := by
  rw [flatten_full, List.take_append_drop]

theorem length_all (h264buf : List UInt8) :
    ((List.range (h264buf.length / maxLen)).map (full h264buf)).flatten.length +
      (h264buf.drop (h264buf.length / maxLen * maxLen)).length = h264buf.length := by
  rw [← List.length_append, flatten_all]

theorem transfer_iff {h264buf : List UInt8} {ends : RTPSession × Receiver}
    {whole : Traced (RTPSession × Receiver) (List UInt8)} :
    transfer h264buf ends = some whole ↔
      ∃ sent received, sendH264Nalu h264buf ends.1 = some sent ∧ attempt receive sent.events ends.2 = some received ∧
        whole = ⟨(sent.state, received.state), received.events⟩ := by
  simp only [transfer, Option.bind_eq_bind, Option.bind_eq_some_iff]
  constructor
  · rintro ⟨sent, passed, received, arrived, same⟩
    cases same
    exact ⟨sent, received, passed, arrived, rfl⟩
  · rintro ⟨sent, received, passed, arrived, rfl⟩
    exact ⟨sent, passed, received, arrived, rfl⟩

theorem transfer_framed {ends : RTPSession × Receiver} (ready : Ready ends) {h264buf : List UInt8}
    (framed : Framed h264buf) :
    ∃ next, transfer h264buf ends = some ⟨next, [h264buf]⟩ ∧ Ready next := by
  obtain ⟨⟨mark, type⟩, r⟩ := ends
  obtain rfl : type = 96 := ready.type
  have empty : Collects r [] := Collects.empty ready.pos
  obtain ⟨fits, uneven⟩ := framed
  by_cases small : h264buf.length ≤ maxLen
  · obtain ⟨next, received, reset⟩ := receive_marked empty h264buf (by rwa [List.length_nil, Nat.zero_add])
    have alone : attempt receive [] next = some (.quiet next) := rfl
    have sent : sendH264Nalu h264buf ⟨mark, 96⟩ = some ⟨⟨true, 96⟩, [⟨h264buf, true, 96⟩]⟩ := if_pos small
    exact ⟨(⟨true, 96⟩, next), transfer_iff.mpr ⟨_, _, sent, attempt_cons received alone, rfl⟩, rfl, reset⟩
  · have large : maxLen < h264buf.length := Nat.lt_of_not_le small
    obtain ⟨final, sent⟩ := sendH264Nalu_large large mark 96
    have sizes := length_all h264buf
    rw [lastPacket, if_pos (Nat.pos_of_ne_zero (uneven large))] at sent
    -- the full packets are collected, the rest completes them
    obtain ⟨middle, collected, held⟩ := attempt_unmarked ((List.range (h264buf.length / maxLen)).map (full h264buf))
      empty (by rw [List.length_nil]; omega)
    obtain ⟨next, received, reset⟩ := receive_marked held (h264buf.drop (h264buf.length / maxLen * maxLen))
      (by rw [List.nil_append]; omega)
    rw [List.nil_append, flatten_all] at received
    have alone : attempt receive [] next = some (.quiet next) := rfl
    have arrived := attempt_append collected (attempt_cons received alone)
    exact ⟨(⟨final, 96⟩, next), transfer_iff.mpr ⟨_, _, sent, arrived, rfl⟩, rfl, reset⟩

theorem framed_of_transfer {ends : RTPSession × Receiver} (ready : Ready ends) {h264buf : List UInt8}
    {whole : Traced (RTPSession × Receiver) (List UInt8)} (transferred : transfer h264buf ends = some whole)
    (reset : whole.state.2.pos = 0) : Framed h264buf := by
  obtain ⟨⟨mark, type⟩, r⟩ := ends
  obtain rfl : type = 96 := ready.type
  have start : r.pos = 0 := ready.pos
  obtain ⟨sent, received, passed, arrived, rfl⟩ := transfer_iff.mp transferred
  dsimp only at passed arrived reset
  by_cases small : h264buf.length ≤ maxLen
  · exact ⟨Nat.le_trans small (by decide), fun large => absurd large (Nat.not_lt.mpr small)⟩
  · have large : maxLen < h264buf.length := Nat.lt_of_not_le small
    obtain ⟨final, same⟩ := sendH264Nalu_large large mark 96
    rw [same] at passed
    cases passed
    have sizes := length_all h264buf
    obtain ⟨first, later, before, after, rfl⟩ := attempt_append_iff.mp arrived
    have moved := attempt_unmarked_pos _ before
    rw [start, Nat.zero_add] at moved
    by_cases rest : 0 < h264buf.length % maxLen
    · -- the marked packet did not pass the end of the buffer
      rw [lastPacket, if_pos rest] at after
      obtain ⟨marked, -, last, -, -⟩ := attempt_cons_iff.mp after
      have room : ¬ buffSize < first.state.pos + (h264buf.drop (h264buf.length / maxLen * maxLen)).length := by
        intro exceeds
        simp only [receive, if_true, if_pos exceeds] at last
        cases last
      exact ⟨by omega, fun _ => Nat.ne_of_gt rest⟩
    · -- nothing was marked, and the octets are still there
      rw [lastPacket, if_neg rest] at after
      cases after
      rw [Traced.quiet_state, moved, flatten_full, List.length_take] at reset
      have whole := Nat.div_add_mod h264buf.length maxLen
      rw [Nat.mul_comm] at whole
      omega

/-! ### All buffers -/

/-- Call by call, the receiver writes exactly the buffer of the call, at its last
packet, and holds nothing back. -/
def Transfers : List (List UInt8) → RTPSession × Receiver → Prop
  | [], _ => True
  | h264buf :: rest, ends => ∃ next, transfer h264buf ends = some ⟨next, [h264buf]⟩ ∧ next.2.pos = 0 ∧
      Transfers rest next

/-- The buffers arrive one by one exactly when each fits into the receiver's buffer
and none longer than a packet is a multiple of the packet length. -/
theorem transfers_iff (buffers : List (List UInt8)) (mark : Bool) (buff : Buffer) :
    Transfers buffers (⟨mark, 96⟩, ⟨buff, 0⟩) ↔ ∀ h264buf ∈ buffers, Framed h264buf := by
  suffices all : ∀ ends, Ready ends → (Transfers buffers ends ↔ ∀ h264buf ∈ buffers, Framed h264buf) from
    all _ ⟨rfl, rfl⟩
  induction buffers with
  | nil => exact fun ends _ => ⟨fun _ _ member => absurd member List.not_mem_nil, fun _ => trivial⟩
  | cons h264buf rest ih =>
      intro ends ready
      rw [List.forall_mem_cons]
      constructor
      · rintro ⟨next, transferred, reset, later⟩
        have framed := framed_of_transfer ready transferred reset
        obtain ⟨same, written, kept⟩ := transfer_framed ready framed
        rw [transferred] at written
        cases written
        exact ⟨framed, (ih next kept).mp later⟩
      · rintro ⟨framed, others⟩
        obtain ⟨next, transferred, kept⟩ := transfer_framed ready framed
        exact ⟨next, transferred, kept.pos, (ih next kept).mpr others⟩

/-- A buffer of two full packets: no packet is marked and nothing is written. -/
theorem transfers_even : ¬ Transfers [List.replicate 2600 1] (⟨true, 96⟩, ⟨.untouched fun _ => 0, 0⟩) := by
  rintro ⟨next, transferred, reset, -⟩
  have framed := framed_of_transfer ⟨rfl, rfl⟩ transferred reset
  rw [Framed, List.length_replicate] at framed
  exact absurd (framed.2 (by decide)) (by decide)

end H264Streaming.Jrtplib
