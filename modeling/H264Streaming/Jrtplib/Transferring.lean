import H264Streaming.Jrtplib.Framing
import H264Streaming.Jrtplib.Splitter

/-! A file from the sender's main to the receiver's.

The receiver writes at a mark. A buffer without one waits for that of a later buffer,
and is written in front of it or not at all. -/

set_option autoImplicit false

namespace H264Streaming.Jrtplib

open H264Streaming.Bytes H264Streaming.Semantics

/-- Several packets that are all full: none of them has a mark. -/
def Even (h264buf : List UInt8) : Prop := maxLen < h264buf.length ∧ h264buf.length % maxLen = 0

instance (h264buf : List UInt8) : Decidable (Even h264buf) := inferInstanceAs (Decidable (_ ∧ _))

def collect (h264buf : List UInt8) (waiting : List UInt8) : Traced (List UInt8) (List UInt8) :=
  if Even h264buf then .quiet (waiting ++ h264buf) else ⟨[], [waiting ++ h264buf]⟩

structure Waits (ends : RTPSession × Receiver) (waiting : List UInt8) : Prop where
  type : ends.1.defaultPayloadType = 96
  collects : Collects ends.2 waiting
  room : waiting.length ≤ buffSize

variable {ends : RTPSession × Receiver} {waiting h264buf : List UInt8}

theorem transfer_collects (waits : Waits ends waiting) (fits : waiting.length + h264buf.length ≤ buffSize) :
    ∃ next, transfer h264buf ends = some ⟨next, (collect h264buf waiting).events⟩ ∧
      Waits next (collect h264buf waiting).state := by
  obtain ⟨⟨mark, type⟩, r⟩ := ends
  obtain ⟨rfl, held⟩ : type = 96 ∧ Collects r waiting := ⟨waits.type, waits.collects⟩
  unfold collect
  by_cases small : h264buf.length ≤ maxLen
  · have uneven : ¬ Even h264buf := fun even => Nat.not_lt.mpr small even.1
    obtain ⟨next, received, reset⟩ := receive_marked held h264buf fits
    have alone : attempt receive [] next = some (.quiet next) := rfl
    have sent : sendH264Nalu h264buf ⟨mark, 96⟩ = some ⟨⟨true, 96⟩, [⟨h264buf, true, 96⟩]⟩ := if_pos small
    rw [if_neg uneven]
    exact ⟨(⟨true, 96⟩, next), transfer_iff.mpr ⟨_, _, sent, attempt_cons received alone, rfl⟩, rfl, .empty reset, Nat.zero_le _⟩
  · have large : maxLen < h264buf.length := Nat.lt_of_not_le small
    obtain ⟨final, sent⟩ := sendH264Nalu_large large mark 96
    have sizes := length_all h264buf
    obtain ⟨middle, collected, kept⟩ := attempt_unmarked ((List.range (h264buf.length / maxLen)).map (full h264buf))
      held (by omega)
    by_cases rest : 0 < h264buf.length % maxLen
    · have uneven : ¬ Even h264buf := fun even => Nat.ne_of_gt rest even.2
      rw [lastPacket, if_pos rest] at sent
      obtain ⟨next, received, reset⟩ := receive_marked kept (h264buf.drop (h264buf.length / maxLen * maxLen))
        (by rw [List.length_append]; omega)
      rw [List.append_assoc, flatten_all] at received
      have alone : attempt receive [] next = some (.quiet next) := rfl
      have arrived := attempt_append collected (attempt_cons received alone)
      rw [if_neg uneven]
      exact ⟨(⟨final, 96⟩, next), transfer_iff.mpr ⟨_, _, sent, arrived, rfl⟩, rfl, .empty reset, Nat.zero_le _⟩
    · have even : Even h264buf := ⟨large, Nat.eq_zero_of_not_pos rest⟩
      have none : h264buf.drop (h264buf.length / maxLen * maxLen) = [] := by
        have whole := Nat.div_add_mod h264buf.length maxLen
        rw [Nat.mul_comm] at whole
        exact List.drop_eq_nil_of_le (by omega)
      have parts := flatten_all h264buf
      rw [none, List.append_nil] at parts
      rw [lastPacket, if_neg rest, List.append_nil] at sent
      rw [parts] at kept
      rw [if_pos even]
      exact ⟨(⟨final, 96⟩, middle), transfer_iff.mpr ⟨_, _, sent, collected, rfl⟩, rfl, kept,
        by rwa [← List.length_append] at fits⟩

theorem receive_room {payload : List UInt8} {marker : Bool} {r : Receiver} {received : Traced Receiver (List UInt8)}
    (arrived : receive ⟨payload, marker, 96⟩ r = some received) : r.pos + payload.length ≤ buffSize := by
  refine Nat.le_of_not_lt fun exceeds => ?_
  simp only [receive, if_true, if_pos exceeds] at arrived
  cases arrived

theorem attempt_unmarked_room (payloads : List (List UInt8)) {r : Receiver} (room : r.pos ≤ buffSize)
    {received : Traced Receiver (List UInt8)} (arrived : attempt receive (payloads.map (unmarked 96)) r = some received) :
    r.pos + payloads.flatten.length ≤ buffSize := by
  induction payloads generalizing r received with
  | nil => exact room
  | cons payload rest ih =>
      obtain ⟨first, later, here, after, -⟩ := attempt_cons_iff.mp arrived
      have fits := receive_room here
      rw [receive_unmarked, if_neg (Nat.not_lt.mpr fits)] at here
      cases here
      rw [List.flatten_cons, List.length_append, ← Nat.add_assoc]
      exact ih fits after

theorem transfer_fits (waits : Waits ends waiting) {whole : Traced (RTPSession × Receiver) (List UInt8)}
    (transferred : transfer h264buf ends = some whole) : waiting.length + h264buf.length ≤ buffSize := by
  obtain ⟨⟨mark, type⟩, r⟩ := ends
  obtain ⟨rfl, held, room⟩ : type = 96 ∧ Collects r waiting ∧ waiting.length ≤ buffSize :=
    ⟨waits.type, waits.collects, waits.room⟩
  obtain ⟨sent, received, passed, arrived, -⟩ := transfer_iff.mp transferred
  dsimp only at passed arrived
  rw [← held.pos] at room ⊢
  by_cases small : h264buf.length ≤ maxLen
  · rw [sendH264Nalu, if_pos small] at passed
    cases passed
    obtain ⟨first, later, here, -, -⟩ := attempt_cons_iff.mp arrived
    exact receive_room here
  · obtain ⟨final, same⟩ := sendH264Nalu_large (Nat.lt_of_not_le small) mark 96
    rw [same] at passed
    cases passed
    have sizes := length_all h264buf
    obtain ⟨first, later, before, after, -⟩ := attempt_append_iff.mp arrived
    have moved := attempt_unmarked_pos _ before
    have fits := attempt_unmarked_room _ room before
    by_cases rest : 0 < h264buf.length % maxLen
    · rw [lastPacket, if_pos rest] at after
      obtain ⟨marked, -, last, -, -⟩ := attempt_cons_iff.mp after
      have behind := receive_room last
      omega
    · rw [flatten_full, List.length_take] at fits
      have whole := Nat.div_add_mod h264buf.length maxLen
      rw [Nat.mul_comm] at whole
      omega

/-! ### All buffers -/

def Room (h264buf waiting : List UInt8) : Prop := waiting.length + h264buf.length ≤ buffSize

def Fit (buffers : List (List UInt8)) (waiting : List UInt8) : Prop :=
  ∀ before h264buf after, buffers = before ++ h264buf :: after → Room h264buf (run collect before waiting).state

theorem fit_cons {buffers : List (List UInt8)} :
    Fit (h264buf :: buffers) waiting ↔ Room h264buf waiting ∧ Fit buffers (collect h264buf waiting).state :=
  forall_cons_iff

theorem transfers_collect {buffers : List (List UInt8)} (waits : Waits ends waiting) (fit : Fit buffers waiting) :
    ∃ next, attempt transfer buffers ends = some ⟨next, (run collect buffers waiting).events⟩ := by
  induction buffers generalizing ends waiting with
  | nil => exact ⟨ends, rfl⟩
  | cons h264buf rest ih =>
      obtain ⟨here, later⟩ := fit_cons.mp fit
      obtain ⟨middle, transferred, kept⟩ := transfer_collects waits here
      obtain ⟨next, others⟩ := ih kept later
      exact ⟨next, attempt_cons transferred others⟩

theorem fit_of_transfers {buffers : List (List UInt8)} (waits : Waits ends waiting)
    {whole : Traced (RTPSession × Receiver) (List UInt8)} (transferred : attempt transfer buffers ends = some whole) :
    Fit buffers waiting := by
  induction buffers generalizing ends waiting whole with
  | nil => exact fun before h264buf after same => by simp at same
  | cons h264buf rest ih =>
      obtain ⟨first, later, here, after, -⟩ := attempt_cons_iff.mp transferred
      have fits := transfer_fits waits here
      obtain ⟨middle, same, kept⟩ := transfer_collects waits fits
      rw [here] at same
      cases same
      exact fit_cons.mpr ⟨fits, ih kept after⟩

theorem run_collect_flatten (buffers : List (List UInt8)) (waiting : List UInt8) :
    (run collect buffers waiting).events.flatten ++ (run collect buffers waiting).state = waiting ++ buffers.flatten := by
  induction buffers generalizing waiting with
  | nil => exact (List.append_nil waiting).symm
  | cons h264buf rest ih =>
      have here : (collect h264buf waiting).events.flatten ++ (collect h264buf waiting).state = waiting ++ h264buf := by
        unfold collect
        split
        · rfl
        · simp
      rw [run_cons, Traced.follow_events, Traced.follow_state, List.flatten_append, List.append_assoc, ih,
        ← List.append_assoc, here, List.flatten_cons, List.append_assoc]

theorem run_collect_empty_iff (front : List (List UInt8)) (last : List UInt8) :
    (run collect (front ++ [last]) []).state = [] ↔ ¬ Even last := by
  rw [run_snoc, Traced.follow_state, collect]
  split
  · next even =>
    refine iff_of_false (fun empty => ?_) (not_not.mpr even)
    have size := congrArg List.length empty
    have long := even.1
    simp only [Traced.quiet_state, List.length_append, List.length_nil] at size
    omega
  · next uneven => exact iff_of_true rfl uneven

end H264Streaming.Jrtplib
