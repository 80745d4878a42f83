import H264Streaming.Semantics.Numbering
import H264Streaming.UdpH264.RoundTrip

/-! Sequence numbers of udp_h264's sender.

The counter is a 16-bit variable, and what goes into the header is its remainder
by 65535, so the numbers follow each other up to 65534 and no further. -/

set_option autoImplicit false

namespace H264Streaming.UdpH264

open H264Streaming.Bytes H264Streaming.Format H264Streaming.Semantics

def datagrams (unit : NalUnit) : Nat :=
  if unit.bytes.length ≤ udpMaxSize then 1 else packetNum unit.bytes.length

def Server.number (s : Server) (k : Nat) : Nat := (s.seqNum + UInt16.ofNat (k + 1)).toNat % 65535

theorem number_congr {s t : Server} (same : t.seqNum = s.seqNum) : t.number = s.number := by
  funext k
  rw [Server.number, Server.number, same]

theorem sequenceNumber_header (s : Server) (k : Nat) (final : Bool) (rest : List UInt8) :
    sequenceNumber (s.header k final ++ rest) = s.number k := by
  rw [Server.header, sequenceNumber_rtpHeader]
  exact Nat.mod_eq_of_lt (Nat.lt_trans (Nat.mod_lt _ (by decide)) (by decide))

theorem sequenceNumber_fragment (s : Server) (unit : NalUnit) (k : Nat) :
    sequenceNumber (fragment s unit k) = s.number k := by
  unfold fragment
  rw [sequenceNumber_header]

theorem packetize_numbers (unit : NalUnit) (s : Server) :
    (packetize (NALU.of unit.bytes) s).state.seqNum = s.seqNum + UInt16.ofNat (datagrams unit) ∧
      (packetize (NALU.of unit.bytes) s).events.map sequenceNumber =
        (List.range (datagrams unit)).map s.number := by
  have len : (NALU.of unit.bytes).len = unit.bytes.length := rfl
  let ticked : Server := { s with tsCurrent := s.tsCurrent + timestampIncrese }
  unfold packetize datagrams
  rw [len]
  by_cases small : unit.bytes.length ≤ udpMaxSize
  · simp only [if_pos small]
    refine ⟨rfl, ?_⟩
    rw [sendSingle_events ticked unit, List.map_singleton, sequenceNumber_header, List.range_one,
      List.map_singleton, number_congr (t := ticked) (s := s) rfl]
  · simp only [if_neg small]
    obtain ⟨later, sent⟩ := sendFragments_sends ticked ticked unit small ⟨by simp, rfl⟩
    refine ⟨later.seqNum, ?_⟩
    rw [sent, List.map_map, ← number_congr (t := ticked) (s := s) rfl]
    apply List.map_congr_left
    intro k _
    rw [Function.comp_apply, sequenceNumber_fragment]

theorem sendAll_numbers (units : List NalUnit) (s : Server) :
    (sendAll units s).events.map sequenceNumber = (List.range (units.map datagrams).sum).map s.number := by
  induction units generalizing s with
  | nil => rfl
  | cons unit rest ih =>
      obtain ⟨counter, numbers⟩ := packetize_numbers unit s
      have later := ih (packetize (NALU.of unit.bytes) s).state
      unfold sendAll at later ⊢
      -- what follows is numbered behind the datagrams of this unit
      have shifted : (packetize (NALU.of unit.bytes) s).state.number = fun k => s.number (datagrams unit + k) := by
        funext k
        rw [Server.number, Server.number, counter, UInt16.add_assoc, ← UInt16.ofNat_add, ← Nat.add_assoc]
      rw [run_cons, Traced.follow_events, List.map_append, numbers, later, shifted, List.map_cons, List.sum_cons,
        List.range_add, List.map_append, List.map_map]
      rfl

/-- Numbers counted from 1 on and reduced by 65535 and 65536 are consecutive only below 65535. -/
theorem reduced_consecutive_iff (count : Nat) :
    (∀ k < count - 1, (k + 1 + 1) % 65536 % 65535 = ((k + 1) % 65536 % 65535 + 1) % 65536) ↔ count ≤ 65534 := by
  constructor
  · intro all
    by_contra more
    exact absurd (all 65533 (by omega)) (by decide)
  · intro few k bound
    omega

/-- In a run from the start of the program every datagram has the number behind
its predecessor's exactly when there are at most 65534 of them. -/
theorem sendAll_consecutive_iff (units : List NalUnit) (sendbuf : Buffer) (tsCurrent : UInt32) :
    Consecutive sequenceNumber 65536 (sendAll units ⟨sendbuf, 0, tsCurrent⟩).events ↔
      (units.map datagrams).sum ≤ 65534 := by
  have value : (⟨sendbuf, 0, tsCurrent⟩ : Server).number = fun k => (k + 1) % 65536 % 65535 := by
    funext k
    rw [Server.number, UInt16.zero_add, UInt16.toNat_ofNat']
  rw [consecutive_iff (sendAll_numbers units _), value, reduced_consecutive_iff]

/-- The 65535th datagram has the number 0. -/
theorem sendAll_not_consecutive :
    ¬ Consecutive sequenceNumber 65536 (sendAll (List.replicate 65535 ⟨0x41, []⟩) idleServer).events := by
  have count : ((List.replicate 65535 (⟨0x41, []⟩ : NalUnit)).map datagrams).sum = 65535 := by
    rw [List.map_replicate, List.sum_replicate_nat]
    rfl
  rw [consecutive_iff (sendAll_numbers _ idleServer), count]
  intro all
  exact absurd (all 65533 (by decide)) (by decide)

end H264Streaming.UdpH264
