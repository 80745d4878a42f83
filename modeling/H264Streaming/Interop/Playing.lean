import H264Streaming.Format.AnnexB
import H264Streaming.RtspClient.Depacketizing

/-! What the player of rtsp_client writes for the datagrams of another program of the repository. -/

set_option autoImplicit false

namespace H264Streaming.Interop

open H264Streaming.Bytes H264Streaming.Format H264Streaming.Semantics
open H264Streaming.RtspClient (Delivery Writes startCode)

def played (datagram : List UInt8) : List RtspClient.Action :=
  RtspClient.handleRtpMsg (RtspClient.recvRtp (some datagram)).1 (RtspClient.recvRtp (some datagram)).2

/-- For these datagrams the player writes these octets to its file, and does nothing else. -/
def Plays (datagrams : List (List UInt8)) (octets : List UInt8) : Prop :=
  ∃ chunks : List (List UInt8), datagrams.flatMap played = chunks.map RtspClient.Action.fwrite ∧ chunks.flatten = octets

theorem Plays.nil : Plays [] [] := ⟨[], rfl, rfl⟩

theorem Plays.append {first second : List (List UInt8)} {left right : List UInt8} (front : Plays first left)
    (back : Plays second right) : Plays (first ++ second) (left ++ right) := by
  obtain ⟨early, playedEarly, writtenEarly⟩ := front
  obtain ⟨late, playedLate, writtenLate⟩ := back
  refine ⟨early ++ late, ?_, ?_⟩
  · rw [List.flatMap_append, playedEarly, playedLate, List.map_append]
  · rw [List.flatten_append, writtenEarly, writtenLate]

theorem plays_each {octets : Nat → List UInt8} (datagrams : List (List UInt8)) (start : Nat)
    (each : ∀ k datagram, datagrams[k]? = some datagram → Plays [datagram] (octets (start + k))) :
    Plays datagrams ((List.range' start datagrams.length).flatMap octets) := by
  induction datagrams generalizing start with
  | nil => exact .nil
  | cons datagram rest ih =>
      have here := each 0 datagram rfl
      have later := ih (start + 1) fun k other found => by
        rw [Nat.add_assoc, Nat.add_comm 1]
        exact each (k + 1) other found
      exact here.append later

theorem Plays.unique {datagrams : List (List UInt8)} {first second : List UInt8} (one : Plays datagrams first)
    (other : Plays datagrams second) : first = second := by
  obtain ⟨chunks, played, rfl⟩ := one
  obtain ⟨others, again, rfl⟩ := other
  have injective : Function.Injective RtspClient.Action.fwrite := fun _ _ same => RtspClient.Action.fwrite.inj same
  rw [List.map_injective_iff.mpr injective (played.symm.trans again)]

/-! ### Datagrams as deliveries -/

theorem exists_deliveries {group : List (List UInt8)} (headed : ∀ datagram ∈ group, 12 ≤ datagram.length) :
    ∃ deliveries : List Delivery, deliveries.map Delivery.payload = group.map (·.drop 12) ∧
      deliveries.flatMap Delivery.handled = group.flatMap played := by
  induction group with
  | nil => exact ⟨[], rfl, rfl⟩
  | cons datagram rest ih =>
      obtain ⟨long, others⟩ := List.forall_mem_cons.mp headed
      obtain ⟨deliveries, payloads, handled⟩ := ih others
      let delivery : Delivery := ⟨.untouched fun _ => 0, datagram.take 12, datagram.drop 12, List.length_take_of_le long⟩
      have whole : delivery.header ++ delivery.payload = datagram := List.take_append_drop 12 datagram
      have same : delivery.handled = played datagram := by
        rw [Delivery.handled, whole]
        rfl
      exact ⟨delivery :: deliveries, by rw [List.map_cons, List.map_cons, payloads],
        by rw [List.flatMap_cons, List.flatMap_cons, handled, same]⟩

/-- What is known of any packets with these payloads holds of the datagrams. -/
theorem plays_of_writes {group : List (List UInt8)} {octets : List UInt8}
    (headed : ∀ datagram ∈ group, 12 ≤ datagram.length)
    (writes : ∀ deliveries : List Delivery, deliveries.map Delivery.payload = group.map (·.drop 12) →
      Writes deliveries octets) : Plays group octets := by
  obtain ⟨deliveries, payloads, handled⟩ := exists_deliveries headed
  obtain ⟨chunks, ran, written⟩ := writes deliveries payloads
  exact ⟨chunks, handled.symm.trans ran, written⟩

theorem plays_packet {header payload octets : List UInt8} (plain : header.length = 12)
    (writes : ∀ delivery : Delivery, delivery.payload = payload → Writes [delivery] octets) :
    Plays [header ++ payload] octets := by
  refine plays_of_writes ?_ fun deliveries same => ?_
  · intro datagram member
    rw [List.mem_singleton.mp member, List.length_append, plain]
    exact Nat.le_add_right 12 _
  · rw [List.map_singleton, List.drop_left' plain] at same
    obtain ⟨delivery, rfl, carried⟩ := List.map_eq_singleton_iff.mp same
    exact writes delivery carried

/-! ### Copies -/

def copied (units : List NalUnit) : List UInt8 := units.flatMap fun unit => startCode ++ unit.bytes

theorem annexB_copied (coded : List CodedUnit) :
    annexB (coded.map fun coded => ⟨true, coded.unit⟩) = copied (coded.map CodedUnit.unit) := by
  induction coded with
  | nil => rfl
  | cons first rest ih =>
      rw [List.map_cons, List.map_cons, annexB_cons, ih]
      rfl

end H264Streaming.Interop
