import H264Streaming.Format.Layout
import H264Streaming.Format.Payload
import H264Streaming.RtspClient.Player

/-! What the player writes for the packets of a list of NAL units.

The handler keeps no state, so the file is the concatenation of what each packet
adds. A unit travels whole or in fragments; the first fragment brings its header. -/

set_option autoImplicit false

namespace H264Streaming.RtspClient

open H264Streaming.Bytes H264Streaming.Format

structure Delivery where
  storage : Buffer
  header : List UInt8
  payload : List UInt8
  plain : header.length = 12

def Delivery.handled (delivery : Delivery) : List Action :=
  handleRtpMsg (delivery.storage.write 0 (delivery.header ++ delivery.payload))
    (delivery.header ++ delivery.payload).length

/-- The payloads that carry one unit: the unit, or fragments that repeat its F and NRI. -/
inductive Carries (unit : NalUnit) : List (List UInt8) → Prop where
  | single : 1 ≤ unitType unit.header → unitType unit.header ≤ 23 → Carries unit [unit.bytes]
  | fragmented (pieces : List (List UInt8)) : 2 ≤ pieces.length → pieces.flatten = unit.body →
      Carries unit (fragments ((unit.header &&& 0xE0) ||| 28) (unitType unit.header) true pieces)

def startCode : List UInt8 := [0, 0, 0, 1]

/-! ### One packet -/

def Writes (deliveries : List Delivery) (octets : List UInt8) : Prop :=
  ∃ chunks : List (List UInt8), deliveries.flatMap Delivery.handled = chunks.map Action.fwrite ∧
    chunks.flatten = octets

theorem Writes.nil : Writes [] [] := ⟨[], rfl, rfl⟩

theorem Writes.append {first second : List Delivery} {left right : List UInt8} (front : Writes first left)
    (back : Writes second right) : Writes (first ++ second) (left ++ right) := by
  obtain ⟨early, handledEarly, writtenEarly⟩ := front
  obtain ⟨late, handledLate, writtenLate⟩ := back
  refine ⟨early ++ late, ?_, ?_⟩
  · rw [List.flatMap_append, handledEarly, handledLate, List.map_append]
  · rw [List.flatten_append, writtenEarly, writtenLate]

theorem Delivery.read_payload (delivery : Delivery) :
    (delivery.storage.write 0 (delivery.header ++ delivery.payload)).read 12 delivery.payload.length =
      delivery.payload :=
  read_behind delivery.storage delivery.plain delivery.payload

theorem Delivery.length_datagram (delivery : Delivery) :
    ((delivery.header ++ delivery.payload).length : Int) = 12 + delivery.payload.length := by
  rw [List.length_append, delivery.plain]
  rfl

private theorem getBits_type (octet : UInt8) : getBits octet 0 5 = unitType octet := by
  revert octet
  exact forall_octet (by decide +kernel)

private theorem fragment_bits (header : UInt8) (start final : Bool) :
    unitType ((header &&& 0xE0) ||| 28) = 28 ∧
      (getBits (fuHeader start final (unitType header)) 7 1 = 1 ↔ start = true) ∧
      (getBits ((header &&& 0xE0) ||| 28) 7 1 <<< (7 : UInt8)) |||
        (getBits ((header &&& 0xE0) ||| 28) 5 2 <<< (5 : UInt8)) |||
          unitType (fuHeader start final (unitType header)) = header := by
  revert header
  exact forall_octet (by cases start <;> cases final <;> decide +kernel)

theorem handled_single (delivery : Delivery) (unit : NalUnit) (same : delivery.payload = unit.bytes)
    (typed : unitType unit.header ≤ 23) :
    delivery.handled = [.fwrite startCode, .fwrite unit.bytes] := by
  have stored := delivery.read_payload
  rw [same] at stored
  have octets := stored
  rw [NalUnit.length_bytes, Buffer.read_succ] at octets
  obtain ⟨octet, -⟩ := List.cons.inj octets
  have size := delivery.length_datagram
  rw [same] at size
  have count : (12 + unit.bytes.length : Int) - 12 = unit.bytes.length := by omega
  have below : unitType unit.header < 24 := UInt8.lt_of_le_of_lt typed (by decide)
  simp only [Delivery.handled, handleRtpMsg, writeFrom, same, size, octet, getBits_type, if_pos below, count,
    if_pos (Int.natCast_nonneg _), Int.toNat_natCast, stored]
  rfl

theorem handled_fragment (delivery : Delivery) (header : UInt8) (start final : Bool) (piece : List UInt8)
    (same : delivery.payload =
      ((header &&& 0xE0) ||| 28) :: fuHeader start final (unitType header) :: piece) :
    Writes [delivery] ((if start then startCode ++ [header] else []) ++ piece) := by
  obtain ⟨fuA, first, rebuilt⟩ := fragment_bits header start final
  have stored := delivery.read_payload
  have size := delivery.length_datagram
  rw [same, List.length_cons, List.length_cons] at stored size
  rw [Buffer.read_succ, Buffer.read_succ] at stored
  obtain ⟨indicator, second⟩ := List.cons.inj stored
  obtain ⟨fu, data⟩ := List.cons.inj second
  have count : (12 + (piece.length + 1 + 1 : Nat) : Int) - 14 = piece.length := by omega
  have other : ¬ (28 : UInt8) < 24 := by decide
  rw [Writes, List.flatMap_singleton]
  simp only [Delivery.handled, handleRtpMsg, writeFrom, same, size, indicator, fu, getBits_type, fuA, if_neg other,
    if_true, count, if_pos (Int.natCast_nonneg _), Int.toNat_natCast, data, first, rebuilt]
  cases start with
  | true =>
      rw [if_pos rfl]
      exact ⟨[startCode, [header], piece], rfl, by simp⟩
  | false =>
      rw [if_neg Bool.false_ne_true]
      exact ⟨[piece], rfl, by simp⟩

/-! ### Units -/

theorem Carries.writes {unit : NalUnit} {payloads : List (List UInt8)} (carried : Carries unit payloads)
    {deliveries : List Delivery} (same : deliveries.map Delivery.payload = payloads) :
    Writes deliveries (startCode ++ unit.bytes) := by
  cases carried with
  | single lower upper =>
      obtain ⟨delivery, rfl, payload⟩ := List.map_eq_singleton_iff.mp same
      refine ⟨[startCode, unit.bytes], ?_, by simp⟩
      rw [List.flatMap_singleton, handled_single delivery unit payload upper]
      rfl
  | fragmented pieces several split =>
      have some_piece : pieces ≠ [] := by
        rintro rfl
        exact absurd several (by decide)
      have one : ∀ delivery ∈ deliveries, ∀ start final piece,
          delivery.payload =
            ((unit.header &&& 0xE0) ||| 28) :: fuHeader start final (unitType unit.header) :: piece →
          Writes [delivery] ((if start then startCode ++ [unit.header] else []) ++ piece) :=
        fun delivery _ start final piece carried => handled_fragment delivery unit.header start final piece carried
      have written := fragments_forwarded Writes.append one some_piece same
      rwa [split, if_pos rfl, List.append_assoc] at written

/-- Whatever mixture of whole and fragmented units arrives, the file gets each unit
behind a start code. -/
theorem handled_units (units : List NalUnit) (groups : List (List (List UInt8)))
    (carried : List.Forall₂ Carries units groups) (deliveries : List Delivery)
    (same : deliveries.map Delivery.payload = groups.flatten) :
    Writes deliveries (units.flatMap fun unit => startCode ++ unit.bytes) := by
  induction carried generalizing deliveries with
  | nil =>
      rw [List.map_eq_nil_iff.mp same]
      exact .nil
  | cons here rest ih =>
      obtain ⟨first, later, rfl, front, back⟩ := List.map_eq_append_iff.mp same
      exact (here.writes front).append (ih later back)

theorem handled_units_mixed :
    let storage := Buffer.untouched fun _ => 7
    let header := List.replicate 12 0x80
    Writes
      [⟨storage, header, [0x67, 0x42], rfl⟩, ⟨storage, header, [0xFC, 0x9F, 1, 2], rfl⟩,
        ⟨storage, header, [0xFC, 0x1F, 3], rfl⟩, ⟨storage, header, [0xFC, 0x5F], rfl⟩]
      ([(⟨0x67, [0x42]⟩ : NalUnit), ⟨0xFF, [1, 2, 3]⟩].flatMap fun unit => startCode ++ unit.bytes) :=
  handled_units [⟨0x67, [0x42]⟩, ⟨0xFF, [1, 2, 3]⟩]
    [[[0x67, 0x42]], [[0xFC, 0x9F, 1, 2], [0xFC, 0x1F, 3], [0xFC, 0x5F]]]
    (.cons (.single (by decide) (by decide)) (.cons (.fragmented [[1, 2], [3], []] (by decide) rfl) .nil)) _ rfl

end H264Streaming.RtspClient
