import H264Streaming.Bytes.Fields
import H264Streaming.Format.Payload
import H264Streaming.Format.Rtp

/-! What the bit-field structures of the senders amount to as octets, and how a
unit is cut when its first octet travels in the FU header.
-/

set_option autoImplicit false

namespace H264Streaming.Format

open H264Streaming.Bytes

/-! ### Assignments that cover an octet -/

theorem version_bits (octet : UInt8) :
    putBits (putBits (putBits (putBits octet 0 4 0) 4 1 0) 5 1 0) 6 2 2 = 0x80 := by
  revert octet
  exact forall_octet (by decide +kernel)

theorem marker_type_bits (octet : UInt8) (final : Bool) :
    putBits (putBits octet 7 1 (bit final)) 0 7 96 = 0x60 ||| (bit final <<< (7 : UInt8)) := by
  revert octet
  exact forall_octet (by cases final <;> decide +kernel)

theorem type_marker_bits (octet : UInt8) (final : Bool) :
    putBits (putBits octet 0 7 96) 7 1 (bit final) = 0x60 ||| (bit final <<< (7 : UInt8)) := by
  revert octet
  exact forall_octet (by cases final <;> decide +kernel)

theorem header_bits (octet : UInt8) :
    putBits (putBits (putBits 0 7 1 ((octet &&& 0x80) >>> (7 : UInt8))) 5 2 ((octet &&& 0x60) >>> (5 : UInt8))) 0 5
      (octet &&& 0x1f) = octet := by
  revert octet
  exact forall_octet (by decide +kernel)

private theorem putBits_type (octet value : UInt8) :
    putBits octet 0 5 value = (octet &&& 0xE0) ||| (value &&& 0x1F) := by
  have mask : ~~~(0x1F : UInt8) = 0xE0 := by decide
  have unshifted : value <<< (0 : UInt8) = value := by simp
  rw [← mask]
  conv => rhs; rw [← unshifted]
  rfl

theorem fu_bits (octet header : UInt8) (start final : Bool) :
    putBits (putBits (putBits (putBits octet 7 1 (bit start)) 6 1 (bit final)) 5 1 0) 0 5 (header &&& 0x1f) =
      fuHeader start final (unitType header) := by
  have flags : putBits (putBits (putBits octet 7 1 (bit start)) 6 1 (bit final)) 5 1 0 &&& 0xE0 =
      (if start then 0x80 else 0) ||| (if final then 0x40 else 0) := by
    revert octet
    exact forall_octet (by cases start <;> cases final <;> decide +kernel)
  rw [putBits_type, flags]
  revert header
  exact forall_octet (by cases start <;> cases final <;> decide +kernel)

/-! ### A packet read from a buffer -/

theorem read_packet {b : Buffer} {front : List UInt8} {offset : Nat} (filled : b.read 0 offset = front)
    (payload : List UInt8) {size : Nat} (sized : size = payload.length) :
    (b.write offset payload).read 0 (offset + size) = front ++ payload := by
  rw [Buffer.read_write_extend b payload offset size sized, filled]

theorem read_two {b : Buffer} {header : List UInt8} (headed : b.read 0 12 = header) :
    b.read 0 14 = header ++ [b.byte 12, b.byte 13] := by
  rw [show 14 = 12 + 2 from rfl, Buffer.read_add, headed]
  rfl

theorem read_behind (b : Buffer) {header : List UInt8} (headed : header.length = 12) (rest : List UInt8) :
    (b.write 0 (header ++ rest)).read 12 rest.length = rest := by
  have bound : 12 + rest.length ≤ (header ++ rest).length := by
    rw [List.length_append]
    omega
  have inside := Buffer.read_write_inside b 0 _ bound
  rw [Nat.zero_add, ← headed, List.drop_left, List.take_length] at inside
  rwa [headed] at inside

theorem read_entry {b : Buffer} {offset : Nat} {unit : List UInt8} (held : b.read offset (entry unit).length = entry unit)
    (sized : unit.length < 65536) :
    value16 (b.byte offset) (b.byte (offset + 1)) = unit.length ∧ b.read (offset + 2) unit.length = unit := by
  rw [length_entry, Buffer.read_succ, Buffer.read_succ, entry, be16] at held
  obtain ⟨high, tail⟩ := List.cons.inj held
  obtain ⟨low, octets⟩ := List.cons.inj tail
  refine ⟨?_, octets⟩
  rw [high, low, value16_be16, Nat.mod_eq_of_lt sized]

/-! ### Cutting a unit -/

/-- The octets of the k-th piece: `size - 1` after the first octet, then `size` at a time. -/
def piece (size : Nat) (octets : List UInt8) (k : Nat) : List UInt8 :=
  if k = 0 then (octets.drop 1).take (size - 1) else (octets.drop (size * k)).take size

theorem length_piece_le {size : Nat} (octets : List UInt8) (k : Nat) : (piece size octets k).length ≤ size := by
  unfold piece
  split <;> rw [List.length_take] <;> omega

/-- How many pieces a unit takes that does not fit into one, and how long the last one is. -/
theorem count_bounds {size len : Nat} (positive : 0 < size) (large : ¬ len ≤ size) :
    let count := if len % size ≠ 0 then len / size + 1 else len / size
    let last := if len % size ≠ 0 then len % size else size
    2 ≤ count ∧ len ≤ size * count ∧ size * (count - 1) + last = len ∧ last ≤ size := by
  have whole := Nat.div_add_mod len size
  have below := Nat.mod_lt len positive
  have some_piece : 1 ≤ len / size := Nat.div_pos (Nat.le_of_not_le large) positive
  by_cases rest : len % size ≠ 0
  · simp only [if_pos rest, Nat.mul_succ, Nat.add_sub_cancel]
    omega
  · -- the pieces come out even, and one alone would not be large
    simp only [if_neg rest]
    obtain ⟨before, count⟩ := Nat.exists_eq_succ_of_ne_zero (Nat.ne_of_gt some_piece)
    rw [count, Nat.mul_succ] at whole
    have more : before ≠ 0 := by
      intro alone
      rw [alone, Nat.mul_zero] at whole
      omega
    rw [count, Nat.mul_succ, Nat.succ_sub_one]
    omega

theorem flatten_pieces {size : Nat} (positive : 0 < size) {octets : List UInt8} (nonempty : octets ≠ [])
    (count : Nat) :
    ((List.range (count + 1)).map (piece size octets)).flatten = (octets.take (size * (count + 1))).drop 1 := by
  induction count with
  | zero => simp [piece, List.drop_take]
  | succ count ih =>
      have some_octet : 1 ≤ (octets.take (size * (count + 1))).length := by
        have some_unit := List.length_pos_iff.mpr nonempty
        have some_piece : 0 < size * (count + 1) := Nat.mul_pos positive (Nat.succ_pos count)
        rw [List.length_take]
        omega
      rw [List.range_succ, List.map_append, List.flatten_append, ih, Nat.mul_succ size (count + 1),
        List.take_add, List.drop_append_of_le_length some_octet]
      simp [piece]

theorem flatten_pieces_all {size : Nat} (positive : 0 < size) {octets : List UInt8} (nonempty : octets ≠ [])
    {count : Nat} (several : 0 < count) (covers : octets.length ≤ size * count) :
    ((List.range count).map (piece size octets)).flatten = octets.drop 1 := by
  obtain ⟨before, rfl⟩ := Nat.exists_eq_succ_of_ne_zero (Nat.ne_of_gt several)
  rw [flatten_pieces positive nonempty, List.take_of_length_le covers]

end H264Streaming.Format
