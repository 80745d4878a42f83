import H264Streaming.Bytes.Text

/-! Base64: three octets as four letters of an alphabet of 64, the last group padded with equals signs. -/

set_option autoImplicit false

namespace H264Streaming.Format.Base64

open H264Streaming.Bytes

def alphabet : List UInt8 := ascii "ABCDEFGHIJKLMNOPQRSTUVWXYZabcdefghijklmnopqrstuvwxyz0123456789+/"

def letter (value : Nat) : UInt8 := alphabet.getD value 0

def group (a b c : UInt8) : List UInt8 :=
  [letter (a.toNat / 4), letter (a.toNat % 4 * 16 + b.toNat / 16), letter (b.toNat % 16 * 4 + c.toNat / 64),
    letter (c.toNat % 64)]

def encode : List UInt8 → List UInt8
  | a :: b :: c :: rest => group a b c ++ encode rest
  | [a, b] => (group a b 0).take 3 ++ [61]
  | [a] => (group a 0 0).take 2 ++ [61, 61]
  | [] => []

def missing (octets : List UInt8) : Nat := (3 - octets.length % 3) % 3

theorem missing_cons (a b c : UInt8) (rest : List UInt8) : missing (a :: b :: c :: rest) = missing rest := by
  unfold missing
  simp only [List.length_cons]
  omega

def filledUp (octets : List UInt8) : List UInt8 := octets ++ List.replicate (missing octets) 0

theorem length_filledUp (octets : List UInt8) : (filledUp octets).length = octets.length + missing octets := by
  rw [filledUp, List.length_append, List.length_replicate]

theorem filledUp_of_whole {octets : List UInt8} (whole : missing octets = 0) : filledUp octets = octets := by
  rw [filledUp, whole, List.replicate_zero, List.append_nil]

theorem missing_eq_zero_iff (octets : List UInt8) : missing octets = 0 ↔ 3 ∣ octets.length := by
  unfold missing
  omega

theorem length_flatten_le (pieces : List (List UInt8)) : pieces.flatten.length ≤ (pieces.flatMap filledUp).length := by
  induction pieces with
  | nil => exact Nat.le_refl 0
  | cons piece rest ih =>
      rw [List.flatMap_cons, List.flatten_cons, List.length_append, List.length_append, length_filledUp]
      omega

/-- Pieces are filled up to what they are together exactly where each is of whole groups. -/
theorem filledUp_eq_iff (pieces : List (List UInt8)) :
    pieces.flatMap filledUp = pieces.flatten ↔ ∀ piece ∈ pieces, 3 ∣ piece.length := by
  induction pieces with
  | nil => simp
  | cons piece rest ih =>
      simp only [List.forall_mem_cons, List.flatMap_cons, List.flatten_cons]
      constructor
      · intro same
        have lengths := congrArg List.length same
        rw [List.length_append, List.length_append, length_filledUp] at lengths
        have none : missing piece = 0 := by
          have := length_flatten_le rest
          omega
        rw [filledUp_of_whole none] at same
        exact ⟨(missing_eq_zero_iff piece).mp none, ih.mp (List.append_cancel_left same)⟩
      · rintro ⟨whole, later⟩
        rw [filledUp_of_whole ((missing_eq_zero_iff piece).mpr whole), ih.mpr later]

theorem letter_plain : ∀ value < 64, letter value ∈ alphabet ∧ letter value ≠ 61 := by decide +kernel

theorem values_lt (a b c : UInt8) :
    a.toNat / 4 < 64 ∧ a.toNat % 4 * 16 + b.toNat / 16 < 64 ∧ b.toNat % 16 * 4 + c.toNat / 64 < 64 ∧ c.toNat % 64 < 64 := by
  have first := a.toNat_lt
  have second := b.toNat_lt
  have third := c.toNat_lt
  omega

theorem length_encode (octets : List UInt8) : (encode octets).length = (octets.length + 2) / 3 * 4 := by
  induction octets using encode.induct with
  | case1 a b c rest ih =>
      rw [encode, List.length_append, ih]
      simp only [group, List.length_cons, List.length_nil]
      omega
  | case2 a b => simp [encode, group]
  | case3 a => simp [encode, group]
  | case4 => simp [encode]

theorem mem_encode {octets : List UInt8} {octet : UInt8} (member : octet ∈ encode octets) :
    octet ∈ alphabet ∨ octet = 61 := by
  have letters : ∀ a b c, ∀ octet ∈ group a b c, octet ∈ alphabet := by
    intro a b c octet member
    obtain ⟨first, second, third, fourth⟩ := values_lt a b c
    simp only [group, List.mem_cons, List.not_mem_nil, or_false] at member
    rcases member with rfl | rfl | rfl | rfl
    · exact (letter_plain _ first).1
    · exact (letter_plain _ second).1
    · exact (letter_plain _ third).1
    · exact (letter_plain _ fourth).1
  induction octets using encode.induct with
  | case1 a b c rest ih =>
      rcases List.mem_append.mp member with here | later
      · exact Or.inl (letters a b c octet here)
      · exact ih later
  | case2 a b =>
      rcases List.mem_append.mp member with here | pad
      · exact Or.inl (letters a b 0 octet (List.mem_of_mem_take here))
      · exact Or.inr (List.mem_singleton.mp pad)
  | case3 a =>
      rcases List.mem_append.mp member with here | pad
      · exact Or.inl (letters a 0 0 octet (List.mem_of_mem_take here))
      · exact Or.inr (by simpa using pad)
  | case4 => cases member

example : encode (ascii "Man is") = ascii "TWFuIGlz" ∧ encode (ascii "Man") ++ encode (ascii "is") = ascii "TWFuaXM=" := by
  decide +kernel

end H264Streaming.Format.Base64
