import H264Streaming.Bytes.Text
import H264Streaming.Bytes.Words

/-! Numbers in decimal digits, as they are printed and as they are read back. -/

set_option autoImplicit false

namespace H264Streaming.Bytes

theorem isDigit_ofChar {c : Char} (digit : c.isDigit) :
    isDigit (UInt8.ofNat c.toNat) ∧ (UInt8.ofNat c.toNat).toNat = c.toNat := by
  have bounds : 48 ≤ c.toNat ∧ c.toNat ≤ 57 := by simpa [Char.isDigit, UInt32.le_iff_toNat_le] using digit
  have value : (UInt8.ofNat c.toNat).toNat = c.toNat := by
    rw [UInt8.toNat_ofNat']
    omega
  refine ⟨?_, value⟩
  simp only [isDigit, Bool.and_eq_true, decide_eq_true_eq, UInt8.le_iff_toNat_le, value]
  exact bounds

theorem decimal_natCast (n : Nat) : decimal (n : Int) = (Nat.toDigits 10 n).map fun c => UInt8.ofNat c.toNat := by
  unfold decimal
  dsimp only
  rw [if_neg (by omega), Int.natAbs_natCast]

theorem isDigit_of_mem_decimal {n : Nat} {octet : UInt8} (member : octet ∈ decimal (n : Int)) : isDigit octet := by
  rw [decimal_natCast] at member
  obtain ⟨c, among, rfl⟩ := List.mem_map.mp member
  exact (isDigit_ofChar (Nat.isDigit_of_mem_toDigits (by decide) (by decide) among)).1

theorem decimal_ne_nil (n : Nat) : decimal (n : Int) ≠ [] := by
  rw [decimal_natCast]
  exact List.map_eq_nil_iff.not.mpr Nat.toDigits_ne_nil

theorem length_decimal_le_iff {n k : Nat} (pos : 0 < k) : (decimal (n : Int)).length ≤ k ↔ n < 10 ^ k := by
  rw [decimal_natCast, List.length_map]
  exact Nat.length_toDigits_le_iff (by decide) pos

theorem digitsValue_decimal (n : Nat) : digitsValue (decimal (n : Int)) = n := by
  have value := Nat.ofDigitChars_ten_toDigits (n := n)
  have digits : ∀ c ∈ Nat.toDigits 10 n, (UInt8.ofNat c.toNat).toNat = c.toNat := fun c member =>
    (isDigit_ofChar (Nat.isDigit_of_mem_toDigits (by decide) (by decide) member)).2
  rw [decimal_natCast, digitsValue, List.foldl_map]
  rw [Nat.ofDigitChars_eq_foldl] at value
  refine Eq.trans (List.foldl_ext _ _ 0 fun sofar c member => ?_) value
  rw [digits c member, Nat.mul_comm]
  rfl

theorem digit_le {digit : UInt8} (isDigit : isDigit digit) : 48 ≤ digit.toNat ∧ digit.toNat ≤ 57 := by
  have both : 48 ≤ digit ∧ digit ≤ 57 := by simpa [Bytes.isDigit] using isDigit
  exact ⟨UInt8.le_iff_toNat_le.mp both.1, UInt8.le_iff_toNat_le.mp both.2⟩

theorem digitsValue_lt {digits : List UInt8} (all : ∀ digit ∈ digits, isDigit digit) :
    digitsValue digits < 10 ^ digits.length := by
  suffices onward : ∀ start, digits.foldl (fun value digit => value * 10 + (digit.toNat - 48)) start <
      (start + 1) * 10 ^ digits.length by
    have whole := onward 0
    rwa [Nat.zero_add, Nat.one_mul] at whole
  induction digits with
  | nil => intro start; simp
  | cons digit digits ih =>
      intro start
      obtain ⟨here, later⟩ := List.forall_mem_cons.mp all
      obtain ⟨_, most⟩ := digit_le here
      have first : start * 10 + (digit.toNat - 48) + 1 ≤ (start + 1) * 10 := by omega
      calc
        digits.foldl (fun value digit => value * 10 + (digit.toNat - 48)) (start * 10 + (digit.toNat - 48))
            < (start * 10 + (digit.toNat - 48) + 1) * 10 ^ digits.length := ih later _
        _ ≤ (start + 1) * 10 * 10 ^ digits.length := Nat.mul_le_mul_right _ first
        _ = (start + 1) * 10 ^ (digits.length + 1) := by rw [Nat.mul_assoc, Nat.pow_succ, Nat.mul_comm 10]

/-- Digits up to the first octet that is none are read as their value. -/
theorem scanLong_digits {digits rest : List UInt8} (filled : digits ≠ []) (all : ∀ digit ∈ digits, isDigit digit)
    (stop : ∀ octet ∈ rest.head?, isDigit octet = false) :
    scanLong (digits ++ rest) = some (clampLong (digitsValue digits)) := by
  have taken : (digits ++ rest).takeWhile isDigit = digits := by
    rw [List.takeWhile_append_of_pos all]
    cases rest with
    | nil => simp
    | cons octet rest => simp [stop octet rfl]
  obtain ⟨first, more, rfl⟩ := List.exists_cons_of_ne_nil filled
  obtain ⟨least, most⟩ := digit_le (all first List.mem_cons_self)
  have noSpace : isSpace first = false := by
    simp only [isSpace, Bool.or_eq_false_iff, Bool.and_eq_false_iff, decide_eq_false_iff_not, ← UInt8.toNat_inj,
      UInt8.le_iff_toNat_le]
    simp
    omega
  have minus : ¬ some first = some 45 := by
    rintro ⟨⟩
    exact absurd least (by decide)
  have plus : ¬ some first = some 43 := by
    rintro ⟨⟩
    exact absurd least (by decide)
  have start : (first :: more ++ rest).dropWhile isSpace = first :: more ++ rest := by
    rw [List.cons_append, List.dropWhile_cons_of_neg (by simp [noSpace])]
  have head : (first :: more ++ rest).head? = some first := rfl
  unfold scanLong
  dsimp only
  rw [start, head]
  simp only [minus, plus, or_self, if_false, taken, if_neg filled]

theorem scanInt_digits {digits : List UInt8} (filled : digits ≠ []) (all : ∀ digit ∈ digits, isDigit digit)
    (short : digits.length ≤ 9) : scanInt digits = some (digitsValue digits : Int) := by
  have value := digitsValue_lt all
  have bound : 10 ^ digits.length ≤ 10 ^ 9 := Nat.pow_le_pow_right (by decide) short
  have whole : scanLong (digits ++ []) = some (clampLong (digitsValue digits)) :=
    scanLong_digits filled all (fun _ none => nomatch none)
  rw [List.append_nil] at whole
  rw [scanInt, whole, Option.map_some, clampLong, toInt32]
  congr 1
  omega

end H264Streaming.Bytes
