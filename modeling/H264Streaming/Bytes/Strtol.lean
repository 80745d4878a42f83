import H264Streaming.Bytes.Numerals

/-! strtol: a number at the front of a text, and the text behind it. -/

set_option autoImplicit false

namespace H264Streaming.Bytes

def signed (text : List UInt8) : Bool × List UInt8 :=
  match text.dropWhile isSpace with
  | 45 :: unsigned => (true, unsigned)
  | 43 :: unsigned => (false, unsigned)
  | unsigned => (false, unsigned)

/-- The value as a long and the text behind the number, none where nothing is converted. -/
def strtol (text : List UInt8) : Option (Int × List UInt8) :=
  let (negative, unsigned) := signed text
  let digits := unsigned.takeWhile isDigit
  if digits = [] then none
  else
    let value : Int := digitsValue digits
    some (clampLong (if negative then -value else value), unsigned.dropWhile isDigit)

def IsLong (n : Int) : Prop := -9223372036854775808 ≤ n ∧ n ≤ 9223372036854775807

theorem isLong_clampLong (n : Int) : IsLong (clampLong n) := by
  unfold IsLong clampLong
  omega

theorem clampLong_of_isLong {n : Int} (long : IsLong n) : clampLong n = n := by
  unfold IsLong at long
  unfold clampLong
  omega

section
variable {text rest : List UInt8} {n : Int}

theorem signed_suffix (text : List UInt8) : (signed text).2 <:+ text := by
  have inside : text.dropWhile isSpace <:+ text := List.dropWhile_suffix _
  unfold signed
  split
  · next same => exact (List.suffix_cons _ _).trans (same ▸ inside)
  · next same => exact (List.suffix_cons _ _).trans (same ▸ inside)
  · exact inside

theorem strtol_eq_some (read : strtol text = some (n, rest)) :
    (signed text).2.takeWhile isDigit ≠ [] ∧ IsLong n ∧ rest = (signed text).2.dropWhile isDigit := by
  unfold strtol at read
  dsimp only at read
  split at read
  · cases read
  · next filled =>
      obtain ⟨rfl, rfl⟩ := Prod.mk.inj (Option.some.inj read)
      exact ⟨filled, isLong_clampLong _, rfl⟩

theorem strtol_suffix (read : strtol text = some (n, rest)) : rest <:+ text ∧ rest.length < text.length := by
  obtain ⟨filled, -, rfl⟩ := strtol_eq_some read
  have inside := signed_suffix text
  have parts := congrArg List.length (List.takeWhile_append_dropWhile (p := isDigit) (l := (signed text).2))
  have some_digit := List.length_pos_of_ne_nil filled
  have bound := inside.length_le
  rw [List.length_append] at parts
  exact ⟨(List.dropWhile_suffix _).trans inside, by omega⟩

end

/-! ### Printed numbers -/

theorem isSpace_of_isDigit {octet : UInt8} (digit : isDigit octet) : isSpace octet = false := by
  obtain ⟨least, most⟩ := digit_le digit
  simp only [isSpace, Bool.or_eq_false_iff, Bool.and_eq_false_iff, decide_eq_false_iff_not, ← UInt8.toNat_inj,
    UInt8.le_iff_toNat_le]
  simp
  omega

theorem signed_digits {digits rest : List UInt8} (filled : digits ≠ []) (all : ∀ digit ∈ digits, isDigit digit) :
    signed (digits ++ rest) = (false, digits ++ rest) := by
  obtain ⟨first, more, rfl⟩ := List.exists_cons_of_ne_nil filled
  have digit := all first List.mem_cons_self
  obtain ⟨least, most⟩ := digit_le digit
  have start : (first :: more ++ rest).dropWhile isSpace = first :: more ++ rest := by
    rw [List.cons_append, List.dropWhile_cons_of_neg (by simp [isSpace_of_isDigit digit])]
  unfold signed
  rw [start]
  split
  · next same =>
      cases same
      exact absurd least (by decide)
  · next same =>
      cases same
      exact absurd least (by decide)
  · rfl

theorem decimal_of_neg (n : Nat) : decimal (-(n + 1 : Int)) = 45 :: decimal ((n + 1 : Nat) : Int) := by
  have minus : -(n + 1 : Int) < 0 := by omega
  have plus : ¬ ((n + 1 : Nat) : Int) < 0 := by omega
  unfold decimal
  dsimp only
  rw [if_pos minus, if_neg plus, Int.natAbs_neg]
  rfl

theorem signed_decimal (n : Int) (rest : List UInt8) :
    signed (decimal n ++ rest) = (decide (n < 0), decimal (n.natAbs : Int) ++ rest) := by
  have digits : ∀ m : Nat, ∀ digit ∈ decimal (m : Int), isDigit digit := fun m digit => isDigit_of_mem_decimal
  cases n with
  | ofNat n =>
      have plus : decide (Int.ofNat n < 0) = false := decide_eq_false (Int.not_lt.mpr (Int.natCast_nonneg n))
      rw [plus]
      exact signed_digits (decimal_ne_nil n) (digits n)
  | negSucc n =>
      have minus : decide (-(n + 1 : Int) < 0) = true := decide_eq_true (by omega)
      have size : (-(n + 1 : Int)).natAbs = n + 1 := by omega
      rw [Int.negSucc_eq, decimal_of_neg, minus, size, List.cons_append]
      unfold signed
      rw [List.dropWhile_cons_of_neg (by decide)]
      rfl

theorem strtol_decimal {n : Int} (long : IsLong n) {rest : List UInt8}
    (stop : ∀ octet ∈ rest.head?, isDigit octet = false) : strtol (decimal n ++ rest) = some (n, rest) := by
  have digits : ∀ digit ∈ decimal (n.natAbs : Int), isDigit digit := fun digit => isDigit_of_mem_decimal
  have none : rest.takeWhile isDigit = [] ∧ rest.dropWhile isDigit = rest := by
    cases rest with
    | nil => exact ⟨rfl, rfl⟩
    | cons octet rest => simp [stop octet rfl]
  have taken : (decimal (n.natAbs : Int) ++ rest).takeWhile isDigit = decimal (n.natAbs : Int) := by
    rw [List.takeWhile_append_of_pos digits, none.1, List.append_nil]
  have dropped : (decimal (n.natAbs : Int) ++ rest).dropWhile isDigit = rest := by
    rw [List.dropWhile_append_of_pos digits, none.2]
  unfold strtol
  rw [signed_decimal]
  dsimp only
  rw [taken, dropped, if_neg (decimal_ne_nil _), digitsValue_decimal]
  have value : (if decide (n < 0) = true then -(n.natAbs : Int) else n.natAbs) = n := by
    split
    · next minus => simp at minus; omega
    · next plus => simp at plus; omega
  rw [value, clampLong_of_isLong long]

end H264Streaming.Bytes
