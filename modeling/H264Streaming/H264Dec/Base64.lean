import H264Streaming.Bytes.Words
import H264Streaming.Format.Base64

/-! base64_decode of h264dec (h264dec/base64.c). malloc succeeds. -/

set_option autoImplicit false

namespace H264Streaming.H264Dec

open H264Streaming.Bytes H264Streaming.Format

def base64Table : List UInt8 := ascii "ABCDEFGHIJKLMNOPQRSTUVWXYZabcdefghijklmnopqrstuvwxyz0123456789+/"

def dtable (octet : UInt8) : UInt8 :=
  if octet = 61 then 0
  else if octet ∈ base64Table then UInt8.ofNat (base64Table.idxOf octet)
  else 0x80

def counted (octet : UInt8) : Bool := dtable octet ≠ 0x80

/-- The second loop: `taken` are the `count` octets in `in`, `last` the four that filled it before. -/
structure Decoding where
  taken : List UInt8
  last : List UInt8
  out : List UInt8

def blockOctets (a b c d : UInt8) : List UInt8 :=
  [(dtable a <<< 2) ||| (dtable b >>> 4), (dtable b <<< 4) ||| (dtable c >>> 2), (dtable c <<< 6) ||| dtable d]

def Decoding.next (d : Decoding) (src : UInt8) : Decoding :=
  if counted src then
    match d.taken with
    | [a, b, c] => ⟨[], [a, b, c, src], d.out ++ blockOctets a b c src⟩
    | taken => ⟨taken ++ [src], d.last, d.out⟩
  else d

/-- How far `pos` goes back behind the loop. -/
def padding : List UInt8 → Nat
  | [_, _, c, d] => if c = 61 then 2 else if d = 61 then 1 else 0
  | _ => 0

/-- base64_decode, none for NULL. -/
def base64Decode (src : List UInt8) : Option (List UInt8) :=
  if (src.filter counted).length % 4 ≠ 0 then none
  else
    let decoding := src.foldl Decoding.next ⟨[], [], []⟩
    some (decoding.out.take (decoding.out.length - padding decoding.last))

/-! ### Blocks -/

def blocks : List UInt8 → List UInt8
  | a :: b :: c :: d :: rest => blockOctets a b c d ++ blocks rest
  | _ => []

def lastBlock (last : List UInt8) : List UInt8 → List UInt8
  | a :: b :: c :: d :: rest => lastBlock [a, b, c, d] rest
  | _ => last

theorem foldl_blocks {src : List UInt8} (all : ∀ octet ∈ src, counted octet) (whole : src.length % 4 = 0)
    (last out : List UInt8) :
    src.foldl Decoding.next ⟨[], last, out⟩ = ⟨[], lastBlock last src, out ++ blocks src⟩ := by
  induction src using blocks.induct generalizing last out with
  | case1 a b c d rest ih =>
      obtain ⟨first, second, third, fourth, later⟩ :
          counted a ∧ counted b ∧ counted c ∧ counted d ∧ ∀ octet ∈ rest, counted octet := by
        simpa only [List.forall_mem_cons] using all
      have size : rest.length % 4 = 0 := by
        simp only [List.length_cons] at whole
        omega
      have block : [a, b, c, d].foldl Decoding.next ⟨[], last, out⟩ = ⟨[], [a, b, c, d], out ++ blockOctets a b c d⟩ := by
        simp only [List.foldl_cons, List.foldl_nil, Decoding.next, first, second, third, fourth, if_true, List.nil_append,
          List.cons_append]
      have split : a :: b :: c :: d :: rest = [a, b, c, d] ++ rest := rfl
      rw [split, List.foldl_append, block, ih later size, List.append_assoc]
      rfl
  | case2 src short =>
      have none : src = [] := by
        rcases src with _ | ⟨a, _ | ⟨b, _ | ⟨c, _ | ⟨d, rest⟩⟩⟩⟩
        · rfl
        · simp at whole
        · simp at whole
        · simp at whole
        · exact absurd rfl (short a b c d rest)
      rw [none]
      simp [blocks, lastBlock]

theorem base64Decode_eq (src : List UInt8) :
    base64Decode src =
      if (src.filter counted).length % 4 ≠ 0 then none
      else some ((blocks (src.filter counted)).take
        ((blocks (src.filter counted)).length - padding (lastBlock [] (src.filter counted)))) := by
  have skips : src.foldl Decoding.next ⟨[], [], []⟩ = (src.filter counted).foldl Decoding.next ⟨[], [], []⟩ := by
    rw [List.foldl_filter]
    refine List.foldl_ext _ _ _ fun d octet _ => ?_
    unfold Decoding.next
    by_cases kept : counted octet <;> simp [kept]
  unfold base64Decode
  split
  · rfl
  · next whole =>
      dsimp only
      rw [skips, foldl_blocks (fun octet member => (List.mem_filter.mp member).2) (not_not.mp whole), List.nil_append]

/-! ### Encoded octets -/

theorem counted_iff (octet : UInt8) : counted octet ↔ octet ∈ Base64.alphabet ∨ octet = 61 := by
  have table : base64Table = Base64.alphabet := rfl
  unfold counted dtable
  rw [decide_eq_true_iff, table]
  split
  · next same => exact iff_of_true (by decide) (Or.inr same)
  · next other =>
      split
      · next member =>
          have below : Base64.alphabet.idxOf octet < 64 := List.idxOf_lt_length_of_mem member
          refine iff_of_true (fun same => ?_) (Or.inl member)
          have equal := congrArg UInt8.toNat same
          rw [UInt8.toNat_ofNat', Nat.mod_eq_of_lt (by omega)] at equal
          exact absurd (equal ▸ below) (by decide)
      · next absent => exact iff_of_false (not_not.mpr rfl) (not_or.mpr ⟨absent, other⟩)

theorem dtable_letter : ∀ value < 64, dtable (Base64.letter value) = UInt8.ofNat value := by decide +kernel

theorem ofNat_shift_or {n : Nat} (inside : n < 8) (high : Nat) {low : Nat} (below : low < 2 ^ n) :
    (UInt8.ofNat high <<< UInt8.ofNat n) ||| UInt8.ofNat low = UInt8.ofNat (high * 2 ^ n + low) := by
  rw [← UInt8.ofNat_shiftLeft high n inside, ← UInt8.ofNat_or, ← Nat.shiftLeft_add_eq_or_of_lt below,
    Nat.shiftLeft_eq]

theorem ofNat_shiftRight {value : Nat} (octet : value < 256) {n : Nat} (inside : n < 8) :
    UInt8.ofNat value >>> UInt8.ofNat n = UInt8.ofNat (value / 2 ^ n) := by
  have smaller : value / 2 ^ n < 256 := Nat.lt_of_le_of_lt (Nat.div_le_self _ _) octet
  have shift : n < 256 := Nat.lt_trans inside (by decide)
  rw [← UInt8.toNat_inj, UInt8.toNat_shiftRight, UInt8.toNat_ofNat', UInt8.toNat_ofNat', UInt8.toNat_ofNat',
    Nat.mod_eq_of_lt octet, Nat.mod_eq_of_lt smaller, Nat.mod_eq_of_lt shift, Nat.mod_eq_of_lt inside,
    Nat.shiftRight_eq_div_pow]

theorem octet_of_values : ∀ high < 64, ∀ low < 64,
    ((UInt8.ofNat high <<< 2) ||| (UInt8.ofNat low >>> 4) = UInt8.ofNat (high * 4 + low / 16)) ∧
      ((UInt8.ofNat high <<< 4) ||| (UInt8.ofNat low >>> 2) = UInt8.ofNat (high * 16 + low / 4)) ∧
        ((UInt8.ofNat high <<< 6) ||| UInt8.ofNat low = UInt8.ofNat (high * 64 + low)) := by
  intro high _ low below
  have octet : low < 256 := Nat.lt_trans below (by decide)
  have first := ofNat_shift_or (n := 2) (by decide) high (show low / 2 ^ 4 < 2 ^ 2 by omega)
  have second := ofNat_shift_or (n := 4) (by decide) high (show low / 2 ^ 2 < 2 ^ 4 by omega)
  rw [← ofNat_shiftRight octet (by decide)] at first second
  exact ⟨first, second, ofNat_shift_or (n := 6) (by decide) high below⟩

theorem blockOctets_group (a b c : UInt8) :
    blockOctets (Base64.letter (a.toNat / 4)) (Base64.letter (a.toNat % 4 * 16 + b.toNat / 16))
      (Base64.letter (b.toNat % 16 * 4 + c.toNat / 64)) (Base64.letter (c.toNat % 64)) = [a, b, c] := by
  obtain ⟨first, second, third, fourth⟩ := Base64.values_lt a b c
  have same : ∀ (octet : UInt8) (n : Nat), n % 256 = octet.toNat → UInt8.ofNat n = octet := by
    intro octet n equal
    rw [← UInt8.toNat_inj, UInt8.toNat_ofNat', equal]
  have lt := a.toNat_lt
  have lt' := b.toNat_lt
  have lt'' := c.toNat_lt
  rw [blockOctets, dtable_letter _ first, dtable_letter _ second, dtable_letter _ third, dtable_letter _ fourth,
    (octet_of_values _ first _ second).1, (octet_of_values _ second _ third).2.1, (octet_of_values _ third _ fourth).2.2,
    same a _ (by omega), same b _ (by omega), same c _ (by omega)]

theorem blocks_append {front : List UInt8} (whole : front.length % 4 = 0) (rest : List UInt8) :
    blocks (front ++ rest) = blocks front ++ blocks rest ∧
      ∀ last, lastBlock last (front ++ rest) = lastBlock (lastBlock last front) rest := by
  induction front using blocks.induct with
  | case1 a b c d front ih =>
      have size : front.length % 4 = 0 := by
        simp only [List.length_cons] at whole
        omega
      obtain ⟨octets, last⟩ := ih size
      refine ⟨?_, fun _ => last _⟩
      simp only [List.cons_append, blocks, octets, List.append_assoc]
  | case2 front short =>
      have none : front = [] := by
        rcases front with _ | ⟨a, _ | ⟨b, _ | ⟨c, _ | ⟨d, front⟩⟩⟩⟩
        · rfl
        · simp at whole
        · simp at whole
        · simp at whole
        · exact absurd rfl (short a b c d front)
      rw [none]
      simp [blocks, lastBlock]

theorem dtable_padding : dtable 61 = dtable (Base64.letter 0) := by decide +kernel

theorem blocks_encode (octets : List UInt8) :
    blocks (Base64.encode octets) = octets ++ List.replicate (Base64.missing octets) 0 := by
  induction octets using Base64.encode.induct with
  | case1 a b c rest ih =>
      rw [Base64.encode, Base64.group, List.cons_append, List.cons_append, List.cons_append, List.cons_append, blocks,
        blockOctets_group, List.nil_append, ih, Base64.missing_cons]
      rfl
  | case2 a b =>
      have block := blockOctets_group a b 0
      rw [blockOctets, show (0 : UInt8).toNat % 64 = 0 from rfl, ← dtable_padding] at block
      exact block
  | case3 a =>
      have block := blockOctets_group a 0 0
      rw [blockOctets, show (0 : UInt8).toNat % 16 * 4 + (0 : UInt8).toNat / 64 = 0 from rfl,
        show (0 : UInt8).toNat % 64 = 0 from rfl, ← dtable_padding] at block
      exact block
  | case4 => rfl

theorem padding_encode {octets : List UInt8} (filled : octets ≠ []) (last : List UInt8) :
    padding (lastBlock last (Base64.encode octets)) = Base64.missing octets := by
  induction octets using Base64.encode.induct generalizing last with
  | case1 a b c rest ih =>
      obtain ⟨-, -, third, fourth⟩ := Base64.values_lt a b c
      rw [Base64.missing_cons, Base64.encode, Base64.group, List.cons_append, List.cons_append, List.cons_append, List.cons_append,
        lastBlock, List.nil_append]
      cases rest with
      | nil =>
          show padding [_, _, _, _] = 0
          rw [padding, if_neg (Base64.letter_plain _ third).2, if_neg (Base64.letter_plain _ fourth).2]
      | cons first rest => exact ih (List.cons_ne_nil first rest) _
  | case2 a b =>
      obtain ⟨-, -, third, -⟩ := Base64.values_lt a b 0
      show padding [_, _, _, 61] = 1
      rw [padding, if_neg (Base64.letter_plain _ third).2, if_pos rfl]
  | case3 a => rfl
  | case4 => exact absurd rfl filled

theorem counted_encode (octets : List UInt8) : (Base64.encode octets).filter counted = Base64.encode octets :=
  List.filter_eq_self.mpr fun octet member => (counted_iff octet).mpr (Base64.mem_encode member)

theorem base64Decode_behind {src front octets : List UInt8} (kept : src.filter counted = front ++ Base64.encode octets)
    (whole : front.length % 4 = 0) (filled : octets ≠ []) : base64Decode src = some (blocks front ++ octets) := by
  obtain ⟨written, last⟩ := blocks_append whole (Base64.encode octets)
  have size : (front ++ Base64.encode octets).length % 4 = 0 := by
    rw [List.length_append, Base64.length_encode]
    omega
  have long : (blocks front ++ (octets ++ List.replicate (Base64.missing octets) 0)).length - Base64.missing octets =
      (blocks front ++ octets).length := by
    simp only [List.length_append, List.length_replicate]
    omega
  rw [base64Decode_eq, kept, if_neg (not_not.mpr size), written, last, padding_encode filled, blocks_encode, long,
    ← List.append_assoc, List.take_left]

/-- Whatever octets outside the alphabet stand in between, an encoding is decoded. -/
theorem decodes {src octets : List UInt8} (kept : src.filter counted = Base64.encode octets) :
    base64Decode src = some octets := by
  by_cases filled : octets = []
  · subst filled
    rw [base64Decode_eq, kept]
    rfl
  · exact base64Decode_behind (kept.trans (List.nil_append _).symm) rfl filled

/-! ### Joined encodings -/

theorem length_encodings (pieces : List (List UInt8)) : (pieces.flatMap Base64.encode).length % 4 = 0 := by
  induction pieces with
  | nil => rfl
  | cons piece rest ih =>
      rw [List.flatMap_cons, List.length_append, Base64.length_encode]
      omega

theorem blocks_encodings (pieces : List (List UInt8)) :
    blocks (pieces.flatMap Base64.encode) = pieces.flatMap Base64.filledUp := by
  induction pieces with
  | nil => rfl
  | cons piece rest ih =>
      have whole : (Base64.encode piece).length % 4 = 0 := by
        rw [Base64.length_encode]
        omega
      rw [List.flatMap_cons, (blocks_append whole _).1, blocks_encode, ih]
      rfl

/-- Encodings that follow one another are decoded each with its last group filled up, the last one as it
was; they come out as they were where each in front of it is of whole groups. -/
theorem decodes_joined (src : List UInt8) (front : List (List UInt8)) (last : List UInt8) (filled : last ≠ [])
    (kept : src.filter counted = front.flatMap Base64.encode ++ Base64.encode last) :
    base64Decode src = some (front.flatMap Base64.filledUp ++ last) ∧
      (base64Decode src = some (front.flatten ++ last) ↔ ∀ piece ∈ front, 3 ∣ piece.length) := by
  have decoded := base64Decode_behind kept (length_encodings front) filled
  rw [blocks_encodings] at decoded
  refine ⟨decoded, ?_⟩
  rw [decoded, Option.some_inj, List.append_left_inj, Base64.filledUp_eq_iff]

theorem decodes_joined_two :
    base64Decode (ascii "Z0I=;aM4x") = some ([0x67, 0x42, 0] ++ [0x68, 0xCE, 0x31]) ∧
      base64Decode (ascii "Z0I=;aM4x") ≠ some ([0x67, 0x42] ++ [0x68, 0xCE, 0x31]) := by
  have joined := decodes_joined (ascii "Z0I=;aM4x") [[0x67, 0x42]] [0x68, 0xCE, 0x31] (List.cons_ne_nil _ _)
    (by decide +kernel)
  refine ⟨joined.1, fun same => ?_⟩
  exact absurd (joined.2.mp same [0x67, 0x42] (List.mem_singleton_self _)) (by decide)

end H264Streaming.H264Dec
