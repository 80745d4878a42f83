import Mathlib.Algebra.GroupWithZero.Nat
import Mathlib.Data.List.Basic

/-! Octets, bit fields and big-endian words. -/

set_option autoImplicit false

namespace H264Streaming.Bytes

theorem forall_octet {p : UInt8 → Prop} (cases : ∀ n : Fin 256, p (UInt8.ofFin n)) (x : UInt8) : p x := by
  simpa using cases x.toFin

def bit (set : Bool) : UInt8 := if set then 1 else 0

def putBits (octet : UInt8) (low width : Nat) (value : UInt8) : UInt8 :=
  let mask := UInt8.ofNat ((2 ^ width - 1) * 2 ^ low)
  (octet &&& ~~~mask) ||| ((value <<< UInt8.ofNat low) &&& mask)

def getBits (octet : UInt8) (low width : Nat) : UInt8 :=
  (octet >>> UInt8.ofNat low) &&& UInt8.ofNat (2 ^ width - 1)

def be16 (word : Nat) : List UInt8 := [UInt8.ofNat (word / 256), UInt8.ofNat word]

def be32 (word : Nat) : List UInt8 := be16 (word / 65536) ++ be16 word

def value16 (high low : UInt8) : Nat := high.toNat * 256 + low.toNat

def valueBE (octets : List UInt8) : Nat := octets.foldl (fun value octet => value * 256 + octet.toNat) 0

@[simp] theorem length_be16 (word : Nat) : (be16 word).length = 2 := rfl

theorem value16_lt (high low : UInt8) : value16 high low < 65536 := by
  have below := high.toNat_lt
  have belowLow := low.toNat_lt
  unfold value16
  omega

theorem value16_be16 (word : Nat) :
    value16 (UInt8.ofNat (word / 256)) (UInt8.ofNat word) = word % 65536 := by
  simp only [value16, UInt8.toNat_ofNat']
  omega

theorem be16_value16 (high low : UInt8) : be16 (value16 high low) = [high, low] := by
  have below := high.toNat_lt
  have belowLow := low.toNat_lt
  have front : (high.toNat * 256 + low.toNat) / 256 % 256 = high.toNat := by omega
  have back : (high.toNat * 256 + low.toNat) % 256 = low.toNat := by omega
  simp only [be16, value16, List.cons.injEq, and_true, ← UInt8.toNat_inj, UInt8.toNat_ofNat']
  exact ⟨front, back⟩

theorem valueBE_be16 (word : Nat) : valueBE (be16 word) = word % 65536 := by
  simp only [valueBE, be16, List.foldl_cons, List.foldl_nil, UInt8.toNat_ofNat']
  omega

theorem valueBE_be32 (word : Nat) : valueBE (be32 word) = word % 4294967296 := by
  simp only [valueBE, be32, be16, List.cons_append, List.nil_append, List.foldl_cons, List.foldl_nil,
    UInt8.toNat_ofNat']
  omega

end H264Streaming.Bytes
