import Mathlib.Data.List.Basic

/-! Byte buffers addressed by offset.

A buffer holds a byte at every offset. Its capacity is not part of the value:
`top` records how far writes have reached, and a capacity claim is a bound on it.
-/

set_option autoImplicit false

namespace H264Streaming.Bytes

/-- Contents of a buffer; `top` is one past the highest offset written so far. -/
structure Buffer where
  byte : Nat → UInt8
  top : Nat

namespace Buffer

def untouched (content : Nat → UInt8) : Buffer := ⟨content, 0⟩

/-- Store consecutive bytes. Storing no byte touches nothing, wherever the offset points. -/
def write (b : Buffer) (offset : Nat) (bytes : List UInt8) : Buffer where
  byte j := if offset ≤ j then (bytes[j - offset]?).getD (b.byte j) else b.byte j
  top := if bytes = [] then b.top else max b.top (offset + bytes.length)

def read (b : Buffer) (offset count : Nat) : List UInt8 :=
  (List.range count).map fun k => b.byte (offset + k)

variable (b : Buffer) (offset count : Nat) (bytes : List UInt8)

@[simp] theorem length_read : (b.read offset count).length = count := by simp [read]

@[simp] theorem read_zero : b.read offset 0 = [] := rfl

theorem read_add (more : Nat) :
    b.read offset (count + more) = b.read offset count ++ b.read (offset + count) more := by
  simp only [read, List.range_add, List.map_append, List.map_map]
  congr 1
  exact List.map_congr_left fun k _ => congrArg b.byte (Nat.add_assoc offset count k).symm

theorem read_succ : b.read offset (count + 1) = b.byte offset :: b.read (offset + 1) count := by
  rw [Nat.add_comm count 1, read_add]
  rfl

theorem read_take {less : Nat} (bound : less ≤ count) :
    (b.read offset count).take less = b.read offset less := by
  obtain ⟨more, rfl⟩ := Nat.exists_eq_add_of_le bound
  rw [read_add]
  exact List.take_left' (length_read b offset less)

theorem read_drop {skipped : Nat} (bound : skipped ≤ count) :
    (b.read offset count).drop skipped = b.read (offset + skipped) (count - skipped) := by
  obtain ⟨more, rfl⟩ := Nat.exists_eq_add_of_le bound
  rw [read_add, List.drop_left' (length_read b offset skipped), Nat.add_sub_cancel_left]

variable {b offset count bytes}

theorem byte_of_read {k : Nat} (same : b.read offset count = bytes) (inside : k < count) :
    bytes[k]? = some (b.byte (offset + k)) := by
  simp [← same, read, inside]

theorem read_congr {other : Buffer} (same : ∀ k < count, b.byte (offset + k) = other.byte (offset + k)) :
    b.read offset count = other.read offset count :=
  List.map_congr_left fun k member => same k (List.mem_range.mp member)

variable (b offset bytes)

@[simp] theorem write_nil : b.write offset [] = b := by
  simp [write]

theorem byte_write_of_lt {j : Nat} (before : j < offset) : (b.write offset bytes).byte j = b.byte j :=
  if_neg (Nat.not_le.mpr before)

theorem byte_write_of_ge {j : Nat} (after : offset + bytes.length ≤ j) :
    (b.write offset bytes).byte j = b.byte j := by
  have absent : bytes[j - offset]? = none := List.getElem?_eq_none (by omega)
  simp [write, absent]

theorem byte_write_inside {k : Nat} (bound : k < bytes.length) :
    (b.write offset bytes).byte (offset + k) = bytes[k] := by
  simp [write, List.getElem?_eq_getElem bound]

theorem write_write (more : List UInt8) :
    (b.write offset bytes).write (offset + bytes.length) more = b.write offset (bytes ++ more) := by
  rcases more with _ | ⟨m, more⟩
  · simp
  have bytesEq : ∀ j, ((b.write offset bytes).write (offset + bytes.length) (m :: more)).byte j =
      (b.write offset (bytes ++ m :: more)).byte j := by
    intro j
    simp only [write]
    -- the second store decides only behind the first
    by_cases inFirst : j < offset + bytes.length
    · rw [if_neg (Nat.not_le.mpr inFirst)]
      split
      · rw [List.getElem?_append_left (by omega)]
      · rfl
    · have absent : bytes[j - offset]? = none := List.getElem?_eq_none (by omega)
      rw [if_pos (by omega), if_pos (by omega), if_pos (by omega), List.getElem?_append_right (by omega),
        absent, Nat.sub_sub]
      rfl
  have topEq : ((b.write offset bytes).write (offset + bytes.length) (m :: more)).top =
      (b.write offset (bytes ++ m :: more)).top := by
    by_cases empty : bytes = []
    · simp [write, empty]
    · simp [write, empty, Nat.max_assoc]
      omega
  cases first : (b.write offset bytes).write (offset + bytes.length) (m :: more)
  cases second : b.write offset (bytes ++ m :: more)
  simp only [first, second] at bytesEq topEq
  rw [topEq, funext bytesEq]

@[simp] theorem read_write_self : (b.write offset bytes).read offset bytes.length = bytes := by
  apply List.ext_getElem (by simp)
  intro k left right
  simpa [read] using byte_write_inside b offset bytes right

theorem read_write_inside {skipped count : Nat} (inside : skipped + count ≤ bytes.length) :
    (b.write offset bytes).read (offset + skipped) count = (bytes.drop skipped).take count := by
  have all := read_write_self b offset bytes
  have tail := read_drop (b.write offset bytes) offset bytes.length (show skipped ≤ bytes.length by omega)
  rw [all] at tail
  rw [tail, read_take _ _ _ (by omega)]

theorem byte_write_replicate (octet : UInt8) {size j : Nat} (inside : j < size) :
    (b.write 0 (List.replicate size octet)).byte j = octet := by
  have within : j < (List.replicate size octet).length := by rwa [List.length_replicate]
  have stored := byte_write_inside b 0 (List.replicate size octet) within
  rwa [Nat.zero_add, List.getElem_replicate] at stored

theorem read_write_below {low n : Nat} (below : low + n ≤ offset) :
    (b.write offset bytes).read low n = b.read low n :=
  read_congr fun _ bound => byte_write_of_lt b offset bytes (by omega)

theorem read_write_above {high n : Nat} (above : offset + bytes.length ≤ high) :
    (b.write offset bytes).read high n = b.read high n :=
  read_congr fun _ _ => byte_write_of_ge b offset bytes (by omega)

theorem read_write_extend (n : Nat) (size : Nat) (exact : size = bytes.length) :
    (b.write n bytes).read 0 (n + size) = b.read 0 n ++ bytes := by
  subst exact
  rw [read_add, read_write_below b n bytes (by omega), Nat.zero_add, read_write_self]

theorem top_write_le {bound : Nat} (held : b.top ≤ bound) (fits : offset + bytes.length ≤ bound) :
    (b.write offset bytes).top ≤ bound := by
  unfold write
  dsimp only
  split <;> omega

theorem write_reaches (stored : bytes ≠ []) : offset + bytes.length ≤ (b.write offset bytes).top := by
  rw [write]
  simp only [if_neg stored]
  exact Nat.le_max_right _ _

end Buffer

end H264Streaming.Bytes
