import Mathlib.Algebra.GroupWithZero.Nat
import Mathlib.Data.List.Basic
import Mathlib.Data.Nat.Init
import Mathlib.Tactic.SplitIfs

/-! The start code search of h264RtpSend (AVC.c).

Pointers are offsets into the stream; `base` is the address of its first octet and
matters for the alignment only. `load` reads one octet and fails outside the
stream, so a search that yields a value has read inside it.
-/

set_option autoImplicit false

namespace H264Streaming.RtpSend

/-- How a loop over positions ends: inside, or at the first position past its limit. -/
inductive Search where
  | found (p : Nat)
  | stopped (p : Nat)
  deriving DecidableEq, Repr

/-- `for (; p < limit; p += stride)`, left as soon as the probe finds something. -/
def search (probe : Nat → Option (Option Nat)) (stride : Nat) [NeZero stride] (limit p : Nat) : Option Search :=
  if p < limit then
    match probe p with
    | none => none
    | some (some r) => some (.found r)
    | some none => search probe stride limit (p + stride)
  else some (.stopped p)
termination_by limit - p
decreasing_by
  have := NeZero.ne stride
  omega

variable (load : Nat → Option UInt8)

def probeOctets (p : Nat) : Option (Option Nat) := do
  if (← load p) = 0 then
    if (← load (p + 1)) = 0 then
      if (← load (p + 2)) = 1 then some (some p) else some none
    else some none
  else some none

def word (b0 b1 b2 b3 : UInt8) : UInt32 :=
  b0.toUInt32 ||| (b1.toUInt32 <<< 8) ||| (b2.toUInt32 <<< 16) ||| (b3.toUInt32 <<< 24)

def hasZero (x : UInt32) : Bool := (x - 0x01010101) &&& (~~~x) &&& 0x80808080 ≠ 0

def probeWord (p : Nat) : Option (Option Nat) := do
  let b0 ← load p
  let b1 ← load (p + 1)
  let b2 ← load (p + 2)
  let b3 ← load (p + 3)
  if hasZero (word b0 b1 b2 b3) then
    if b1 = 0 ∧ b0 = 0 ∧ b2 = 1 then some (some p)              -- 0 0 1 x
    else if b1 = 0 ∧ b2 = 0 ∧ b3 = 1 then some (some (p + 1))   -- x 0 0 1
    else if b3 = 0 then do
      let b4 ← load (p + 4)
      if b2 = 0 ∧ b4 = 1 then some (some (p + 2))               -- x x 0 0 1
      else if b4 = 0 then do
        let b5 ← load (p + 5)
        some (if b5 = 1 then some (p + 3) else none)            -- x x x 0 0 1
      else some none
    else some none
  else some none

/-- The three loops differ in their limits: up to an aligned address, whole words
up to `end - 6`, octets up to `end - 3`. -/
def ffAvcFindStartcodeInternal (base p stop : Nat) : Option Nat := do
  let a := p + 4 - (base + p) % 4
  match ← search (probeOctets load) 1 (min a (stop - 3)) p with
  | .found r => some r
  | .stopped p =>
      match ← search (probeWord load) 4 (stop - 6) p with
      | .found r => some r
      | .stopped p =>
          match ← search (probeOctets load) 1 (stop - 3) p with
          | .found r => some r
          | .stopped _ => some stop

def ffAvcFindStartcode (base p stop : Nat) : Option Nat := do
  let out ← ffAvcFindStartcodeInternal load base p stop
  if p < out ∧ out < stop then do
    let before ← load (out - 1)
    some (if before = 0 then out - 1 else out)
  else some out

/-! ### The word test -/

theorem toNat_word (b0 b1 b2 b3 : UInt8) :
    (word b0 b1 b2 b3).toNat = b0.toNat + 256 * b1.toNat + 65536 * b2.toNat + 16777216 * b3.toNat := by
  have small0 := b0.toNat_lt
  have small1 := b1.toNat_lt
  have small2 := b2.toNat_lt
  have small3 := b3.toNat_lt
  have joined1 : b0.toNat ||| b1.toNat <<< 8 = b0.toNat + 256 * b1.toNat := by
    rw [Nat.or_comm, ← Nat.shiftLeft_add_eq_or_of_lt small0, Nat.shiftLeft_eq]
    omega
  have joined2 : (b0.toNat + 256 * b1.toNat) ||| b2.toNat <<< 16 = b0.toNat + 256 * b1.toNat + 65536 * b2.toNat := by
    rw [Nat.or_comm, ← Nat.shiftLeft_add_eq_or_of_lt (by omega), Nat.shiftLeft_eq]
    omega
  have joined3 : (b0.toNat + 256 * b1.toNat + 65536 * b2.toNat) ||| b3.toNat <<< 24 =
      b0.toNat + 256 * b1.toNat + 65536 * b2.toNat + 16777216 * b3.toNat := by
    rw [Nat.or_comm, ← Nat.shiftLeft_add_eq_or_of_lt (by omega), Nat.shiftLeft_eq]
    omega
  have fits1 : b1.toNat <<< 8 % 4294967296 = b1.toNat <<< 8 := by
    rw [Nat.shiftLeft_eq]
    omega
  have fits2 : b2.toNat <<< 16 % 4294967296 = b2.toNat <<< 16 := by
    rw [Nat.shiftLeft_eq]
    omega
  have fits3 : b3.toNat <<< 24 % 4294967296 = b3.toNat <<< 24 := by
    rw [Nat.shiftLeft_eq]
    omega
  simp [word, fits1, fits2, fits3, joined1, joined2, joined3]

theorem hasZero_of_bit {x : UInt32} {k : Nat} (mask : (0x80808080 : UInt32).toNat.testBit k = true)
    (borrowed : (4294967296 - 0x01010101 + x.toNat) % 4294967296 / 2 ^ k % 2 = 1) (clear : x.toNat / 2 ^ k % 2 = 0) :
    hasZero x = true := by
  have inside : k < 32 := by
    by_contra past
    have small : (0x80808080 : UInt32).toNat < 2 ^ k :=
      Nat.lt_of_lt_of_le (by decide : _ < 2 ^ 32) (Nat.pow_le_pow_right (by decide) (by omega))
    rw [Nat.testBit_lt_two_pow small] at mask
    cases mask
  have difference : (x - 0x01010101).toNat.testBit k = true := by
    rw [UInt32.toNat_sub, Nat.testBit_eq_decide_div_mod_eq, decide_eq_true_eq]
    exact borrowed
  have unset : x.toNat.testBit k = false := by
    rw [Nat.testBit_eq_decide_div_mod_eq, decide_eq_false_iff_not, clear]
    decide
  have flipped : (~~~x).toNat.testBit k = true := by
    rw [← UInt32.toNat_toBitVec, ← BitVec.getLsbD, UInt32.toBitVec_not, BitVec.getLsbD_not, BitVec.getLsbD,
      UInt32.toNat_toBitVec, unset]
    simpa using inside
  rw [hasZero, decide_eq_true_eq]
  intro none
  have bit := congrArg (fun word : UInt32 => word.toNat.testBit k) none
  simp only [UInt32.toNat_and, Nat.testBit_and, mask, difference, flipped] at bit
  simp at bit

/-- A word with a zero octet passes the test: the lowest zero octet borrows and nothing below it does. -/
theorem hasZero_word {b0 b1 b2 b3 : UInt8} (zero : b0 = 0 ∨ b1 = 0 ∨ b2 = 0 ∨ b3 = 0) :
    hasZero (word b0 b1 b2 b3) = true := by
  have small0 := b0.toNat_lt
  have small1 := b1.toNat_lt
  have small2 := b2.toNat_lt
  have small3 := b3.toNat_lt
  have value := toNat_word b0 b1 b2 b3
  by_cases zero0 : b0.toNat = 0
  · exact hasZero_of_bit (k := 7) (by decide) (by rw [value]; omega) (by rw [value]; omega)
  by_cases zero1 : b1.toNat = 0
  · exact hasZero_of_bit (k := 15) (by decide) (by rw [value]; omega) (by rw [value]; omega)
  by_cases zero2 : b2.toNat = 0
  · exact hasZero_of_bit (k := 23) (by decide) (by rw [value]; omega) (by rw [value]; omega)
  by_cases zero3 : b3.toNat = 0
  · exact hasZero_of_bit (k := 31) (by decide) (by rw [value]; omega) (by rw [value]; omega)
  rcases zero with rfl | rfl | rfl | rfl <;> contradiction

/-! ### What the search returns -/

def StartsCode (p : Nat) : Prop := load p = some 0 ∧ load (p + 1) = some 0 ∧ load (p + 2) = some 1

def Hit (stop i : Nat) : Prop := i + 3 < stop ∧ StartsCode load i

variable {load}

def First (hit : Nat → Prop) (p bound : Nat) : Option Nat → Prop
  | some q => p ≤ q ∧ hit q ∧ ∀ i, p ≤ i → i < q → ¬ hit i
  | none => ∀ i, p ≤ i → i < bound → ¬ hit i

theorem First.extend {hit : Nat → Prop} {p q bound : Nat} {found : Option Nat} (first : First hit q bound found)
    (later : p ≤ q) (passed : ∀ i, p ≤ i → i < q → ¬ hit i) : First hit p bound found := by
  have before : ∀ i, p ≤ i → ¬ q ≤ i → ¬ hit i := fun i after below => passed i after (Nat.lt_of_not_le below)
  cases found with
  | some r =>
      obtain ⟨after, here, none⟩ := first
      refine ⟨Nat.le_trans later after, here, fun i from_p below => ?_⟩
      by_cases reached : q ≤ i
      · exact none i reached below
      · exact before i from_p reached
  | none =>
      intro i from_p below
      by_cases reached : q ≤ i
      · exact first i reached below
      · exact before i from_p reached

/-- Where a loop ends: at the first hit, or at a position that it has passed no hit on the way to. -/
def Search.Exact (hit : Nat → Prop) (p limit : Nat) : Search → Prop
  | found r => First hit p limit (some r)
  | stopped q => p ≤ q ∧ limit ≤ q ∧ First hit p q none

theorem search_exact {hit : Nat → Prop} {probe : Nat → Option (Option Nat)} (stride : Nat) [NeZero stride]
    {begin limit : Nat}
    (looks : ∀ p, begin ≤ p → p < limit → ∃ found, probe p = some found ∧ First hit p (p + stride) found) (p : Nat)
    (from_begin : begin ≤ p) :
    ∃ result, search probe stride limit p = some result ∧ result.Exact hit p limit := by
  fun_induction search probe stride limit p with
  | case1 p below failed =>
      obtain ⟨found, same, -⟩ := looks p from_begin below
      rw [failed] at same
      cases same
  | case2 p below r found =>
      obtain ⟨_, same, first⟩ := looks p from_begin below
      rw [found] at same
      cases same
      exact ⟨_, rfl, first⟩
  | case3 p below nothing ih =>
      obtain ⟨_, same, passed⟩ := looks p from_begin below
      rw [nothing] at same
      cases same
      obtain ⟨result, ran, good⟩ := ih (Nat.le_add_right_of_le from_begin)
      refine ⟨result, ran, ?_⟩
      cases result with
      | found r =>
          have first : First hit (p + stride) limit (some r) := good
          exact first.extend (Nat.le_add_right p stride) passed
      | stopped q =>
          obtain ⟨later, past, none⟩ := good
          exact ⟨Nat.le_trans (Nat.le_add_right p stride) later, past, none.extend (Nat.le_add_right p stride) passed⟩
  | case4 p past => exact ⟨_, rfl, Nat.le_refl p, Nat.le_of_not_lt past, fun i after below => by omega⟩

section
variable {begin stop : Nat} (readable : ∀ i, begin ≤ i → i < stop → ∃ octet, load i = some octet)
include readable

theorem probeOctets_exact {p : Nat} (from_begin : begin ≤ p) (inside : p + 3 < stop) :
    ∃ found, probeOctets load p = some found ∧ First (Hit load stop) p (p + 1) found := by
  obtain ⟨b0, at0⟩ := readable p (by omega) (by omega)
  obtain ⟨b1, at1⟩ := readable (p + 1) (by omega) (by omega)
  obtain ⟨b2, at2⟩ := readable (p + 2) (by omega) (by omega)
  have elsewhere (differs : ¬ (b0 = 0 ∧ b1 = 0 ∧ b2 = 1)) : First (Hit load stop) p (p + 1) none := by
    rintro i after below ⟨-, first, second, third⟩
    obtain rfl : i = p := by omega
    rw [at0] at first
    rw [at1] at second
    rw [at2] at third
    exact differs ⟨Option.some.inj first, Option.some.inj second, Option.some.inj third⟩
  simp only [probeOctets, at0, at1, at2, Option.bind_eq_bind, Option.bind_some]
  split_ifs with zero0 zero1 one2
  · subst zero0 zero1 one2
    exact ⟨_, rfl, Nat.le_refl p, ⟨inside, at0, at1, at2⟩, fun i after below => by omega⟩
  · exact ⟨_, rfl, elsewhere fun code => one2 code.2.2⟩
  · exact ⟨_, rfl, elsewhere fun code => zero1 code.2.1⟩
  · exact ⟨_, rfl, elsewhere fun code => zero0 code.1⟩

theorem probeWord_exact {p : Nat} (from_begin : begin ≤ p) (inside : p + 6 < stop) :
    ∃ found, probeWord load p = some found ∧ First (Hit load stop) p (p + 4) found := by
  obtain ⟨b0, at0⟩ := readable p (by omega) (by omega)
  obtain ⟨b1, at1⟩ := readable (p + 1) (by omega) (by omega)
  obtain ⟨b2, at2⟩ := readable (p + 2) (by omega) (by omega)
  obtain ⟨b3, at3⟩ := readable (p + 3) (by omega) (by omega)
  obtain ⟨b4, at4⟩ := readable (p + 4) (by omega) (by omega)
  obtain ⟨b5, at5⟩ := readable (p + 5) (by omega) (by omega)
  have code0 : Hit load stop p ↔ b0 = 0 ∧ b1 = 0 ∧ b2 = 1 := by
    simp [Hit, StartsCode, at0, at1, at2, show p + 3 < stop by omega]
  have code1 : Hit load stop (p + 1) ↔ b1 = 0 ∧ b2 = 0 ∧ b3 = 1 := by
    simp [Hit, StartsCode, at1, at2, at3, show p + 1 + 3 < stop by omega]
  have code2 : Hit load stop (p + 2) ↔ b2 = 0 ∧ b3 = 0 ∧ b4 = 1 := by
    simp [Hit, StartsCode, at2, at3, at4, show p + 2 + 3 < stop by omega]
  have code3 : Hit load stop (p + 3) ↔ b3 = 0 ∧ b4 = 0 ∧ b5 = 1 := by
    simp [Hit, StartsCode, at3, at4, at5, show p + 3 + 3 < stop by omega]
  have positions (i : Nat) (after : p ≤ i) (below : i < p + 4) : i = p ∨ i = p + 1 ∨ i = p + 2 ∨ i = p + 3 := by omega
  simp only [probeWord, at0, at1, at2, at3, at4, at5, Option.bind_eq_bind, Option.bind_some]
  split_ifs with zeroOctet here0 here1 zero3 here2 zero4 one5
  · exact ⟨_, rfl, Nat.le_refl p, code0.mpr (by grind), fun i after below => by omega⟩
  · refine ⟨_, rfl, by omega, code1.mpr (by grind), fun i after below => ?_⟩
    rcases positions i after (by omega) with rfl | rfl | rfl | rfl <;> grind
  · refine ⟨_, rfl, by omega, code2.mpr (by grind), fun i after below => ?_⟩
    rcases positions i after (by omega) with rfl | rfl | rfl | rfl <;> grind
  · refine ⟨_, rfl, by omega, code3.mpr (by grind), fun i after below => ?_⟩
    rcases positions i after (by omega) with rfl | rfl | rfl | rfl <;> grind
  -- nothing in a word that passes the test, with or without a zero at p + 3
  · refine ⟨_, rfl, fun i after below => ?_⟩
    rcases positions i after below with rfl | rfl | rfl | rfl <;> grind
  · refine ⟨_, rfl, fun i after below => ?_⟩
    rcases positions i after below with rfl | rfl | rfl | rfl <;> grind
  · refine ⟨_, rfl, fun i after below => ?_⟩
    rcases positions i after below with rfl | rfl | rfl | rfl <;> grind
  · have nonzero : ¬ (b0 = 0 ∨ b1 = 0 ∨ b2 = 0 ∨ b3 = 0) := fun zero => zeroOctet (hasZero_word zero)
    refine ⟨_, rfl, fun i after below => ?_⟩
    rcases positions i after below with rfl | rfl | rfl | rfl <;> grind

/-- The search finds the first start code that leaves an octet after it, or ends at the end. -/
theorem ffAvcFindStartcodeInternal_exact (base : Nat) {p : Nat} (from_begin : begin ≤ p) :
    ∃ found, ffAvcFindStartcodeInternal load base p stop = some (found.getD stop) ∧
      First (Hit load stop) p stop found := by
  have octets (limit : Nat) (below : limit ≤ stop - 3) (q : Nat) (after : begin ≤ q) (inside : q < limit) :=
    probeOctets_exact readable after (show q + 3 < stop by omega)
  have words (q : Nat) (after : begin ≤ q) (inside : q < stop - 6) :=
    probeWord_exact readable after (show q + 6 < stop by omega)
  obtain ⟨first, ran1, good1⟩ :=
    search_exact 1 (octets (min (p + 4 - (base + p) % 4) (stop - 3)) (Nat.min_le_right _ _)) p from_begin
  simp only [ffAvcFindStartcodeInternal, ran1, Option.bind_eq_bind, Option.bind_some]
  cases first with
  | found r => exact ⟨some r, rfl, good1⟩
  | stopped p1 =>
      obtain ⟨later1, -, none1⟩ := good1
      obtain ⟨second, ran2, good2⟩ := search_exact 4 words p1 (Nat.le_trans from_begin later1)
      simp only [ran2, Option.bind_some]
      cases second with
      | found r =>
          have first : First (Hit load stop) p1 stop (some r) := good2
          exact ⟨some r, rfl, first.extend later1 none1⟩
      | stopped p2 =>
          obtain ⟨later2, -, none2⟩ := good2
          have later := Nat.le_trans later1 later2
          have passed := First.extend none2 later1 none1
          obtain ⟨third, ran3, good3⟩ := search_exact 1 (octets (stop - 3) (Nat.le_refl _)) p2
            (Nat.le_trans from_begin later)
          simp only [ran3, Option.bind_some]
          cases third with
          | found r =>
              have first : First (Hit load stop) p2 stop (some r) := good3
              exact ⟨some r, rfl, first.extend later passed⟩
          | stopped p3 =>
              obtain ⟨later3, past, none3⟩ := good3
              have nowhere := First.extend none3 later passed
              -- a hit leaves three octets in front of the end
              refine ⟨none, rfl, fun i after below hit => nowhere i after ?_ hit⟩
              have room := hit.1
              omega

/-- What ff_avc_find_startcode returns: the end, a start code of three octets that has no
zero in front of it, or one of four. -/
inductive Found (load : Nat → Option UInt8) (p stop : Nat) : Nat → Prop where
  | nowhere : First (Hit load stop) p stop none → Found load p stop stop
  | short {out : Nat} : First (Hit load stop) p stop (some out) → (p < out → load (out - 1) ≠ some 0) →
      Found load p stop out
  | long {out : Nat} : First (Hit load stop) p stop (some (out + 1)) → p ≤ out → load out = some 0 →
      Found load p stop out

theorem ffAvcFindStartcode_exact (base : Nat) {p : Nat} (from_begin : begin ≤ p) :
    ∃ out, ffAvcFindStartcode load base p stop = some out ∧ Found load p stop out := by
  obtain ⟨found, ran, first⟩ := ffAvcFindStartcodeInternal_exact readable base from_begin
  simp only [ffAvcFindStartcode, ran, Option.bind_eq_bind, Option.bind_some]
  cases found with
  | none => exact ⟨stop, by simp, .nowhere first⟩
  | some out =>
      have after : p ≤ out := first.1
      have room : out + 3 < stop := first.2.1.1
      rw [Option.getD_some]
      split_ifs with between
      · obtain ⟨octet, before⟩ := readable (out - 1) (by omega) (by omega)
        simp only [before, Option.bind_some]
        split_ifs with zero
        · subst zero
          refine ⟨out - 1, rfl, .long ?_ (by omega) before⟩
          rwa [Nat.sub_add_cancel (by omega)]
        · refine ⟨out, rfl, .short first fun _ same => zero ?_⟩
          rw [before] at same
          exact Option.some.inj same
      · exact ⟨out, rfl, .short first fun later => absurd ⟨later, by omega⟩ between⟩

end

/-! ### The plain scan -/

/-- The octets from p up to, not including, `stop`, and nothing else. -/
def window (buf : List UInt8) (p stop i : Nat) : Option UInt8 :=
  if p ≤ i ∧ i < stop then buf[i]? else none

def plainScan (buf : List UInt8) (p stop : Nat) : Nat :=
  let found := (List.range' p (stop - 3 - p)).find? fun i =>
    buf[i]? = some 0 ∧ buf[i + 1]? = some 0 ∧ buf[i + 2]? = some 1
  found.getD stop

/-- Whatever the alignment, the search over words equals the plain scan and reads between p and `stop` only. -/
theorem ffAvcFindStartcodeInternal_eq_plainScan (base : Nat) (buf : List UInt8) (p stop : Nat) (inside : stop ≤ buf.length) :
    ffAvcFindStartcodeInternal (window buf p stop) base p stop = some (plainScan buf p stop) := by
  have readable : ∀ i, p ≤ i → i < stop → ∃ octet, window buf p stop i = some octet := by
    intro i after before
    rw [window, if_pos ⟨after, before⟩]
    exact ⟨_, List.getElem?_eq_getElem (by omega)⟩
  obtain ⟨found, ran, first⟩ := ffAvcFindStartcodeInternal_exact readable base (Nat.le_refl p)
  have hit (i : Nat) (after : p ≤ i) : Hit (window buf p stop) stop i ↔
      i + 3 < stop ∧ buf[i]? = some 0 ∧ buf[i + 1]? = some 0 ∧ buf[i + 2]? = some 1 := by
    refine and_congr_right fun room => ?_
    simp only [StartsCode, window]
    rw [if_pos (by omega), if_pos (by omega), if_pos (by omega)]
  rw [ran, plainScan]
  congr 2
  cases found with
  | some out =>
      obtain ⟨after, here, none⟩ := first
      have code := (hit out after).mp here
      refine (List.find?_range'_eq_some.mpr ⟨by simpa using code.2, ?_, ?_⟩).symm
      · have room := code.1
        exact List.mem_range'_1.mpr (by omega)
      · intro i from_p below
        have room : i + 3 < stop := by omega
        rw [Bool.not_eq_true', decide_eq_false_iff_not]
        exact fun same => none i from_p below ((hit i from_p).mpr ⟨room, same⟩)
  | none =>
      refine (List.find?_range'_eq_none.mpr fun i from_p below => ?_).symm
      have room : i + 3 < stop := by omega
      rw [Bool.not_eq_true', decide_eq_false_iff_not]
      exact fun same => first i from_p (by omega) ((hit i from_p).mpr ⟨room, same⟩)

theorem ffAvcFindStartcodeInternal_eq_plainScan_unaligned :
    ffAvcFindStartcodeInternal (window [7, 7, 7, 7, 7, 7, 7, 7, 7, 0, 0, 1, 0x65, 7, 0, 0, 1] 1 17) 2 1 17 =
      some (plainScan [7, 7, 7, 7, 7, 7, 7, 7, 7, 0, 0, 1, 0x65, 7, 0, 0, 1] 1 17) :=
  ffAvcFindStartcodeInternal_eq_plainScan 2 _ 1 17 (by decide)

end H264Streaming.RtpSend
