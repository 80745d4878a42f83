import H264Streaming.Format.AnnexB
import H264Streaming.RtpSend.Stream

/-! rtpSendH264HEVC loses no octet of its stream and sends none twice. -/

set_option autoImplicit false

namespace H264Streaming.RtpSend

open H264Streaming.Format H264Streaming.Semantics

/-- The stream from a start code on, and the units and flags that rtpSendNAL gets for it.
Only the last unit may end with a start code, which has nothing behind it. -/
inductive Carves : List UInt8 → List (List UInt8 × Int) → Prop where
  | last {code unit : List UInt8} : StartCode code → unit ≠ [] → ¬ [0, 0, 1] <:+: unit.dropLast →
      Carves (code ++ unit) [(unit, 1)]
  | more {code unit rest : List UInt8} {calls : List (List UInt8 × Int)} : StartCode code → ¬ [0, 0, 1] <:+: unit →
      ([0, 0, 1] <+: rest → unit.getLast? ≠ some 0) → Carves rest calls →
      Carves (code ++ unit ++ rest) ((unit, 0) :: calls)

inductive Splits : List UInt8 → List (List UInt8 × Int) → Prop where
  | nothing {pre : List UInt8} : ¬ [0, 0, 1] <:+: pre.dropLast → Splits pre []
  | units {pre rest : List UInt8} {calls : List (List UInt8 × Int)} : ¬ [0, 0, 1] <:+: pre → Carves rest calls →
      Splits (pre ++ rest) calls

variable {buf : List UInt8} {r start stop : Nat}

theorem code_of_infix {p n : Nat} (within : [0, 0, 1] <:+: (buf.drop p).take n) :
    ∃ i, p ≤ i ∧ i + 3 ≤ p + n ∧ StartsCode (buf[·]?) i := by
  obtain ⟨front, behind, same⟩ := within
  have room : front.length + 3 ≤ n := by
    have lengths := congrArg List.length same
    simp only [List.length_append, List.length_take, List.length_cons, List.length_nil] at lengths
    omega
  have octet (j : Nat) (inside : j < 3) : buf[p + front.length + j]? = [(0 : UInt8), 0, 1][j]? := by
    have here := congrArg (·[front.length + j]?) same
    simp only [List.getElem?_take, List.getElem?_drop] at here
    rw [if_pos (by omega), List.append_assoc, List.getElem?_append_right (by omega),
      List.getElem?_append_left (by simp only [List.length_cons, List.length_nil]; omega)] at here
    rw [Nat.add_assoc, ← here, Nat.add_sub_cancel_left]
  exact ⟨p + front.length, by omega, by omega, octet 0 (by decide), octet 1 (by decide), octet 2 (by decide)⟩

theorem Found.passed (found : Found (buf[·]?) start buf.length stop) (i : Nat) (after : start ≤ i) (below : i < stop) :
    ¬ Hit (buf[·]?) buf.length i := by
  cases found with
  | nowhere first => exact first i after below
  | short first => exact first.2.2 i after below
  | long first => exact first.2.2 i after (Nat.lt_succ_of_lt below)

theorem Found.unzeroed (found : Found (buf[·]?) start buf.length stop) (short : [0, 0, 1] <+: buf.drop stop)
    (later : start < stop) : buf[stop - 1]? ≠ some 0 := by
  obtain ⟨rest, behind⟩ := short
  have octet (j : Nat) : buf[stop + j]? = ([0, 0, 1] ++ rest)[j]? := by rw [behind, List.getElem?_drop]
  cases found with
  | nowhere =>
      have outside := octet 0
      rw [Nat.add_zero, List.getElem?_eq_none (Nat.le_refl _)] at outside
      cases outside
  | short _ nonzero => exact nonzero later
  | long first =>
      -- the third octet of 00 00 00 01 is not 1
      have zero : buf[stop + 1 + 1]? = some 0 := first.2.1.2.2.1
      rw [Nat.add_assoc, octet 2] at zero
      cases zero

theorem Coded.code (coded : Coded buf r start) : ∃ code, StartCode code ∧ buf.drop r = code ++ buf.drop start := by
  have cons {i : Nat} {octet : UInt8} (here : buf[i]? = some octet) : buf.drop i = octet :: buf.drop (i + 1) := by
    obtain ⟨inside, same⟩ := List.getElem?_eq_some_iff.mp here
    rw [List.drop_eq_getElem_cons inside, same]
  have three {i : Nat} (code : StartsCode (buf[·]?) i) : buf.drop i = [0, 0, 1] ++ buf.drop (i + 3) := by
    obtain ⟨first, second, third⟩ := code
    rw [cons first, cons second, cons third]
    rfl
  cases coded with
  | short code => exact ⟨_, .inl rfl, three code⟩
  | long zero code =>
      refine ⟨_, .inr rfl, ?_⟩
      rw [cons zero, three code]
      rfl

theorem Cuts.carves {slices : List Slice} (cuts : Cuts buf r slices) :
    Carves (buf.drop r) (slices.map fun slice => (slice.unit buf, slice.last buf)) := by
  induction cuts with
  | @last r start coded found =>
      obtain ⟨code, isCode, same⟩ := coded.code
      have inside := coded.bounds.2
      have whole : Slice.unit ⟨start, buf.length⟩ buf = buf.drop start :=
        List.take_of_length_le (by rw [List.length_drop])
      rw [List.map_singleton, whole, Slice.last, if_pos rfl, same]
      refine .last isCode (fun empty => ?_) fun within => ?_
      · have length := congrArg List.length empty
        rw [List.length_drop, List.length_nil] at length
        omega
      · rw [List.dropLast_eq_take, List.length_drop] at within
        obtain ⟨i, after, below, code⟩ := code_of_infix within
        exact found.passed i after (by omega) ⟨by omega, code⟩
  | @more r start stop rest coded found before _ ih =>
      obtain ⟨code, isCode, same⟩ := coded.code
      have forward : start ≤ stop := found.forward (Nat.le_of_lt coded.bounds.2)
      have unit : Slice.unit ⟨start, stop⟩ buf = (buf.drop start).take (stop - start) := rfl
      have parts : buf.drop r = code ++ Slice.unit ⟨start, stop⟩ buf ++ buf.drop stop := by
        rw [same, List.append_assoc, unit]
        nth_rewrite 1 [← List.take_append_drop (stop - start) (buf.drop start)]
        rw [List.drop_drop, Nat.add_sub_cancel' forward]
      rw [List.map_cons, Slice.last, if_neg (Nat.ne_of_lt before), parts]
      refine .more isCode (fun within => ?_) (fun short ends => ?_) ih
      · rw [unit] at within
        obtain ⟨i, after, below, code⟩ := code_of_infix within
        exact found.passed i after (by omega) ⟨by omega, code⟩
      · have later : start < stop := by
          rcases Nat.lt_or_eq_of_le forward with later | rfl
          · exact later
          · simp [unit] at ends
        refine found.unzeroed short later ?_
        rw [unit, List.getLast?_eq_getElem?, List.length_take_of_le (by rw [List.length_drop]; omega),
          List.getElem?_take_of_lt (by omega), List.getElem?_drop] at ends
        rwa [show start + (stop - start - 1) = stop - 1 by omega] at ends

/-- The calls of rtpSendNAL for a stream, whatever the sender's state: their units and the
start codes in front of them are the stream behind the octets before the first start code. -/
theorem rtpSendH264HEVC_lossless (base : Nat) (buf : List UInt8) :
    ∃ slices, (∀ ctx, rtpSendH264HEVC base buf ctx = some (run (sendSlice buf) slices ctx)) ∧
      (∀ slice ∈ slices, slice.start ≤ slice.stop ∧ slice.stop ≤ buf.length) ∧
      Splits buf (slices.map fun slice => (slice.unit buf, slice.last buf)) := by
  obtain ⟨out, slices, -, found, units, shape⟩ := split_cuts base buf
  refine ⟨slices, fun ctx => by rw [rtpSendH264HEVC_eq, units, Option.map_some], ?_⟩
  rcases shape with ⟨rfl, rfl⟩ | ⟨before, cuts⟩
  · refine ⟨fun slice member => absurd member List.not_mem_nil, .nothing fun within => ?_⟩
    rw [List.dropLast_eq_take, ← List.drop_zero (l := buf)] at within
    obtain ⟨i, after, below, code⟩ := code_of_infix within
    rw [List.drop_zero] at below
    exact found.passed i after (by omega) ⟨by omega, code⟩
  · obtain ⟨front, final, -, bounded, -, -⟩ := cuts.finds
    have pre : Splits (buf.take out ++ buf.drop out) (slices.map fun slice => (slice.unit buf, slice.last buf)) := by
      refine .units (fun within => ?_) cuts.carves
      rw [← List.drop_zero (l := buf.take out), List.drop_take, List.drop_zero] at within
      obtain ⟨i, after, below, code⟩ := code_of_infix (p := 0) within
      exact found.passed i after (by omega) ⟨by omega, code⟩
    rw [List.take_append_drop] at pre
    exact ⟨bounded, pre⟩

end H264Streaming.RtpSend
