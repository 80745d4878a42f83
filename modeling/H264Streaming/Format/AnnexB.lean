import H264Streaming.Format.Payload
import H264Streaming.Semantics.Framing

/-! Byte streams of NAL units, each behind a start code of three or of four octets. -/

set_option autoImplicit false

namespace H264Streaming.Format

open H264Streaming.Semantics

structure CodedUnit where
  long : Bool
  unit : NalUnit
  deriving DecidableEq

def CodedUnit.code (coded : CodedUnit) : List UInt8 := if coded.long then [0, 0, 0, 1] else [0, 0, 1]

def CodedUnit.bytes (coded : CodedUnit) : List UInt8 := coded.code ++ coded.unit.bytes

def annexB (coded : List CodedUnit) : List UInt8 := stream CodedUnit.bytes coded

def StartCode (code : List UInt8) : Prop := code = [0, 0, 1] ∨ code = [0, 0, 0, 1]

theorem CodedUnit.isCode (coded : CodedUnit) : StartCode coded.code := by
  unfold CodedUnit.code
  split
  · exact .inr rfl
  · exact .inl rfl

theorem annexB_cons (coded : CodedUnit) (rest : List CodedUnit) :
    annexB (coded :: rest) = coded.code ++ (coded.unit.bytes ++ annexB rest) := by
  rw [annexB, stream_cons, CodedUnit.bytes, List.append_assoc]
  rfl

theorem length_annexB (coded : List CodedUnit) : coded.length ≤ (annexB coded).length := by
  induction coded with
  | nil => exact Nat.le_refl 0
  | cons first rest ih =>
      rw [annexB_cons, List.length_cons, List.length_append, List.length_append, NalUnit.length_bytes]
      omega

theorem StartCode.split {code : List UInt8} (isCode : StartCode code) :
    code = code.dropLast ++ [1] ∧ ∀ octet ∈ code.dropLast, octet = 0 := by
  rcases isCode with rfl | rfl
  · exact ⟨rfl, by simp⟩
  · exact ⟨rfl, by simp⟩

theorem StartCode.facts {code : List UInt8} (isCode : StartCode code) :
    3 ≤ code.length ∧ code.getLast? = some 1 ∧ (1 : UInt8) ∉ code.dropLast ∧ [0, 0, 1] <:+ code := by
  rcases isCode with rfl | rfl
  · exact ⟨by decide, rfl, by decide, by decide⟩
  · exact ⟨by decide, rfl, by decide, by decide⟩

/-- No start code and nothing that could become part of one. -/
structure Escaped (octets : List UInt8) : Prop where
  noZeros : ¬ [0, 0, 0] <:+: octets
  noCode : ¬ [0, 0, 1] <:+: octets
  last : octets.getLast? ≠ some 0

/-! ### Octets behind one another -/

theorem suffix_snoc (front : List UInt8) {octets : List UInt8} {first second : UInt8} :
    front ++ [first] <:+ octets ++ [second] ↔ front <:+ octets ∧ first = second := by
  rw [List.suffix_concat_iff]
  constructor
  · rintro (nothing | ⟨rest, same, within⟩)
    · simp at nothing
    · obtain ⟨rfl, last⟩ := List.append_inj' same rfl
      exact ⟨within, List.singleton_inj.mp last⟩
  · rintro ⟨within, rfl⟩
    exact .inr ⟨front, rfl, within⟩

theorem not_zero_suffix {octets : List UInt8} (last : octets.getLast? ≠ some 0) (front : List UInt8) :
    ¬ front ++ [0] <:+ octets := by
  rintro ⟨before, rfl⟩
  rw [← List.append_assoc, List.getLast?_concat] at last
  exact last rfl

theorem code_snoc {octets : List UInt8} {code octet : UInt8} (absent : ¬ [0, 0, code] <:+: octets)
    (tail : [0, 0] <:+ octets → code ≠ octet) : ¬ [0, 0, code] <:+: octets ++ [octet] := by
  rw [List.infix_concat_iff, not_or]
  refine ⟨fun suffix => ?_, absent⟩
  obtain ⟨zeros, same⟩ := (suffix_snoc [0, 0]).mp suffix
  exact tail zeros same

theorem code_zeros {octets zeros : List UInt8} (absent : ¬ [0, 0, 1] <:+: octets) (all : ∀ octet ∈ zeros, octet = 0) :
    ¬ [0, 0, 1] <:+: octets ++ zeros := by
  induction zeros using List.reverseRecOn with
  | nil => rwa [List.append_nil]
  | append_singleton front octet ih =>
      have zero : octet = 0 := all octet (List.mem_append_right _ List.mem_cons_self)
      rw [← List.append_assoc]
      refine code_snoc (ih fun other member => all other (List.mem_append_left _ member)) fun _ => ?_
      rw [zero]
      decide

theorem Escaped.zeros {octets : List UInt8} (escaped : Escaped octets) {count : Nat} (few : count ≤ 2) {code : UInt8}
    (absent : ¬ [0, 0, code] <:+: octets) : ¬ [0, 0, code] <:+: octets ++ List.replicate count 0 := by
  have one : ¬ [0, 0, code] <:+: octets ++ [0] :=
    code_snoc absent fun zeros => absurd zeros (not_zero_suffix escaped.last [0])
  match count with
  | 0 => rwa [List.replicate_zero, List.append_nil]
  | 1 => exact one
  | 2 =>
      have two : ¬ [0, 0, code] <:+: octets ++ [0] ++ [0] := code_snoc one fun zeros =>
        absurd ((suffix_snoc [0]).mp zeros).1 (not_zero_suffix escaped.last [])
      rwa [List.append_assoc] at two
  | more + 3 => omega

/-- The zeros held back and the octet that shows that they belong to a unit. -/
theorem Escaped.store {octets : List UInt8} (escaped : Escaped octets) {count : Nat} (few : count ≤ 2) {octet : UInt8}
    (nonzero : octet ≠ 0) (other : count = 2 → octet ≠ 1) :
    Escaped (octets ++ (List.replicate count 0 ++ [octet])) := by
  have short (less : count ≠ 2) : ¬ [0, 0] <:+ octets ++ List.replicate count 0 := by
    match count with
    | 0 =>
        rw [List.replicate_zero, List.append_nil]
        exact not_zero_suffix escaped.last [0]
    | 1 => exact fun zeros => not_zero_suffix escaped.last [] ((suffix_snoc [0]).mp zeros).1
    | 2 => exact absurd rfl less
    | more + 3 => omega
  rw [← List.append_assoc]
  constructor
  · exact code_snoc (escaped.zeros few escaped.noZeros) fun _ => nonzero.symm
  · refine code_snoc (escaped.zeros few escaped.noCode) fun zeros => ?_
    by_cases both : count = 2
    · exact (other both).symm
    · exact absurd zeros (short both)
  · rw [List.getLast?_concat]
    exact fun same => nonzero (Option.some.inj same)

/-- A start code does not reach across the end of a part that ends with no zero. -/
theorem code_append {first second : List UInt8} {code : UInt8} (last : first.getLast? ≠ some 0)
    (left : ¬ [0, 0, code] <:+: first) (right : ¬ [0, 0, code] <:+: second) :
    ¬ [0, 0, code] <:+: first ++ second := by
  induction second using List.reverseRecOn with
  | nil => rwa [List.append_nil]
  | append_singleton front octet ih =>
      have absent := ih fun within => right (within.trans (List.prefix_append front [octet]).isInfix)
      rw [← List.append_assoc]
      refine code_snoc absent fun zeros same => ?_
      -- the two zeros are within the second part, or the first part ends with one
      match front with
      | [] =>
          rw [List.append_nil] at zeros
          exact not_zero_suffix last [0] zeros
      | [middle] => exact not_zero_suffix last [] ((suffix_snoc [0]).mp zeros).1
      | one :: two :: more =>
          have within : [0, 0] <:+ one :: two :: more :=
            List.suffix_of_suffix_length_le zeros (List.suffix_append _ _) (by simp)
          have suffix : [0, 0] ++ [code] <:+ one :: two :: more ++ [octet] := (suffix_snoc [0, 0]).mpr ⟨within, same⟩
          exact right suffix.isInfix

theorem Escaped.append {first second : List UInt8} (left : Escaped first) (right : Escaped second)
    (nonempty : second ≠ []) : Escaped (first ++ second) := by
  refine ⟨code_append left.last left.noZeros right.noZeros, code_append left.last left.noCode right.noCode, ?_⟩
  rw [List.getLast?_append_of_ne_nil _ nonempty]
  exact right.last

/-- What stands in front of the first start code, which takes in a zero in front of its three octets. -/
structure Cut (octets unit next rest : List UInt8) : Prop where
  split : octets = unit ++ next ++ rest
  isCode : StartCode next
  none : ¬ [0, 0, 1] <:+: unit
  apart : next = [0, 0, 1] → unit.getLast? ≠ some 0

theorem exists_cut (octets : List UInt8) : ¬ [0, 0, 1] <:+: octets ∨ ∃ unit next rest, Cut octets unit next rest := by
  induction octets using List.reverseRecOn with
  | nil => exact .inl (by decide)
  | append_singleton front octet ih =>
      rcases ih with absent | ⟨unit, next, rest, ⟨rfl, isCode, none, apart⟩⟩
      · by_cases found : [0, 0] <:+ front ∧ octet = 1
        · right
          obtain ⟨⟨before, rfl⟩, rfl⟩ := found
          have within : before <:+: before ++ [0, 0] := (List.prefix_append before [0, 0]).isInfix
          by_cases zero : before.getLast? = some 0
          · obtain ⟨unit, rfl⟩ := List.getLast?_eq_some_iff.mp zero
            refine ⟨unit, [0, 0, 0, 1], [], by simp, .inr rfl, fun code => absent ?_, nofun⟩
            exact code.trans ((List.prefix_append unit [0]).isInfix.trans within)
          · exact ⟨before, [0, 0, 1], [], by simp, .inl rfl, fun code => absent (code.trans within), fun _ => zero⟩
        · left
          refine code_snoc absent fun zeros same => found ⟨zeros, same.symm⟩
      · exact .inr ⟨unit, next, rest ++ [octet], by simp, isCode, none, apart⟩

/-! ### The first start code -/

theorem code_in_front {front left right : List UInt8} (same : [0, 0, 1] ++ left = front ++ ([0, 0, 1] ++ right))
    (absent : ¬ [0, 0, 1] <:+: front) : front = [] := by
  match front with
  | [] => rfl
  | [one] => simp at same
  | [one, two] => simp at same
  | one :: two :: three :: more =>
      simp only [List.cons_append, List.nil_append, List.cons.injEq] at same
      obtain ⟨rfl, rfl, rfl, -⟩ := same
      exact absurd (List.prefix_append [0, 0, 1] more).isInfix absent

theorem code_unique {first second left right : List UInt8} (same : first ++ ([0, 0, 1] ++ left) = second ++ ([0, 0, 1] ++ right))
    (before : ¬ [0, 0, 1] <:+: first) (other : ¬ [0, 0, 1] <:+: second) : first = second := by
  rcases List.append_eq_append_iff.mp same with ⟨between, rfl, rest⟩ | ⟨between, rfl, rest⟩
  · have within := (List.suffix_append first between).isInfix
    rw [code_in_front rest fun code => other (code.trans within), List.append_nil]
  · have within := (List.suffix_append second between).isInfix
    rw [code_in_front rest fun code => before (code.trans within), List.append_nil]

theorem StartCode.zeros {code : List UInt8} (isCode : StartCode code) :
    ∃ zeros : List UInt8, code = zeros ++ [0, 0, 1] ∧ ∀ octet ∈ zeros, octet = 0 := by
  rcases isCode with rfl | rfl
  · exact ⟨[], rfl, nofun⟩
  · exact ⟨[0], rfl, by simp⟩

theorem StartCode.meet {first second code other left right : List UInt8} (isCode : StartCode code)
    (isOther : StartCode other) (same : first ++ (code ++ left) = second ++ (other ++ right))
    (before : ¬ [0, 0, 1] <:+: first) (behind : ¬ [0, 0, 1] <:+: second) :
    first ++ code = second ++ other ∧ left = right := by
  obtain ⟨zeros, rfl, allZeros⟩ := isCode.zeros
  obtain ⟨others, rfl, allOthers⟩ := isOther.zeros
  have ends : (first ++ zeros) ++ ([0, 0, 1] ++ left) = (second ++ others) ++ ([0, 0, 1] ++ right) := by
    simpa only [List.append_assoc] using same
  have fronts := code_unique ends (code_zeros before allZeros) (code_zeros behind allOthers)
  rw [fronts] at ends
  rw [← List.append_assoc, fronts, List.append_assoc]
  exact ⟨rfl, List.append_cancel_left (List.append_cancel_left ends)⟩

/-- Where a unit that ends with no zero stands in front of the one code, so does what it is taken for. -/
theorem StartCode.in_front {unit other code next : List UInt8} (isCode : StartCode code) (isNext : StartCode next)
    (same : unit ++ code = other ++ next) (last : other.getLast? ≠ some 0)
    (apart : code = [0, 0, 1] → unit.getLast? ≠ some 0) : unit = other ∧ code = next := by
  have longer (octets : List UInt8) : octets ++ [0, 0, 0, 1] = octets ++ [0] ++ [0, 0, 1] := by simp
  rcases isCode with rfl | rfl <;> rcases isNext with rfl | rfl
  · exact ⟨List.append_cancel_right same, rfl⟩
  · rw [longer] at same
    rw [List.append_cancel_right same, List.getLast?_concat] at apart
    exact absurd rfl (apart rfl)
  · rw [longer] at same
    rw [← List.append_cancel_right same, List.getLast?_concat] at last
    exact absurd rfl last
  · exact ⟨List.append_cancel_right same, rfl⟩

theorem StartCode.unique {code other left right : List UInt8} (isCode : StartCode code) (isOther : StartCode other)
    (same : code ++ left = other ++ right) : code = other ∧ left = right := by
  rcases isCode with rfl | rfl <;> rcases isOther with rfl | rfl <;> simp_all

end H264Streaming.Format
