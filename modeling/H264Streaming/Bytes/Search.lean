import Mathlib.Data.List.TakeWhile
import H264Streaming.Bytes.Text

/-! What the searches in C strings find, as decompositions of the text. -/

set_option autoImplicit false

namespace H264Streaming.Bytes

section
variable {literal needle front text rest : List UInt8} {octet : UInt8}

theorem behind_eq_some_iff : behind literal text = some rest ↔ text = literal ++ rest := by
  unfold behind
  constructor
  · intro found
    split at found
    · rename_i isPrefix
      obtain ⟨more, rfl⟩ := List.isPrefixOf_iff_prefix.mp isPrefix
      rw [List.drop_left] at found
      rw [Option.some.inj found]
    · cases found
  · rintro rfl
    rw [if_pos (List.isPrefixOf_iff_prefix.mpr (List.prefix_append _ _)), List.drop_left]

theorem behind_eq_none_iff : behind literal text = none ↔ ¬ literal <+: text := by
  unfold behind
  split
  · rename_i found
    simpa using List.isPrefixOf_iff_prefix.mp found
  · rename_i absent
    simpa using fun found => absent (List.isPrefixOf_iff_prefix.mpr found)

/-! ### Terminators -/

theorem cString_of_plain (plain : (0 : UInt8) ∉ text) : cString text = text := by
  refine List.takeWhile_eq_self_iff.mpr fun octet member => ?_
  rw [decide_eq_true_eq]
  rintro rfl
  exact plain member

theorem cString_append_cons (plain : (0 : UInt8) ∉ text) : cString (text ++ 0 :: rest) = text := by
  have all : ∀ octet ∈ text, (octet ≠ 0 : Bool) := List.takeWhile_eq_self_iff.mp (cString_of_plain plain)
  rw [cString, List.takeWhile_append_of_pos all]
  exact List.append_nil text

theorem cString_append_zero (plain : (0 : UInt8) ∉ text) : cString (text ++ [0]) = text := cString_append_cons plain

theorem exists_behind_cString (terminated : (0 : UInt8) ∈ text) : ∃ behind, text = cString text ++ 0 :: behind := by
  obtain ⟨front, behind, rfl, plain⟩ := List.eq_append_cons_of_mem terminated
  exact ⟨behind, by rw [cString_append_cons plain]⟩

theorem cString_append_of_mem (terminated : (0 : UInt8) ∈ text) : cString (text ++ rest) = cString text := by
  obtain ⟨front, behind, rfl, plain⟩ := List.eq_append_cons_of_mem terminated
  rw [List.append_assoc, List.cons_append, cString_append_cons plain, cString_append_cons plain]

theorem cString_append_zeros (count : Nat) : cString (text ++ List.replicate count 0) = cString text := by
  by_cases terminated : (0 : UInt8) ∈ text
  · exact cString_append_of_mem terminated
  · rw [cString_of_plain terminated]
    cases count with
    | zero => rw [List.replicate_zero, List.append_nil, cString_of_plain terminated]
    | succ count => exact cString_append_cons terminated

theorem zero_mem_append_iff (plain : (0 : UInt8) ∉ text) : 0 ∈ text ++ [octet] ↔ octet = 0 := by
  rw [List.mem_append, List.mem_singleton]
  constructor
  · rintro (member | zero)
    · exact absurd member plain
    · exact zero.symm
  · exact fun zero => Or.inr zero.symm

/-! ### strchr -/

theorem strchr_append (absent : octet ∉ front) : strchr octet (front ++ rest) = strchr octet rest := by
  induction front with
  | nil => rfl
  | cons first front ih =>
      rw [List.mem_cons, not_or] at absent
      rw [List.cons_append, strchr, if_neg (Ne.symm absent.1), ih absent.2]

theorem strchr_self (octet : UInt8) (rest : List UInt8) : strchr octet (octet :: rest) = some (octet :: rest) :=
  if_pos rfl

theorem strchr_eq_some_iff :
    strchr octet text = some rest ↔ ∃ front more, text = front ++ octet :: more ∧ octet ∉ front ∧ rest = octet :: more := by
  constructor
  · intro found
    induction text with
    | nil => cases found
    | cons first text ih =>
        rw [strchr] at found
        split at found
        · rename_i same
          cases found
          exact ⟨[], text, by rw [same, List.nil_append], List.not_mem_nil, by rw [same]⟩
        · rename_i other
          obtain ⟨front, more, rfl, absent, rfl⟩ := ih found
          refine ⟨first :: front, more, rfl, ?_, rfl⟩
          rw [List.mem_cons, not_or]
          exact ⟨Ne.symm other, absent⟩
  · rintro ⟨front, more, rfl, absent, rfl⟩
    rw [strchr_append absent, strchr_self]

theorem strchr_eq_none_iff : strchr octet text = none ↔ octet ∉ text := by
  constructor
  · intro none member
    obtain ⟨front, more, same, absent⟩ := List.eq_append_cons_of_mem member
    rw [same, strchr_append absent, strchr_self] at none
    cases none
  · intro absent
    have whole : strchr octet (text ++ []) = strchr octet [] := strchr_append absent
    rwa [List.append_nil] at whole

theorem append_cons_inj {other more : List UInt8} (absent : octet ∉ front) (missing : octet ∉ other)
    (same : front ++ octet :: rest = other ++ octet :: more) : front = other ∧ rest = more := by
  have one : strchr octet (front ++ octet :: rest) = strchr octet (octet :: rest) := strchr_append absent
  rw [same, strchr_append missing, strchr_self, strchr_self] at one
  cases Option.some.inj one
  exact ⟨List.append_cancel_right same, rfl⟩

/-! ### strstr -/

/-- The needle stands at the start of `rest` and nowhere before in `front ++ rest`. -/
structure FirstAt (needle front rest : List UInt8) : Prop where
  here : needle <+: rest
  earlier : ∀ k < front.length, ¬ needle <+: (front ++ rest).drop k

theorem FirstAt.cons_iff :
    FirstAt needle (octet :: front) rest ↔ ¬ needle <+: octet :: (front ++ rest) ∧ FirstAt needle front rest := by
  constructor
  · intro first
    exact ⟨first.earlier 0 (Nat.succ_pos _), first.here, fun k below => first.earlier (k + 1) (Nat.succ_lt_succ below)⟩
  · rintro ⟨absent, first⟩
    refine ⟨first.here, fun k below => ?_⟩
    cases k with
    | zero => exact absent
    | succ k => exact first.earlier k (Nat.lt_of_succ_lt_succ below)

theorem strstr_eq_some_iff : strstr needle text = some rest ↔ ∃ front, text = front ++ rest ∧ FirstAt needle front rest := by
  induction text with
  | nil =>
      rw [strstr]
      constructor
      · intro found
        split at found
        · rename_i empty
          cases found
          exact ⟨[], rfl, empty ▸ List.prefix_rfl, fun k below => absurd below (Nat.not_lt_zero k)⟩
        · cases found
      · rintro ⟨front, same, first⟩
        obtain ⟨rfl, rfl⟩ := List.append_eq_nil_iff.mp same.symm
        rw [if_pos (List.prefix_nil.mp first.here)]
  | cons octet text ih =>
      rw [strstr]
      split
      · rename_i found
        have here := List.isPrefixOf_iff_prefix.mp found
        constructor
        · intro same
          cases same
          exact ⟨[], rfl, here, fun k below => absurd below (Nat.not_lt_zero k)⟩
        · rintro ⟨front, same, first⟩
          cases front with
          | nil => rw [same, List.nil_append]
          | cons other front =>
              obtain ⟨rfl, rfl⟩ := List.cons.inj same
              exact absurd here (FirstAt.cons_iff.mp first).1
      · rename_i absent
        rw [ih]
        constructor
        · rintro ⟨front, rfl, first⟩
          have missing := fun here => absent (List.isPrefixOf_iff_prefix.mpr here)
          exact ⟨octet :: front, rfl, FirstAt.cons_iff.mpr ⟨missing, first⟩⟩
        · rintro ⟨front, same, first⟩
          cases front with
          | nil =>
              rw [List.nil_append] at same
              exact absurd (List.isPrefixOf_iff_prefix.mpr (same ▸ first.here)) absent
          | cons other front =>
              obtain ⟨rfl, rfl⟩ := List.cons.inj same
              exact ⟨front, rfl, (FirstAt.cons_iff.mp first).2⟩

theorem FirstAt.unique {other behind : List UInt8} (first : FirstAt needle front rest)
    (second : FirstAt needle other behind) (same : front ++ rest = other ++ behind) : front = other ∧ rest = behind := by
  have one : strstr needle (front ++ rest) = some rest := strstr_eq_some_iff.mpr ⟨front, rfl, first⟩
  have two : strstr needle (front ++ rest) = some behind := strstr_eq_some_iff.mpr ⟨other, same, second⟩
  have equal : rest = behind := Option.some.inj (one.symm.trans two)
  subst equal
  exact ⟨List.append_cancel_right same, rfl⟩

theorem FirstAt.append_iff {more : List UInt8} (here : needle <+: rest) :
    FirstAt needle front (rest ++ more) ↔ FirstAt needle front rest := by
  have sooner : ∀ k < front.length, (front ++ (rest ++ more)).drop k = (front ++ rest).drop k ++ more := by
    intro k below
    have inside : k ≤ (front ++ rest).length := by
      rw [List.length_append]
      omega
    rw [← List.append_assoc, List.drop_append_of_le_length inside]
  constructor
  · intro first
    refine ⟨here, fun k below earlier => first.earlier k below ?_⟩
    rw [sooner k below]
    exact earlier.trans (List.prefix_append _ more)
  · intro first
    refine ⟨here.trans (List.prefix_append rest more), fun k below earlier => first.earlier k below ?_⟩
    -- the needle fits in front of what follows
    have room : needle.length ≤ ((front ++ rest).drop k).length := by
      have size := here.length_le
      rw [List.length_drop, List.length_append]
      omega
    rw [sooner k below] at earlier
    exact List.prefix_of_prefix_length_le earlier (List.prefix_append _ more) room

theorem strstr_append (found : strstr needle text = some rest) (more : List UInt8) :
    strstr needle (text ++ more) = some (rest ++ more) := by
  obtain ⟨front, rfl, first⟩ := strstr_eq_some_iff.mp found
  exact strstr_eq_some_iff.mpr ⟨front, List.append_assoc front rest more, (FirstAt.append_iff first.here).mpr first⟩

/-! ### Fields -/

/-- The field between the first needle in a text and the next stop behind it. -/
def FieldAt (needle : List UInt8) (stop : UInt8) (text field : List UInt8) : Prop :=
  ∃ front rest, text = front ++ (needle ++ (field ++ stop :: rest)) ∧
    FirstAt needle front (needle ++ (field ++ stop :: rest)) ∧ stop ∉ field

theorem FieldAt.mem_stop {field : List UInt8} (found : FieldAt needle octet text field) : octet ∈ text := by
  obtain ⟨front, rest, rfl, -⟩ := found
  simp

theorem FieldAt.mem_text {field : List UInt8} {stop : UInt8} (found : FieldAt needle stop text field)
    (member : octet ∈ field) : octet ∈ text := by
  obtain ⟨front, rest, rfl, -⟩ := found
  simp [member]

/-- In a part of the text there is the same field once its stop is in it, and none before. -/
theorem fieldAt_take_iff {field value : List UInt8} {stop : UInt8} {room : Nat}
    (own : FirstAt needle front (needle ++ (field ++ stop :: rest))) (plain : stop ∉ field) :
    FieldAt needle stop ((front ++ (needle ++ (field ++ stop :: rest))).take room) value ↔
      value = field ∧ (front ++ (needle ++ field)).length < room := by
  constructor
  · rintro ⟨other, behind, text, first, absent⟩
    have whole := List.take_append_drop room (front ++ (needle ++ (field ++ stop :: rest)))
    rw [text, List.append_assoc] at whole
    obtain ⟨rfl, later⟩ := own.unique ((FirstAt.append_iff first.here).mpr first) whole.symm
    rw [List.append_assoc, List.append_cancel_left_eq, List.append_assoc, List.cons_append] at later
    obtain ⟨rfl, -⟩ := append_cons_inj plain absent later
    refine ⟨rfl, ?_⟩
    have size := congrArg List.length text
    simp only [List.length_append, List.length_cons, List.length_take] at size ⊢
    omega
  · rintro ⟨rfl, inside⟩
    have split : front ++ (needle ++ (value ++ stop :: rest)) = (front ++ (needle ++ value)) ++ (stop :: rest) := by simp
    obtain ⟨more, enough⟩ : ∃ more, room - (front ++ (needle ++ value)).length = more + 1 :=
      ⟨_, (Nat.succ_pred_eq_of_pos (Nat.sub_pos_of_lt inside)).symm⟩
    have text : (front ++ (needle ++ (value ++ stop :: rest))).take room =
        front ++ (needle ++ (value ++ stop :: rest.take more)) := by
      rw [split, List.take_append, List.take_of_length_le (Nat.le_of_lt inside), enough, List.take_succ_cons]
      simp
    refine ⟨front, rest.take more, text, ⟨List.prefix_append _ _, fun k below sooner => own.earlier k below ?_⟩, plain⟩
    rw [← text, List.drop_take] at sooner
    exact sooner.trans (List.take_prefix _ _)

theorem strstr_isSome_iff : (strstr needle text).isSome ↔ needle <:+: text := by
  induction text with
  | nil =>
      rw [strstr, List.infix_nil]
      split
      · rename_i empty
        exact ⟨fun _ => empty, fun _ => rfl⟩
      · rename_i filled
        exact ⟨fun none => (by cases none), fun empty => absurd empty filled⟩
  | cons octet text ih =>
      rw [strstr, List.infix_cons_iff]
      split
      · rename_i found
        exact ⟨fun _ => Or.inl (List.isPrefixOf_iff_prefix.mp found), fun _ => rfl⟩
      · rename_i absent
        rw [ih]
        exact ⟨Or.inr, fun either => either.resolve_left fun here => absent (List.isPrefixOf_iff_prefix.mpr here)⟩

theorem strchr_isSome_iff : (strchr octet text).isSome ↔ octet ∈ text := by
  rw [← not_iff_not, ← strchr_eq_none_iff, Option.not_isSome_iff_eq_none]

/-! ### strtok -/

theorem strtok_append_cons {delimiters : List UInt8} (delimits : octet ∈ delimiters) :
    strtok delimiters (front ++ octet :: rest) = strtok delimiters front ++ strtok delimiters rest := by
  unfold strtok
  rw [List.splitOnP_append_cons front rest (decide_eq_true delimits), List.filter_append]

theorem strtok_nil (delimiters : List UInt8) : strtok delimiters [] = [] := rfl

theorem strtok_plain {delimiters : List UInt8} (plain : ∀ octet ∈ text, octet ∉ delimiters) :
    strtok delimiters text = [text].filter (· ≠ []) := by
  unfold strtok
  rw [List.splitOnP_eq_singleton fun octet member => decide_eq_false (plain octet member)]

/-- Lines that end in delimiters come back, but for the empty ones. -/
theorem strtok_lines {delimiters ending : List UInt8} (ends : ∀ octet ∈ ending, octet ∈ delimiters)
    (filled : ending ≠ []) {lines : List (List UInt8)}
    (plain : ∀ line ∈ lines, ∀ octet ∈ line, octet ∉ delimiters) :
    strtok delimiters (lines.flatMap (· ++ ending)) = lines.filter (· ≠ []) := by
  have behind : ∀ ending : List UInt8, (∀ octet ∈ ending, octet ∈ delimiters) → ∀ text,
      strtok delimiters (ending ++ text) = strtok delimiters text := by
    intro ending ends text
    induction ending with
    | nil => rfl
    | cons octet ending ih =>
        obtain ⟨first, later⟩ := List.forall_mem_cons.mp ends
        have none : strtok delimiters ([] ++ octet :: (ending ++ text)) =
            strtok delimiters [] ++ strtok delimiters (ending ++ text) := strtok_append_cons first
        rw [List.nil_append, strtok_nil, List.nil_append] at none
        rw [List.cons_append, none, ih later]
  obtain ⟨octet, ending, rfl⟩ := List.exists_cons_of_ne_nil filled
  obtain ⟨first, later⟩ := List.forall_mem_cons.mp ends
  induction lines with
  | nil => exact strtok_nil delimiters
  | cons line lines ih =>
      obtain ⟨here, others⟩ := List.forall_mem_cons.mp plain
      rw [List.flatMap_cons, List.append_assoc, List.cons_append, strtok_append_cons first, strtok_plain here,
        behind ending later, ih others, ← List.filter_append]
      rfl

theorem mem_splitOnP {delimits : UInt8 → Bool} {piece : List UInt8} (member : piece ∈ text.splitOnP delimits) :
    piece ⊆ text ∧ ∀ octet ∈ piece, delimits octet = false := by
  induction text generalizing piece with
  | nil =>
      obtain rfl := List.mem_singleton.mp member
      exact ⟨fun _ none => none, fun _ none => nomatch none⟩
  | cons first text ih =>
      rw [List.splitOnP_cons_eq_if_modifyHead] at member
      split at member
      · rcases List.mem_cons.mp member with rfl | later
        · exact ⟨List.nil_subset _, fun _ none => nomatch none⟩
        · obtain ⟨inside, plain⟩ := ih later
          exact ⟨List.Subset.trans inside (List.subset_cons_self first text), plain⟩
      · next other =>
          obtain ⟨head, pieces, same⟩ := List.exists_cons_of_ne_nil (List.splitOnP_ne_nil delimits text)
          rw [same, List.modifyHead_cons] at member
          rcases List.mem_cons.mp member with rfl | later
          · obtain ⟨inside, plain⟩ := ih (same ▸ List.mem_cons_self)
            refine ⟨List.cons_subset_cons first inside, List.forall_mem_cons.mpr ⟨?_, plain⟩⟩
            exact Bool.eq_false_iff.mpr other
          · obtain ⟨inside, plain⟩ := ih (same ▸ List.mem_cons_of_mem head later)
            exact ⟨List.Subset.trans inside (List.subset_cons_self first text), plain⟩

theorem mem_strtok {delimiters piece : List UInt8} (member : piece ∈ strtok delimiters text) :
    piece ≠ [] ∧ piece ⊆ text ∧ ∀ octet ∈ piece, octet ∉ delimiters := by
  obtain ⟨among, filled⟩ := List.mem_filter.mp member
  obtain ⟨inside, plain⟩ := mem_splitOnP among
  exact ⟨of_decide_eq_true filled, inside, fun octet own => of_decide_eq_false (plain octet own)⟩

/-! ### Lines -/

theorem flatMap_lines_inj {stop : UInt8} {first second : List (List UInt8)} (plain : ∀ line ∈ first, stop ∉ line)
    (other : ∀ line ∈ second, stop ∉ line) (same : first.flatMap (· ++ [stop]) = second.flatMap (· ++ [stop])) :
    first = second := by
  induction first generalizing second with
  | nil =>
      cases second with
      | nil => rfl
      | cons line second => simp at same
  | cons line first ih =>
      cases second with
      | nil => simp at same
      | cons head second =>
          obtain ⟨here, behind⟩ := List.forall_mem_cons.mp plain
          obtain ⟨there, beyond⟩ := List.forall_mem_cons.mp other
          simp only [List.flatMap_cons, List.append_assoc, List.singleton_append] at same
          obtain ⟨rfl, rest⟩ := append_cons_inj here there same
          rw [ih behind beyond rest]

end

end H264Streaming.Bytes
