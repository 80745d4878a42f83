import H264Streaming.Sdp.Parser

/-! The lines of a session description: what load_next_entry makes of them, in turn. -/

set_option autoImplicit false

namespace H264Streaming.Sdp

open H264Streaming.Bytes

def Entry.octets (entry : Entry) : List UInt8 := entry.1 :: 61 :: entry.2

def loadLines : List (List UInt8) → List Entry
  | [] => []
  | line :: lines =>
      match lineEntry line with
      | some entry => entry :: loadLines lines
      | none => []

theorem loadLines_octets (loaded : List Entry) : loadLines (loaded.map Entry.octets) = loaded := by
  induction loaded with
  | nil => rfl
  | cons entry loaded ih => exact congrArg (entry :: ·) ih

def OneLine (text : List UInt8) : Prop := ∀ octet ∈ text, octet ≠ 13 ∧ octet ≠ 10 ∧ octet ≠ 0

instance (text : List UInt8) : Decidable (OneLine text) :=
  inferInstanceAs (Decidable (∀ octet ∈ text, octet ≠ 13 ∧ octet ≠ 10 ∧ octet ≠ 0))

def LineEnd (ending : List UInt8) : Prop := ending = [10] ∨ ending = [13, 10]

theorem OneLine.not_lineEnd {text : List UInt8} (plain : OneLine text) : ∀ octet ∈ text, isLineEnd octet = false := by
  intro octet member
  obtain ⟨cr, lf, -⟩ := plain octet member
  rw [isLineEnd, decide_eq_false cr, decide_eq_false lf]
  rfl

theorem OneLine.no_cr {text : List UInt8} (plain : OneLine text) : (13 : UInt8) ∉ text := fun member =>
  (plain 13 member).1 rfl

theorem OneLine.no_lf {text : List UInt8} (plain : OneLine text) : (10 : UInt8) ∉ text := fun member =>
  (plain 10 member).2.1 rfl

theorem OneLine.subset {text part : List UInt8} (plain : OneLine text) (inside : part ⊆ text) : OneLine part :=
  fun octet member => plain octet (inside member)

theorem firstAt_of_not_mem {octet : UInt8} {needle front rest : List UInt8} (absent : octet ∉ front) :
    FirstAt (octet :: needle) front (octet :: needle ++ rest) := by
  refine ⟨List.prefix_append _ _, fun k below here => ?_⟩
  rw [List.drop_append_of_le_length (Nat.le_of_lt below), List.drop_eq_getElem_cons below] at here
  have same : octet = front[k] := (List.cons_prefix_cons.mp here).1
  exact absent (same ▸ List.getElem_mem below)

theorem nextLine_crlf {line : List UInt8} (plain : OneLine line) (rest : List UInt8) :
    nextLine (line ++ ([13, 10] ++ rest)) = (line, [13, 10] ++ rest) := by
  have found : strstr [13, 10] (line ++ ([13, 10] ++ rest)) = some ([13, 10] ++ rest) :=
    strstr_eq_some_iff.mpr ⟨line, rfl, firstAt_of_not_mem plain.no_cr⟩
  unfold nextLine
  rw [found]
  dsimp only
  rw [List.length_append, Nat.add_sub_cancel, List.take_left]

theorem nextLine_lf {line rest : List UInt8} (plain : OneLine line) (lines : (13 : UInt8) ∉ rest) :
    nextLine (line ++ 10 :: rest) = (line, 10 :: rest) := by
  have absent : strstr [13, 10] (line ++ 10 :: rest) = none := by
    cases found : strstr [13, 10] (line ++ 10 :: rest) with
    | none => rfl
    | some behind =>
        have inside := strstr_isSome_iff.mp (Option.isSome_iff_exists.mpr ⟨behind, found⟩)
        have member : (13 : UInt8) ∈ line ++ 10 :: rest := inside.subset List.mem_cons_self
        simp [plain.no_cr, lines] at member
  unfold nextLine
  rw [absent, strchr_append plain.no_lf, strchr_self]
  dsimp only
  rw [List.length_append, Nat.add_sub_cancel, List.take_left]

theorem entries_eq (p : List UInt8) :
    entries p = match loadNextEntry p with
      | some (entry, rest) => entry :: entries rest
      | none => [] := by
  rw [entries]
  split <;> next same => rw [same]

/-- With either line end, the entries of a text are those of its lines. -/
theorem entries_lines {ending : List UInt8} (ends : LineEnd ending) {lines : List (List UInt8)}
    (plain : ∀ line ∈ lines, OneLine line ∧ line ≠ []) : entries (lines.flatMap (· ++ ending)) = loadLines lines := by
  induction lines with
  | nil => rw [entries_eq]; rfl
  | cons line lines ih =>
      obtain ⟨⟨here, filled⟩, later⟩ := List.forall_mem_cons.mp plain
      have next : nextLine (line ++ (ending ++ lines.flatMap (· ++ ending))) =
          (line, ending ++ lines.flatMap (· ++ ending)) := by
        rcases ends with rfl | rfl
        · refine nextLine_lf here fun member => ?_
          obtain ⟨other, among, inside⟩ := List.mem_flatMap.mp member
          rcases List.mem_append.mp inside with inLine | inEnd
          · exact (later other among).1.no_cr inLine
          · exact absurd inEnd (by decide)
        · exact nextLine_crlf here _
      -- the line end is passed over, and the next line begins with none
      have behind : (ending ++ lines.flatMap (· ++ ending)).dropWhile isLineEnd = lines.flatMap (· ++ ending) := by
        have passed : ∀ octet ∈ ending, isLineEnd octet := by
          rcases ends with rfl | rfl <;> decide +kernel
        rw [List.dropWhile_append_of_pos passed]
        cases lines with
        | nil => rfl
        | cons other lines =>
            obtain ⟨first, more, rfl⟩ := List.exists_cons_of_ne_nil (later other List.mem_cons_self).2
            have stops := (later _ List.mem_cons_self).1.not_lineEnd first List.mem_cons_self
            rw [List.flatMap_cons, List.cons_append, List.cons_append, List.dropWhile_cons_of_neg (by simp [stops])]
      rw [List.flatMap_cons, List.append_assoc, entries_eq, loadNextEntry, next, behind, loadLines]
      cases lineEntry line with
      | none => rfl
      | some entry => exact congrArg (entry :: ·) (ih later)

theorem lf_not_mem_nextLine {p : List UInt8} (plain : (13 : UInt8) ∉ p) : (10 : UInt8) ∉ (nextLine p).1 := by
  unfold nextLine
  split
  · next endl found =>
      have inside := strstr_isSome_iff.mp (Option.isSome_iff_exists.mpr ⟨endl, found⟩)
      exact absurd (inside.subset List.mem_cons_self) plain
  · split
    · next endl found =>
        obtain ⟨front, more, rfl, absent, rfl⟩ := strchr_eq_some_iff.mp found
        dsimp only
        rwa [List.length_append, Nat.add_sub_cancel, List.take_left]
    · next none => exact strchr_eq_none_iff.mp none

theorem oneLine_of_mem_entries {p : List UInt8} (plain : ∀ octet ∈ p, octet ≠ 13 ∧ octet ≠ 0) {entry : Entry}
    (member : entry ∈ entries p) : OneLine entry.octets := by
  induction size : p.length using Nat.strong_induction_on generalizing p with
  | _ n ih =>
      rw [entries_eq] at member
      split at member
      · next found rest loaded =>
          have whole := nextLine_append p
          obtain ⟨line, behind⟩ := loadNextEntry_eq_some_iff.mp loaded
          rcases List.mem_cons.mp member with rfl | later
          · rw [Entry.octets, ← line]
            intro octet inside
            obtain ⟨cr, zero⟩ := plain octet (whole ▸ List.mem_append_left _ inside)
            have absent := lf_not_mem_nextLine fun inside => (plain 13 inside).1 rfl
            exact ⟨cr, fun lf => absent (lf ▸ inside), zero⟩
          · refine ih rest.length (size ▸ loadNextEntry_shorter loaded) (fun octet inside => plain octet ?_) later rfl
            exact whole ▸ List.mem_append_right _ ((List.dropWhile_suffix _).subset (behind ▸ inside))
      · cases member

end H264Streaming.Sdp
