import H264Streaming.Bytes.Words

/-! Text messages and binary frames that share a connection.

A frame is a dollar sign, a channel, a length of two octets and as many octets. A
message is text up to its first empty line. -/

set_option autoImplicit false

namespace H264Streaming.Format

open H264Streaming.Bytes

inductive Interleaved where
  | frame (channel : UInt8) (payload : List UInt8)
  | message (text : List UInt8)
  deriving DecidableEq

def crlf : List UInt8 := [13, 10]

def splitMessage : List UInt8 → Option (List UInt8 × List UInt8)
  | [] => none
  | octet :: rest =>
      if (crlf ++ crlf).isPrefixOf (octet :: rest) then some (crlf ++ crlf, (octet :: rest).drop 4)
      else (splitMessage rest).map fun parts => (octet :: parts.1, parts.2)

/-- What stands first on the connection, and what is behind it. -/
def nextInterleaved (octets : List UInt8) : Option (Interleaved × List UInt8) :=
  if octets.head? = some 0x24 then
    match octets.drop 1 with
    | channel :: high :: low :: rest =>
        if rest.length < value16 high low then none
        else some (.frame channel (rest.take (value16 high low)), rest.drop (value16 high low))
    | _ => none
  else (splitMessage octets).map fun parts => (.message parts.1, parts.2)

theorem splitMessage_split {octets text rest : List UInt8} (split : splitMessage octets = some (text, rest)) :
    octets = text ++ rest ∧ 4 ≤ text.length := by
  induction octets generalizing text with
  | nil => cases split
  | cons octet more ih =>
      rw [splitMessage] at split
      split at split
      · rename_i found
        obtain ⟨behind, same⟩ := List.isPrefixOf_iff_prefix.mp found
        cases split
        rw [← same]
        exact ⟨rfl, by decide⟩
      · obtain ⟨⟨front, behind⟩, later, same⟩ := Option.map_eq_some_iff.mp split
        cases same
        obtain ⟨parts, size⟩ := ih later
        exact ⟨by rw [parts]; rfl, Nat.le_succ_of_le size⟩

theorem nextInterleaved_shorter {octets rest : List UInt8} {item : Interleaved}
    (found : nextInterleaved octets = some (item, rest)) : rest.length < octets.length := by
  unfold nextInterleaved at found
  split at found
  · split at found
    · rename_i channel high low behind same
      have size := congrArg List.length same
      rw [List.length_drop] at size
      simp only [List.length_cons] at size
      split at found
      · cases found
      · cases found
        rw [List.length_drop]
        omega
    · cases found
  · obtain ⟨⟨text, behind⟩, split, same⟩ := Option.map_eq_some_iff.mp found
    cases same
    obtain ⟨parts, size⟩ := splitMessage_split split
    rw [parts, List.length_append]
    exact Nat.lt_add_of_pos_left (Nat.lt_of_lt_of_le (by decide) size)

/-- All that stands on the connection; `none` when something is not complete. -/
def deframe (octets : List UInt8) : Option (List Interleaved) :=
  if octets = [] then some []
  else
    match _found : nextInterleaved octets with
    | none => none
    | some (item, rest) => (deframe rest).map (item :: ·)
termination_by octets.length
decreasing_by exact nextInterleaved_shorter ‹_›

theorem deframe_nil : deframe [] = some [] := by
  rw [deframe, if_pos rfl]

theorem deframe_next {octets rest : List UInt8} {item : Interleaved}
    (found : nextInterleaved octets = some (item, rest)) : deframe octets = (deframe rest).map (item :: ·) := by
  have some_octet : octets ≠ [] := by
    rintro rfl
    cases found
  rw [deframe, if_neg some_octet]
  split
  · rename_i none
    rw [found] at none
    cases none
  · rename_i other same
    rw [found] at same
    cases same
    rfl

theorem deframe_stuck {octets : List UInt8} (some_octet : octets ≠ []) (none : nextInterleaved octets = none) :
    deframe octets = Option.none := by
  rw [deframe, if_neg some_octet]
  split
  · rfl
  · rename_i other same
    rw [none] at same
    cases same

/-- A message: no dollar sign in front, and its first empty line is its end. -/
structure IsMessage (text : List UInt8) : Prop where
  head : text.head? ≠ some 0x24
  whole : splitMessage text = some (text, [])

theorem splitMessage_append {octets text behind : List UInt8} (rest : List UInt8)
    (split : splitMessage octets = some (text, behind)) :
    splitMessage (octets ++ rest) = some (text, behind ++ rest) := by
  induction octets generalizing text with
  | nil => cases split
  | cons octet more ih =>
      have size : 4 ≤ (octet :: more).length := by
        obtain ⟨parts, size⟩ := splitMessage_split split
        rw [parts, List.length_append]
        omega
      rw [splitMessage] at split
      rw [List.cons_append, splitMessage]
      split at split
      · rename_i found
        cases split
        have extended := List.isPrefixOf_iff_prefix.mpr
          ((List.isPrefixOf_iff_prefix.mp found).trans (List.prefix_append (octet :: more) rest))
        rw [List.cons_append] at extended
        rw [if_pos extended, ← List.cons_append, List.drop_append_of_le_length size]
      · rename_i absent
        obtain ⟨⟨front, behind⟩, later, same⟩ := Option.map_eq_some_iff.mp split
        cases same
        have still : ¬ (crlf ++ crlf).isPrefixOf (octet :: (more ++ rest)) = true := fun found =>
          absent (List.isPrefixOf_iff_prefix.mpr (List.prefix_of_prefix_length_le
            (List.isPrefixOf_iff_prefix.mp found) (List.prefix_append (octet :: more) rest) size))
        rw [if_neg still, ih later]
        rfl

theorem IsMessage.next {text : List UInt8} (message : IsMessage text) (rest : List UInt8) :
    nextInterleaved (text ++ rest) = some (.message text, rest) := by
  have split := splitMessage_append rest message.whole
  have head : (text ++ rest).head? ≠ some 0x24 := by
    cases text with
    | nil => cases message.whole
    | cons octet more => exact message.head
  rw [nextInterleaved, if_neg head, split]
  rfl

theorem IsMessage.deframe {text : List UInt8} (message : IsMessage text) (rest : List UInt8) :
    deframe (text ++ rest) = (Format.deframe rest).map (.message text :: ·) :=
  deframe_next (message.next rest)

theorem nextInterleaved_frame (channel : UInt8) {length : Nat} (short : length < 65536) (rest : List UInt8) :
    nextInterleaved ([0x24, channel] ++ be16 length ++ rest) =
      if rest.length < length then none else some (.frame channel (rest.take length), rest.drop length) := by
  have value := value16_be16 length
  rw [Nat.mod_eq_of_lt short] at value
  change nextInterleaved (0x24 :: channel :: UInt8.ofNat (length / 256) :: UInt8.ofNat length :: rest) = _
  rw [nextInterleaved, if_pos List.head?_cons, List.drop_one, List.tail_cons]
  dsimp only
  rw [value]

/-! ### Lines -/

theorem splitMessage_line {line : List UInt8} (plain : (13 : UInt8) ∉ line) (rest : List UInt8) :
    splitMessage (line ++ rest) = (splitMessage rest).map fun parts => (line ++ parts.1, parts.2) := by
  induction line with
  | nil => exact (congrFun Option.map_id (splitMessage rest)).symm
  | cons octet line ih =>
      rw [List.mem_cons, not_or] at plain
      have other : ¬ (crlf ++ crlf).isPrefixOf (octet :: (line ++ rest)) = true := by
        intro found
        obtain ⟨behind, same⟩ := List.isPrefixOf_iff_prefix.mp found
        exact plain.1 (List.cons.inj same).1
      rw [List.cons_append, splitMessage, if_neg other, ih plain.2, Option.map_map]
      rfl

structure IsLine (line : List UInt8) : Prop where
  nonempty : line ≠ []
  plain : (13 : UInt8) ∉ line

def messageText (lines : List (List UInt8)) : List UInt8 := (lines.flatMap fun line => line ++ crlf) ++ crlf

theorem messageText_cons (line : List UInt8) (lines : List (List UInt8)) :
    messageText (line :: lines) = line ++ (crlf ++ messageText lines) := by
  simp [messageText]

theorem splitMessage_crlf {line : List UInt8} (isLine : IsLine line) (rest : List UInt8) :
    splitMessage (crlf ++ (line ++ rest)) = (splitMessage (line ++ rest)).map fun parts => (crlf ++ parts.1, parts.2) := by
  cases line with
  | nil => exact absurd rfl isLine.nonempty
  | cons octet more =>
      have other : octet ≠ 13 := fun same => isLine.plain (same ▸ List.mem_cons_self)
      have first : ¬ (crlf ++ crlf).isPrefixOf (13 :: 10 :: (octet :: more ++ rest)) = true := by
        simp [crlf, other.symm]
      have second : ¬ (crlf ++ crlf).isPrefixOf (10 :: (octet :: more ++ rest)) = true := by
        simp [crlf]
      rw [crlf, List.cons_append, List.cons_append, List.nil_append, splitMessage, if_neg first, splitMessage,
        if_neg second, Option.map_map]
      rfl

theorem splitMessage_lines {line : List UInt8} {lines : List (List UInt8)} (isLine : ∀ l ∈ line :: lines, IsLine l) :
    splitMessage (messageText (line :: lines)) = some (messageText (line :: lines), []) := by
  induction lines generalizing line with
  | nil =>
      have here := isLine line List.mem_cons_self
      rw [messageText_cons, splitMessage_line here.plain]
      rfl
  | cons next lines ih =>
      have here := isLine line List.mem_cons_self
      have later := ih fun l member => isLine l (List.mem_cons_of_mem line member)
      have behind := isLine next (List.mem_cons_of_mem line List.mem_cons_self)
      rw [messageText_cons, splitMessage_line here.plain]
      rw [messageText_cons] at later ⊢
      rw [splitMessage_crlf behind, later]
      rfl

theorem isMessage_lines {line : List UInt8} {lines : List (List UInt8)} (isLine : ∀ l ∈ line :: lines, IsLine l)
    (head : line.head? ≠ some 0x24) : IsMessage (messageText (line :: lines)) := by
  refine ⟨?_, splitMessage_lines isLine⟩
  rw [messageText_cons]
  cases line with
  | nil => exact absurd rfl (isLine [] List.mem_cons_self).nonempty
  | cons octet more => exact head

end H264Streaming.Format
