import H264Streaming.Bytes.Fields
import H264Streaming.Format.AnnexB
import H264Streaming.H264Send.Parser

/-! What the parser returns for a file of units behind start codes.

Zeros are held back until it is clear whether they belong to a unit. At the end of
the file the parser returns NULL whatever it has collected: the last unit is lost. -/

set_option autoImplicit false

namespace H264Streaming.H264Send

open H264Streaming.Bytes H264Streaming.Format H264Streaming.Semantics

/-! ### One turn -/

inductive Scan.Advances (s : Scan) (octet : UInt8) : Turn → Prop where
  | held : octet = 0 → s.flag ≤ 2 →
      Advances s octet (.next { s with flag := s.flag + 1, tmpbuf := s.tmpbuf.write s.flag [0] })
  | stored : octet ≠ 0 → s.flag ≤ 2 → (s.flag = 2 → octet ≠ 1) → s.buff.length + s.flag + 1 ≤ maxNalBufSize →
      Advances s octet (.next { s with buff := s.buff ++ (s.tmpbuf.read 0 s.flag ++ [octet]), flag := 0 })
  | ended : octet = 1 → s.flag = 2 ∨ s.flag = 3 → 0 < s.buff.length → Advances s octet (.packet (.of s.buff))
  | skipped : octet = 1 → s.flag = 2 ∨ s.flag = 3 → ¬ 0 < s.buff.length → Advances s octet (.next { s with flag := 0 })
  | dropped : octet ≠ 1 → s.flag = 3 → Advances s octet (.next { s with flag := 0 })

theorem Scan.advances_complete {s : Scan} {octet : UInt8} (one : octet = 1) (zeros : s.flag = 2 ∨ s.flag = 3) :
    s.Advances octet s.complete := by
  unfold Scan.complete
  dsimp only
  split
  · next some_octet => exact .ended one zeros some_octet
  · next none => exact .skipped one zeros none

theorem Scan.store_all (octets : List UInt8) (nonempty : octets ≠ []) (s : Scan) :
    octets.foldlM Scan.store s =
      if s.buff.length + octets.length ≤ maxNalBufSize then some { s with buff := s.buff ++ octets } else none := by
  induction octets generalizing s with
  | nil => exact absurd rfl nonempty
  | cons octet rest ih =>
      rw [List.foldlM_cons, Scan.store, List.length_cons]
      by_cases room : s.buff.length < maxNalBufSize
      · rw [if_pos room]
        cases rest with
        | nil => exact (if_pos room).symm
        | cons next later =>
            refine (ih (List.cons_ne_nil _ _) _).trans ?_
            rw [List.length_append, List.length_singleton, List.append_assoc, Nat.add_assoc, Nat.add_comm 1]
            rfl
      · rw [if_neg room, if_neg (by omega)]
        rfl

section
variable (s : Scan) {octet : UInt8}

theorem Scan.advance_zero (few : s.flag ≤ 2) :
    s.advance 0 = some (.next { s with flag := s.flag + 1, tmpbuf := s.tmpbuf.write s.flag [0] }) := by
  obtain ⟨buff, tmpbuf, flag⟩ := s
  match flag with
  | 0 => rfl
  | 1 => rfl
  | 2 => rfl
  | more + 3 => simp at few

theorem Scan.store_tmpbuf {s t : Scan} {octet : UInt8} (stored : s.store octet = some t) : t.tmpbuf = s.tmpbuf := by
  unfold Scan.store at stored
  split at stored
  · cases stored
    rfl
  · cases stored

theorem Scan.advance_store (few : s.flag ≤ 2) (nonzero : octet ≠ 0) (other : s.flag = 2 → octet ≠ 1) :
    s.advance octet = ((s.tmpbuf.read 0 s.flag ++ [octet]).foldlM Scan.store { s with flag := 0 }).map .next := by
  obtain ⟨buff, tmpbuf, flag⟩ := s
  match flag with
  | 0 => simp [Scan.advance, nonzero]
  | 1 =>
      have ran : Scan.advance octet ⟨buff, tmpbuf, 1⟩ = (Scan.store ⟨buff, tmpbuf, 0⟩ (tmpbuf.byte 0)).bind fun s =>
          (s.store octet).bind fun s => some (.next s) := by simp [Scan.advance, nonzero]
      have folded : (tmpbuf.read 0 1 ++ [octet]).foldlM Scan.store ⟨buff, tmpbuf, 0⟩ =
          (Scan.store ⟨buff, tmpbuf, 0⟩ (tmpbuf.byte 0)).bind fun s => s.store octet := by simp [Buffer.read_succ]
      rw [ran, folded, Option.map_bind]
      exact Option.bind_congr fun t _ => Option.map_eq_bind.symm
  | 2 =>
      have notOne : octet ≠ 1 := other rfl
      have ran : Scan.advance octet ⟨buff, tmpbuf, 2⟩ = (Scan.store ⟨buff, tmpbuf, 0⟩ (tmpbuf.byte 0)).bind fun s =>
          (s.store (s.tmpbuf.byte 1)).bind fun s => (s.store octet).bind fun s => some (.next s) := by
        simp [Scan.advance, nonzero, notOne]
      have folded : (tmpbuf.read 0 2 ++ [octet]).foldlM Scan.store ⟨buff, tmpbuf, 0⟩ =
          (Scan.store ⟨buff, tmpbuf, 0⟩ (tmpbuf.byte 0)).bind fun s =>
            (s.store (tmpbuf.byte 1)).bind fun s => s.store octet := by simp [Buffer.read_succ]
      rw [ran, folded, Option.map_bind]
      refine Option.bind_congr fun t stored => ?_
      rw [Scan.store_tmpbuf stored, Function.comp_apply, Option.map_bind]
      exact Option.bind_congr fun u _ => Option.map_eq_bind.symm
  | more + 3 => simp at few

theorem Scan.advance_code (two : s.flag = 2) (one : octet = 1) : s.advance octet = some s.complete := by
  obtain ⟨buff, tmpbuf, flag⟩ := s
  obtain rfl : flag = 2 := two
  simp [Scan.advance, one]

theorem Scan.advance_three (full : s.flag = 3) :
    s.advance octet = some (if octet = 1 then s.complete else .next { s with flag := 0 }) := by
  obtain ⟨buff, tmpbuf, flag⟩ := s
  obtain rfl : flag = 3 := full
  by_cases one : octet = 1
  · simp [Scan.advance, one]
  · simp [Scan.advance, one]

theorem Scan.advance_spec (few : s.flag ≤ 3) (octet : UInt8) :
    (∃ turn, s.advance octet = some turn ∧ s.Advances octet turn) ∨
      s.advance octet = none ∧ octet ≠ 0 ∧ s.flag ≤ 2 ∧ maxNalBufSize < s.buff.length + s.flag + 1 := by
  by_cases full : s.flag = 3
  · left
    refine ⟨_, s.advance_three full, ?_⟩
    split
    · next one => exact Scan.advances_complete one (.inr full)
    · next other => exact .dropped other full
  have less : s.flag ≤ 2 := by omega
  by_cases zero : octet = 0
  · subst zero
    exact .inl ⟨_, s.advance_zero less, .held rfl less⟩
  by_cases code : s.flag = 2 ∧ octet = 1
  · exact .inl ⟨s.complete, s.advance_code code.1 code.2, Scan.advances_complete code.2 (.inl code.1)⟩
  have other : s.flag = 2 → octet ≠ 1 := fun two one => code ⟨two, one⟩
  have stored := s.advance_store less zero other
  rw [Scan.store_all _ (by simp)] at stored
  have length : (s.tmpbuf.read 0 s.flag ++ [octet]).length = s.flag + 1 := by simp
  rw [length, ← Nat.add_assoc] at stored
  by_cases room : s.buff.length + s.flag + 1 ≤ maxNalBufSize
  · rw [if_pos room] at stored
    exact .inl ⟨_, stored, .stored zero less other room⟩
  · rw [if_neg room] at stored
    exact .inr ⟨stored, zero, less, Nat.lt_of_not_le room⟩

end

/-! ### Units -/

/-- What has been read of a unit is in `buff`, but for up to two zeros held back. -/
structure Scan.Held (s : Scan) (read : List UInt8) : Prop where
  content : s.buff ++ List.replicate s.flag 0 = read
  few : s.flag ≤ 2
  zeros : ∀ k < s.flag, s.tmpbuf.byte k = 0

theorem read_zeros {tmpbuf : Buffer} {flag : Nat} (zeros : ∀ k < flag, tmpbuf.byte k = 0) :
    tmpbuf.read 0 flag = List.replicate flag 0 := by
  refine List.eq_replicate_iff.mpr ⟨Buffer.length_read _ _ _, fun octet member => ?_⟩
  obtain ⟨k, below, rfl⟩ := List.mem_map.mp member
  rw [Nat.zero_add]
  exact zeros k (List.mem_range.mp below)

theorem hold_zero {tmpbuf : Buffer} {flag : Nat} (zeros : ∀ k < flag, tmpbuf.byte k = 0) :
    ∀ k < flag + 1, (tmpbuf.write flag [0]).byte k = 0 := by
  intro k below
  rw [Buffer.byte_write_octet]
  split
  · rfl
  · exact zeros k (by omega)

/-- One more octet of a unit: no octet is lost or repeated, as long as there is room. -/
theorem Scan.Held.step {s : Scan} {read : List UInt8} (held : s.Held read) (octet : UInt8)
    (noZeros : ¬ [0, 0, 0] <:+: read ++ [octet]) (noCode : ¬ [0, 0, 1] <:+: read ++ [octet]) :
    (∃ next : Scan, s.advance octet = some (.next next) ∧ next.Held (read ++ [octet]) ∧
        (s.buff.length ≤ maxNalBufSize → next.buff.length ≤ maxNalBufSize)) ∨
      s.advance octet = none ∧ maxNalBufSize < (read ++ [octet]).length := by
  obtain ⟨rfl, few, zeros⟩ := held
  have two (flag : s.flag = 2) : s.buff ++ List.replicate s.flag 0 ++ [octet] = s.buff ++ [0, 0, octet] ++ [] := by
    simp [flag, List.replicate_succ]
  rcases s.advance_spec (Nat.le_succ_of_le few) octet with ⟨turn, ran, advances⟩ | ⟨failed, -, -, full⟩
  · left
    cases advances with
    | held zero less =>
        subst zero
        -- a third zero cannot be part of a unit
        have room : s.flag ≠ 2 := fun flag => noZeros ⟨s.buff, [], (two flag).symm⟩
        refine ⟨_, ran, ⟨?_, by dsimp only; omega, hold_zero zeros⟩, fun fits => fits⟩
        rw [List.replicate_succ', List.append_assoc]
    | stored nonzero less other fits =>
        refine ⟨_, ran, ⟨?_, Nat.zero_le 2, fun k below => absurd below (Nat.not_lt_zero k)⟩, fun _ => ?_⟩
        · dsimp only
          rw [read_zeros zeros, List.replicate_zero, List.append_nil, List.append_assoc]
        · rw [List.length_append, List.length_append, Buffer.length_read, List.length_singleton, ← Nat.add_assoc]
          exact fits
    | ended one held =>
        subst one
        have flag : s.flag = 2 := by omega
        exact absurd ⟨s.buff, [], (two flag).symm⟩ noCode
    | skipped one held =>
        subst one
        have flag : s.flag = 2 := by omega
        exact absurd ⟨s.buff, [], (two flag).symm⟩ noCode
    | dropped other held => omega
  · right
    refine ⟨failed, ?_⟩
    rwa [List.length_append, List.length_append, List.length_replicate, List.length_singleton]

theorem Scan.Held.advance {s : Scan} {read : List UInt8} (held : s.Held read) (octet : UInt8)
    (noZeros : ¬ [0, 0, 0] <:+: read ++ [octet]) (noCode : ¬ [0, 0, 1] <:+: read ++ [octet])
    (room : (read ++ [octet]).length ≤ maxNalBufSize) :
    ∃ next : Scan, s.advance octet = some (.next next) ∧ next.Held (read ++ [octet]) := by
  rcases held.step octet noZeros noCode with ⟨next, ran, kept, -⟩ | ⟨-, full⟩
  · exact ⟨next, ran, kept⟩
  · exact absurd room (Nat.not_le_of_lt full)

theorem nextNaluLoop_held (octets : List UInt8) {s : Scan} {read : List UInt8} (held : s.Held read)
    (noZeros : ¬ [0, 0, 0] <:+: read ++ octets) (noCode : ¬ [0, 0, 1] <:+: read ++ octets)
    (room : (read ++ octets).length ≤ maxNalBufSize) :
    ∃ next : Scan, next.Held (read ++ octets) ∧
      ∀ rest, nextNaluLoop (octets ++ rest) s = nextNaluLoop rest next := by
  induction octets generalizing s read with
  | nil => exact ⟨s, by rwa [List.append_nil], fun _ => rfl⟩
  | cons octet later ih =>
      have split : read ++ octet :: later = read ++ [octet] ++ later := by simp
      rw [split] at noZeros noCode room ⊢
      have front : read ++ [octet] <:+: read ++ [octet] ++ later := (List.prefix_append _ later).isInfix
      obtain ⟨middle, advanced, kept⟩ := held.advance octet (fun zeros => noZeros (zeros.trans front))
        (fun code => noCode (code.trans front)) (Nat.le_trans front.length_le room)
      obtain ⟨next, final, same⟩ := ih kept noZeros noCode room
      refine ⟨next, final, fun rest => ?_⟩
      rw [List.cons_append, nextNaluLoop, advanced]
      exact same rest

structure Scan.Fresh (s : Scan) : Prop where
  buff : s.buff = []
  flag : s.flag = 0

theorem Scan.Fresh.held {s : Scan} (fresh : s.Fresh) : s.Held [] where
  content := by rw [fresh.buff, fresh.flag]; rfl
  few := by rw [fresh.flag]; decide
  zeros k bound := by rw [fresh.flag] at bound; exact absurd bound (Nat.not_lt_zero k)

theorem Scan.Held.settled {s : Scan} {read : List UInt8} (held : s.Held read) (last : read.getLast? ≠ some 0) :
    s = ⟨read, s.tmpbuf, 0⟩ := by
  obtain ⟨buff, tmpbuf, flag⟩ := s
  obtain ⟨content, -, -⟩ := held
  dsimp only at content
  cases flag with
  | zero => rw [← content, List.replicate_zero, List.append_nil]
  | succ more =>
      refine absurd ?_ last
      rw [← content, List.replicate_succ', ← List.append_assoc, List.getLast?_concat]

theorem nextNaluLoop_unit {unit : List UInt8} (escaped : Escaped unit) (room : unit.length ≤ maxNalBufSize)
    {s : Scan} (fresh : s.Fresh) :
    ∃ tmpbuf, ∀ rest, nextNaluLoop (unit ++ rest) s = nextNaluLoop rest ⟨unit, tmpbuf, 0⟩ := by
  obtain ⟨next, held, same⟩ := nextNaluLoop_held unit fresh.held escaped.noZeros escaped.noCode room
  rw [held.settled escaped.last] at same
  exact ⟨next.tmpbuf, same⟩

theorem nextNaluLoop_code (coded : CodedUnit) (buff : List UInt8) (tmpbuf : Buffer) :
    ∃ next, ∀ rest, nextNaluLoop (coded.code ++ rest) ⟨buff, tmpbuf, 0⟩ =
      if 0 < buff.length then some (some (.of buff), rest) else nextNaluLoop rest ⟨buff, next, 0⟩ := by
  by_cases some_octet : 0 < buff.length
  · refine ⟨tmpbuf, fun rest => ?_⟩
    cases long : coded.long <;>
      simp [CodedUnit.code, long, nextNaluLoop, Scan.advance, Scan.complete, some_octet]
  · cases long : coded.long with
    | true =>
        refine ⟨((tmpbuf.write 0 [0]).write 1 [0]).write 2 [0], fun rest => ?_⟩
        simp [CodedUnit.code, long, nextNaluLoop, Scan.advance, Scan.complete, some_octet]
    | false =>
        refine ⟨(tmpbuf.write 0 [0]).write 1 [0], fun rest => ?_⟩
        simp [CodedUnit.code, long, nextNaluLoop, Scan.advance, Scan.complete, some_octet]

/-! ### Whole files -/

/-- A unit the parser can hold, without anything that looks like a start code. -/
structure Parsable (coded : CodedUnit) : Prop where
  escaped : Escaped coded.unit.bytes
  room : coded.unit.bytes.length ≤ maxNalBufSize

def packetOf (coded : CodedUnit) : H264NalPacket := .of coded.unit.bytes

/-- From behind the start code of a unit: the next start code makes the parser
return it, and the end of the file makes it return NULL. -/
theorem nextNaluLoop_file {coded : CodedUnit} (parsable : Parsable coded) (rest : List CodedUnit) {s : Scan}
    (fresh : s.Fresh) :
    nextNaluLoop (coded.unit.bytes ++ annexB rest) s =
      match rest with
      | [] => some (none, [])
      | next :: later => some (some (packetOf coded), next.unit.bytes ++ annexB later) := by
  obtain ⟨tmpbuf, collected⟩ := nextNaluLoop_unit parsable.escaped parsable.room fresh
  rw [collected]
  cases rest with
  | nil => rfl
  | cons next later =>
      have some_octet : 0 < coded.unit.bytes.length := Nat.succ_pos _
      obtain ⟨_, ended⟩ := nextNaluLoop_code next coded.unit.bytes tmpbuf
      rw [annexB_cons, ended, if_pos some_octet]
      rfl

theorem Scan.Fresh.start (content : Nat → UInt8) : Scan.Fresh ⟨[], .untouched content, 0⟩ := ⟨rfl, rfl⟩

theorem nextNalus_behind (content : Nat → UInt8) (coded : CodedUnit) (rest : List CodedUnit)
    (parsable : ∀ unit ∈ coded :: rest, Parsable unit) :
    nextNalus content (rest.length + 2) (coded.unit.bytes ++ annexB rest) =
      some (((coded :: rest).dropLast.map fun unit => some (packetOf unit)) ++ [none, none]) := by
  induction rest generalizing coded with
  | nil =>
      have lost := nextNaluLoop_file (parsable coded (List.mem_cons_self ..)) [] (.start content)
      simp only [nextNalus, nextNalu, lost]
      rfl
  | cons next later ih =>
      have returned := nextNaluLoop_file (parsable coded (List.mem_cons_self ..)) (next :: later) (.start content)
      have others := ih next fun unit member => parsable unit (List.mem_cons_of_mem coded member)
      rw [List.length_cons, Nat.add_right_comm, nextNalus, nextNalu, returned]
      simp only [Option.bind_eq_bind, Option.bind_some, others]
      rfl

theorem nextNalus_annexB (content : Nat → UInt8) (coded : CodedUnit) (rest : List CodedUnit)
    (parsable : ∀ unit ∈ coded :: rest, Parsable unit) :
    nextNalus content (rest.length + 2) (annexB (coded :: rest)) =
      some (((coded :: rest).dropLast.map fun unit => some (packetOf unit)) ++ [none, none]) := by
  -- the first start code is skipped within the first call
  obtain ⟨tmpbuf, skipped⟩ := nextNaluLoop_code coded [] (.untouched content)
  have same : nextNalu content (annexB (coded :: rest)) = nextNalu content (coded.unit.bytes ++ annexB rest) := by
    have first := parsable coded (List.mem_cons_self ..)
    have empty : ¬ 0 < ([] : List UInt8).length := Nat.lt_irrefl 0
    rw [annexB_cons, nextNalu, skipped, if_neg empty, nextNalu, nextNaluLoop_file first rest ⟨rfl, rfl⟩,
      nextNaluLoop_file first rest (.start content)]
  rw [← nextNalus_behind content coded rest parsable, nextNalus, nextNalus, same]

/-- No file of units is returned completely: its last unit is missing. -/
theorem nextNalus_incomplete (content : Nat → UInt8) (coded : List CodedUnit) (some_unit : coded ≠ [])
    (parsable : ∀ unit ∈ coded, Parsable unit) :
    nextNalus content (coded.length + 1) (annexB coded) ≠
      some ((coded.map fun unit => some (packetOf unit)) ++ [none]) := by
  obtain ⟨first, rest, rfl⟩ := List.exists_cons_of_ne_nil some_unit
  rw [List.length_cons, nextNalus_annexB content first rest parsable]
  intro same
  -- the last packet of the one list is a NULL of the other
  rw [Option.some.injEq, List.append_cons, List.append_cancel_right_eq] at same
  have last := congrArg List.getLast? same
  rw [List.getLast?_concat, List.getLast?_map, List.getLast?_cons] at last
  cases last

theorem nextNalus_incomplete_two :
    nextNalus (fun _ => 7) 3 (annexB [⟨true, ⟨0x67, [0x42]⟩⟩, ⟨false, ⟨0x65, [0x88]⟩⟩]) ≠
      some (([⟨true, ⟨0x67, [0x42]⟩⟩, ⟨false, ⟨0x65, [0x88]⟩⟩].map fun unit => some (packetOf unit)) ++ [none]) :=
  nextNalus_incomplete (fun _ => 7) [⟨true, ⟨0x67, [0x42]⟩⟩, ⟨false, ⟨0x65, [0x88]⟩⟩] (by decide) (by
    intro unit member
    rcases List.mem_cons.mp member with rfl | member
    · exact ⟨⟨by decide, by decide, by decide⟩, by decide⟩
    · rw [List.mem_singleton.mp member]
      exact ⟨⟨by decide, by decide, by decide⟩, by decide⟩)

/-- A file of one unit: the first call returns NULL. -/
theorem nextNalus_loses_unit :
    nextNalus (fun _ => 7) 2 (annexB [⟨true, ⟨0x65, [0x88]⟩⟩]) ≠
      some (([⟨true, ⟨0x65, [0x88]⟩⟩].map fun unit => some (packetOf unit)) ++ [none]) := by
  decide +kernel

end H264Streaming.H264Send
