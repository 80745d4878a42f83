import H264Streaming.H264Send.Escaping

/-! Zeros in front of start codes, which Annex B allows in any number.

The parser counts zeros up to three and starts over at a fourth, so it sees a start
code by the number of its zeros modulo four. -/

set_option autoImplicit false

namespace H264Streaming.H264Send

open H264Streaming.Bytes H264Streaming.Format H264Streaming.Semantics

structure Padded where
  pad : Nat
  coded : CodedUnit

def Padded.bytes (padded : Padded) : List UInt8 := List.replicate padded.pad 0 ++ padded.coded.bytes

def paddedFile (padded : List Padded) : List UInt8 := stream Padded.bytes padded

def Padded.zeros (padded : Padded) : Nat := padded.pad + if padded.coded.long then 3 else 2

/-- What is left in front of a unit once the zeros are counted modulo four. -/
def Padded.front (padded : Padded) : List UInt8 := List.replicate (padded.zeros % 4) 0 ++ [1]

theorem Padded.bytes_eq (padded : Padded) :
    padded.bytes = List.replicate (4 * (padded.zeros / 4)) 0 ++ (padded.front ++ padded.coded.unit.bytes) := by
  have code : padded.coded.code = List.replicate (if padded.coded.long then 3 else 2) 0 ++ [1] := by
    unfold CodedUnit.code
    split <;> rfl
  have zeros : List.replicate padded.pad (0 : UInt8) ++ List.replicate (if padded.coded.long then 3 else 2) 0 =
      List.replicate (4 * (padded.zeros / 4)) 0 ++ List.replicate (padded.zeros % 4) 0 := by
    rw [List.replicate_append_replicate, List.replicate_append_replicate, Nat.div_add_mod]
    rfl
  rw [bytes, CodedUnit.bytes, code, front]
  simp only [← List.append_assoc]
  rw [zeros]

theorem nextNaluLoop_zeros (fours : Nat) (buff : List UInt8) (tmpbuf : Buffer) :
    ∃ next, ∀ rest, nextNaluLoop (List.replicate (4 * fours) 0 ++ rest) ⟨buff, tmpbuf, 0⟩ =
      nextNaluLoop rest ⟨buff, next, 0⟩ := by
  induction fours generalizing tmpbuf with
  | zero => exact ⟨tmpbuf, fun _ => rfl⟩
  | succ fours ih =>
      obtain ⟨next, same⟩ := ih (((tmpbuf.write 0 [0]).write 1 [0]).write 2 [0])
      refine ⟨next, fun rest => ?_⟩
      have four : List.replicate (4 * (fours + 1)) (0 : UInt8) = 0 :: 0 :: 0 :: 0 :: List.replicate (4 * fours) 0 := rfl
      rw [four, ← same]
      simp [nextNaluLoop, Scan.advance]

theorem nextNaluLoop_padded (padded : Padded) (buff : List UInt8) (tmpbuf : Buffer) :
    ∃ next, ∀ rest, nextNaluLoop (padded.bytes ++ rest) ⟨buff, tmpbuf, 0⟩ =
      nextNaluLoop (padded.front ++ (padded.coded.unit.bytes ++ rest)) ⟨buff, next, 0⟩ := by
  obtain ⟨next, same⟩ := nextNaluLoop_zeros (padded.zeros / 4) buff tmpbuf
  refine ⟨next, fun rest => ?_⟩
  rw [padded.bytes_eq, List.append_assoc, List.append_assoc, same]

/-- A start code whose zeros count two or three. -/
def Padded.Seen (padded : Padded) : Prop := 2 ≤ padded.zeros % 4

theorem nextNaluLoop_seen {padded : Padded} (seen : padded.Seen) (buff : List UInt8) (tmpbuf : Buffer) :
    ∃ next, ∀ rest, nextNaluLoop (padded.bytes ++ rest) ⟨buff, tmpbuf, 0⟩ =
      if 0 < buff.length then some (some (.of buff), padded.coded.unit.bytes ++ rest)
      else nextNaluLoop (padded.coded.unit.bytes ++ rest) ⟨buff, next, 0⟩ := by
  have code : padded.front = CodedUnit.code ⟨padded.zeros % 4 = 3, padded.coded.unit⟩ := by
    have seen : 2 ≤ padded.zeros % 4 := seen
    have cases : padded.zeros % 4 = 2 ∨ padded.zeros % 4 = 3 := by omega
    unfold Padded.front
    rcases cases with two | three
    · rw [two]
      rfl
    · rw [three]
      rfl
  obtain ⟨middle, counted⟩ := nextNaluLoop_padded padded buff tmpbuf
  obtain ⟨next, same⟩ := nextNaluLoop_code ⟨padded.zeros % 4 = 3, padded.coded.unit⟩ buff middle
  refine ⟨next, fun rest => ?_⟩
  rw [counted, code, same]

/-! ### A start code that is not seen -/

theorem numBytesinNALUnit_of (data : List UInt8) : (H264NalPacket.of data).numBytesinNALUnit = data.length := by
  unfold H264NalPacket.of
  dsimp only
  split <;> rfl

theorem nextNaluLoop_grows (octets : List UInt8) {s : Scan} (few : s.flag ≤ 3) {nal : H264NalPacket}
    {rest : List UInt8} (returned : nextNaluLoop octets s = some (some nal, rest)) :
    s.buff.length ≤ nal.numBytesinNALUnit := by
  induction octets generalizing s with
  | nil => cases returned
  | cons octet later ih =>
      rcases s.advance_spec few octet with ⟨turn, ran, advances⟩ | ⟨failed, -⟩
      · rw [nextNaluLoop, ran] at returned
        cases advances with
        | held zero less =>
            exact ih (s := { s with flag := s.flag + 1, tmpbuf := s.tmpbuf.write s.flag [0] }) (Nat.succ_le_succ less)
              returned
        | stored nonzero less other fits =>
            have grown := ih (s := ⟨s.buff ++ (s.tmpbuf.read 0 s.flag ++ [octet]), s.tmpbuf, 0⟩) (Nat.zero_le 3) returned
            rw [List.length_append] at grown
            omega
        | ended one held some_octet =>
            cases returned
            exact Nat.le_of_eq (numBytesinNALUnit_of s.buff).symm
        | skipped one held none => exact ih (s := { s with flag := 0 }) (Nat.zero_le 3) returned
        | dropped other held => exact ih (s := { s with flag := 0 }) (Nat.zero_le 3) returned
      · rw [nextNaluLoop, failed] at returned
        cases returned

theorem nextNaluLoop_overflow (octets : List UInt8) {s : Scan} {read : List UInt8} (held : s.Held read)
    (fits : s.buff.length ≤ maxNalBufSize) (escaped : Escaped (read ++ octets))
    (full : maxNalBufSize < (read ++ octets).length) (rest : List UInt8) : nextNaluLoop (octets ++ rest) s = none := by
  induction octets generalizing s read with
  | nil =>
      rw [List.append_nil] at escaped full
      rw [held.settled escaped.last] at fits
      exact absurd fits (Nat.not_le_of_lt full)
  | cons octet later ih =>
      have split : read ++ octet :: later = read ++ [octet] ++ later := by simp
      rw [split] at escaped full
      have front : read ++ [octet] <:+: read ++ [octet] ++ later := (List.prefix_append _ later).isInfix
      rw [List.cons_append, nextNaluLoop]
      rcases held.step octet (fun zeros => escaped.noZeros (zeros.trans front))
        (fun code => escaped.noCode (code.trans front)) with ⟨next, ran, kept, bounded⟩ | ⟨failed, -⟩
      · rw [ran]
        exact ih kept (bounded fits) escaped full
      · rw [failed]
        rfl

theorem nextNaluLoop_collect (front octets : List UInt8) (escaped : Escaped (front ++ octets)) (tmpbuf : Buffer)
    (fits : front.length ≤ maxNalBufSize) :
    ((front ++ octets).length ≤ maxNalBufSize ∧ ∃ next, ∀ rest,
        nextNaluLoop (octets ++ rest) ⟨front, tmpbuf, 0⟩ = nextNaluLoop rest ⟨front ++ octets, next, 0⟩) ∨
      maxNalBufSize < (front ++ octets).length ∧ ∀ rest, nextNaluLoop (octets ++ rest) ⟨front, tmpbuf, 0⟩ = none := by
  have held : Scan.Held ⟨front, tmpbuf, 0⟩ front :=
    ⟨List.append_nil front, Nat.zero_le 2, fun k below => absurd below (Nat.not_lt_zero k)⟩
  by_cases room : (front ++ octets).length ≤ maxNalBufSize
  · obtain ⟨next, kept, same⟩ := nextNaluLoop_held octets held escaped.noZeros escaped.noCode room
    rw [kept.settled escaped.last] at same
    exact .inl ⟨room, next.tmpbuf, same⟩
  · have full := Nat.lt_of_not_le room
    exact .inr ⟨full, nextNaluLoop_overflow octets held fits escaped full⟩

theorem nextNaluLoop_longer (front octets : List UInt8) {rest : List UInt8} (escaped : Escaped (front ++ octets))
    {tmpbuf : Buffer} (fits : front.length ≤ maxNalBufSize) {nal : H264NalPacket} {left : List UInt8}
    (returned : nextNaluLoop (octets ++ rest) ⟨front, tmpbuf, 0⟩ = some (some nal, left)) :
    (front ++ octets).length ≤ nal.numBytesinNALUnit := by
  rcases nextNaluLoop_collect front octets escaped tmpbuf fits with ⟨-, next, same⟩ | ⟨-, failed⟩
  · rw [same] at returned
    exact nextNaluLoop_grows rest (Nat.zero_le 3) returned
  · rw [failed] at returned
    cases returned

theorem Padded.front_unseen {padded : Padded} (unseen : ¬ padded.Seen) {buff : List UInt8} (escaped : Escaped buff) :
    Escaped (buff ++ padded.front) ∧ padded.front.length = padded.zeros % 4 + 1 := by
  have less : padded.zeros % 4 < 2 := Nat.lt_of_not_le unseen
  refine ⟨escaped.store (Nat.le_of_lt less) (by decide) (fun two => absurd less (by omega)), ?_⟩
  rw [front, List.length_append, List.length_replicate, List.length_singleton]

/-! ### Successive calls -/

/-- The results of a call that goes on from s, and of so many calls behind it. -/
def resultsFrom (content : Nat → UInt8) (calls : Nat) (octets : List UInt8) (s : Scan) :
    Option (List (Option H264NalPacket)) := do
  let (nal, rest) ← nextNaluLoop octets s
  let others ← nextNalus content calls rest
  return nal :: others

section
variable {content : Nat → UInt8} {first second : List UInt8} {s t : Scan}

theorem nextNalus_agree : (∀ calls, nextNalus content calls first = nextNalus content calls second) ↔
    ∀ calls, resultsFrom content calls first ⟨[], .untouched content, 0⟩ =
      resultsFrom content calls second ⟨[], .untouched content, 0⟩ := by
  constructor
  · exact fun same calls => same (calls + 1)
  · intro same calls
    cases calls with
    | zero => rfl
    | succ calls => exact same calls

theorem resultsFrom_agree {nal : Option H264NalPacket} {left right : List UInt8}
    (here : nextNaluLoop first s = some (nal, left)) (there : nextNaluLoop second t = some (nal, right)) :
    (∀ calls, resultsFrom content calls first s = resultsFrom content calls second t) ↔
      ∀ calls, nextNalus content calls left = nextNalus content calls right := by
  refine forall_congr' fun calls => ?_
  simp only [resultsFrom, here, there, Option.bind_eq_bind, Option.bind_some]
  constructor
  · intro same
    cases ran : nextNalus content calls left with
    | none =>
        cases other : nextNalus content calls right with
        | none => rfl
        | some results => simp [ran, other] at same
    | some results =>
        cases other : nextNalus content calls right with
        | none => simp [ran, other] at same
        | some others =>
            rw [ran, other, Option.bind_some, Option.bind_some] at same
            exact congrArg some (List.cons.inj (Option.some.inj same)).2
  · intro same
    rw [same]

theorem resultsFrom_disagree {data right : List UInt8}
    (longer : ∀ nal left, nextNaluLoop first s = some (some nal, left) → data.length < nal.numBytesinNALUnit)
    (there : nextNaluLoop second t = some (some (.of data), right)) :
    ¬ ∀ calls, resultsFrom content calls first s = resultsFrom content calls second t := by
  intro same
  have once := same 0
  simp only [resultsFrom, there, nextNalus, Option.bind_eq_bind, Option.bind_some] at once
  cases here : nextNaluLoop first s with
  | none => simp [here] at once
  | some result =>
      obtain ⟨nal, left⟩ := result
      rw [here, Option.bind_some] at once
      obtain rfl : nal = some (.of data) := List.singleton_inj.mp (Option.some.inj once)
      have grown := longer _ _ here
      rw [numBytesinNALUnit_of] at grown
      exact Nat.lt_irrefl _ grown

end

theorem paddedFile_cons (padded : Padded) (rest : List Padded) :
    paddedFile (padded :: rest) = padded.bytes ++ paddedFile rest := rfl

theorem resultsFrom_padded (content : Nat → UInt8) {coded : CodedUnit} (parsable : Parsable coded)
    (rest : List Padded) (others : ∀ padded ∈ rest, Parsable padded.coded) {s t : Scan} (fresh : s.Fresh)
    (fresh' : t.Fresh) :
    (∀ calls, resultsFrom content calls (coded.unit.bytes ++ paddedFile rest) s =
        resultsFrom content calls (coded.unit.bytes ++ annexB (rest.map Padded.coded)) t) ↔
      ∀ padded ∈ rest, padded.Seen := by
  induction rest generalizing coded s t with
  | nil =>
      have unpadded := nextNaluLoop_file parsable [] fresh'
      obtain ⟨tmpbuf, collected⟩ := nextNaluLoop_unit parsable.escaped parsable.room fresh
      have ended : nextNaluLoop (coded.unit.bytes ++ paddedFile []) s = some (none, []) := by
        rw [collected]
        rfl
      refine (resultsFrom_agree ended unpadded).trans ?_
      exact ⟨fun _ padded member => absurd member List.not_mem_nil, fun _ _ => rfl⟩
  | cons next later ih =>
      have unpadded := nextNaluLoop_file parsable ((next :: later).map Padded.coded) fresh'
      obtain ⟨tmpbuf, collected⟩ := nextNaluLoop_unit parsable.escaped parsable.room fresh
      have some_octet : 0 < coded.unit.bytes.length := Nat.succ_pos _
      have parsableNext := others next List.mem_cons_self
      have parsableLater : ∀ padded ∈ later, Parsable padded.coded :=
        fun padded member => others padded (List.mem_cons_of_mem next member)
      have begin : Scan.Fresh ⟨[], .untouched content, 0⟩ := .start content
      rw [List.forall_mem_cons]
      by_cases seen : next.Seen
      · obtain ⟨_, ended⟩ := nextNaluLoop_seen seen coded.unit.bytes tmpbuf
        have returned : nextNaluLoop (coded.unit.bytes ++ paddedFile (next :: later)) s =
            some (some (packetOf coded), next.coded.unit.bytes ++ paddedFile later) := by
          rw [paddedFile_cons, collected, ended, if_pos some_octet]
          rfl
        have behind := ih parsableNext parsableLater begin begin
        refine ((resultsFrom_agree returned unpadded).trans (nextNalus_agree.trans behind)).trans ?_
        exact ⟨fun all => ⟨seen, all⟩, fun all => all.2⟩
      · -- the octet 1 goes into the buffer behind the unit
        refine iff_of_false (resultsFrom_disagree (fun nal left here => ?_) unpadded) fun all => seen all.1
        obtain ⟨escaped, length⟩ := Padded.front_unseen seen parsable.escaped
        obtain ⟨_, counted⟩ := nextNaluLoop_padded next coded.unit.bytes tmpbuf
        rw [paddedFile_cons, collected, counted] at here
        have grown := nextNaluLoop_longer coded.unit.bytes next.front escaped parsable.room here
        rw [List.length_append, length] at grown
        omega

/-- The zeros of a start code that is not seen and its octet 1 become part of the unit behind it. -/
theorem Padded.joined {padded : Padded} (unseen : ¬ padded.Seen) (parsable : Parsable padded.coded) :
    Escaped (padded.front ++ padded.coded.unit.bytes) ∧
      (padded.front ++ padded.coded.unit.bytes).length = padded.zeros % 4 + 1 + padded.coded.unit.bytes.length := by
  have nothing : Escaped [] := ⟨by decide, by decide, by decide⟩
  obtain ⟨escaped, length⟩ := Padded.front_unseen unseen nothing
  rw [List.nil_append] at escaped
  refine ⟨escaped.append parsable.escaped (List.cons_ne_nil _ _), ?_⟩
  rw [List.length_append, length]

theorem resultsFrom_alone (content : Nat → UInt8) {padded : Padded} (unseen : ¬ padded.Seen)
    (parsable : Parsable padded.coded) {s : Scan} (fresh : s.Fresh) :
    (∀ calls, resultsFrom content calls padded.bytes ⟨[], .untouched content, 0⟩ =
        resultsFrom content calls (padded.coded.unit.bytes ++ annexB []) s) ↔
      padded.zeros % 4 + 1 + padded.coded.unit.bytes.length ≤ maxNalBufSize := by
  have unpadded := nextNaluLoop_file parsable [] fresh
  obtain ⟨escaped, length⟩ := Padded.joined unseen parsable
  obtain ⟨next, counted⟩ := nextNaluLoop_padded padded [] (.untouched content)
  have regrouped := counted []
  rw [List.append_nil, ← List.append_assoc] at regrouped
  rw [← length]
  rcases nextNaluLoop_collect [] (padded.front ++ padded.coded.unit.bytes) escaped next (Nat.zero_le _) with ⟨room, last, same⟩ | ⟨full, failed⟩
  · have ended : nextNaluLoop padded.bytes ⟨[], .untouched content, 0⟩ = some (none, []) := by
      rw [regrouped, same]
      rfl
    exact iff_of_true ((resultsFrom_agree ended unpadded).mpr fun _ => rfl) room
  · refine iff_of_false (fun same => ?_) (Nat.not_le_of_lt full)
    have once := same 0
    rw [resultsFrom, resultsFrom, regrouped, failed, unpadded] at once
    cases once

theorem resultsFrom_several (content : Nat → UInt8) {first second : Padded} (more : List Padded) (unseen : ¬ first.Seen)
    (parsable : Parsable first.coded) {s : Scan} (fresh : s.Fresh) :
    ¬ ∀ calls, resultsFrom content calls (paddedFile (first :: second :: more)) ⟨[], .untouched content, 0⟩ =
      resultsFrom content calls (first.coded.unit.bytes ++ annexB ((second :: more).map Padded.coded)) s := by
  have expected := nextNaluLoop_file parsable ((second :: more).map Padded.coded) fresh
  refine resultsFrom_disagree (fun nal left here => ?_) expected
  obtain ⟨escaped, length⟩ := Padded.joined unseen parsable
  obtain ⟨next, counted⟩ := nextNaluLoop_padded first [] (.untouched content)
  rw [paddedFile_cons, counted, ← List.append_assoc] at here
  have grown := nextNaluLoop_longer [] (first.front ++ first.coded.unit.bytes) escaped (Nat.zero_le _) here
  rw [List.nil_append, length] at grown
  omega

/-- Padding leaves what is returned as it is exactly when every start code is seen, or when the file has one unit,
which is never returned, and what is left of its start code does not overrun the buffer. -/
theorem nextNalus_padding_iff (content : Nat → UInt8) (padded : List Padded)
    (parsable : ∀ unit ∈ padded, Parsable unit.coded) :
    (∀ calls, nextNalus content calls (paddedFile padded) =
        nextNalus content calls (annexB (padded.map Padded.coded))) ↔
      (∀ unit ∈ padded, 2 ≤ unit.zeros % 4) ∨
        ∃ unit, padded = [unit] ∧ unit.zeros % 4 + 1 + unit.coded.unit.bytes.length ≤ maxNalBufSize := by
  cases padded with
  | nil => exact iff_of_true (fun _ => rfl) (.inl fun unit member => absurd member List.not_mem_nil)
  | cons first later =>
      have parsableFirst := parsable first List.mem_cons_self
      have parsableLater : ∀ unit ∈ later, Parsable unit.coded :=
        fun unit member => parsable unit (List.mem_cons_of_mem first member)
      have empty : ¬ 0 < ([] : List UInt8).length := Nat.lt_irrefl 0
      -- without the padding the first start code is skipped
      obtain ⟨middle, skipped⟩ := nextNaluLoop_code first.coded [] (.untouched content)
      have unpadded (calls : Nat) :
          resultsFrom content calls (annexB ((first :: later).map Padded.coded)) ⟨[], .untouched content, 0⟩ =
            resultsFrom content calls (first.coded.unit.bytes ++ annexB (later.map Padded.coded)) ⟨[], middle, 0⟩ := by
        rw [List.map_cons, annexB_cons, resultsFrom, skipped, if_neg empty]
        rfl
      have fresh : Scan.Fresh ⟨[], middle, 0⟩ := ⟨rfl, rfl⟩
      refine nextNalus_agree.trans ?_
      simp only [unpadded]
      by_cases seen : first.Seen
      · obtain ⟨next, same⟩ := nextNaluLoop_seen seen [] (.untouched content)
        have behind (calls : Nat) :
            resultsFrom content calls (paddedFile (first :: later)) ⟨[], .untouched content, 0⟩ =
              resultsFrom content calls (first.coded.unit.bytes ++ paddedFile later) ⟨[], next, 0⟩ := by
          rw [paddedFile_cons, resultsFrom, same, if_neg empty]
          rfl
        simp only [behind]
        refine (resultsFrom_padded content parsableFirst later parsableLater ⟨rfl, rfl⟩ fresh).trans ⟨fun all => ?_, ?_⟩
        · exact .inl (List.forall_mem_cons.mpr ⟨seen, all⟩)
        · rintro (all | ⟨unit, same, -⟩)
          · exact (List.forall_mem_cons.mp all).2
          · rw [(List.cons.inj same).2]
            exact fun unit member => absurd member List.not_mem_nil
      · have never : ¬ ∀ unit ∈ first :: later, 2 ≤ unit.zeros % 4 := fun all => seen (all first List.mem_cons_self)
        cases later with
        | nil =>
            have file : paddedFile [first] = first.bytes := List.append_nil _
            rw [file]
            refine (resultsFrom_alone content seen parsableFirst fresh).trans ⟨fun room => .inr ⟨first, rfl, room⟩, ?_⟩
            rintro (all | ⟨unit, same, room⟩)
            · exact absurd all never
            · cases same
              exact room
        | cons second more =>
            have several : ¬ ∃ unit, first :: second :: more = [unit] ∧
                unit.zeros % 4 + 1 + unit.coded.unit.bytes.length ≤ maxNalBufSize := by
              rintro ⟨unit, same, -⟩
              cases same
            exact iff_of_false (resultsFrom_several content more seen parsableFirst fresh) (not_or.mpr ⟨never, several⟩)

theorem nextNalus_padding_five :
    (∀ calls, nextNalus (fun _ => 7) calls (paddedFile [⟨3, ⟨true, ⟨0x67, [0x42]⟩⟩⟩, ⟨2, ⟨true, ⟨0x65, [0x88]⟩⟩⟩]) =
        nextNalus (fun _ => 7) calls (annexB [⟨true, ⟨0x67, [0x42]⟩⟩, ⟨true, ⟨0x65, [0x88]⟩⟩])) ↔
      (∀ unit ∈ [(⟨3, ⟨true, ⟨0x67, [0x42]⟩⟩⟩ : Padded), ⟨2, ⟨true, ⟨0x65, [0x88]⟩⟩⟩], 2 ≤ unit.zeros % 4) ∨
        ∃ unit, [(⟨3, ⟨true, ⟨0x67, [0x42]⟩⟩⟩ : Padded), ⟨2, ⟨true, ⟨0x65, [0x88]⟩⟩⟩] = [unit] ∧
          unit.zeros % 4 + 1 + unit.coded.unit.bytes.length ≤ maxNalBufSize :=
  nextNalus_padding_iff (fun _ => 7) [⟨3, ⟨true, ⟨0x67, [0x42]⟩⟩⟩, ⟨2, ⟨true, ⟨0x65, [0x88]⟩⟩⟩] (by
    intro unit member
    rcases List.mem_pair.mp member with rfl | rfl
    · exact ⟨⟨by decide, by decide, by decide⟩, by decide⟩
    · exact ⟨⟨by decide, by decide, by decide⟩, by decide⟩)

/-- One zero more in front of 00 00 00 01, and the unit in front of it is not returned. -/
theorem nextNalus_padding_lost :
    nextNalus (fun _ => 7) 1 (annexB [⟨false, ⟨0x67, [0x42]⟩⟩, ⟨true, ⟨0x65, [0x88]⟩⟩]) =
        some [some (packetOf ⟨false, ⟨0x67, [0x42]⟩⟩)] ∧
      nextNalus (fun _ => 7) 1 (paddedFile [⟨0, ⟨false, ⟨0x67, [0x42]⟩⟩⟩, ⟨1, ⟨true, ⟨0x65, [0x88]⟩⟩⟩]) = some [none] ∧
      ¬ ∀ calls, nextNalus (fun _ => 7) calls (paddedFile [⟨0, ⟨false, ⟨0x67, [0x42]⟩⟩⟩, ⟨1, ⟨true, ⟨0x65, [0x88]⟩⟩⟩]) =
        nextNalus (fun _ => 7) calls (annexB [⟨false, ⟨0x67, [0x42]⟩⟩, ⟨true, ⟨0x65, [0x88]⟩⟩]) := by
  have returned : nextNalus (fun _ => 7) 1 (annexB [⟨false, ⟨0x67, [0x42]⟩⟩, ⟨true, ⟨0x65, [0x88]⟩⟩]) =
      some [some (packetOf ⟨false, ⟨0x67, [0x42]⟩⟩)] := by decide +kernel
  have lost : nextNalus (fun _ => 7) 1 (paddedFile [⟨0, ⟨false, ⟨0x67, [0x42]⟩⟩⟩, ⟨1, ⟨true, ⟨0x65, [0x88]⟩⟩⟩]) =
      some [none] := by decide +kernel
  refine ⟨returned, lost, fun same => ?_⟩
  have once := same 1
  rw [returned, lost] at once
  cases once

end H264Streaming.H264Send
