import H264Streaming.Bytes.File
import H264Streaming.Format.AnnexB
import H264Streaming.Jrtplib.Session

/-! The main function of sender.cpp: how it cuts the file into buffers.

Four octets are read to tell the length of the start codes, and `pos` is set behind
the start code, so the fourth octet behind a short one is overwritten. The loop ends
when feof is true, and by then EOF has been stored as an octet. -/

set_option autoImplicit false

namespace H264Streaming.Jrtplib

open H264Streaming.Bytes H264Streaming.Format H264Streaming.Semantics

structure Splitter where
  buff : Buffer
  pos : Nat
  fd : File

/-- One iteration behind the test of feof; an event is a buffer passed to SendH264Nalu.
It fails past the end of `buff`. -/
def split (headerFlag : Bool) (s : Splitter) : Option (Traced Splitter (List UInt8)) :=
  if s.pos < buffSize then
    let (octet, fd) := s.fd.fgetc
    let buff := s.buff.write s.pos [octet.getD 0xFF]
    let pos := s.pos + 1
    if headerFlag then
      if buff.byte (pos - 1) = 1 ∧ buff.byte (pos - 2) = 0 ∧ buff.byte (pos - 3) = 0 ∧ buff.byte (pos - 4) = 0 then
        some ⟨⟨buff.write 0 [0, 0, 0, 1], 4, fd⟩, [buff.read 0 (pos - 4)]⟩
      else some (.quiet ⟨buff, pos, fd⟩)
    else
      if buff.byte (pos - 1) = 1 ∧ buff.byte (pos - 2) = 0 ∧ buff.byte (pos - 3) = 0 then
        some ⟨⟨(buff.write 0 [0, 0]).write 3 [1], 3, fd⟩, [buff.read 0 (pos - 3)]⟩
      else some (.quiet ⟨buff, pos, fd⟩)
  else none

def splitLoop (headerFlag : Bool) : Nat → Splitter → Option (Traced Splitter (List UInt8))
  | 0, _ => none
  | turns + 1, s =>
      if s.fd.eof then some (.quiet s)
      else do
        let first ← split headerFlag s
        let later ← splitLoop headerFlag turns first.state
        return ⟨later.state, first.events ++ later.events⟩

def flush (s : Splitter) : List (List UInt8) := if s.pos ≠ 0 then [s.buff.read 0 s.pos] else []

/-- main from fopen on: the buffers passed to SendH264Nalu. -/
def senderMain (turns : Nat) (h264 : List UInt8) : Option (List (List UInt8)) := do
  let (octets, fd) := (File.fopen h264).fread 4
  let buff := (Buffer.untouched fun _ => 0).write 0 octets
  let headerFlag := decide (buff.byte 0 = 0 ∧ buff.byte 1 = 0 ∧ buff.byte 2 = 0 ∧ buff.byte 3 = 1)
  let looped ← splitLoop headerFlag turns ⟨buff, if headerFlag then 4 else 3, fd⟩
  return looped.events ++ flush looped.state

/-- The buffers are the file, and each is a start code and a unit without one. -/
def Partitions (h264 : List UInt8) : Prop :=
  ∃ turns buffers, senderMain turns h264 = some buffers ∧ buffers.flatten = h264 ∧
    ∀ buffer ∈ buffers, ∃ code unit, StartCode code ∧ buffer = code ++ unit ∧ ¬ [0, 0, 1] <:+: unit

/-! ### One octet -/

def seed (headerFlag : Bool) : List UInt8 := if headerFlag then [0, 0, 0, 1] else [0, 0, 1]

structure Held (headerFlag : Bool) (s : Splitter) (content : List UInt8) : Prop where
  read : s.buff.read 0 s.pos = content
  begins : seed headerFlag <+: content
  size : content.length ≤ buffSize

variable {headerFlag : Bool} {s : Splitter} {content : List UInt8}

theorem Held.pos (held : Held headerFlag s content) : s.pos = content.length := by
  rw [← held.read, Buffer.length_read]

theorem Held.flush (held : Held headerFlag s content) : flush s = [content] := by
  have reached := held.begins.length_le
  have moved : s.pos ≠ 0 := by
    rw [held.pos]
    cases headerFlag <;> simp [seed] at reached <;> omega
  rw [Jrtplib.flush, if_pos moved, held.read]

theorem suffix_append_iff {α : Type} {front last other : List α} (size : other.length = last.length) :
    other <:+ front ++ last ↔ other = last := by
  constructor
  · rintro ⟨before, same⟩
    exact (List.append_inj' same size).2
  · rintro rfl
    exact List.suffix_append _ _

theorem ends_long (buff : Buffer) {pos : Nat} (reached : 4 ≤ pos) :
    [0, 0, 0, 1] <:+ buff.read 0 pos ↔
      buff.byte (pos - 1) = 1 ∧ buff.byte (pos - 2) = 0 ∧ buff.byte (pos - 3) = 0 ∧ buff.byte (pos - 4) = 0 := by
  obtain ⟨n, rfl⟩ := Nat.exists_eq_add_of_le' reached
  rw [Buffer.read_add, suffix_append_iff (by simp)]
  simp [Buffer.read_succ, eq_comm, and_comm, and_assoc]

theorem ends_short (buff : Buffer) {pos : Nat} (reached : 3 ≤ pos) :
    [0, 0, 1] <:+ buff.read 0 pos ↔ buff.byte (pos - 1) = 1 ∧ buff.byte (pos - 2) = 0 ∧ buff.byte (pos - 3) = 0 := by
  obtain ⟨n, rfl⟩ := Nat.exists_eq_add_of_le' reached
  rw [Buffer.read_add, suffix_append_iff (by simp)]
  simp [Buffer.read_succ, eq_comm, and_comm, and_assoc]

theorem read_front (buff : Buffer) {pos : Nat} {code : List UInt8} (found : code <:+ buff.read 0 pos) :
    buff.read 0 pos = buff.read 0 (pos - code.length) ++ code := by
  have within := found.length_le
  rw [Buffer.length_read] at within
  have parts : buff.read 0 pos = buff.read 0 (pos - code.length) ++ buff.read (pos - code.length) code.length := by
    have added := Buffer.read_add buff 0 (pos - code.length) code.length
    rwa [Nat.sub_add_cancel within, Nat.zero_add] at added
  rw [parts, suffix_append_iff (by rw [Buffer.length_read])] at found
  rw [parts, ← found]

def Splitter.octet (s : Splitter) : UInt8 := s.fd.fgetc.1.getD 0xFF

def Splitter.stored (s : Splitter) : Splitter := ⟨s.buff.write s.pos [s.octet], s.pos + 1, s.fd.fgetc.2⟩

def Splitter.reseed (s : Splitter) (headerFlag : Bool) : Splitter :=
  if headerFlag then ⟨s.buff.write 0 [0, 0, 0, 1], 4, s.fd⟩ else ⟨(s.buff.write 0 [0, 0]).write 3 [1], 3, s.fd⟩

theorem split_eq (room : s.pos < buffSize) (reached : (seed headerFlag).length ≤ s.pos) :
    split headerFlag s =
      if seed headerFlag <:+ s.stored.buff.read 0 s.stored.pos then
        some ⟨s.stored.reseed headerFlag, [s.stored.buff.read 0 (s.stored.pos - (seed headerFlag).length)]⟩
      else some (.quiet s.stored) := by
  cases headerFlag with
  | true =>
      have test := ends_long s.stored.buff (Nat.le_succ_of_le reached)
      exact (if_pos room).trans ((if_pos rfl).trans (if_congr test.symm rfl rfl))
  | false =>
      have test := ends_short s.stored.buff (Nat.le_succ_of_le reached)
      exact (if_pos room).trans ((if_neg (by decide)).trans (if_congr test.symm rfl rfl))

theorem Held.stored (held : Held headerFlag s content) (room : s.pos < buffSize) :
    Held headerFlag s.stored (content ++ [s.octet]) where
  read := by
    rw [← held.read]
    exact Buffer.read_write_extend _ _ _ 1 rfl
  begins := held.begins.trans (List.prefix_append _ _)
  size := by
    rw [List.length_append, ← held.pos]
    exact room

theorem read_reseeded (buff : Buffer) : ((buff.write 0 [0, 0]).write 3 [1]).read 0 3 = [0, 0, buff.byte (0 + 2)] := by
  simp [Buffer.read_succ, Buffer.write]

theorem Held.reseed (held : Held headerFlag s content) : Held headerFlag (s.reseed headerFlag) (seed headerFlag) := by
  have reached := held.begins.length_le
  rw [← held.pos] at reached
  cases headerFlag with
  | true => exact ⟨Buffer.read_write_self _ 0 [0, 0, 0, 1], List.prefix_rfl, by decide⟩
  | false =>
      refine ⟨?_, List.prefix_rfl, by decide⟩
      -- the third octet has stayed a one
      obtain ⟨rest, same⟩ := held.begins
      have third := Buffer.byte_of_read held.read (show 2 < s.pos from reached)
      rw [← same] at third
      exact (read_reseeded s.buff).trans (by rw [← Option.some.inj third]; rfl)

/-- The iteration that completes a start code sends what is in front of it and keeps the
start code; any other keeps the octet. -/
theorem split_spec (held : Held headerFlag s content) (room : s.pos < buffSize) :
    (∃ next front, split headerFlag s = some ⟨next, [front]⟩ ∧ content ++ [s.octet] = front ++ seed headerFlag ∧
      Held headerFlag next (seed headerFlag) ∧ next.fd = s.fd.fgetc.2) ∨
    (¬ seed headerFlag <:+ content ++ [s.octet] ∧ split headerFlag s = some (.quiet s.stored)) := by
  have keeps := held.stored room
  have reached := held.begins.length_le
  rw [← held.pos] at reached
  have ran := split_eq room reached
  rw [← keeps.read]
  by_cases found : seed headerFlag <:+ s.stored.buff.read 0 s.stored.pos
  · rw [if_pos found] at ran
    have file : (s.stored.reseed headerFlag).fd = s.fd.fgetc.2 := by cases headerFlag <;> rfl
    exact .inl ⟨_, _, ran, read_front _ found, keeps.reseed, file⟩
  · rw [if_neg found] at ran
    exact .inr ⟨found, ran⟩

theorem split_step (held : Held headerFlag s content) {first : Traced Splitter (List UInt8)}
    (ran : split headerFlag s = some first) :
    ∃ left, Held headerFlag first.state left ∧ first.events.flatten ++ left = content ++ [s.octet] ∧
      first.state.fd = s.fd.fgetc.2 := by
  have room : s.pos < buffSize := by
    unfold split at ran
    split at ran
    · assumption
    · cases ran
  rcases split_spec held room with ⟨next, front, here, parts, kept, fd⟩ | ⟨-, here⟩
  · rw [here] at ran
    cases ran
    exact ⟨seed headerFlag, kept, by rw [parts, List.flatten_singleton], fd⟩
  · rw [here] at ran
    cases ran
    exact ⟨content ++ [s.octet], held.stored room, rfl, rfl⟩

/-! ### The whole file -/

theorem splitLoop_succ {turns : Nat} (opened : s.fd.eof = false) {whole : Traced Splitter (List UInt8)} :
    splitLoop headerFlag (turns + 1) s = some whole ↔
      ∃ first later, split headerFlag s = some first ∧ splitLoop headerFlag turns first.state = some later ∧
        whole = ⟨later.state, first.events ++ later.events⟩ := by
  rw [splitLoop, if_neg (by rw [opened]; decide)]
  simp only [Option.bind_eq_bind, Option.bind_eq_some_iff, Option.pure_def, Option.some.injEq]
  constructor
  · rintro ⟨first, here, later, after, rfl⟩
    exact ⟨first, later, here, after, rfl⟩
  · rintro ⟨first, later, here, after, rfl⟩
    exact ⟨first, here, later, after, rfl⟩

theorem splitLoop_ended (turns : Nat) (ended : s.fd.eof = true) :
    splitLoop headerFlag (turns + 1) s = some (.quiet s) :=
  if_pos ended

theorem Splitter.reads {octet : UInt8} {rest : List UInt8} (ahead : s.fd.ahead = octet :: rest) :
    s.octet = octet ∧ s.fd.fgetc.2.ahead = rest ∧ s.fd.fgetc.2.eof = s.fd.eof := by
  have forward := File.ahead_forward (show s.fd.ahead = [octet] ++ rest from ahead)
  rw [Splitter.octet, File.fgetc_octet ahead]
  exact ⟨rfl, forward, rfl⟩

theorem Splitter.ends (ahead : s.fd.ahead = []) : s.octet = 0xFF ∧ s.fd.fgetc.2.eof = true := by
  rw [Splitter.octet, File.fgetc_end ahead]
  exact ⟨rfl, rfl⟩

theorem splitLoop_flatten {turns : Nat} (held : Held headerFlag s content) (opened : s.fd.eof = false)
    {whole : Traced Splitter (List UInt8)} (ran : splitLoop headerFlag turns s = some whole) :
    ∃ left, Held headerFlag whole.state left ∧ whole.events.flatten ++ left = content ++ s.fd.ahead ++ [0xFF] := by
  induction turns generalizing s content whole with
  | zero => cases ran
  | succ turns ih =>
      obtain ⟨first, later, here, after, rfl⟩ := (splitLoop_succ opened).mp ran
      obtain ⟨middle, kept, parts, fd⟩ := split_step held here
      cases ahead : s.fd.ahead with
      | nil =>
          obtain ⟨octet, ended⟩ := Splitter.ends ahead
          cases turns with
          | zero => cases after
          | succ turns =>
              rw [splitLoop_ended turns (by rw [fd, ended])] at after
              cases after
              refine ⟨middle, kept, ?_⟩
              rw [Traced.quiet_events, List.append_nil, parts, octet, List.append_nil]
      | cons next rest =>
          obtain ⟨octet, forward, same⟩ := Splitter.reads ahead
          obtain ⟨left, final, others⟩ := ih kept (by rw [fd, same, opened]) after
          refine ⟨left, final, ?_⟩
          rw [List.flatten_append, List.append_assoc, others, fd, forward, ← List.append_assoc, ← List.append_assoc,
            parts, octet, List.append_assoc content]
          rfl

theorem split_padding (held : Held headerFlag s content) (room : s.pos < buffSize) (octet : s.octet = 0xFF) :
    split headerFlag s = some (.quiet s.stored) := by
  rcases split_spec held room with ⟨-, front, -, parts, -⟩ | ⟨-, here⟩
  · have last := congrArg List.getLast? parts
    rw [List.getLast?_concat, octet] at last
    cases headerFlag <;> simp [seed] at last
  · exact here

theorem splitLoop_padding (count : Nat) (held : Held headerFlag s content) (opened : s.fd.eof = false)
    (ahead : s.fd.ahead = List.replicate count 0xFF) (room : content.length + (count + 1) ≤ buffSize) :
    ∃ last, splitLoop headerFlag (count + 2) s = some (.quiet last) ∧
      Held headerFlag last (content ++ List.replicate (count + 1) 0xFF) := by
  have here : s.pos < buffSize := by
    rw [held.pos]
    omega
  have keeps := held.stored here
  induction count generalizing s content with
  | zero =>
      obtain ⟨octet, ended⟩ := Splitter.ends ahead
      refine ⟨s.stored, (splitLoop_succ opened).mpr
        ⟨_, _, split_padding held here octet, splitLoop_ended 0 ended, rfl⟩, ?_⟩
      rw [octet] at keeps
      exact keeps
  | succ count ih =>
      obtain ⟨octet, forward, same⟩ := Splitter.reads ahead
      have further : s.stored.pos < buffSize := by
        rw [keeps.pos, List.length_append, List.length_singleton]
        omega
      obtain ⟨last, ran, kept⟩ := ih keeps (same.trans opened) forward
        (by rw [List.length_append, List.length_singleton]; omega) further (keeps.stored further)
      refine ⟨last, (splitLoop_succ opened).mpr ⟨_, _, split_padding held here octet, ran, rfl⟩, ?_⟩
      rw [octet, List.append_assoc] at kept
      exact kept

theorem senderMain_start (four rest : List UInt8)
    (begins : four = [0, 0, 0, 1] ∧ headerFlag = true ∨ (∃ octet, four = [0, 0, 1, octet]) ∧ headerFlag = false) :
    ∃ s, Held headerFlag s (seed headerFlag) ∧ s.fd.ahead = rest ∧ s.fd.eof = false ∧ ∀ turns,
      senderMain turns (four ++ rest) =
        (splitLoop headerFlag turns s).map fun looped => looped.events ++ flush looped.state := by
  have size : four.length = 4 := by
    rcases begins with ⟨rfl, -⟩ | ⟨⟨octet, rfl⟩, -⟩ <;> rfl
  have read := File.fread_all (show (File.fopen (four ++ rest)).ahead = four ++ rest from rfl) size
  have forward := File.ahead_forward (show (File.fopen (four ++ rest)).ahead = four ++ rest from rfl)
  rw [size] at forward
  have flag : decide ((((Buffer.untouched fun _ => 0).write 0 four).byte 0 = 0) ∧
      ((Buffer.untouched fun _ => 0).write 0 four).byte 1 = 0 ∧ ((Buffer.untouched fun _ => 0).write 0 four).byte 2 = 0 ∧
      ((Buffer.untouched fun _ => 0).write 0 four).byte 3 = 1) = headerFlag := by
    rcases begins with ⟨rfl, rfl⟩ | ⟨⟨octet, rfl⟩, rfl⟩ <;> rfl
  refine ⟨⟨(Buffer.untouched fun _ => 0).write 0 four, if headerFlag then 4 else 3, _⟩, ⟨?_, List.prefix_rfl, ?_⟩,
    forward, rfl, fun turns => ?_⟩
  · rcases begins with ⟨rfl, rfl⟩ | ⟨⟨octet, rfl⟩, rfl⟩ <;> rfl
  · cases headerFlag <;> decide
  · rw [senderMain, read]
    simp only [flag]
    cases splitLoop headerFlag turns _ <;> rfl

theorem senderMain_flatten (four rest : List UInt8)
    (begins : four = [0, 0, 0, 1] ∧ headerFlag = true ∨ (∃ octet, four = [0, 0, 1, octet]) ∧ headerFlag = false)
    {turns : Nat} {buffers : List (List UInt8)} (ran : senderMain turns (four ++ rest) = some buffers) :
    ∃ front left, buffers = front ++ [left] ∧ front.flatten ++ left = seed headerFlag ++ rest ++ [0xFF] ∧
      seed headerFlag <+: left ∧ left.length ≤ buffSize := by
  obtain ⟨s, held, ahead, opened, main⟩ := senderMain_start four rest begins
  rw [main turns, Option.map_eq_some_iff] at ran
  obtain ⟨looped, whole, rfl⟩ := ran
  obtain ⟨left, kept, parts⟩ := splitLoop_flatten held opened whole
  rw [ahead] at parts
  exact ⟨looped.events, left, by rw [kept.flush], parts, kept.begins, kept.size⟩

theorem all_eq_of_rotated {α : Type} {first last : α} {middle : List α} (same : first :: middle = middle ++ [last]) :
    ∀ x ∈ first :: middle, x = last := by
  induction middle generalizing first with
  | nil =>
      obtain rfl : first = last := List.singleton_inj.mp same
      exact fun x member => List.mem_singleton.mp member
  | cons second middle ih =>
      obtain ⟨rfl, later⟩ := List.cons.inj same
      have others := ih later
      exact List.forall_mem_cons.mpr ⟨others first List.mem_cons_self, others⟩

theorem front_empty {front left rest : List UInt8} (same : front ++ left = [0, 0, 1] ++ rest)
    (begins : [0, 0, 1] <+: left) (none : (1 : UInt8) ∉ rest) : front = [] := by
  obtain ⟨more, rfl⟩ := begins
  match front with
  | [] => rfl
  | [_] => simp at same
  | [_, _] => simp at same
  | _ :: _ :: _ :: others =>
      have tail := congrArg (List.drop 3) same
      simp only [List.cons_append, List.drop_succ_cons, List.drop_zero, List.nil_append] at tail
      rw [← tail] at none
      simp at none

theorem long_not_partitioned (rest : List UInt8) : ¬ Partitions ([0, 0, 0, 1] ++ rest) := by
  rintro ⟨turns, buffers, ran, whole, -⟩
  obtain ⟨front, left, rfl, parts, -⟩ := senderMain_flatten [0, 0, 0, 1] rest (.inl ⟨rfl, rfl⟩) ran
  rw [List.flatten_append, List.flatten_singleton, parts] at whole
  have size := congrArg List.length whole
  simp [seed] at size

theorem short_padded {octet : UInt8} {rest : List UInt8} (partitions : Partitions ([0, 0, 1] ++ octet :: rest)) :
    (∀ other ∈ octet :: rest, other = 0xFF) ∧ 3 + (octet :: rest).length ≤ buffSize := by
  obtain ⟨turns, buffers, ran, whole, -⟩ := partitions
  obtain ⟨front, left, rfl, parts, begins, room⟩ :=
    senderMain_flatten [0, 0, 1, octet] rest (.inr ⟨⟨octet, rfl⟩, rfl⟩) ran
  rw [List.flatten_append, List.flatten_singleton] at whole
  have rotated := parts.symm.trans whole
  rw [List.append_assoc] at rotated
  have padding := all_eq_of_rotated (List.append_cancel_left rotated).symm
  have none : (1 : UInt8) ∉ octet :: rest := fun member => absurd (padding 1 member) (by decide)
  refine ⟨padding, ?_⟩
  rw [front_empty whole begins none, List.nil_append] at whole
  rw [whole, List.length_append] at room
  exact room

theorem padded_partitions {rest : List UInt8} (padding : ∀ octet ∈ rest, octet = 0xFF)
    (room : 3 + rest.length ≤ buffSize) : Partitions ([0, 0, 1] ++ rest) := by
  have single (unit : List UInt8) (same : unit = rest) : ∀ buffer ∈ [[0, 0, 1] ++ unit], ∃ code unit, StartCode code ∧
      buffer = code ++ unit ∧ ¬ [0, 0, 1] <:+: unit := by
    subst same
    refine List.forall_mem_singleton.mpr ⟨[0, 0, 1], unit, .inl rfl, rfl, fun within => ?_⟩
    exact absurd (padding 1 (within.subset (by decide))) (by decide)
  cases rest with
  | nil =>
      -- fread has met the end of the file
      exact ⟨1, [[0, 0, 1]], rfl, rfl, single [] rfl⟩
  | cons octet rest =>
      obtain ⟨rfl, others⟩ := List.forall_mem_cons.mp padding
      have all := List.eq_replicate_of_mem others
      obtain ⟨s, held, ahead, opened, main⟩ :=
        senderMain_start [0, 0, 1, 0xFF] rest (.inr ⟨⟨0xFF, rfl⟩, rfl⟩)
      obtain ⟨last, ran, kept⟩ := splitLoop_padding rest.length held opened (ahead.trans all) room
      rw [List.replicate_succ, ← all] at kept
      refine ⟨rest.length + 2, [[0, 0, 1] ++ 0xFF :: rest], ?_, List.flatten_singleton, single _ rfl⟩
      refine (main _).trans ?_
      rw [ran, Option.map_some, Traced.quiet_events, Traced.quiet_state, kept.flush]
      rfl

/-- The buffers are the file exactly when it is a short start code and octets 0xFF, as many as fit. -/
theorem senderMain_partitions_iff {code : List UInt8} (isCode : StartCode code) (rest : List UInt8) :
    Partitions (code ++ rest) ↔
      code = [0, 0, 1] ∧ (∀ octet ∈ rest, octet = 0xFF) ∧ 3 + rest.length ≤ buffSize := by
  constructor
  · intro partitions
    rcases isCode with rfl | rfl
    · cases rest with
      | nil => exact ⟨rfl, fun _ member => absurd member List.not_mem_nil, by decide⟩
      | cons octet rest => exact ⟨rfl, short_padded partitions⟩
    · exact absurd partitions (long_not_partitioned rest)
  · rintro ⟨rfl, padding, room⟩
    exact padded_partitions padding room

theorem senderMain_partitions_iff_short :
    StartCode [0, 0, 1] ∧ (Partitions ([0, 0, 1] ++ [0xFF, 0xFF]) ↔ ([0, 0, 1] : List UInt8) = [0, 0, 1] ∧
      (∀ octet ∈ ([0xFF, 0xFF] : List UInt8), octet = 0xFF) ∧ 3 + ([0xFF, 0xFF] : List UInt8).length ≤ buffSize) :=
  ⟨.inl rfl, senderMain_partitions_iff (.inl rfl) [0xFF, 0xFF]⟩

/-- With a long start code an octet is added; behind a short one an octet is lost too. -/
theorem senderMain_not_partitioned :
    senderMain 4 [0, 0, 0, 1, 0x65, 0x88] = some [[0, 0, 0, 1, 0x65, 0x88, 0xFF]] ∧
      ¬ Partitions [0, 0, 0, 1, 0x65, 0x88] ∧
      senderMain 3 [0, 0, 1, 0x67, 0x42] = some [[0, 0, 1, 0x42, 0xFF]] ∧ ¬ Partitions [0, 0, 1, 0x67, 0x42] := by
  refine ⟨by decide, long_not_partitioned [0x65, 0x88], by decide, fun partitions => ?_⟩
  exact absurd ((short_padded partitions).1 0x67 List.mem_cons_self) (by decide)

end H264Streaming.Jrtplib
