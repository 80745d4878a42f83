import H264Streaming.Format.AnnexB
import H264Streaming.UdpH264.Reader

/-! What reading a whole file unit by unit returns.

Between two calls the file is at a start code. A call returns what lies between its
own and the next one, and goes back in front of that; the last call meets the end of
the file and takes EOF for an octet of the unit. -/

set_option autoImplicit false

namespace H264Streaming.UdpH264

open H264Streaming.Bytes H264Streaming.Format H264Streaming.Semantics

/-! ### Start codes in the buffer -/

theorem findStartCode2_read {buf : Buffer} {p : Nat} (found : findStartCode2 buf p = true) :
    buf.read p 3 = [0, 0, 1] := by
  simp only [findStartCode2, ne_eq, Bool.if_false_left, Bool.and_true, Bool.not_eq_true', decide_eq_false_iff_not,
    not_or, not_not] at found
  obtain ⟨first, second, third⟩ := found
  rw [Buffer.read_succ, Buffer.read_succ, Buffer.read_succ, first, second, third]
  rfl

theorem findStartCode3_read {buf : Buffer} {p : Nat} (found : findStartCode3 buf p = true) :
    buf.read p 4 = [0, 0, 0, 1] := by
  simp only [findStartCode3, ne_eq, Bool.if_false_left, Bool.and_true, Bool.not_eq_true', decide_eq_false_iff_not,
    not_or, not_not] at found
  obtain ⟨first, second, third, fourth⟩ := found
  rw [Buffer.read_succ, Buffer.read_succ, Buffer.read_succ, Buffer.read_succ, first, second, third, fourth]
  rfl

/-! ### The search -/

/-- `seen` has been read behind the start code with which the call began at `file`. -/
structure Search.Seen (code : List UInt8) (file : File) (s : Search) (seen : List UInt8) : Prop where
  pos : s.pos = code.length + seen.length
  read : s.buf.read 0 s.pos = code ++ seen
  file_eq : s.h264Bitsream = { file with pos := file.pos + seen.length }
  initial : seen <+: file.ahead

variable {code : List UInt8} {file : File} {maxSize : Nat}

theorem Search.Seen.ahead {s : Search} {seen rest : List UInt8} (at_ : s.Seen code file seen)
    (split : file.ahead = seen ++ rest) : s.h264Bitsream.ahead = rest := by
  rw [at_.file_eq]
  exact File.ahead_forward split

theorem Search.Seen.next {s t : Search} {seen rest : List UInt8} {octet : UInt8} (at_ : s.Seen code file seen)
    (split : file.ahead = seen ++ octet :: rest) (read : s.next maxSize = some t) :
    t.Seen code file (seen ++ [octet]) ∧ t.info3 = findStartCode3 t.buf (t.pos - 4) ∧
      t.info2 = if t.info3 then s.info2 else findStartCode2 t.buf (t.pos - 3) := by
  unfold Search.next at read
  rw [File.fgetc_octet (at_.ahead split)] at read
  split at read
  · cases read
    refine ⟨⟨?_, ?_, ?_, ?_⟩, rfl, rfl⟩
    · rw [at_.pos, List.length_append, List.length_singleton, Nat.add_assoc]
    · rw [Buffer.read_write_extend _ _ _ 1 rfl, at_.read, List.append_assoc]
      rfl
    · rw [at_.file_eq, List.length_append, List.length_singleton, ← Nat.add_assoc]
    · exact ⟨rest, by rw [split, List.append_assoc]; rfl⟩
  · cases read

theorem findStartCode2_last {buf : Buffer} {p : Nat} (other : buf.byte (p + 2) ≠ 1) :
    findStartCode2 buf p = false := by
  simp [findStartCode2, other]

theorem findStartCode3_last {buf : Buffer} {p : Nat} (other : buf.byte (p + 3) ≠ 1) :
    findStartCode3 buf p = false := by
  simp [findStartCode3, other]

theorem Search.Seen.finish {s t : Search} (at_ : s.Seen code file file.ahead) (behind : 3 ≤ code.length)
    (read : s.next maxSize = some t) :
    t.h264Bitsream.eof = true ∧ t.info2 = false ∧ t.info3 = false ∧ t.pos = code.length + file.ahead.length + 1 ∧
      t.buf.read 0 t.pos = code ++ file.ahead ++ [0xFF] := by
  have exhausted : s.h264Bitsream.ahead = [] := at_.ahead (by rw [List.append_nil])
  have stored : (s.buf.write s.pos [0xFF]).byte s.pos = 0xFF := by
    simp [Buffer.write]
  have reached : 3 ≤ s.pos := by
    rw [at_.pos]
    omega
  have none3 : findStartCode3 (s.buf.write s.pos [0xFF]) (s.pos + 1 - 4) = false := by
    apply findStartCode3_last
    rw [show s.pos + 1 - 4 + 3 = s.pos by omega, stored]
    decide
  have none2 : findStartCode2 (s.buf.write s.pos [0xFF]) (s.pos + 1 - 3) = false := by
    apply findStartCode2_last
    rw [show s.pos + 1 - 3 + 2 = s.pos by omega, stored]
    decide
  unfold Search.next at read
  rw [File.fgetc_end exhausted] at read
  split at read
  · simp only [Option.getD_none, none3, none2] at read
    cases read
    refine ⟨rfl, rfl, rfl, by rw [at_.pos], ?_⟩
    rw [Buffer.read_write_extend _ _ _ 1 rfl, at_.read]
  · cases read

inductive Search.Ends (code : List UInt8) (file : File) (t : Search) : Prop where
  | atEnd : t.h264Bitsream.eof = true → t.info2 = false → t.info3 = false →
      t.pos = code.length + file.ahead.length + 1 → t.buf.read 0 t.pos = code ++ file.ahead ++ [0xFF] → Ends code file t
  | long (seen : List UInt8) : t.Seen code file seen → seen ≠ [] → t.info3 = true →
      t.buf.read (t.pos - 4) 4 = [0, 0, 0, 1] → Ends code file t
  | short (seen : List UInt8) : t.Seen code file seen → seen ≠ [] → t.info2 = true → t.info3 = false →
      t.buf.read (t.pos - 3) 3 = [0, 0, 1] → Ends code file t

theorem Search.run_ends (behind : 3 ≤ code.length) (opened : file.eof = false) {s t : Search} {seen : List UInt8}
    (at_ : s.Seen code file seen) (quiet : s.info2 = false) (ran : s.run maxSize = some t) : t.Ends code file := by
  induction s using Search.run.induct maxSize generalizing seen with
  | case1 s ended =>
      rw [at_.file_eq, opened] at ended
      cases ended
  | case2 s reading failed =>
      rw [Search.run_failed reading failed] at ran
      cases ran
  | case3 s reading next read found =>
      rw [Search.run_next reading read, if_pos found, Option.some.injEq] at ran
      subst ran
      obtain ⟨ahead, split⟩ := at_.initial
      cases ahead with
      | nil =>
          rw [List.append_nil] at split
          obtain ⟨-, no2, no3, -⟩ := Search.Seen.finish (split ▸ at_) behind read
          rw [no2, no3] at found
          simp at found
      | cons octet rest =>
          obtain ⟨seen', third, second⟩ := at_.next split.symm read
          have nonempty : seen ++ [octet] ≠ [] := by simp
          cases info : next.info3 with
          | true => exact .long _ seen' nonempty info (findStartCode3_read (third.symm.trans info))
          | false =>
              rw [info, if_neg Bool.false_ne_true] at second
              have info2 : next.info2 = true := by simpa [info] using found
              exact .short _ seen' nonempty info2 info (findStartCode2_read (second.symm.trans info2))
  | case4 s reading next read found ih =>
      rw [Search.run_next reading read, if_neg found] at ran
      obtain ⟨ahead, split⟩ := at_.initial
      cases ahead with
      | nil =>
          rw [List.append_nil] at split
          obtain ⟨ended, no2, no3, pos, content⟩ := Search.Seen.finish (split ▸ at_) behind read
          rw [Search.run_eof ended, Option.some.injEq] at ran
          subst ran
          exact .atEnd ended no2 no3 pos content
      | cons octet rest =>
          obtain ⟨seen', -, -⟩ := at_.next split.symm read
          exact ih seen' (by simpa using fun info => found (.inl info)) ran

/-! ### One call -/

def AtCode (octets : List UInt8) : Prop := [0, 0, 1] <+: octets ∨ [0, 0, 0, 1] <+: octets

theorem fill_unit (nalu : NALUT) (buf : Buffer) (len : Nat) :
    (nalu.fill buf len).buf.take (nalu.fill buf len).len = buf.read nalu.startcodeprefixLen len := by
  have length := Buffer.length_read buf nalu.startcodeprefixLen len
  simp only [NALUT.fill]
  rw [List.take_append_of_le_length (Nat.le_of_eq length.symm), List.take_of_length_le (Nat.le_of_eq length)]

/-- A start code found behind another one does not overlap it: it would have to
begin with the one that ends the other. -/
theorem separate {seen front tail : List UInt8} (same : code ++ seen = front ++ tail) (last : code.getLast? = some 1)
    (zeros : (1 : UInt8) ∉ tail.dropLast) (nonempty : seen ≠ []) : ∃ unit, seen = unit ++ tail ∧ front = code ++ unit := by
  rcases List.append_eq_append_iff.mp same with ⟨unit, front_eq, seen_eq⟩ | ⟨shared, code_eq, tail_eq⟩
  · exact ⟨unit, seen_eq, front_eq⟩
  · cases shared with
    | nil => exact ⟨[], tail_eq.symm, by simp [code_eq]⟩
    | cons octet more =>
        refine absurd ?_ zeros
        rw [code_eq, List.getLast?_append_of_ne_nil _ (List.cons_ne_nil octet more)] at last
        rw [tail_eq, List.dropLast_append_of_ne_nil nonempty]
        exact List.mem_append_left _ (List.mem_of_getLast? last)

theorem Search.Seen.unit {s : Search} {seen : List UInt8} (at_ : s.Seen code file seen) (nonempty : seen ≠ [])
    (last : code.getLast? = some 1) {width : Nat} {tail : List UInt8} (found : s.buf.read (s.pos - width) width = tail)
    (zeros : (1 : UInt8) ∉ tail.dropLast) (within : width ≤ s.pos) :
    ∃ unit, seen = unit ++ tail ∧ s.pos - width = code.length + unit.length ∧
      s.buf.read code.length (s.pos - width - code.length) = unit := by
  have whole := at_.read
  have split := Buffer.read_add s.buf 0 (s.pos - width) width
  rw [Nat.sub_add_cancel within, whole, Nat.zero_add, found] at split
  obtain ⟨unit, seen_eq, front⟩ := separate split last zeros nonempty
  have length := congrArg List.length front
  rw [Buffer.length_read, List.length_append] at length
  refine ⟨unit, seen_eq, length, ?_⟩
  have behind := Buffer.read_drop s.buf 0 (s.pos - width) (show code.length ≤ s.pos - width by omega)
  rw [front, List.drop_left, Nat.zero_add] at behind
  exact behind.symm

/-- What a call makes of the file behind its start code: the unit, with the file at the
next start code; or the rest of the file and an octet 0xFF behind it. -/
def Delivers (file : File) (unit : List UInt8) (next : File) : Prop :=
  next.eof = false ∧ file.ahead = unit ++ next.ahead ∧ AtCode next.ahead ∨
    next.eof = true ∧ file.ahead ++ [0xFF] = unit

theorem Search.Seen.rewound {s : Search} {unit tail : List UInt8} (at_ : s.Seen code file (unit ++ tail))
    (isCode : tail = [0, 0, 1] ∨ tail = [0, 0, 0, 1]) : Delivers file unit (s.h264Bitsream.seekBack tail.length) := by
  obtain ⟨more, split⟩ := at_.initial
  rw [List.append_assoc] at split
  have back : s.h264Bitsream.seekBack tail.length = { file with pos := file.pos + unit.length, eof := false } := by
    rw [at_.file_eq, List.length_append, ← Nat.add_assoc]
    simp [File.seekBack]
  have ahead : (s.h264Bitsream.seekBack tail.length).ahead = tail ++ more := by
    have opened : ({ file with eof := false } : File).ahead = unit ++ (tail ++ more) := split.symm
    rw [back]
    exact File.ahead_forward opened
  refine .inl ⟨rfl, by rw [ahead, split], ?_⟩
  rw [ahead]
  rcases isCode with rfl | rfl
  · exact .inl (List.prefix_append _ _)
  · exact .inr (List.prefix_append _ _)

theorem Search.Seen.start {buf : Buffer} (held : buf.read 0 code.length = code) :
    Search.Seen code file ⟨buf, code.length, false, false, file⟩ [] :=
  ⟨rfl, by rwa [List.append_nil], rfl, List.nil_prefix⟩

theorem readUnit_delivers {nalu : NALUT} {buf : Buffer} (isCode : code = [0, 0, 1] ∨ code = [0, 0, 0, 1])
    (held : buf.read 0 code.length = code) (opened : file.eof = false) {result : Nat} {filled : NALUT} {next : File}
    (read : readUnit nalu buf code.length file = some (result, filled, next)) :
    0 < result ∧ filled.startcodeprefixLen = code.length ∧ Delivers file (filled.buf.take filled.len) next := by
  obtain ⟨s, ran, same⟩ := Option.map_eq_some_iff.mp read
  have start : Search.Seen code file ⟨buf, code.length, false, false, file⟩ [] := .start held
  have last : code.getLast? = some 1 := by rcases isCode with rfl | rfl <;> rfl
  have behind : 3 ≤ code.length := by rcases isCode with rfl | rfl <;> decide
  rcases Search.run_ends behind opened start rfl ran with ⟨ended, no2, no3, pos, content⟩ |
    ⟨seen, at_, nonempty, info, found⟩ | ⟨seen, at_, nonempty, info2, info3, found⟩
  · rw [no2, no3, if_neg (by decide)] at same
    cases same
    refine ⟨by omega, rfl, .inr ⟨ended, ?_⟩⟩
    have behindCode := Buffer.read_drop s.buf 0 s.pos (show code.length ≤ s.pos by omega)
    rw [content, List.append_assoc, List.drop_left, Nat.zero_add] at behindCode
    rw [fill_unit, behindCode]
  · have within : 4 ≤ s.pos := by
      have := List.length_pos_iff.mpr nonempty
      rw [at_.pos]
      omega
    obtain ⟨unit, rfl, pos, content⟩ := at_.unit nonempty last found (by decide) within
    rw [if_pos (.inr info), if_pos info] at same
    cases same
    refine ⟨by omega, rfl, ?_⟩
    rw [fill_unit, content]
    exact at_.rewound (.inr rfl)
  · have within : 3 ≤ s.pos := by
      rw [at_.pos]
      omega
    obtain ⟨unit, rfl, pos, content⟩ := at_.unit nonempty last found (by decide) within
    rw [if_pos (.inl info2), info3, if_neg Bool.false_ne_true] at same
    cases same
    refine ⟨by omega, rfl, ?_⟩
    rw [fill_unit, content]
    exact at_.rewound (.inl rfl)

theorem Delivers.prepend {behind next : File} {unit : List UInt8} (delivered : Delivers behind unit next)
    (split : file.ahead = code ++ behind.ahead) : Delivers file (code ++ unit) next := by
  rcases delivered with ⟨more, rest, again⟩ | ⟨ended, octets⟩
  · exact .inl ⟨more, by rw [split, rest, List.append_assoc], again⟩
  · exact .inr ⟨ended, by rw [split, List.append_assoc, octets]⟩

theorem findStartCode2_code (buf : Buffer) : findStartCode2 (buf.write 0 [0, 0, 1]) 0 = true := by
  simp [findStartCode2, Buffer.write]

theorem findStartCode2_zeros (buf : Buffer) : findStartCode2 (buf.write 0 [0, 0, 0]) 0 = false := by
  simp [findStartCode2, Buffer.write]

theorem findStartCode3_code (buf : Buffer) : findStartCode3 (buf.write 0 [0, 0, 0, 1]) 0 = true := by
  simp [findStartCode3, Buffer.write]

def NALUT.annexB (nalu : NALUT) : List UInt8 :=
  (if nalu.startcodeprefixLen = 4 then [0, 0, 0, 1] else [0, 0, 1]) ++ nalu.buf.take nalu.len

theorem getAnnexbNALU_code (nalu : NALUT) (isCode : StartCode code) {rest : List UInt8}
    (split : file.ahead = code ++ rest) :
    ∃ buf : Buffer, buf.read 0 code.length = code ∧ getAnnexbNALU nalu file =
      (readUnit { nalu with startcodeprefixLen := 3 } buf code.length { file with pos := file.pos + code.length }).map
        fun (pos, nalu, h264Bitsream) => ((pos : Int), nalu, h264Bitsream) := by
  let cleared := (Buffer.untouched fun _ => 0).write 0 (List.replicate nalu.maxSize 0)
  refine ⟨cleared.write 0 code, Buffer.read_write_self _ 0 code, ?_⟩
  rcases isCode with rfl | rfl
  · have fetched := File.fread_all split (show [0, 0, 1].length = 3 from rfl)
    simp only [getAnnexbNALU, fetched, findStartCode2_code, if_true]
    rw [if_neg (by decide)]
    rfl
  · have zeros : file.ahead = [0, 0, 0] ++ 1 :: rest := split
    have fetched := File.fread_all zeros (show [0, 0, 0].length = 3 from rfl)
    have one : ({ file with pos := file.pos + 3 } : File).ahead = [1] ++ rest := File.ahead_forward zeros
    have fetchedOne := File.fread_all one (show [1].length = 1 from rfl)
    have whole (buf : Buffer) : (buf.write 0 [0, 0, 0]).write 3 [1] = buf.write 0 [0, 0, 0, 1] :=
      buf.write_write 0 [0, 0, 0] [1]
    simp only [getAnnexbNALU, fetched, fetchedOne, findStartCode2_zeros, whole, findStartCode3_code, if_true]
    rw [if_neg (by decide), if_neg Bool.false_ne_true, if_neg (by decide)]
    rfl

theorem AtCode.split {octets : List UInt8} (begins : AtCode octets) : ∃ code rest, StartCode code ∧ octets = code ++ rest := by
  rcases begins with ⟨rest, split⟩ | ⟨rest, split⟩
  · exact ⟨_, rest, .inl rfl, split.symm⟩
  · exact ⟨_, rest, .inr rfl, split.symm⟩

theorem getAnnexbNALU_delivers {nalu : NALUT} (opened : file.eof = false) (begins : AtCode file.ahead) {result : Int}
    {filled : NALUT} {next : File} (read : getAnnexbNALU nalu file = some (result, filled, next)) :
    0 < result ∧ Delivers file filled.annexB next := by
  obtain ⟨code, rest, isCode, split⟩ := begins.split
  obtain ⟨buf, held, same⟩ := getAnnexbNALU_code nalu isCode split
  have behind : ({ file with pos := file.pos + code.length } : File).ahead = rest := File.ahead_forward split
  have still : ({ file with pos := file.pos + code.length } : File).eof = false := opened
  rw [same] at read
  obtain ⟨⟨pos, _, _⟩, done, equal⟩ := Option.map_eq_some_iff.mp read
  cases equal
  obtain ⟨positive, prefixLen, delivered⟩ := readUnit_delivers isCode held still done
  have front : (if filled.startcodeprefixLen = 4 then [0, 0, 0, 1] else [0, 0, 1]) = code := by
    rw [prefixLen]
    rcases isCode with rfl | rfl <;> rfl
  refine ⟨Int.natCast_pos.mpr positive, ?_⟩
  rw [NALUT.annexB, front]
  exact delivered.prepend (by rw [behind, split])

/-! ### The whole file -/

def returned (results : List (Int × NALUT)) : List UInt8 :=
  (results.filter fun result => 0 < result.1).flatMap fun result => result.2.annexB

/-- All calls together return the file and an octet 0xFF behind it. -/
theorem readAll_returned (calls : Nat) (nalu : NALUT) (file : File) (opened : file.eof = false)
    (begins : AtCode file.ahead) (results : List (Int × NALUT)) (ran : readAll calls nalu file = some results) :
    returned results = file.ahead ++ [0xFF] := by
  induction calls generalizing nalu file results with
  | zero => cases ran
  | succ calls ih =>
      rw [readAll, if_neg (by rw [opened]; decide)] at ran
      simp only [Option.bind_eq_bind, Option.bind_eq_some_iff] at ran
      obtain ⟨⟨result, filled, next⟩, called, others, later, same⟩ := ran
      cases same
      obtain ⟨positive, delivered⟩ := getAnnexbNALU_delivers opened begins called
      have first : returned ((result, filled) :: others) = filled.annexB ++ returned others := by
        simp [returned, positive]
      rw [first]
      rcases delivered with ⟨more, split, again⟩ | ⟨ended, octets⟩
      · rw [ih filled next more again others later, split, List.append_assoc]
      · cases calls with
        | zero => cases later
        | succ calls =>
            rw [readAll, if_pos ended] at later
            cases later
            rw [octets]
            exact List.append_nil _

set_option maxRecDepth 10000 in
example : (readAll 3 (allocNALU 20) (.fopen [0, 0, 1, 0x67, 0x42, 0, 0, 0, 1, 0x65, 0x88])).map returned =
    some [0, 0, 1, 0x67, 0x42, 0, 0, 0, 1, 0x65, 0x88, 0xFF] := by decide +kernel

theorem annexB_begins (coded : CodedUnit) (rest : List CodedUnit) : AtCode (annexB (coded :: rest)) := by
  rw [annexB, stream_cons, CodedUnit.bytes, List.append_assoc]
  unfold CodedUnit.code
  split
  · exact .inr (List.prefix_append _ _)
  · exact .inl (List.prefix_append _ _)

/-- The units returned until the end of the file make up the file only if there is none. -/
theorem returned_eq_file_iff (coded : List CodedUnit) :
    (∃ calls results, readAll calls (allocNALU bufferSize) (.fopen (annexB coded)) = some results ∧
      returned results = annexB coded) ↔ coded = [] := by
  constructor
  · rintro ⟨calls, results, ran, same⟩
    cases coded with
    | nil => rfl
    | cons first rest =>
        have more := readAll_returned calls _ (.fopen (annexB (first :: rest))) rfl (annexB_begins first rest) results ran
        have length := congrArg List.length (same.symm.trans more)
        rw [List.length_append] at length
        exact absurd length (Nat.ne_of_lt (Nat.lt_succ_self _))
  · rintro rfl
    refine ⟨2, [(0, { allocNALU bufferSize with startcodeprefixLen := 3 })], rfl, rfl⟩

/-- The unit 65 88 comes back as 65 88 FF. -/
theorem returned_adds_octet :
    ¬ ∃ calls results, readAll calls (allocNALU bufferSize) (.fopen (annexB [⟨true, ⟨0x65, [0x88]⟩⟩])) = some results ∧
      returned results = annexB [⟨true, ⟨0x65, [0x88]⟩⟩] := by
  rintro ⟨calls, results, ran, same⟩
  have more := readAll_returned calls _ (.fopen (annexB [⟨true, ⟨0x65, [0x88]⟩⟩])) rfl (annexB_begins _ _) results ran
  rw [same] at more
  exact absurd more (by decide)

end H264Streaming.UdpH264
