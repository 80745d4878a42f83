import H264Streaming.UdpH264.Partition

/-! The search for the next start code, octet by octet: where it goes on, where it stops, and
where the buffer is too short for it. -/

set_option autoImplicit false

namespace H264Streaming.UdpH264

open H264Streaming.Bytes H264Streaming.Format H264Streaming.Semantics

variable {code : List UInt8} {file : File} {maxSize : Nat}

theorem findStartCode2_of_read {buf : Buffer} {p : Nat} (held : buf.read p 3 = [0, 0, 1]) :
    findStartCode2 buf p = true := by
  simp only [Buffer.read_succ, Buffer.read_zero, List.cons.injEq, and_true] at held
  obtain ⟨first, second, third⟩ := held
  simp [findStartCode2, first, second, third]

theorem findStartCode3_of_read {buf : Buffer} {p : Nat} (held : buf.read p 4 = [0, 0, 0, 1]) :
    findStartCode3 buf p = true := by
  simp only [Buffer.read_succ, Buffer.read_zero, List.cons.injEq, and_true] at held
  obtain ⟨first, second, third, fourth⟩ := held
  simp [findStartCode3, first, second, third, fourth]

section
variable {s : Search} {seen : List UInt8}

theorem Search.Seen.finds2 (at_ : s.Seen code file seen) (isCode : StartCode code) (nonempty : seen ≠ [])
    (found : findStartCode2 s.buf (s.pos - 3) = true) : ∃ unit, seen = unit ++ [0, 0, 1] := by
  obtain ⟨behind, last, -, -⟩ := isCode.facts
  have within : 3 ≤ s.pos := by
    rw [at_.pos]
    omega
  obtain ⟨unit, same, -, -⟩ := at_.unit nonempty last (findStartCode2_read found) (by decide) within
  exact ⟨unit, same⟩

theorem Search.Seen.finds3 (at_ : s.Seen code file seen) (isCode : StartCode code) (nonempty : seen ≠ [])
    (found : findStartCode3 s.buf (s.pos - 4) = true) : ∃ unit, seen = unit ++ [0, 0, 0, 1] := by
  obtain ⟨behind, last, -, -⟩ := isCode.facts
  have within : 4 ≤ s.pos := by
    have := List.length_pos_iff.mpr nonempty
    rw [at_.pos]
    omega
  obtain ⟨unit, same, -, -⟩ := at_.unit nonempty last (findStartCode3_read found) (by decide) within
  exact ⟨unit, same⟩

theorem Search.Seen.tail {unit tail : List UInt8} (at_ : s.Seen code file (unit ++ tail)) :
    s.buf.read (s.pos - tail.length) tail.length = tail := by
  have pos := at_.pos
  rw [List.length_append] at pos
  have behind := Buffer.read_drop s.buf 0 s.pos (show s.pos - tail.length ≤ s.pos by omega)
  have length : (code ++ unit).length = s.pos - tail.length := by
    rw [List.length_append]
    omega
  rw [at_.read, ← List.append_assoc, ← length, List.drop_left, length, Nat.zero_add,
    show s.pos - (s.pos - tail.length) = tail.length by omega] at behind
  exact behind.symm

theorem Search.Seen.turn (at_ : s.Seen code file seen) (opened : file.eof = false) :
    (s.pos < maxSize ∧ ∃ t, s.next maxSize = some t ∧ s.run maxSize = if t.info2 ∨ t.info3 then some t else t.run maxSize) ∨
      maxSize ≤ s.pos ∧ s.run maxSize = none := by
  have reading : ¬ s.h264Bitsream.eof = true := by
    rw [at_.file_eq, opened]
    exact Bool.false_ne_true
  by_cases room : s.pos < maxSize
  · have read : ∃ t, s.next maxSize = some t := ⟨_, if_pos room⟩
    obtain ⟨t, read⟩ := read
    exact .inl ⟨room, t, read, Search.run_next reading read⟩
  · exact .inr ⟨Nat.le_of_not_lt room, Search.run_failed reading (if_neg room)⟩

theorem Search.Seen.passes (at_ : s.Seen code file seen) (isCode : StartCode code)
    {octet : UInt8} {rest : List UInt8} (split : file.ahead = seen ++ octet :: rest)
    (opened : file.eof = false) (none : ¬ [0, 0, 1] <:+ seen ++ [octet]) :
    (s.pos < maxSize ∧ ∃ t : Search, s.run maxSize = t.run maxSize ∧ t.Seen code file (seen ++ [octet]) ∧ t.info2 = false) ∨
      maxSize ≤ s.pos ∧ s.run maxSize = Option.none := by
  rcases at_.turn opened with ⟨room, t, read, ran⟩ | full
  · obtain ⟨next, third, second⟩ := at_.next split read
    have nonempty : seen ++ [octet] ≠ [] := by simp
    have no3 : t.info3 = false := by
      by_contra found
      rw [third, Bool.not_eq_false] at found
      obtain ⟨unit, same⟩ := next.finds3 isCode nonempty found
      exact none ⟨unit ++ [0], by rw [same, List.append_assoc]; rfl⟩
    have no2 : t.info2 = false := by
      by_contra found
      rw [second, no3, if_neg Bool.false_ne_true, Bool.not_eq_false] at found
      obtain ⟨unit, same⟩ := next.finds2 isCode nonempty found
      exact none ⟨unit, same.symm⟩
    refine .inl ⟨room, t, ?_, next, no2⟩
    rw [ran, no2, no3, if_neg (by decide)]
  · exact .inr full

/-- Octets without a start code are read one after another, as far as the buffer reaches. -/
theorem Search.Seen.through (at_ : s.Seen code file seen) (isCode : StartCode code) (quiet : s.info2 = false)
    (opened : file.eof = false) (octets : List UInt8) {rest : List UInt8} (split : file.ahead = seen ++ octets ++ rest)
    (none : ¬ [0, 0, 1] <:+: seen ++ octets) :
    (code.length + (seen ++ octets).length ≤ maxSize ∨ octets = []) ∧
        (∃ t : Search, s.run maxSize = t.run maxSize ∧ t.Seen code file (seen ++ octets) ∧ t.info2 = false) ∨
      maxSize < code.length + (seen ++ octets).length ∧ s.run maxSize = Option.none := by
  induction octets generalizing s seen with
  | nil => exact .inl ⟨.inr rfl, s, rfl, by rwa [List.append_nil], quiet⟩
  | cons octet later ih =>
      have regrouped : seen ++ octet :: later = seen ++ [octet] ++ later := by simp
      rw [regrouped] at split none ⊢
      have front : seen ++ [octet] <:+: seen ++ [octet] ++ later := (List.prefix_append _ later).isInfix
      have here : file.ahead = seen ++ octet :: (later ++ rest) := by rw [split]; simp
      have length : (seen ++ [octet]).length = seen.length + 1 := by rw [List.length_append, List.length_singleton]
      have total : (seen ++ [octet] ++ later).length = seen.length + 1 + later.length := by
        rw [List.length_append, length]
      rcases at_.passes isCode here opened (fun ends => none (ends.isInfix.trans front)) with
        ⟨room, t, same, next, quietNext⟩ | ⟨full, failed⟩
      · rcases ih next quietNext split none with ⟨fits, u, goes, last⟩ | ⟨full, failed⟩
        · refine .inl ⟨.inl ?_, u, same.trans goes, last⟩
          rcases fits with fits | rfl
          · exact fits
          · rw [total, List.length_nil, Nat.add_zero, ← Nat.add_assoc, ← at_.pos]
            exact room
        · exact .inr ⟨full, same.trans failed⟩
      · refine .inr ⟨?_, failed⟩
        rw [at_.pos] at full
        omega

theorem Search.Seen.stops {unit next rest : List UInt8} (at_ : s.Seen code file (unit ++ next.dropLast))
    (isCode : StartCode code) (cut : Cut file.ahead unit next rest) (opened : file.eof = false) :
    (s.pos < maxSize ∧ ∃ t : Search, s.run maxSize = some t ∧ t.Seen code file (unit ++ next) ∧
        t.info3 = decide (next.length = 4) ∧ (t.info2 = true ∨ t.info3 = true)) ∨
      maxSize ≤ s.pos ∧ s.run maxSize = none := by
  obtain ⟨split, isNext, -, apart⟩ := cut
  have whole : unit ++ next.dropLast ++ [1] = unit ++ next := by rw [List.append_assoc, ← isNext.split.1]
  have here : file.ahead = unit ++ next.dropLast ++ 1 :: rest := by
    rw [split, ← whole, List.append_assoc _ [1]]
    rfl
  rcases at_.turn opened with ⟨room, t, read, ran⟩ | full
  · obtain ⟨seen', third, second⟩ := at_.next here read
    rw [whole] at seen'
    have behind := seen'.tail
    have found : t.info3 = decide (next.length = 4) ∧ (t.info2 = true ∨ t.info3 = true) := by
      rcases isNext with rfl | rfl
      · -- the octet in front of it is no zero
        have no3 : t.info3 = false := by
          by_contra long
          rw [third, Bool.not_eq_false] at long
          obtain ⟨front, same⟩ := seen'.finds3 isCode (by simp) long
          have ends : unit ++ [0, 0, 1] = front ++ [0] ++ [0, 0, 1] := by rw [same, List.append_assoc]; rfl
          exact apart rfl (by rw [List.append_cancel_right ends, List.getLast?_concat])
        rw [no3, if_neg Bool.false_ne_true] at second
        exact ⟨no3, .inl (second.trans (findStartCode2_of_read behind))⟩
      · have long := third.trans (findStartCode3_of_read behind)
        exact ⟨long, .inr long⟩
    refine .inl ⟨room, t, ?_, seen', found⟩
    rw [ran, if_pos found.2]
  · exact .inr full

/-- At the end of the file one more octet is stored. -/
theorem Search.Seen.ends (at_ : s.Seen code file file.ahead) (isCode : StartCode code) (opened : file.eof = false) :
    (s.pos < maxSize ∧ ∃ t : Search, s.run maxSize = some t ∧ t.h264Bitsream.eof = true ∧ t.info2 = false ∧
        t.info3 = false ∧ t.pos = code.length + file.ahead.length + 1) ∨
      maxSize ≤ s.pos ∧ s.run maxSize = none := by
  rcases at_.turn opened with ⟨room, t, read, ran⟩ | full
  · obtain ⟨ended, no2, no3, pos, -⟩ := Search.Seen.finish at_ isCode.facts.1 read
    refine .inl ⟨room, t, ?_, ended, no2, no3, pos⟩
    rw [ran, no2, no3, if_neg (by decide), Search.run_eof ended]
  · exact .inr full

theorem Search.Seen.cut {unit next rest : List UInt8} (at_ : s.Seen code file []) (isCode : StartCode code)
    (cut : Cut file.ahead unit next rest) (quiet : s.info2 = false) (opened : file.eof = false) :
    (code.length + unit.length + next.length ≤ maxSize ∧ ∃ t : Search, s.run maxSize = some t ∧
        t.Seen code file (unit ++ next) ∧ t.info3 = decide (next.length = 4) ∧ (t.info2 = true ∨ t.info3 = true)) ∨
      maxSize < code.length + unit.length + next.length ∧ s.run maxSize = Option.none := by
  have split := cut.split
  have isNext := cut.isCode
  have zeros : ¬ [0, 0, 1] <:+: [] ++ (unit ++ next.dropLast) := by
    rw [List.nil_append]
    exact code_zeros cut.none isNext.split.2
  have whole : unit ++ next.dropLast ++ [1] = unit ++ next := by rw [List.append_assoc, ← isNext.split.1]
  have behind : file.ahead = [] ++ (unit ++ next.dropLast) ++ ([1] ++ rest) := by
    rw [split, List.nil_append, ← whole, List.append_assoc _ [1]]
  have length : (unit ++ next.dropLast).length + 1 = unit.length + next.length := by
    have joined := congrArg List.length whole
    simp only [List.length_append, List.length_singleton] at joined ⊢
    exact joined
  rcases at_.through isCode quiet opened _ behind zeros with ⟨-, middle, goes, reached, -⟩ | ⟨full, failed⟩
  · rw [List.nil_append] at reached
    have pos := reached.pos
    rcases reached.stops isCode cut opened with ⟨room, t, ran, found⟩ | ⟨full, failed⟩
    · exact .inl ⟨by omega, t, goes.trans ran, found⟩
    · exact .inr ⟨by omega, goes.trans failed⟩
  · rw [List.nil_append] at full
    exact .inr ⟨by omega, failed⟩

theorem Search.Seen.exhaust (at_ : s.Seen code file []) (isCode : StartCode code) (quiet : s.info2 = false)
    (opened : file.eof = false) (none : ¬ [0, 0, 1] <:+: file.ahead) :
    (code.length + file.ahead.length < maxSize ∧ ∃ t : Search, s.run maxSize = some t ∧ t.h264Bitsream.eof = true ∧
        t.info2 = false ∧ t.info3 = false ∧ t.pos = code.length + file.ahead.length + 1) ∨
      maxSize ≤ code.length + file.ahead.length ∧ s.run maxSize = Option.none := by
  have behind : file.ahead = [] ++ file.ahead ++ [] := by rw [List.append_nil, List.nil_append]
  rcases at_.through isCode quiet opened file.ahead behind none with ⟨-, middle, goes, reached, -⟩ | ⟨full, failed⟩
  · rw [List.nil_append] at reached
    have pos := reached.pos
    rcases reached.ends isCode opened with ⟨room, t, ran, ended⟩ | ⟨full, failed⟩
    · exact .inl ⟨by omega, t, goes.trans ran, ended⟩
    · exact .inr ⟨by omega, goes.trans failed⟩
  · rw [List.nil_append] at full
    exact .inr ⟨by omega, failed⟩

end

/-! ### One call -/

section
variable (nalu : NALUT) {buf : Buffer}

theorem readUnit_more {unit next rest : List UInt8} (isCode : StartCode code) (held : buf.read 0 code.length = code)
    (opened : file.eof = false) (cut : Cut file.ahead unit next rest) :
    (code.length + unit.length + next.length ≤ nalu.maxSize ∧ ∃ filled after,
        readUnit nalu buf code.length file = some (code.length + unit.length, filled, after) ∧
          filled.len = unit.length ∧ filled.maxSize = nalu.maxSize ∧ after.eof = false ∧ after.ahead = next ++ rest) ∨
      nalu.maxSize < code.length + unit.length + next.length ∧ readUnit nalu buf code.length file = Option.none := by
  have start : Search.Seen code file ⟨buf, code.length, false, false, file⟩ [] := .start held
  have isNext := cut.isCode
  rcases start.cut isCode cut rfl opened with ⟨fits, t, ran, seen, info3, found⟩ | ⟨full, failed⟩
  · have pos : t.pos = code.length + (unit.length + next.length) := by rw [seen.pos, List.length_append]
    have rewind : (if t.info3 = true then 4 else 3) = next.length := by
      rw [info3]
      rcases isNext with rfl | rfl <;> rfl
    have back : t.pos - next.length = code.length + unit.length := by omega
    have after : (t.h264Bitsream.seekBack next.length).eof = false ∧
        (t.h264Bitsream.seekBack next.length).ahead = next ++ rest := by
      rcases seen.rewound isNext with ⟨opened, rest_eq, -⟩ | ⟨ended, -⟩
      · rw [cut.split, List.append_assoc] at rest_eq
        exact ⟨opened, (List.append_cancel_left rest_eq).symm⟩
      · cases ended
    refine .inl ⟨fits, { nalu with startcodeprefixLen := code.length }.fill t.buf unit.length, _, ?_, rfl, rfl, after⟩
    simp only [readUnit]
    rw [ran, Option.map_some, if_pos found, rewind, back, Nat.add_sub_cancel_left]
  · refine .inr ⟨full, ?_⟩
    simp only [readUnit]
    rw [failed]
    rfl

/-- The last unit, and the octet that EOF leaves behind it. -/
theorem readUnit_final (isCode : StartCode code) (held : buf.read 0 code.length = code) (opened : file.eof = false)
    (none : ¬ [0, 0, 1] <:+: file.ahead) :
    (code.length + file.ahead.length < nalu.maxSize ∧ ∃ filled after,
        readUnit nalu buf code.length file = some (code.length + file.ahead.length + 1, filled, after) ∧
          filled.len = file.ahead.length + 1 ∧ filled.maxSize = nalu.maxSize ∧ after.eof = true) ∨
      nalu.maxSize ≤ code.length + file.ahead.length ∧ readUnit nalu buf code.length file = Option.none := by
  have start : Search.Seen code file ⟨buf, code.length, false, false, file⟩ [] := .start held
  rcases start.exhaust isCode rfl opened none with ⟨fits, t, ran, ended, no2, no3, pos⟩ | ⟨full, failed⟩
  · have len : t.pos - code.length = file.ahead.length + 1 := by omega
    refine .inl ⟨fits, { nalu with startcodeprefixLen := code.length }.fill t.buf (file.ahead.length + 1), _, ?_, rfl,
      rfl, ended⟩
    simp only [readUnit]
    rw [ran, Option.map_some, no2, no3, if_neg (by decide), len, pos]
  · refine .inr ⟨full, ?_⟩
    simp only [readUnit]
    rw [failed]
    rfl

theorem getAnnexbNALU_fails (none : ¬ AtCode file.ahead) :
    ∃ result filled after, getAnnexbNALU nalu file = some (result, filled, after) ∧ result ≤ 0 := by
  unfold getAnnexbNALU
  dsimp only
  split
  · exact ⟨_, _, _, rfl, Int.le_refl 0⟩
  · next three =>
    have first : (file.fread 3).1.length = 3 := not_not.mp three
    obtain ⟨rest, split⟩ : (file.fread 3).1 <+: file.ahead := List.take_prefix _ _
    have behind : (file.fread 3).2.ahead = rest := File.ahead_forward split.symm
    generalize (Buffer.untouched fun _ => 0).write 0 (List.replicate nalu.maxSize 0) = cleared
    have stored := cleared.read_write_self 0 (file.fread 3).1
    rw [first] at stored
    split
    · next found =>
      have octets := stored.symm.trans (findStartCode2_read found)
      exact absurd (.inl ⟨rest, by rw [← octets, split]⟩) none
    · split
      · exact ⟨_, _, _, rfl, Int.le_refl 0⟩
      · next four =>
        have fourth : ((file.fread 3).2.fread 1).1.length = 1 := not_not.mp four
        obtain ⟨more, splitMore⟩ : ((file.fread 3).2.fread 1).1 <+: rest := behind ▸ List.take_prefix _ _
        have joined := cleared.write_write 0 (file.fread 3).1 ((file.fread 3).2.fread 1).1
        rw [first] at joined
        split
        · next found =>
          have whole := cleared.read_write_self 0 ((file.fread 3).1 ++ ((file.fread 3).2.fread 1).1)
          rw [List.length_append, first, fourth, ← joined] at whole
          have octets := whole.symm.trans (findStartCode3_read found)
          exact absurd (.inr ⟨more, by rw [← octets, List.append_assoc, splitMore, split]⟩) none
        · exact ⟨_, _, _, rfl, by decide⟩

theorem getAnnexbNALU_more {octets unit next rest : List UInt8} (isCode : StartCode code)
    (opened : file.eof = false) (split : file.ahead = code ++ octets) (cut : Cut octets unit next rest) :
    (code.length + unit.length + next.length ≤ nalu.maxSize ∧ ∃ result filled after,
        getAnnexbNALU nalu file = some (result, filled, after) ∧ 0 < result ∧ filled.len = unit.length ∧
          filled.maxSize = nalu.maxSize ∧ after.eof = false ∧ after.ahead = next ++ rest) ∨
      nalu.maxSize < code.length + unit.length + next.length ∧ getAnnexbNALU nalu file = none := by
  obtain ⟨buf, held, same⟩ := getAnnexbNALU_code nalu isCode split
  have behind : ({ file with pos := file.pos + code.length } : File).ahead = octets := File.ahead_forward split
  have still : ({ file with pos := file.pos + code.length } : File).eof = false := opened
  have positive := isCode.facts.1
  rw [same]
  rcases readUnit_more { nalu with startcodeprefixLen := 3 } isCode held still (behind ▸ cut) with
    ⟨fits, filled, after, ran, len, size, rewound⟩ | ⟨full, failed⟩
  · refine .inl ⟨fits, _, filled, after, by rw [ran]; rfl, by omega, len, size, rewound⟩
  · exact .inr ⟨full, by rw [failed]; rfl⟩

theorem getAnnexbNALU_final {unit : List UInt8} (isCode : StartCode code) (opened : file.eof = false)
    (split : file.ahead = code ++ unit) (none : ¬ [0, 0, 1] <:+: unit) :
    (code.length + unit.length < nalu.maxSize ∧ ∃ result filled after,
        getAnnexbNALU nalu file = some (result, filled, after) ∧ 0 < result ∧ filled.len = unit.length + 1 ∧
          filled.maxSize = nalu.maxSize ∧ after.eof = true) ∨
      nalu.maxSize ≤ code.length + unit.length ∧ getAnnexbNALU nalu file = Option.none := by
  obtain ⟨buf, held, same⟩ := getAnnexbNALU_code nalu isCode split
  have behind : ({ file with pos := file.pos + code.length } : File).ahead = unit := File.ahead_forward split
  have still : ({ file with pos := file.pos + code.length } : File).eof = false := opened
  rw [same]
  have read := readUnit_final { nalu with startcodeprefixLen := 3 } isCode held still (by rwa [behind])
  rw [behind] at read
  rcases read with ⟨fits, filled, after, ran, len, size, ended⟩ | ⟨full, failed⟩
  · refine .inl ⟨fits, _, filled, after, by rw [ran]; rfl, by omega, len, size, ended⟩
  · exact .inr ⟨full, by rw [failed]; rfl⟩

end

end H264Streaming.UdpH264
