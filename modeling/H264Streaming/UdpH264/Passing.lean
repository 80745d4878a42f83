import H264Streaming.UdpH264.RoundTrip
import H264Streaming.UdpH264.Sending

/-! One pass of the server over its file (Server.c, main): the datagrams are those of the units in it,
of which the last has an octet 0xFF behind it. -/

set_option autoImplicit false

namespace H264Streaming.UdpH264

open H264Streaming.Bytes H264Streaming.Format H264Streaming.Semantics

/-! ### What a call leaves in nFrame -/

/-- The unit is in the buffer, with whatever is left of longer ones behind it. -/
structure NALUT.Holds (nFrame : NALUT) (unit : NalUnit) : Prop where
  len : nFrame.len = unit.bytes.length
  octets : nFrame.buf.take nFrame.len = unit.bytes
  forbiddenBit : nFrame.forbiddenBit = unit.header &&& 0x80
  nalReferenceIdc : nFrame.nalReferenceIdc = unit.header &&& 0x60
  nalUnitType : nFrame.nalUnitType = unit.header &&& 0x1f

variable {nFrame filled : NALUT} {file after : File} {result : Int} {code : List UInt8}

theorem Search.next_content {maxSize : Nat} {s t : Search} (read : s.next maxSize = some t) :
    t.h264Bitsream.content = s.h264Bitsream.content := by
  unfold Search.next at read
  split at read
  · cases read
    exact s.h264Bitsream.fgetc_content
  · cases read

theorem Search.run_content {maxSize : Nat} {s t : Search} (ran : s.run maxSize = some t) :
    t.h264Bitsream.content = s.h264Bitsream.content := by
  fun_induction Search.run maxSize s with
  | case1 s ended =>
      cases ran
      rfl
  | case2 => cases ran
  | case3 s reading next read found =>
      cases ran
      exact Search.next_content read
  | case4 s reading next read found ih => exact (ih ran).trans (Search.next_content read)

theorem readUnit_leaves {buf : Buffer} {size pos : Nat} (read : readUnit nFrame buf size file = some (pos, filled, after)) :
    filled.forbiddenBit = filled.buf.headD 0 &&& 0x80 ∧ filled.nalReferenceIdc = filled.buf.headD 0 &&& 0x60 ∧
      filled.nalUnitType = filled.buf.headD 0 &&& 0x1f ∧ after.content = file.content := by
  obtain ⟨s, ran, same⟩ := Option.map_eq_some_iff.mp read
  have kept := Search.run_content ran
  split at same
  · cases same
    exact ⟨rfl, rfl, rfl, kept⟩
  · cases same
    exact ⟨rfl, rfl, rfl, kept⟩

theorem holds_of_read (isCode : StartCode code) (opened : file.eof = false) {rest : List UInt8}
    (split : file.ahead = code ++ rest) (read : getAnnexbNALU nFrame file = some (result, filled, after))
    {unit : NalUnit} (len : filled.len = unit.bytes.length)
    (delivered : after.eof = false ∧ rest = unit.bytes ++ after.ahead ∨ after.eof = true ∧ rest ++ [0xFF] = unit.bytes) :
    filled.Holds unit ∧ after.content = file.content := by
  have begins : AtCode file.ahead := by
    rw [split]
    rcases isCode with rfl | rfl
    · exact .inl (List.prefix_append _ _)
    · exact .inr (List.prefix_append _ _)
  have own : StartCode (if filled.startcodeprefixLen = 4 then [0, 0, 0, 1] else [0, 0, 1]) := by
    split
    · exact .inr rfl
    · exact .inl rfl
  have octets : filled.buf.take filled.len = unit.bytes := by
    obtain ⟨-, ⟨more, whole, -⟩ | ⟨ended, whole⟩⟩ := getAnnexbNALU_delivers opened begins read
    · obtain ⟨-, same⟩ | ⟨ended, -⟩ := delivered
      · rw [split, NALUT.annexB, List.append_assoc, same] at whole
        exact (List.append_cancel_right (isCode.unique own whole).2).symm
      · rw [more] at ended
        cases ended
    · obtain ⟨more, -⟩ | ⟨-, same⟩ := delivered
      · rw [more] at ended
        cases ended
      · rw [split, NALUT.annexB, List.append_assoc, same] at whole
        exact (isCode.unique own whole).2.symm
  have head : filled.buf.headD 0 = unit.header := by
    rw [len, NalUnit.length_bytes] at octets
    cases stored : filled.buf with
    | nil =>
        rw [stored] at octets
        cases octets
    | cons first others =>
        rw [stored, List.take_succ_cons] at octets
        exact (List.cons.inj octets).1
  obtain ⟨buf, -, same⟩ := getAnnexbNALU_code nFrame isCode split
  rw [same] at read
  obtain ⟨⟨pos, _, _⟩, done, equal⟩ := Option.map_eq_some_iff.mp read
  cases equal
  obtain ⟨forbiddenBit, nalReferenceIdc, nalUnitType, content⟩ := readUnit_leaves done
  rw [head] at forbiddenBit nalReferenceIdc nalUnitType
  exact ⟨⟨len, octets, forbiddenBit, nalReferenceIdc, nalUnitType⟩, content⟩

/-! ### What is sent for it -/

theorem take_within {buf octets : List UInt8} {len start count : Nat} (held : buf.take len = octets)
    (within : start + count ≤ len) : (buf.drop start).take count = (octets.drop start).take count := by
  rw [← held, List.drop_take, List.take_take, Nat.min_eq_left (by omega)]

theorem packetize_stale {len : Nat} {forbiddenBit nalReferenceIdc nalUnitType : UInt8} {buf octets : List UInt8}
    (held : buf.take len = octets) (nonempty : 1 ≤ len) (s : Server) :
    packetize ⟨len, forbiddenBit, nalReferenceIdc, nalUnitType, buf⟩ s =
      packetize ⟨len, forbiddenBit, nalReferenceIdc, nalUnitType, octets⟩ s := by
  unfold packetize
  dsimp only
  split
  · have copied := take_within held (show 1 + (len - 1) ≤ len by omega)
    simp only [sendSingle, fillNaluHdr, copied]
  · next large =>
    obtain ⟨several, -, sized, -⟩ := packetNum_bounds large
    have front (t : Server) : sendFirst t ⟨len, forbiddenBit, nalReferenceIdc, nalUnitType, buf⟩ =
        sendFirst t ⟨len, forbiddenBit, nalReferenceIdc, nalUnitType, octets⟩ := by
      have copied := take_within held (show 1 + (udpMaxSize - 1) ≤ len by
        simp only [udpMaxSize] at large ⊢
        omega)
      simp only [sendFirst, fillFuHdr, copied]
    have middle : run (sendMiddle ⟨len, forbiddenBit, nalReferenceIdc, nalUnitType, buf⟩)
          (List.range' 2 (packetNum len - 2)) =
        run (sendMiddle ⟨len, forbiddenBit, nalReferenceIdc, nalUnitType, octets⟩)
          (List.range' 2 (packetNum len - 2)) := by
      funext t
      refine run_congr (fun k member t _ => ?_) fun _ _ => trivial
      have inside := List.mem_range'_1.mp member
      have before : (k - 1) * udpMaxSize + udpMaxSize ≤ udpMaxSize * (packetNum len - 1) := by
        rw [← Nat.succ_mul, Nat.mul_comm udpMaxSize]
        exact Nat.mul_le_mul_right _ (by omega)
      have copied := take_within held (show (k - 1) * udpMaxSize + udpMaxSize ≤ len by omega)
      simp only [sendMiddle, fillNaluHdr, fillFuHdr, copied]
    have final (t : Server) :
        sendLast t ⟨len, forbiddenBit, nalReferenceIdc, nalUnitType, buf⟩ (packetNum len) (lastPackSize len) =
          sendLast t ⟨len, forbiddenBit, nalReferenceIdc, nalUnitType, octets⟩ (packetNum len) (lastPackSize len) := by
      rw [Nat.mul_comm] at sized
      have copied := take_within held (Nat.le_of_eq sized)
      simp only [sendLast, fillNaluHdr, fillFuHdr, copied]
    simp only [sendFragments, front, middle, final]

theorem NALUT.Holds.packetize {unit : NalUnit} (holds : nFrame.Holds unit) (s : Server) :
    UdpH264.packetize nFrame.toNALU s = UdpH264.packetize (NALU.of unit.bytes) s := by
  obtain ⟨⟨len, forbiddenBit, nalReferenceIdc, nalUnitType, buf⟩, startcodeprefixLen, maxSize⟩ := nFrame
  obtain ⟨rfl, octets, rfl, rfl, rfl⟩ := holds
  exact packetize_stale octets (Nat.succ_pos _) s

/-! ### A pass -/

/-- What main keeps: nFrame, the locals that a turn changes, the file, and what the calls of scanf from now on
read, none where it is no number. -/
structure Main where
  nFrame : NALUT
  server : Server
  h264Bitsream : File
  typed : List (Option Int)

/-- `while (!feof(h264Bitsream))`, with so many turns at most. It fails where `sendLoop` does. -/
def sendFile : Nat → Main → Option (Traced Main (List UInt8))
  | 0, _ => none
  | turns + 1, m =>
      if m.h264Bitsream.eof then some (.quiet m)
      else do
        let (_, nFrame, h264Bitsream) ← getAnnexbNALU m.nFrame m.h264Bitsream
        if nFrame.len ≤ udpMaxSize ∧ sendBufSize < 13 + copyLength nFrame.len then none
        else do
          let sent := packetize nFrame.toNALU m.server
          let rest ← sendFile turns { m with nFrame, server := sent.state, h264Bitsream }
          return ⟨rest.state, sent.events ++ rest.events⟩

def extended (unit : NalUnit) : NalUnit := ⟨unit.header, unit.body ++ [0xFF]⟩

def sentUnits : List CodedUnit → List NalUnit
  | [] => []
  | [coded] => [extended coded.unit]
  | coded :: rest => coded.unit :: sentUnits rest

structure Main.At (m : Main) (octets : List UInt8) : Prop where
  size : m.nFrame.maxSize = bufferSize
  opened : m.h264Bitsream.eof = false
  ahead : m.h264Bitsream.ahead = octets

structure Main.Passed (m after : Main) (server : Server) : Prop where
  server : after.server = server
  size : after.nFrame.maxSize = bufferSize
  content : after.h264Bitsream.content = m.h264Bitsream.content
  typed : after.typed = m.typed

def Main.turned (m : Main) (nFrame : NALUT) (unit : NalUnit) (h264Bitsream : File) : Main :=
  { m with nFrame, server := (packetize (NALU.of unit.bytes) m.server).state, h264Bitsream }

theorem sendFile_turn {turns : Nat} {m : Main} (opened : m.h264Bitsream.eof = false)
    (read : getAnnexbNALU m.nFrame m.h264Bitsream = some (result, filled, after)) {unit : NalUnit}
    (holds : filled.Holds unit) :
    sendFile (turns + 1) m =
      (sendFile turns (m.turned filled unit after)).map fun rest =>
        ⟨rest.state, (packetize (NALU.of unit.bytes) m.server).events ++ rest.events⟩ := by
  have nonempty : 1 ≤ filled.len := by
    rw [holds.len]
    exact Nat.succ_pos _
  have copies : ¬ (filled.len ≤ udpMaxSize ∧ sendBufSize < 13 + copyLength filled.len) :=
    fun both => copyLength_le nonempty both.1 both.2
  rw [sendFile, if_neg (by rw [opened]; decide), read]
  simp only [Option.bind_eq_bind, Option.bind_some, if_neg copies, holds.packetize]
  rw [Main.turned]
  cases sendFile turns _ <;> rfl

theorem sendFile_done {turns : Nat} {m : Main} (ended : m.h264Bitsream.eof = true) :
    sendFile (turns + 1) m = some (.quiet m) := by
  rw [sendFile, if_pos ended]

/-- One pass sends the units of the file, the last one extended. -/
theorem sendFile_annexB {coded : CodedUnit} {rest : List CodedUnit}
    (escaped : ∀ unit ∈ coded :: rest, Escaped unit.unit.bytes)
    (room : ∀ unit ∈ coded :: rest, unit.unit.bytes.length + 8 ≤ bufferSize) {turns : Nat}
    (enough : rest.length + 2 ≤ turns) {m : Main} (start : m.At (annexB (coded :: rest))) :
    ∃ after, sendFile turns m = some ⟨after, (sendAll (sentUnits (coded :: rest)) m.server).events⟩ ∧
      m.Passed after (sendAll (sentUnits (coded :: rest)) m.server).state := by
  have width (unit : CodedUnit) : unit.code.length ≤ 4 := by
    unfold CodedUnit.code
    split <;> decide
  induction rest generalizing coded turns m with
  | nil =>
      obtain ⟨size, opened, ahead⟩ := start
      have here := escaped coded List.mem_cons_self
      have bound := room coded List.mem_cons_self
      have ahead : m.h264Bitsream.ahead = coded.code ++ coded.unit.bytes := by
        rw [ahead, annexB_cons, annexB, stream_nil, List.append_nil]
      rcases getAnnexbNALU_final m.nFrame coded.isCode opened ahead here.noCode with
        ⟨-, result, filled, after, read, -, len, kept, ended⟩ | ⟨full, -⟩
      · obtain ⟨holds, content⟩ := holds_of_read coded.isCode opened ahead read
          (show filled.len = (extended coded.unit).bytes.length by rw [len, extended]; simp) (.inr ⟨ended, rfl⟩)
        obtain ⟨more, rfl⟩ := Nat.exists_eq_add_of_le' enough
        have ended : (m.turned filled (extended coded.unit) after).h264Bitsream.eof = true := ended
        refine ⟨m.turned filled (extended coded.unit) after, ?_, rfl, kept.trans size, content, rfl⟩
        show sendFile (more + 1 + 1) m = _
        rw [sendFile_turn opened read holds, sendFile_done ended]
        rfl
      · have := width coded
        omega
  | cons next later ih =>
      obtain ⟨size, opened, ahead⟩ := start
      have here := escaped coded List.mem_cons_self
      have bound := room coded List.mem_cons_self
      rw [annexB_cons] at ahead
      have cut : Cut (coded.unit.bytes ++ annexB (next :: later)) coded.unit.bytes next.code
          (next.unit.bytes ++ annexB later) :=
        ⟨by rw [annexB_cons, List.append_assoc], next.isCode, here.noCode, fun _ => here.last⟩
      rcases getAnnexbNALU_more m.nFrame coded.isCode opened ahead cut with
        ⟨-, result, filled, after, read, -, len, kept, reopened, left⟩ | ⟨full, -⟩
      · obtain ⟨holds, content⟩ := holds_of_read coded.isCode opened ahead read len
          (.inl ⟨reopened, by rw [left, annexB_cons]⟩)
        obtain ⟨more, rfl⟩ := Nat.exists_eq_add_of_le' enough
        have behind : (m.turned filled coded.unit after).At (annexB (next :: later)) :=
          ⟨kept.trans size, reopened, left.trans (annexB_cons next later).symm⟩
        obtain ⟨final, sent, passed⟩ := ih (fun unit member => escaped unit (List.mem_cons_of_mem coded member))
          (fun unit member => room unit (List.mem_cons_of_mem coded member)) (Nat.le_add_left (later.length + 2) more) behind
        refine ⟨final, ?_, passed.server, passed.size, passed.content.trans content, passed.typed⟩
        have shift : more + ((next :: later).length + 2) = more + (later.length + 2) + 1 := by
          rw [List.length_cons]
          omega
        rw [shift, sendFile_turn opened read holds, sent]
        rfl
      · have := width coded
        have := width next
        omega

end H264Streaming.UdpH264
