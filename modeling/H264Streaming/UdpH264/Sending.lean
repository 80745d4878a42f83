import H264Streaming.UdpH264.Searching

/-! The send loop (Server.c, main): what each iteration packetizes.

The loop does not look at what GetAnnexbNALU returns. -/

set_option autoImplicit false

namespace H264Streaming.UdpH264

open H264Streaming.Bytes H264Streaming.Format H264Streaming.Semantics

def copyLength (len : Nat) : Nat := (len + 4294967295) % 4294967296

/-- One turn of the loop: what the call returned, the unit it left in nFrame, the datagrams sent. -/
structure Iteration where
  result : Int
  nFrame : NALUT
  sent : List (List UInt8)

/-- `while (!feof(h264Bitsream))` with so many turns at most. It fails where the file overruns the
buffer and where the copy of a short unit overruns `sendbuf`. -/
def sendLoop : Nat → NALUT → Server → File → Option (List Iteration)
  | 0, _, _, _ => none
  | turns + 1, nFrame, server, h264Bitsream =>
      if h264Bitsream.eof then some []
      else do
        let (result, nFrame, h264Bitsream) ← getAnnexbNALU nFrame h264Bitsream
        if nFrame.len ≤ udpMaxSize ∧ sendBufSize < 13 + copyLength nFrame.len then none
        else do
          let sent := packetize nFrame.toNALU server
          let others ← sendLoop turns nFrame sent.state h264Bitsream
          return ⟨result, nFrame, sent.events⟩ :: others

/-- A turn packetizes what its own call has read, and the length of the copy does not wrap. -/
structure Iteration.Sound (iteration : Iteration) : Prop where
  read : 0 < iteration.result
  nonempty : 1 ≤ iteration.nFrame.len
  copies : copyLength iteration.nFrame.len + 1 = iteration.nFrame.len

def SendsRead (nFrame : NALUT) (server : Server) (h264Bitsream : File) : Prop :=
  ∃ turns iterations, sendLoop turns nFrame server h264Bitsream = some iterations ∧
    ∀ iteration ∈ iterations, iteration.Sound

/-- A file that begins with a start code, has no two start codes with nothing between them, and
in which each start code with its unit and the next start code fits the buffer. -/
inductive Readable : List UInt8 → Prop where
  | final {code unit : List UInt8} : StartCode code → ¬ [0, 0, 1] <:+: unit →
      code.length + unit.length < bufferSize → Readable (code ++ unit)
  | more {code octets unit next rest : List UInt8} : StartCode code → Cut octets unit next rest → unit ≠ [] →
      code.length + unit.length + next.length ≤ bufferSize → Readable (next ++ rest) → Readable (code ++ octets)

theorem copyLength_le {len : Nat} (nonempty : 1 ≤ len) (short : len ≤ udpMaxSize) :
    ¬ sendBufSize < 13 + copyLength len := by
  simp only [copyLength, udpMaxSize, sendBufSize] at *
  omega

variable {nFrame : NALUT} {server : Server} {file : File}

theorem sendLoop_read {turns : Nat} (opened : file.eof = false) {result : Int} {filled : NALUT} {after : File}
    (read : getAnnexbNALU nFrame file = some (result, filled, after)) (nonempty : 1 ≤ filled.len) :
    sendLoop (turns + 1) nFrame server file =
      (sendLoop turns filled (packetize filled.toNALU server).state after).map fun others =>
        ⟨result, filled, (packetize filled.toNALU server).events⟩ :: others := by
  have copies : ¬ (filled.len ≤ udpMaxSize ∧ sendBufSize < 13 + copyLength filled.len) :=
    fun both => copyLength_le nonempty both.1 both.2
  rw [sendLoop, if_neg (by rw [opened]; decide), read]
  simp only [Option.bind_eq_bind, Option.bind_some, if_neg copies]
  cases sendLoop turns filled (packetize filled.toNALU server).state after <;> rfl

theorem SendsRead.first (sends : SendsRead nFrame server file) (opened : file.eof = false) :
    ∃ result filled after, getAnnexbNALU nFrame file = some (result, filled, after) ∧ 0 < result ∧ 1 ≤ filled.len ∧
      SendsRead filled (packetize filled.toNALU server).state after := by
  obtain ⟨turns, iterations, ran, sound⟩ := sends
  cases turns with
  | zero => cases ran
  | succ turns =>
      rw [sendLoop, if_neg (by rw [opened]; decide)] at ran
      simp only [Option.bind_eq_bind, Option.bind_eq_some_iff] at ran
      obtain ⟨⟨result, filled, after⟩, read, later⟩ := ran
      split at later
      · cases later
      · obtain ⟨others, rest, same⟩ := Option.bind_eq_some_iff.mp later
        cases same
        have here := sound _ List.mem_cons_self
        exact ⟨result, filled, after, read, here.read, here.nonempty, turns, others, rest,
          fun iteration member => sound iteration (List.mem_cons_of_mem _ member)⟩

theorem SendsRead.cons (opened : file.eof = false) {result : Int} {filled : NALUT} {after : File}
    (read : getAnnexbNALU nFrame file = some (result, filled, after)) (positive : 0 < result)
    (nonempty : 1 ≤ filled.len) (small : filled.len < 4294967296)
    (rest : SendsRead filled (packetize filled.toNALU server).state after) : SendsRead nFrame server file := by
  obtain ⟨turns, others, ran, sound⟩ := rest
  refine ⟨turns + 1, _, by rw [sendLoop_read opened read nonempty, ran]; rfl, ?_⟩
  refine List.forall_mem_cons.mpr ⟨⟨positive, nonempty, ?_⟩, sound⟩
  simp only [copyLength]
  omega

theorem annexB_readable (coded : CodedUnit) (rest : List CodedUnit)
    (escaped : ∀ unit ∈ coded :: rest, Escaped unit.unit.bytes)
    (room : ∀ unit ∈ coded :: rest, unit.unit.bytes.length + 8 ≤ bufferSize) : Readable (annexB (coded :: rest)) := by
  have width (unit : CodedUnit) : unit.code.length ≤ 4 := by
    unfold CodedUnit.code
    split <;> decide
  induction rest generalizing coded with
  | nil =>
      have bound := room coded List.mem_cons_self
      have file : annexB [coded] = coded.code ++ coded.unit.bytes := List.append_nil _
      rw [file]
      refine .final coded.isCode (escaped coded List.mem_cons_self).noCode ?_
      have := width coded
      omega
  | cons next later ih =>
      have here := escaped coded List.mem_cons_self
      have bound := room coded List.mem_cons_self
      have behind := ih next (fun unit member => escaped unit (List.mem_cons_of_mem coded member))
        fun unit member => room unit (List.mem_cons_of_mem coded member)
      rw [annexB_cons] at behind ⊢
      refine .more coded.isCode ⟨?_, next.isCode, here.noCode, fun _ => here.last⟩ (List.cons_ne_nil _ _) ?_ behind
      · rw [annexB_cons, List.append_assoc]
      · have := width coded
        have := width next
        omega

theorem SendsRead.done (ended : file.eof = true) : SendsRead nFrame server file :=
  ⟨1, [], by rw [sendLoop, if_pos ended], fun iteration member => absurd member List.not_mem_nil⟩

theorem Readable.sends {octets : List UInt8} (readable : Readable octets) {nFrame : NALUT} (server : Server) {file : File}
    (size : nFrame.maxSize = bufferSize) (opened : file.eof = false) (ahead : file.ahead = octets) :
    SendsRead nFrame server file := by
  induction readable generalizing nFrame server file with
  | @final code unit isCode none room =>
      rcases getAnnexbNALU_final nFrame isCode opened ahead none with
        ⟨-, result, filled, after, read, positive, len, -, ended⟩ | ⟨full, -⟩
      · refine .cons opened read positive (by omega) ?_ (.done ended)
        rw [len]
        simp only [bufferSize] at room
        omega
      · omega
  | @more code octets unit next rest isCode cut some_octet room _ ih =>
      rcases getAnnexbNALU_more nFrame isCode opened ahead cut with
        ⟨-, result, filled, after, read, positive, len, kept, reopened, left⟩ | ⟨full, -⟩
      · have nonempty := List.length_pos_iff.mpr some_octet
        refine .cons opened read positive (by omega) ?_ (ih _ (kept.trans size) reopened left)
        rw [len]
        simp only [bufferSize] at room
        omega
      · omega

theorem SendsRead.readable (sends : SendsRead nFrame server file) (size : nFrame.maxSize = bufferSize)
    (opened : file.eof = false) : Readable file.ahead := by
  induction length : file.ahead.length using Nat.strongRecOn generalizing nFrame server file with
  | ind count ih =>
      obtain ⟨result, filled, after, read, positive, nonempty, rest⟩ := sends.first opened
      by_cases begins : AtCode file.ahead
      · obtain ⟨code, octets, isCode, split⟩ := begins.split
        rcases exists_cut octets with none | ⟨unit, next, others, cut⟩
        · rcases getAnnexbNALU_final nFrame isCode opened split none with ⟨room, -⟩ | ⟨-, failed⟩
          · rw [split]
            exact .final isCode none (by rwa [size] at room)
          · rw [failed] at read
            cases read
        · rcases getAnnexbNALU_more nFrame isCode opened split cut with
            ⟨room, _, _, _, same, -, len, kept, reopened, left⟩ | ⟨-, failed⟩
          · rw [same] at read
            cases read
            have some_octet : unit ≠ [] := List.length_pos_iff.mp (by omega)
            have shorter : after.ahead.length < count := by
              have := isCode.facts.1
              rw [← length, split, cut.split, left]
              simp only [List.length_append]
              omega
            have later := ih _ shorter rest (kept.trans size) reopened rfl
            rw [left] at later
            rw [split]
            exact .more isCode cut some_octet (by rwa [size] at room) later
          · rw [failed] at read
            cases read
      · obtain ⟨_, _, _, same, failed⟩ := getAnnexbNALU_fails nFrame begins
        rw [same] at read
        cases read
        omega

/-- Every turn sends what it has read exactly for the readable files. -/
theorem sendLoop_sound_iff (server : Server) (h264Bitsream : List UInt8) :
    SendsRead (allocNALU bufferSize) server (.fopen h264Bitsream) ↔ Readable h264Bitsream :=
  ⟨fun sends => sends.readable rfl rfl, fun readable => readable.sends server rfl rfl rfl⟩

/-- An empty file: the call fails, and the copy of a unit of no octets has a length of 2^32 - 1. -/
theorem sendLoop_unsound_empty :
    (getAnnexbNALU (allocNALU bufferSize) (.fopen [])).map (fun (result, nFrame, _) =>
        (result, nFrame.len, copyLength nFrame.len)) = some (0, 0, 4294967295) ∧
      ¬ SendsRead (allocNALU bufferSize) ⟨.untouched fun _ => 0, 0, 0⟩ (.fopen []) := by
  refine ⟨rfl, fun sends => ?_⟩
  obtain ⟨result, filled, after, read, positive, -⟩ := sends.first rfl
  have failed : result = 0 := by
    cases read
    rfl
  omega

end H264Streaming.UdpH264
