import H264Streaming.H264Send.Packetizer
import H264Streaming.H264Send.Parsing

/-! The loop of `start` (h264rtppacketizer.cpp) over what next_nalu returns for a file. -/

set_option autoImplicit false

namespace H264Streaming.H264Send

open H264Streaming.Bytes H264Streaming.Format H264Streaming.Semantics

def H264NalPacket.octets (nal : H264NalPacket) : List UInt8 := (nal.rbsp.getD []).take nal.numBytesinNALUnit

/-- The packets that next_nalu returns before NULL, or none where it fails; it is called so many times at most. -/
def readNals (content : Nat → UInt8) : Nat → List UInt8 → Option (List H264NalPacket)
  | 0, _ => none
  | calls + 1, h264file => do
      match ← nextNalu content h264file with
      | (none, _) => return []
      | (some nal, rest) => return nal :: (← readNals content calls rest)

/-- `start` on a file. Every packet takes an octet of it at least, so the calls suffice. -/
def startFile (packetizer : H264RtpPacketizer) (stack content : Nat → UInt8) (h264file : List UInt8) :
    Option (Traced State (List UInt8)) :=
  (readNals content (h264file.length + 1) h264file).map fun nals =>
    start packetizer stack (nals.map H264NalPacket.octets)

theorem octets_packetOf (coded : CodedUnit) : (packetOf coded).octets = coded.unit.bytes := by
  have some_octet : 0 < coded.unit.bytes.length := Nat.succ_pos _
  rw [packetOf, H264NalPacket.of]
  dsimp only
  rw [if_pos some_octet]
  exact List.take_left

theorem readNals_behind (content : Nat → UInt8) {coded : CodedUnit} {rest : List CodedUnit}
    (parsable : ∀ unit ∈ coded :: rest, Parsable unit) {calls : Nat} (enough : rest.length < calls) :
    readNals content calls (coded.unit.bytes ++ annexB rest) = some ((coded :: rest).dropLast.map packetOf) := by
  induction rest generalizing coded calls with
  | nil =>
      obtain ⟨more, rfl⟩ := Nat.exists_eq_add_one_of_ne_zero (Nat.ne_of_gt enough)
      rw [readNals, nextNalu, nextNaluLoop_file (parsable coded List.mem_cons_self) [] (.start content)]
      rfl
  | cons next later ih =>
      obtain ⟨more, rfl⟩ := Nat.exists_eq_add_one_of_ne_zero (Nat.ne_of_gt (Nat.zero_lt_of_lt enough))
      have others : ∀ unit ∈ next :: later, Parsable unit := fun unit member => parsable unit (List.mem_cons_of_mem _ member)
      have tail := ih others (Nat.lt_of_succ_lt_succ enough)
      rw [readNals, nextNalu, nextNaluLoop_file (parsable coded List.mem_cons_self) (next :: later) (.start content)]
      simp only [Option.bind_eq_bind, Option.bind_some, tail]
      rfl

theorem readNals_annexB (content : Nat → UInt8) {coded : List CodedUnit} (parsable : ∀ unit ∈ coded, Parsable unit) :
    readNals content ((annexB coded).length + 1) (annexB coded) = some (coded.dropLast.map packetOf) := by
  cases coded with
  | nil => rfl
  | cons first rest =>
      have enough : rest.length < (annexB (first :: rest)).length + 1 := by
        have size := length_annexB (first :: rest)
        rw [List.length_cons] at size
        omega
      rw [← readNals_behind content parsable enough]
      -- the first start code is skipped within the first call
      obtain ⟨tmpbuf, skipped⟩ := nextNaluLoop_code first [] (.untouched content)
      have empty : ¬ 0 < ([] : List UInt8).length := Nat.lt_irrefl 0
      have own := parsable first List.mem_cons_self
      have same : nextNalu content (annexB (first :: rest)) = nextNalu content (first.unit.bytes ++ annexB rest) := by
        rw [annexB_cons, nextNalu, skipped, if_neg empty, nextNalu, nextNaluLoop_file own rest ⟨rfl, rfl⟩,
          nextNaluLoop_file own rest (.start content)]
      rw [readNals, readNals, same]

theorem startFile_annexB (packetizer : H264RtpPacketizer) (stack content : Nat → UInt8) {coded : List CodedUnit}
    (parsable : ∀ unit ∈ coded, Parsable unit) :
    startFile packetizer stack content (annexB coded) =
      some (start packetizer stack ((coded.dropLast.map CodedUnit.unit).map NalUnit.bytes)) := by
  have octets : (coded.dropLast.map packetOf).map H264NalPacket.octets =
      (coded.dropLast.map CodedUnit.unit).map NalUnit.bytes := by
    rw [List.map_map, List.map_map]
    exact List.map_congr_left fun unit _ => octets_packetOf unit
  rw [startFile, readNals_annexB content parsable, Option.map_some, octets]

end H264Streaming.H264Send
