import H264Streaming.Bytes.Buffer
import H264Streaming.Bytes.File
import H264Streaming.UdpH264.Server

/-! Reading NAL units from the file (Server.c, GetAnnexbNALU and the loop that calls it). -/

set_option autoImplicit false

namespace H264Streaming.UdpH264

open H264Streaming.Bytes

def bufferSize : Nat := 200000

structure NALUT extends NALU where
  startcodeprefixLen : Nat
  maxSize : Nat

def allocNALU (bufferSize : Nat) : NALUT where
  len := 0
  forbiddenBit := 0
  nalReferenceIdc := 0
  nalUnitType := 0
  buf := List.replicate bufferSize 0
  startcodeprefixLen := 0
  maxSize := bufferSize

def findStartCode2 (buf : Buffer) (p : Nat) : Bool :=
  if buf.byte p ≠ 0 ∨ buf.byte (p + 1) ≠ 0 ∨ buf.byte (p + 2) ≠ 1 then false else true

def findStartCode3 (buf : Buffer) (p : Nat) : Bool :=
  if buf.byte p ≠ 0 ∨ buf.byte (p + 1) ≠ 0 ∨ buf.byte (p + 2) ≠ 0 ∨ buf.byte (p + 3) ≠ 1 then false else true

/-- `Buf`, `pos`, `info2`, `info3` and the file in the search for the next start code. -/
structure Search where
  buf : Buffer
  pos : Nat
  info2 : Bool
  info3 : Bool
  h264Bitsream : File

/-- One iteration behind the test of feof; EOF is stored as the octet 0xFF. It fails
past the end of `Buf`. -/
def Search.next (maxSize : Nat) (s : Search) : Option Search :=
  if s.pos < maxSize then
    let (octet, h264Bitsream) := s.h264Bitsream.fgetc
    let buf := s.buf.write s.pos [octet.getD 0xFF]
    let pos := s.pos + 1
    let info3 := findStartCode3 buf (pos - 4)
    let info2 := if info3 then s.info2 else findStartCode2 buf (pos - 3)
    some ⟨buf, pos, info2, info3, h264Bitsream⟩
  else none

/-- What `while (!StartCodeFound)` has left to do; the second part counts the turn that meets EOF. -/
def Search.left (s : Search) : Nat :=
  2 * s.h264Bitsream.ahead.length + if s.h264Bitsream.eof then 0 else 1

theorem Search.next_left {maxSize : Nat} {s t : Search} (open_ : s.h264Bitsream.eof = false)
    (read : s.next maxSize = some t) : t.left < s.left := by
  unfold Search.next at read
  split at read
  · cases ahead : s.h264Bitsream.ahead with
    | nil =>
        simp only [File.fgetc_end ahead] at read
        cases read
        simp [Search.left, File.ahead, open_]
    | cons octet rest =>
        have forward := File.ahead_forward (show s.h264Bitsream.ahead = [octet] ++ rest from ahead)
        simp only [File.fgetc_octet ahead] at read
        cases read
        rw [List.length_singleton, open_] at forward
        simp only [Search.left, ahead, List.length_cons, forward, open_]
        omega
  · cases read

/-- `while (!StartCodeFound)`, left at the end of the file too. -/
def Search.run (maxSize : Nat) (s : Search) : Option Search :=
  if s.h264Bitsream.eof then some s
  else
    match _read : s.next maxSize with
    | none => none
    | some t => if t.info2 ∨ t.info3 then some t else Search.run maxSize t
termination_by s.left
decreasing_by exact Search.next_left (by simpa using ‹¬ s.h264Bitsream.eof = true›) ‹s.next maxSize = some t›

variable {maxSize : Nat} {s t : Search}

theorem Search.run_eof (ended : s.h264Bitsream.eof = true) : s.run maxSize = some s := by
  rw [Search.run, if_pos ended]

theorem Search.run_failed (reading : ¬ s.h264Bitsream.eof = true) (failed : s.next maxSize = none) :
    s.run maxSize = none := by
  rw [Search.run, if_neg reading]
  split
  · rfl
  · rename_i read
    rw [failed] at read
    cases read

theorem Search.run_next (reading : ¬ s.h264Bitsream.eof = true) (read : s.next maxSize = some t) :
    s.run maxSize = if t.info2 ∨ t.info3 then some t else t.run maxSize := by
  rw [Search.run, if_neg reading]
  split
  · rename_i failed
    rw [read] at failed
    cases failed
  · rename_i other same
    rw [read] at same
    cases same
    rfl

def NALUT.fill (nalu : NALUT) (buf : Buffer) (len : Nat) : NALUT :=
  let data := buf.read nalu.startcodeprefixLen len ++ nalu.buf.drop len
  { nalu with
    len := len
    buf := data
    forbiddenBit := data.headD 0 &&& 0x80
    nalReferenceIdc := data.headD 0 &&& 0x60
    nalUnitType := data.headD 0 &&& 0x1f }

/-- GetAnnexbNALU behind a start code of `code` octets, which are in `buf`. -/
def readUnit (nalu : NALUT) (buf : Buffer) (code : Nat) (h264Bitsream : File) : Option (Nat × NALUT × File) :=
  let nalu := { nalu with startcodeprefixLen := code }
  (Search.run nalu.maxSize ⟨buf, code, false, false, h264Bitsream⟩).map fun s =>
    if s.info2 ∨ s.info3 then
      let rewind := if s.info3 then 4 else 3
      let len := s.pos - rewind - nalu.startcodeprefixLen
      (s.pos - rewind, nalu.fill s.buf len, s.h264Bitsream.seekBack rewind)
    else (s.pos, nalu.fill s.buf (s.pos - nalu.startcodeprefixLen), s.h264Bitsream)

def getAnnexbNALU (nalu : NALUT) (h264Bitsream : File) : Option (Int × NALUT × File) :=
  let buf := (Buffer.untouched fun _ => 0).write 0 (List.replicate nalu.maxSize 0)
  let nalu := { nalu with startcodeprefixLen := 3 }
  let (octets, h264Bitsream) := h264Bitsream.fread 3
  let buf := buf.write 0 octets
  if octets.length ≠ 3 then some (0, nalu, h264Bitsream)
  else if findStartCode2 buf 0 then
    (readUnit nalu buf 3 h264Bitsream).map fun (pos, nalu, h264Bitsream) => ((pos : Int), nalu, h264Bitsream)
  else
    let (octets, h264Bitsream) := h264Bitsream.fread 1
    let buf := buf.write 3 octets
    if octets.length ≠ 1 then some (0, nalu, h264Bitsream)
    else if findStartCode3 buf 0 then
      (readUnit nalu buf 4 h264Bitsream).map fun (pos, nalu, h264Bitsream) => ((pos : Int), nalu, h264Bitsream)
    else some (-1, nalu, h264Bitsream)

/-- `while (!feof(h264Bitsream))` with so many calls at most: what each call returns and leaves in `nalu`. -/
def readAll : Nat → NALUT → File → Option (List (Int × NALUT))
  | 0, _, _ => none
  | calls + 1, nalu, h264Bitsream =>
      if h264Bitsream.eof then some []
      else do
        let (result, nalu, h264Bitsream) ← getAnnexbNALU nalu h264Bitsream
        let others ← readAll calls nalu h264Bitsream
        return (result, nalu) :: others

end H264Streaming.UdpH264
