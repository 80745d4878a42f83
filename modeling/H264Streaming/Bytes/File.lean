import Mathlib.Data.List.Basic

/-! Files of the C library that are only read: the position and the end-of-file indicator. -/

set_option autoImplicit false

namespace H264Streaming.Bytes

structure File where
  content : List UInt8
  pos : Nat
  eof : Bool
  deriving DecidableEq

namespace File

def fopen (content : List UInt8) : File := ⟨content, 0, false⟩

def ahead (file : File) : List UInt8 := file.content.drop file.pos

/-- The octets read, at most `count`; fewer set the indicator. -/
def fread (count : Nat) (file : File) : List UInt8 × File :=
  let octets := file.ahead.take count
  (octets, { file with pos := file.pos + octets.length, eof := file.eof || octets.length < count })

def fgetc (file : File) : Option UInt8 × File :=
  match file.ahead with
  | [] => (none, { file with eof := true })
  | octet :: _ => (some octet, { file with pos := file.pos + 1 })

/-- `fseek(file, -count, SEEK_CUR)` -/
def seekBack (count : Nat) (file : File) : File := { file with pos := file.pos - count, eof := false }

def rewind (file : File) : File := { file with pos := 0, eof := false }

variable {file : File}

theorem fgetc_content (file : File) : file.fgetc.2.content = file.content := by
  unfold fgetc
  split <;> rfl

theorem rewind_eq {content : List UInt8} (same : file.content = content) : file.rewind = .fopen content := by
  rw [← same]
  rfl

theorem fread_all {count : Nat} {octets rest : List UInt8} (ahead : file.ahead = octets ++ rest)
    (size : octets.length = count) : file.fread count = (octets, { file with pos := file.pos + count }) := by
  subst size
  simp [fread, ahead]

theorem ahead_forward {octets rest : List UInt8} (ahead : file.ahead = octets ++ rest) :
    { file with pos := file.pos + octets.length }.ahead = rest := by
  rw [File.ahead] at ahead ⊢
  rw [← List.drop_drop, ahead, List.drop_left]

theorem fgetc_octet {octet : UInt8} {rest : List UInt8} (ahead : file.ahead = octet :: rest) :
    file.fgetc = (some octet, { file with pos := file.pos + 1 }) := by
  simp [fgetc, ahead]

theorem fgetc_end (ahead : file.ahead = []) : file.fgetc = (none, { file with eof := true }) := by
  simp [fgetc, ahead]

end File

end H264Streaming.Bytes
