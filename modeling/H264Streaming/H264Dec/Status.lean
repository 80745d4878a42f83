import H264Streaming.Bytes.Numerals
import H264Streaming.Bytes.Search
import H264Streaming.H264Dec.Commands

/-! rtsp_response_status together with the error text it leaves. -/

set_option autoImplicit false

namespace H264Streaming.H264Dec

open H264Streaming.Bytes

def invalidFormat (fresh : Nat → UInt8) : List UInt8 :=
  let text := ascii "Invalid RTSP response format" ++ [0]
  text ++ (List.range (256 - text.length)).map fun k => fresh (text.length + k)

/-- rtsp_response_status: its value and the block that `*error` points to. `fresh` is what a block
from malloc holds. It fails where a length is negative or no int, and where a pointer is null. -/
def rtspResponseError (fresh : Nat → UInt8) (response : List UInt8) : Option (Int × List UInt8) :=
  match behind rtspResponse response with
  | none => some (-1, invalidFormat fresh)
  | some rest =>
      match strchr 32 rest with
      | none => some (-1, invalidFormat fresh)
      | some sep =>
          let buf := between rest sep
          -- strlen and atoi need a terminator in the eight octets
          if 8 ≤ buf.length then none
          else
            match strchr 13 response with
            | none => none
            | some eol =>
                let place := (between response eol).length
                if place < rtspResponse.length + 1 + buf.length then none
                else
                  let errSize := place - rtspResponse.length - 1 - buf.length
                  -- malloc takes err_size + 1
                  if 2147483647 ≤ errSize then none
                  else
                    let text := response.drop (rtspResponse.length + 1 + buf.length)
                    some ((scanInt buf).getD 0, text.take errSize ++ [fresh errSize])

theorem rtspResponseError_status (fresh : Nat → UInt8) {response : List UInt8} (short : response.length < 2147483647) :
    (rtspResponseError fresh response).map Prod.fst = rtspResponseStatus response := by
  unfold rtspResponseError rtspResponseStatus
  cases behind rtspResponse response with
  | none => rfl
  | some rest =>
      cases space : strchr 32 rest with
      | none =>
          dsimp only
          rw [space]
          rfl
      | some sep =>
          dsimp only
          rw [space]
          dsimp only
          split
          · rfl
          · cases strchr 13 response with
            | none => rfl
            | some eol =>
                have inside : (between response eol).length ≤ response.length := List.length_take_le' _ _
                dsimp only
                split
                · rfl
                · rw [if_neg (by omega)]
                  rfl

structure Response where
  text : List UInt8
  terminated : (0 : UInt8) ∉ text

structure StatusLine where
  code : List UInt8
  reason : List UInt8
  digits : code.length = 3 ∧ ∀ digit ∈ code, isDigit digit
  plain : (13 : UInt8) ∉ reason

def StatusLine.text (line : StatusLine) (rest : List UInt8) : List UInt8 :=
  rtspResponse ++ (line.code ++ 32 :: (line.reason ++ 13 :: 10 :: rest))

/-- It comes back with a terminated error text, and with the code and the reason of a status line. -/
def Honest (fresh : Nat → UInt8) (response : Response) : Prop :=
  ∃ status block, rtspResponseError fresh response.text = some (status, block) ∧ 0 ∈ block ∧
    ∀ line : StatusLine, ∀ rest, response.text = line.text rest →
      status = digitsValue line.code ∧ cString block = line.reason

/-- The responses that are read: without the protocol or a space behind it, or with a code of less than
eight octets and a line end behind its space, if malloc finds a zero where the text ends. -/
def Readable (fresh : Nat → UInt8) (response : List UInt8) : Prop :=
  ¬ rtspResponse <+: response ∨ (∃ rest, response = rtspResponse ++ rest ∧ (32 : UInt8) ∉ rest) ∨
    ∃ code line more, response = rtspResponse ++ (code ++ 32 :: (line ++ 13 :: more)) ∧ (32 : UInt8) ∉ code ∧
      (13 : UInt8) ∉ code ∧ (13 : UInt8) ∉ line ∧ code.length < 8 ∧ line.length < 2147483647 ∧ fresh line.length = 0

theorem zero_mem_invalidFormat (fresh : Nat → UInt8) : 0 ∈ invalidFormat fresh :=
  List.mem_append_left _ (List.mem_append_right _ (List.mem_singleton_self 0))

/-! ### Responses with a code -/

theorem rtspResponseError_code (fresh : Nat → UInt8) {code tail : List UInt8} (plain : (32 : UInt8) ∉ code) :
    rtspResponseError fresh (rtspResponse ++ (code ++ 32 :: tail)) =
      if 8 ≤ code.length then none
      else
        match strchr 13 (rtspResponse ++ (code ++ 32 :: tail)) with
        | none => none
        | some eol =>
            let place := (between (rtspResponse ++ (code ++ 32 :: tail)) eol).length
            if place < rtspResponse.length + 1 + code.length then none
            else
              let errSize := place - rtspResponse.length - 1 - code.length
              if 2147483647 ≤ errSize then none
              else some ((scanInt code).getD 0, tail.take errSize ++ [fresh errSize]) := by
  have found : behind rtspResponse (rtspResponse ++ (code ++ 32 :: tail)) = some (code ++ 32 :: tail) :=
    behind_eq_some_iff.mpr rfl
  have space : strchr 32 (code ++ 32 :: tail) = some (32 :: tail) := by
    rw [strchr_append plain, strchr_self]
  have text : (rtspResponse ++ (code ++ 32 :: tail)).drop (rtspResponse.length + 1 + code.length) = tail := by
    have front : rtspResponse ++ (code ++ 32 :: tail) = (rtspResponse ++ (code ++ [32])) ++ tail := by simp
    rw [front]
    exact List.drop_left' (by simp; omega)
  unfold rtspResponseError
  rw [found]
  dsimp only
  rw [space]
  dsimp only
  rw [between_append, text]

theorem rtspResponseError_line (fresh : Nat → UInt8) {code line more : List UInt8} (plain : (32 : UInt8) ∉ code)
    (codeLine : (13 : UInt8) ∉ code) (reasonLine : (13 : UInt8) ∉ line) :
    rtspResponseError fresh (rtspResponse ++ (code ++ 32 :: (line ++ 13 :: more))) =
      if 8 ≤ code.length ∨ 2147483647 ≤ line.length then none
      else some ((scanInt code).getD 0, line ++ [fresh line.length]) := by
  have split : rtspResponse ++ (code ++ 32 :: (line ++ 13 :: more)) =
      (rtspResponse ++ (code ++ 32 :: line)) ++ 13 :: more := by simp
  have front : (13 : UInt8) ∉ rtspResponse ++ (code ++ 32 :: line) := by
    simp only [List.mem_append, List.mem_cons, not_or]
    exact ⟨by decide, codeLine, by decide, reasonLine⟩
  have eol : strchr 13 (rtspResponse ++ (code ++ 32 :: (line ++ 13 :: more))) = some (13 :: more) := by
    rw [split, strchr_append front, strchr_self]
  have place : (between (rtspResponse ++ (code ++ 32 :: (line ++ 13 :: more))) (13 :: more)).length =
      rtspResponse.length + 1 + code.length + line.length := by
    rw [split, between_append]
    simp only [List.length_append, List.length_cons]
    omega
  have size : rtspResponse.length + 1 + code.length + line.length - rtspResponse.length - 1 - code.length =
      line.length := by omega
  rw [rtspResponseError_code fresh plain, eol]
  dsimp only
  rw [place, size, List.take_left]
  by_cases long : 8 ≤ code.length
  · rw [if_pos long, if_pos (Or.inl long)]
  · rw [if_neg long, if_neg (Nat.not_lt.mpr (Nat.le_add_right _ _))]
    by_cases huge : 2147483647 ≤ line.length
    · rw [if_pos huge, if_pos (Or.inr huge)]
    · rw [if_neg huge, if_neg (not_or.mpr ⟨long, huge⟩)]

theorem line_of_rtspResponseError {fresh : Nat → UInt8} {code tail : List UInt8} (plain : (32 : UInt8) ∉ code)
    {result : Int × List UInt8} (came : rtspResponseError fresh (rtspResponse ++ (code ++ 32 :: tail)) = some result) :
    ∃ line more, tail = line ++ 13 :: more ∧ (13 : UInt8) ∉ code ∧ (13 : UInt8) ∉ line := by
  rw [rtspResponseError_code fresh plain] at came
  split at came
  · cases came
  · cases found : strchr 13 (rtspResponse ++ (code ++ 32 :: tail)) with
    | none =>
        rw [found] at came
        cases came
    | some eol =>
        rw [found] at came
        dsimp only at came
        split at came
        · cases came
        · rename_i ahead
          obtain ⟨front, more, same, absent, rfl⟩ := strchr_eq_some_iff.mp found
          rw [same, between_append] at ahead
          have whole : (rtspResponse ++ (code ++ [32])) ++ tail = front ++ 13 :: more := by
            rw [← same]
            simp
          have short : (rtspResponse ++ (code ++ [32])).length ≤ front.length := by
            simp only [List.length_append, List.length_singleton]
            omega
          obtain ⟨line, rfl⟩ := List.prefix_of_prefix_length_le (List.prefix_append _ tail)
            (whole ▸ List.prefix_append front (13 :: more)) short
          rw [List.append_assoc _ line] at whole
          refine ⟨line, more, List.append_cancel_left whole, ?_, ?_⟩
          · exact fun member => absent (by simp [member])
          · exact fun member => absent (by simp [member])

theorem StatusLine.code_plain (line : StatusLine) : (32 : UInt8) ∉ line.code ∧ (13 : UInt8) ∉ line.code :=
  ⟨fun member => absurd (line.digits.2 32 member) (by decide), fun member => absurd (line.digits.2 13 member) (by decide)⟩

theorem StatusLine.scanInt_code (line : StatusLine) : (scanInt line.code).getD 0 = digitsValue line.code := by
  have filled : line.code ≠ [] := List.ne_nil_of_length_pos (by rw [line.digits.1]; decide)
  rw [scanInt_digits filled line.digits.2 (by rw [line.digits.1]; decide), Option.getD_some]

/-- It is safe and exact exactly for the responses that are read. -/
theorem honest_iff_readable (fresh : Nat → UInt8) (response : Response) :
    Honest fresh response ↔ Readable fresh response.text := by
  obtain ⟨text, terminated⟩ := response
  unfold Honest Readable
  dsimp only
  constructor
  · rintro ⟨status, block, came, zero, -⟩
    by_cases protocol : rtspResponse <+: text
    · obtain ⟨rest, rfl⟩ := protocol
      by_cases space : (32 : UInt8) ∈ rest
      · obtain ⟨code, tail, rfl, plain⟩ := List.eq_append_cons_of_mem space
        obtain ⟨line, more, rfl, codeLine, reasonLine⟩ := line_of_rtspResponseError plain came
        rw [rtspResponseError_line fresh plain codeLine reasonLine] at came
        split at came
        · cases came
        · rename_i short
          rw [not_or] at short
          cases came
          have absent : (0 : UInt8) ∉ line := fun member => terminated (by simp [member])
          exact Or.inr (Or.inr ⟨code, line, more, rfl, plain, codeLine, reasonLine, by omega, by omega,
            (zero_mem_append_iff absent).mp zero⟩)
      · exact Or.inr (Or.inl ⟨rest, rfl, space⟩)
    · exact Or.inl protocol
  · rintro (foreign | ⟨rest, rfl, noSpace⟩ | ⟨code, line, more, rfl, plain, codeLine, reasonLine, short, small, blank⟩)
    · refine ⟨-1, invalidFormat fresh, ?_, zero_mem_invalidFormat fresh, ?_⟩
      · rw [rtspResponseError, behind_eq_none_iff.mpr foreign]
      · rintro line rest rfl
        exact absurd (List.prefix_append _ _) foreign
    · refine ⟨-1, invalidFormat fresh, ?_, zero_mem_invalidFormat fresh, ?_⟩
      · rw [rtspResponseError, behind_eq_some_iff.mpr rfl]
        dsimp only
        rw [strchr_eq_none_iff.mpr noSpace]
      · rintro line more same
        rw [List.append_cancel_left same] at noSpace
        exact absurd (by simp) noSpace
    · have absent : (0 : UInt8) ∉ line := fun member => terminated (by simp [member])
      refine ⟨(scanInt code).getD 0, line ++ [fresh line.length], ?_, (zero_mem_append_iff absent).mpr blank, ?_⟩
      · rw [rtspResponseError_line fresh plain codeLine reasonLine, if_neg (by omega)]
      · intro form rest same
        obtain ⟨rfl, tail⟩ := append_cons_inj plain form.code_plain.1 (List.append_cancel_left same)
        obtain ⟨rfl, -⟩ := append_cons_inj reasonLine form.plain tail
        refine ⟨form.scanInt_code, ?_⟩
        rw [blank]
        exact cString_append_zero absent

theorem ok_plain : (13 : UInt8) ∉ ascii "OK" := by decide

def okLine : StatusLine := ⟨ascii "200", ascii "OK", ⟨rfl, by decide +kernel⟩, ok_plain⟩

def okResponse : Response := ⟨okLine.text [], by decide +kernel⟩

def longCode : Response := ⟨ascii "RTSP/1.0 1234567890 OK\r\n", by decide +kernel⟩

/-- What malloc leaves behind the reason belongs to it, and a long code does not fit. -/
theorem reason_runs_on :
    rtspResponseError (fun _ => 0x21) okResponse.text = some (200, ascii "OK!") ∧
      ¬ Honest (fun _ => 0x21) okResponse ∧ rtspResponseError (fun _ => 0) longCode.text = none ∧
      ¬ Honest (fun _ => 0) longCode := by
  have came : rtspResponseError (fun _ => 0x21) okResponse.text = some (200, ascii "OK!") := by decide +kernel
  have failed : rtspResponseError (fun _ => 0) longCode.text = none := by decide +kernel
  refine ⟨came, ?_, failed, ?_⟩
  · rintro ⟨status, block, same, zero, -⟩
    rw [came] at same
    cases same
    exact absurd zero (by decide)
  · rintro ⟨status, block, same, -⟩
    rw [failed] at same
    cases same

end H264Streaming.H264Dec
