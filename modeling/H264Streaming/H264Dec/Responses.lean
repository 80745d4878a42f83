import H264Streaming.Format.Interleaved
import H264Streaming.H264Dec.Ordering
import H264Streaming.H264Dec.Status

/-! Responses with status 200, and what one recv takes of them. -/

set_option autoImplicit false

namespace H264Streaming.H264Dec

open H264Streaming.Bytes H264Streaming.Format

structure OkHead where
  reason : List UInt8
  headers : List (List UInt8)
  plain : (13 : UInt8) ∉ reason
  isLine : ∀ header ∈ headers, IsLine header
  terminated : ∀ line ∈ reason :: headers, (0 : UInt8) ∉ line

namespace OkHead

variable (head : OkHead)

def statusLine : List UInt8 := rtspResponse ++ (ascii "200" ++ 32 :: head.reason)

def text : List UInt8 := messageText (head.statusLine :: head.headers)

theorem statusLine_isLine : IsLine head.statusLine := by
  refine ⟨List.append_ne_nil_of_left_ne_nil (by decide) _, ?_⟩
  simp only [statusLine, List.mem_append, List.mem_cons, not_or]
  exact ⟨by decide, by decide, by decide, head.plain⟩

theorem statusLine_terminated : (0 : UInt8) ∉ head.statusLine := by
  simp only [statusLine, List.mem_append, List.mem_cons, not_or]
  exact ⟨by decide, by decide, by decide, head.terminated head.reason List.mem_cons_self⟩

theorem text_terminated : (0 : UInt8) ∉ head.text := by
  have breaks : (0 : UInt8) ∉ crlf := by decide
  simp only [text, messageText, List.mem_append, List.mem_flatMap, not_or, not_exists, not_and]
  refine ⟨fun line member => ⟨?_, breaks⟩, breaks⟩
  rcases List.mem_cons.mp member with rfl | later
  · exact head.statusLine_terminated
  · exact head.terminated line (List.mem_cons_of_mem _ later)

theorem text_append (body : List UInt8) :
    ∃ more, head.text ++ body = head.statusLine ++ 13 :: more := by
  refine ⟨10 :: (messageText head.headers ++ body), ?_⟩
  rw [text, messageText_cons, crlf]
  simp

end OkHead

/-! ### The empty line -/

theorem strstr_of_splitMessage {octets text rest : List UInt8} (split : splitMessage octets = some (text, rest)) :
    strstr (crlf ++ crlf) octets = some (crlf ++ (crlf ++ rest)) := by
  induction octets generalizing text with
  | nil => cases split
  | cons octet more ih =>
      rw [splitMessage] at split
      rw [strstr]
      split at split
      · rename_i found
        obtain ⟨behind, same⟩ := List.isPrefixOf_iff_prefix.mp found
        cases split
        rw [if_pos found, ← same, ← List.append_assoc]
        rfl
      · rename_i absent
        obtain ⟨⟨front, behind⟩, later, same⟩ := Option.map_eq_some_iff.mp split
        cases same
        rw [if_neg absent, ih later]

theorem OkHead.strstr_text (head : OkHead) (body : List UInt8) :
    strstr (crlf ++ crlf) (head.text ++ body) = some (crlf ++ (crlf ++ body)) := by
  have lines : ∀ line ∈ head.statusLine :: head.headers, IsLine line :=
    List.forall_mem_cons.mpr ⟨head.statusLine_isLine, head.isLine⟩
  exact strstr_of_splitMessage (splitMessage_append body (splitMessage_lines lines))

/-- The empty line of a response is found once the whole head is there. -/
theorem OkHead.strstr_take_iff (head : OkHead) {body rest : List UInt8} {room : Nat} :
    strstr (crlf ++ crlf) ((head.text ++ body).take room) = some rest ↔
      head.text.length ≤ room ∧ rest = crlf ++ (crlf ++ body.take (room - head.text.length)) := by
  constructor
  · intro found
    have whole := strstr_append found ((head.text ++ body).drop room)
    rw [List.take_append_drop, head.strstr_text] at whole
    obtain ⟨front, -, first⟩ := strstr_eq_some_iff.mp found
    have four : (crlf ++ crlf).length ≤ rest.length := first.here.length_le
    have sizes := congrArg List.length (Option.some.inj whole)
    simp only [List.length_append, List.length_drop] at sizes four
    have inside : head.text.length ≤ room := by omega
    rw [List.take_append, List.take_of_length_le inside, head.strstr_text] at found
    exact ⟨inside, (Option.some.inj found).symm⟩
  · rintro ⟨inside, rfl⟩
    rw [List.take_append, List.take_of_length_le inside, head.strstr_text]

/-! ### What one recv takes -/

theorem received_take {text : List UInt8} (plain : (0 : UInt8) ∉ text) (arrived : Nat) :
    received (text.take arrived) = text.take (min 4095 arrived) := by
  rw [received, List.take_take]
  exact cString_of_plain fun member => plain (List.mem_of_mem_take member)

theorem OkHead.answered (head : OkHead) {body : List UInt8} {arrived : Nat} (plain : (0 : UInt8) ∉ body)
    (line : 13 ∈ received ((head.text ++ body).take arrived)) : Answered ((head.text ++ body).take arrived) 200 := by
  have terminated : (0 : UInt8) ∉ head.text ++ body := fun member =>
    (List.mem_append.mp member).elim head.text_terminated plain
  refine ⟨fun empty => ?_, ?_⟩
  · rw [empty] at line
    exact List.not_mem_nil line
  · rw [received_take terminated] at line ⊢
    obtain ⟨front, rest, same, absent⟩ := List.eq_append_cons_of_mem line
    obtain ⟨more, whole⟩ := head.text_append body
    have parts := List.take_append_drop (min 4095 arrived) (head.text ++ body)
    rw [same, whole, List.append_assoc, List.cons_append] at parts
    obtain ⟨rfl, -⟩ := append_cons_inj absent head.statusLine_isLine.plain parts
    have short : ((head.text ++ body).take (min 4095 arrived)).length < 2147483647 := by
      rw [List.length_take]
      omega
    have form : head.statusLine ++ 13 :: rest = rtspResponse ++ (ascii "200" ++ 32 :: (head.reason ++ 13 :: rest)) := by
      simp [OkHead.statusLine]
    have code : scanInt (ascii "200") = some 200 := by decide
    have reason : ¬ (8 ≤ (ascii "200").length ∨ 2147483647 ≤ head.reason.length) := by
      rw [same, form] at short
      simp only [List.length_append, List.length_cons] at short
      simp only [not_or, not_le]
      exact ⟨by decide, by omega⟩
    rw [← rtspResponseError_status (fun _ => 0) short, same, form,
      rtspResponseError_line _ (by decide) (by decide) head.plain, if_neg reason, code]
    rfl

/-! ### Fields -/

/-- The text between a needle and the next stop, as the commands cut it out by its two ends. -/
def fieldBehind (needle : List UInt8) (stop : UInt8) (text : List UInt8) : Option (List UInt8) := do
  let p ← strstr needle text
  let sep ← strchr stop p
  return (between p sep).drop needle.length

theorem fieldBehind_eq_some_iff {needle text field : List UInt8} {stop : UInt8} (plain : stop ∉ needle) :
    fieldBehind needle stop text = some field ↔ FieldAt needle stop text field := by
  unfold fieldBehind
  simp only [Option.bind_eq_bind, Option.bind_eq_some_iff]
  constructor
  · rintro ⟨p, found, sep, ended, same⟩
    obtain ⟨front, rfl, first⟩ := strstr_eq_some_iff.mp found
    obtain ⟨tail, rfl⟩ := first.here
    rw [strchr_append plain] at ended
    obtain ⟨value, rest, rfl, absent, rfl⟩ := strchr_eq_some_iff.mp ended
    rw [← List.append_assoc, between_append, List.drop_left] at same
    obtain rfl := Option.some.inj same
    exact ⟨front, rest, rfl, first, absent⟩
  · rintro ⟨front, rest, rfl, first, absent⟩
    refine ⟨needle ++ (field ++ stop :: rest), ?_, stop :: rest, ?_, ?_⟩
    · exact strstr_eq_some_iff.mpr ⟨front, rfl, first⟩
    · rw [strchr_append plain, strchr_append absent, strchr_self]
    · rw [← List.append_assoc, between_append]
      exact congrArg some List.drop_left

end H264Streaming.H264Dec
