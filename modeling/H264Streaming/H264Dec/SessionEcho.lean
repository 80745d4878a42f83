import H264Streaming.Bytes.Strtol
import H264Streaming.H264Dec.Address
import H264Streaming.H264Dec.Responses

/-! The session of a SETUP response, as rtsp_cmd_setup reads it and PLAY sends it back. -/

set_option autoImplicit false

namespace H264Streaming.H264Dec

open H264Streaming.Bytes H264Streaming.Format

def playText (c : Client) (id : List UInt8) : List UInt8 :=
  ascii "PLAY " ++ c.stream ++ ascii " RTSP/1.0\r\nCSeq: " ++ decimal c.rtspCseq ++ ascii "\r\nSession: " ++ id ++
    ascii "\r\nRange: npt=0.00-\r\n\r\n"

def setupTransport : List UInt8 := ascii "Transport: "

def setupSession : List UInt8 := ascii "Session: "

def isToken (octet : UInt8) : Bool := 33 ≤ octet && octet ≤ 126 && octet ≠ 59

def timeoutText (timeout : Option Nat) : List UInt8 :=
  match timeout with
  | none => []
  | some seconds => ascii ";timeout=" ++ decimal seconds

structure Grant where
  head : OkHead
  id : List UInt8
  timeout : Option Nat
  body : List UInt8
  token : id ≠ [] ∧ ∀ octet ∈ id, isToken octet
  transport : ∃ value, setupTransport ++ value ∈ head.headers
  session : setupSession ++ (id ++ timeoutText timeout) ∈ head.headers
  terminated : (0 : UInt8) ∉ body

/-- A field of sixteen octets holds it, with a terminator unless its number ends before. -/
def FitsField (field : List UInt8) : Prop := field.length < 16 ∨ field.length = 16 ∧ afterNumber field ≠ []

namespace Grant

variable (grant : Grant)

def text : List UInt8 := grant.head.text ++ grant.body

def field : List UInt8 := grant.id ++ timeoutText grant.timeout

/-- The id is a number in decimal; a field from elsewhere has to start with the same number. -/
def Denoted (field : List UInt8) : Prop :=
  ∃ number : Nat, grant.id = decimal number ∧
    (field ≠ grant.field → unsignedLong ((scanLong field).getD 0) = number)

/-- With that many octets received there is a Transport header, and the first Session field fits and
has the id for its number. -/
def Echoable (room : Nat) : Prop :=
  (strstr setupTransport (grant.text.take room)).isSome ∧
    ∃ field, FieldAt setupSession 13 (grant.text.take room) field ∧ FitsField field ∧ grant.Denoted field

end Grant

def Echoes (recv : List UInt8) (c : Client) (id : List UInt8) : Prop :=
  (rtspCmdSetup recv c).2 = some 0 ∧
    (cmdPlay (rtspCmdSetup recv c).1.state).text = playText (rtspCmdSetup recv c).1.state id

/-! ### The session number -/

theorem sessionId_eq (heard : List UInt8) :
    (strstr setupSession heard).bind sessionId = (fieldBehind setupSession 13 heard).bind fun field =>
      if field.length < 16 ∨ field.length = 16 ∧ afterNumber field ≠ [] then
        some (unsignedLong ((scanLong field).getD 0))
      else none := by
  unfold fieldBehind sessionId
  simp only [Option.bind_eq_bind, Option.bind_assoc]
  rfl

theorem sessionId_eq_some_iff {heard : List UInt8} {number : Nat} :
    (strstr setupSession heard).bind sessionId = some number ↔
      ∃ field, FieldAt setupSession 13 heard field ∧ FitsField field ∧
        unsignedLong ((scanLong field).getD 0) = number := by
  rw [sessionId_eq, Option.bind_eq_some_iff]
  refine exists_congr fun field => ?_
  rw [fieldBehind_eq_some_iff (by decide)]
  refine and_congr_right fun _ => ?_
  rw [FitsField]
  split
  · rename_i fits
    simp [fits]
  · rename_i outside
    simp [outside]

theorem rtspCmdSetup_session (recv : List UInt8) (c : Client) :
    ((rtspCmdSetup recv c).2 = some 0 ↔ Answered recv 200 ∧ (strstr setupTransport (received recv)).isSome ∧
        ((strstr setupSession (received recv)).bind sessionId).isSome) ∧
      ((rtspCmdSetup recv c).2 = some 0 →
        (rtspCmdSetup recv c).1.state.session = (strstr setupSession (received recv)).bind sessionId) := by
  unfold rtspCmdSetup setupTransport setupSession
  rcases answered_or_silent recv with ⟨status, answered⟩ | silent
  · rw [exchange_answered answered]
    by_cases ok : status = 200
    · subst ok
      rw [if_pos rfl]
      cases strstr (ascii "Transport: ") (received recv) with
      | none => simp
      | some _ =>
          cases strstr (ascii "Session: ") (received recv) with
          | none => simp
          | some p =>
              dsimp only
              cases parsed : sessionId p with
              | none => simp [parsed]
              | some id => simp [parsed, answered, Client.rtspCseqInc]
    · rw [if_neg ok]
      exact ⟨⟨fun zero => (by cases zero), fun other => absurd (answered.unique other.1) ok⟩, fun zero => (by cases zero)⟩
  · rw [exchange_silent silent]
    exact ⟨⟨fun ended => (by cases ended), fun other => absurd other.1 (silent 200)⟩, fun ended => (by cases ended)⟩

theorem cmdPlay_text_iff {c : Client} {number : Nat} {id : List UInt8} (held : c.session = some number) :
    (cmdPlay c).text = playText c id ↔ id = decimal number := by
  have text : (cmdPlay c).text = playText c (decimal number) := by
    rw [cmdPlay, held]
    rfl
  rw [text, playText, playText, List.append_left_inj, List.append_right_inj, eq_comm]

theorem afterNumber_digits {digits : List UInt8} (all : ∀ digit ∈ digits, isDigit digit) :
    afterNumber digits = [] := by
  have whole : digits.dropWhile isSpace = digits := by
    cases digits with
    | nil => rfl
    | cons first _ =>
        have plain := isSpace_of_isDigit (all first List.mem_cons_self)
        exact List.dropWhile_cons_of_neg (ne_true_of_eq_false plain)
  have unsigned : ¬(digits.head? = some 45 ∨ digits.head? = some 43) := by
    rintro (minus | plus)
    · exact absurd (all 45 (List.mem_of_mem_head? minus)) (by decide)
    · exact absurd (all 43 (List.mem_of_mem_head? plus)) (by decide)
  unfold afterNumber
  dsimp only
  rw [whole, if_neg unsigned]
  exact List.dropWhile_eq_nil_iff.mpr all

theorem unsignedLong_clampLong (number : Nat) :
    unsignedLong (clampLong number) = number ↔ number < 9223372036854775808 := by
  unfold unsignedLong clampLong
  omega

namespace Grant

variable (grant : Grant)

theorem text_terminated : (0 : UInt8) ∉ grant.text := fun member =>
  (List.mem_append.mp member).elim grant.head.text_terminated grant.terminated

theorem scanLong_field {number : Nat} (same : grant.id = decimal number) :
    scanLong grant.field = some (clampLong number) := by
  have stop : ∀ octet ∈ (timeoutText grant.timeout).head?, isDigit octet = false := by
    intro octet first
    cases timeout : grant.timeout with
    | none =>
        rw [timeout] at first
        cases first
    | some seconds =>
        rw [timeout] at first
        cases first
        decide
  rw [field, same, scanLong_digits (decimal_ne_nil number) (fun _ member => isDigit_of_mem_decimal member) stop,
    digitsValue_decimal]

theorem number_lt {number : Nat} (same : grant.id = decimal number) (fits : FitsField grant.field) :
    number < 9223372036854775808 := by
  have digits : ∀ digit ∈ decimal number, isDigit digit := fun _ => isDigit_of_mem_decimal
  have parts : grant.field.length = (decimal number).length + (timeoutText grant.timeout).length := by
    rw [field, List.length_append, same]
  have short : (decimal number).length ≤ 15 := by
    rcases fits with room | ⟨full, behind⟩
    · omega
    · -- sixteen octets do not end with the number
      cases timeout : grant.timeout with
      | none =>
          have whole : grant.field = decimal number := by
            rw [field, same, timeout, timeoutText, List.append_nil]
          rw [whole] at behind
          exact absurd (afterNumber_digits digits) behind
      | some seconds =>
          rw [timeout, timeoutText, List.length_append] at parts
          have name : (ascii ";timeout=").length = 9 := by decide
          omega
  have small := (length_decimal_le_iff (by decide)).mp short
  omega

theorem denoted_iff {field : List UInt8} (fits : FitsField field) :
    grant.Denoted field ↔ ∃ number : Nat, grant.id = decimal number ∧ unsignedLong ((scanLong field).getD 0) = number := by
  refine exists_congr fun number => and_congr_right fun same => ⟨fun elsewhere => ?_, fun value _ => value⟩
  by_cases own : field = grant.field
  · rw [own] at fits ⊢
    rw [grant.scanLong_field same, Option.getD_some, unsignedLong_clampLong]
    exact grant.number_lt same fits
  · exact elsewhere own

end Grant

/-- PLAY carries the id exactly when it can be echoed. -/
theorem echoes_iff (grant : Grant) (arrived : Nat) (c : Client) :
    Echoes (grant.text.take arrived) c grant.id ↔ grant.Echoable (min 4095 arrived) := by
  obtain ⟨succeeds, session⟩ := rtspCmdSetup_session (grant.text.take arrived) c
  rw [received_take grant.text_terminated] at succeeds session
  constructor
  · rintro ⟨zero, play⟩
    obtain ⟨-, transport, some⟩ := succeeds.mp zero
    obtain ⟨number, held⟩ := Option.isSome_iff_exists.mp some
    obtain ⟨field, found, fits, value⟩ := sessionId_eq_some_iff.mp held
    have same := (cmdPlay_text_iff ((session zero).trans held)).mp play
    exact ⟨transport, field, found, fits, (grant.denoted_iff fits).mpr ⟨number, same, value⟩⟩
  · rintro ⟨transport, field, found, fits, denoted⟩
    obtain ⟨number, same, value⟩ := (grant.denoted_iff fits).mp denoted
    have held := sessionId_eq_some_iff.mpr ⟨field, found, fits, value⟩
    have line : 13 ∈ received (grant.text.take arrived) := by
      rw [received_take grant.text_terminated]
      exact found.mem_stop
    have answered := grant.head.answered grant.terminated line
    have zero := succeeds.mpr ⟨answered, transport, Option.isSome_iff_exists.mpr ⟨number, held⟩⟩
    exact ⟨zero, (cmdPlay_text_iff ((session zero).trans held)).mpr same⟩

/-- Where its own header is the first one, the header has to arrive whole and to fit, and the id to be
a number in decimal. -/
theorem Grant.echoable_iff (grant : Grant) {front rest : List UInt8} {room : Nat}
    (text : grant.text = front ++ (setupSession ++ (grant.field ++ 13 :: rest)))
    (own : FirstAt setupSession front (setupSession ++ (grant.field ++ 13 :: rest))) :
    grant.Echoable room ↔ (strstr setupTransport (grant.text.take room)).isSome ∧
      (front ++ (setupSession ++ grant.field)).length < room ∧ FitsField grant.field ∧
        ∃ number : Nat, grant.id = decimal number := by
  have plain : (13 : UInt8) ∉ grant.field := fun member =>
    (grant.head.isLine _ grant.session).plain (List.mem_append_right _ member)
  unfold Grant.Echoable Grant.Denoted
  refine and_congr_right fun _ => ?_
  simp only [text, fieldAt_take_iff own plain]
  constructor
  · rintro ⟨field, ⟨rfl, inside⟩, fits, number, same, -⟩
    exact ⟨inside, fits, number, same⟩
  · rintro ⟨inside, fits, number, same⟩
    exact ⟨grant.field, ⟨rfl, inside⟩, fits, number, same, fun other => absurd rfl other⟩

def granted (id : List UInt8) (timeout : Option Nat) (token : id ≠ [] ∧ ∀ octet ∈ id, isToken octet)
    (isLine : IsLine (setupSession ++ (id ++ timeoutText timeout)))
    (terminated : (0 : UInt8) ∉ setupSession ++ (id ++ timeoutText timeout)) : Grant where
  head :=
    { reason := ascii "OK"
      headers := [setupTransport ++ ascii "RTP/AVP/TCP;interleaved=0-1", setupSession ++ (id ++ timeoutText timeout)]
      plain := ok_plain
      isLine := List.forall_mem_cons.mpr ⟨⟨by decide, by decide⟩, List.forall_mem_singleton.mpr isLine⟩
      terminated := List.forall_mem_cons.mpr ⟨by decide,
        List.forall_mem_cons.mpr ⟨by decide, List.forall_mem_singleton.mpr terminated⟩⟩ }
  id
  timeout
  body := []
  token
  transport := ⟨_, List.mem_cons_self⟩
  session := List.mem_cons_of_mem _ List.mem_cons_self
  terminated := List.not_mem_nil

def letters : Grant := granted (ascii "0A1B2C3D") none (by decide +kernel) ⟨by decide, by decide⟩ (by decide)

def timed : Grant := granted (ascii "12345678") (some 60) (by decide +kernel) ⟨by decide, by decide⟩ (by decide)

set_option maxRecDepth 10000 in
/-- Letters get lost on the way, and a timeout does not fit in the field. -/
theorem session_lost :
    let client := Client.start (ascii "rtsp://h/s") (ascii "h") 554 0
    (cmdPlay (rtspCmdSetup (letters.text.take 1500) client).1.state).session = some 0 ∧
      ¬ Echoes (letters.text.take 1500) client letters.id ∧
      (rtspCmdSetup (timed.text.take 1500) client).2 = none ∧ ¬ Echoes (timed.text.take 1500) client timed.id := by
  intro client
  have zero : (rtspCmdSetup (letters.text.take 1500) client).1.state.session = some 0 := by decide +kernel
  have outside : (rtspCmdSetup (timed.text.take 1500) client).2 = none := by decide +kernel
  refine ⟨zero, ?_, outside, ?_⟩
  · rintro ⟨-, play⟩
    exact absurd ((cmdPlay_text_iff zero).mp play) (by decide)
  · rintro ⟨zero, -⟩
    rw [outside] at zero
    cases zero

end H264Streaming.H264Dec
