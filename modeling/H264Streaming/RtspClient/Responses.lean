import H264Streaming.Bytes.Numerals
import H264Streaming.Bytes.Search
import H264Streaming.RtspClient.Handling

/-! How whole responses are taken apart: the number a message is dispatched by, and the text
that HandleDescribe passes to the SDP parser.

Neither looks for lines or for the blank line: the number is looked for behind the first C of
the message, and every line goes through the same two tests. -/

set_option autoImplicit false

namespace H264Streaming.RtspClient

open H264Streaming.Bytes

structure LineText where
  octets : List UInt8
  plain : (13 : UInt8) ∉ octets ∧ (10 : UInt8) ∉ octets
  terminated : (0 : UInt8) ∉ octets

def linesText (lines : List LineText) : List UInt8 := lines.flatMap fun line => line.octets ++ crlf

/-! ### The switch of HandleRtspMsg -/

def rtspOptions : Int := 1
def rtspAudioSetup : Int := 4

inductive Branch where
  | options
  | describe
  | videoSetup
  | audioSetup
  | play
  | unknown
  deriving DecidableEq, Repr

def Branch.of (type : Int) : Branch :=
  if type = rtspOptions then .options
  else if type = rtspDescribe then .describe
  else if type = rtspVideoSetup then .videoSetup
  else if type = rtspAudioSetup then .audioSetup
  else if type = rtspPlay then .play
  else .unknown

/-- The case a message is handled by, `none` for an invalid message. -/
def branchTaken (buf : List UInt8) : Option Branch := (msgType buf).map Branch.of

def Branch.handler : Branch → Option Handler
  | .describe => some .describe
  | .videoSetup => some .videoSetup
  | _ => none

theorem dispatch_eq (buf : List UInt8) : dispatch buf = (branchTaken buf).bind Branch.handler := by
  unfold dispatch branchTaken
  cases msgType buf with
  | none => rfl
  | some type =>
      simp only [Option.some.injEq, Option.map_some, Option.bind_some]
      unfold Branch.of rtspOptions rtspDescribe rtspVideoSetup rtspAudioSetup rtspPlay
      split_ifs <;> first | rfl | omega

theorem Branch.of_eq_iff {first second : Int} :
    Branch.of first = Branch.of second ↔
      first = second ∨ ¬ (1 ≤ first ∧ first ≤ 5) ∧ ¬ (1 ≤ second ∧ second ≤ 5) := by
  unfold Branch.of rtspOptions rtspDescribe rtspVideoSetup rtspAudioSetup rtspPlay
  split_ifs <;> simp only [true_iff, false_iff] <;> omega

theorem msgType_eq_some_iff {buf : List UInt8} {type : Int} :
    msgType buf = some type ↔ ∃ clean rest, buf = clean ++ (ascii "CSeq:" ++ rest) ∧ clean ≠ [] ∧
      (67 : UInt8) ∉ clean ∧ scanInt rest = some type := by
  unfold msgType
  constructor
  · intro found
    split at found
    · cases found
    · rename_i filled
      obtain ⟨rest, literal, number⟩ := Option.bind_eq_some_iff.mp found
      have parts := List.takeWhile_append_dropWhile (p := fun octet : UInt8 => octet ≠ 67) (l := buf)
      rw [behind_eq_some_iff.mp literal] at parts
      refine ⟨_, rest, parts.symm, filled, fun member => ?_, number⟩
      have other := List.mem_takeWhile_imp member
      simp at other
  · rintro ⟨clean, rest, rfl, filled, absent, number⟩
    have all : ∀ octet ∈ clean, (decide (octet ≠ 67)) = true := by
      intro octet member
      rw [decide_eq_true_eq]
      rintro rfl
      exact absent member
    have first : ascii "CSeq:" ++ rest = 67 :: (ascii "Seq:" ++ rest) := rfl
    have front : (clean ++ (ascii "CSeq:" ++ rest)).takeWhile (· ≠ 67) = clean := by
      rw [List.takeWhile_append_of_pos all, first, List.takeWhile_cons_of_neg (by simp), List.append_nil]
    have back : (clean ++ (ascii "CSeq:" ++ rest)).dropWhile (· ≠ 67) = ascii "CSeq:" ++ rest := by
      rw [List.dropWhile_append_of_pos all, first, List.dropWhile_cons_of_neg (by simp)]
    rw [front, back, if_neg filled, behind_eq_some_iff.mpr rfl]
    exact number

/-! ### Numbered responses -/

structure NumberedResponse where
  status : LineText
  before : List LineText
  digits : List UInt8
  after : List LineText
  body : List UInt8
  numeral : digits ≠ [] ∧ ∀ digit ∈ digits, isDigit digit
  single : ∀ header ∈ before ++ after, ¬ ascii "CSeq:" <+: header.octets
  terminated : (0 : UInt8) ∉ body

namespace NumberedResponse

variable (response : NumberedResponse)

def number : Nat := digitsValue response.digits

def front : List UInt8 := ascii "RTSP/1.0 " ++ (response.status.octets ++ (crlf ++ linesText response.before))

def back : List UInt8 := crlf ++ (linesText response.after ++ (crlf ++ response.body))

def text : List UInt8 := response.front ++ (ascii "CSeq:" ++ (32 :: (response.digits ++ response.back)))

structure Reordered (other : NumberedResponse) : Prop where
  status : other.status = response.status
  digits : other.digits = response.digits
  headers : (other.before ++ other.after).Perm (response.before ++ response.after)

/-- A number that is not in the switch does not become one of it in an int. -/
def Told : Prop :=
  5 < response.number → response.number < 9223372036854775808 →
    ¬ (1 ≤ response.number % 4294967296 ∧ response.number % 4294967296 ≤ 5)

/-- The first C is that of the header and its number is told; or it begins a text "CSeq:" elsewhere with a
number of the same case. -/
def Dispatchable : Prop :=
  ∃ clean rest, response.text = clean ++ (ascii "CSeq:" ++ rest) ∧ (67 : UInt8) ∉ clean ∧
    if clean = response.front then response.Told
    else ∃ type, scanInt rest = some type ∧ Branch.of type = Branch.of response.number

theorem of_int32_iff (number : Nat) :
    Branch.of (toInt32 (clampLong number)) = Branch.of number ↔
      (5 < number → number < 9223372036854775808 →
        ¬ (1 ≤ number % 4294967296 ∧ number % 4294967296 ≤ 5)) := by
  rw [Branch.of_eq_iff]
  unfold toInt32 clampLong
  omega

theorem scanInt_number :
    scanInt (32 :: (response.digits ++ response.back)) = some (toInt32 (clampLong response.number)) := by
  have space : scanInt (32 :: (response.digits ++ response.back)) =
      scanInt (response.digits ++ response.back) := rfl
  have stop : ∀ octet ∈ response.back.head?, isDigit octet = false := by
    intro octet first
    cases first
    decide
  rw [space, scanInt, scanLong_digits response.numeral.1 response.numeral.2 stop]
  rfl

theorem rest_of_front {rest : List UInt8} (same : response.text = response.front ++ (ascii "CSeq:" ++ rest)) :
    rest = 32 :: (response.digits ++ response.back) :=
  (List.append_cancel_left (List.append_cancel_left same)).symm

theorem clean_ne_nil {clean rest : List UInt8} (same : response.text = clean ++ (ascii "CSeq:" ++ rest)) : clean ≠ [] := by
  rintro rfl
  have first := congrArg List.head? same
  cases first

end NumberedResponse

/-- A response is dispatched on its number exactly when the first C leads to it. -/
theorem dispatches_iff (response : NumberedResponse) :
    branchTaken response.text = some (Branch.of response.number) ↔ response.Dispatchable := by
  rw [branchTaken, Option.map_eq_some_iff]
  constructor
  · rintro ⟨type, found, same⟩
    obtain ⟨clean, rest, text, -, absent, number⟩ := msgType_eq_some_iff.mp found
    refine ⟨clean, rest, text, absent, ?_⟩
    split
    · rename_i own
      subst own
      rw [response.rest_of_front text, response.scanInt_number] at number
      cases number
      exact (NumberedResponse.of_int32_iff response.number).mp same
    · exact ⟨type, number, same⟩
  · rintro ⟨clean, rest, text, absent, told⟩
    have filled := response.clean_ne_nil text
    split at told
    · rename_i own
      subst own
      obtain rfl := response.rest_of_front text
      exact ⟨_, msgType_eq_some_iff.mpr ⟨_, _, text, filled, absent, response.scanInt_number⟩,
        (NumberedResponse.of_int32_iff response.number).mpr told⟩
    · obtain ⟨type, number, same⟩ := told
      exact ⟨type, msgType_eq_some_iff.mpr ⟨clean, rest, text, filled, absent, number⟩, same⟩

namespace NumberedResponse

variable {response : NumberedResponse}

theorem branchTaken_clean (clean : (67 : UInt8) ∉ response.front) :
    branchTaken response.text = some (Branch.of (toInt32 (clampLong response.number))) := by
  have scanned := msgType_eq_some_iff.mpr
    ⟨response.front, _, rfl, response.clean_ne_nil rfl, clean, response.scanInt_number⟩
  rw [branchTaken, text, scanned, Option.map_some]

/-- Without a C in front of the header only its number counts. -/
theorem dispatchable_iff (clean : (67 : UInt8) ∉ response.front) : response.Dispatchable ↔ response.Told := by
  constructor
  · rintro ⟨other, rest, text, absent, told⟩
    have same : response.front = other := (append_cons_inj clean absent text).1
    rwa [if_pos same.symm] at told
  · intro told
    exact ⟨response.front, _, rfl, clean, by rwa [if_pos rfl]⟩

theorem dispatches_reordered (status : (67 : UInt8) ∉ response.status.octets)
    (headers : ∀ header ∈ response.before ++ response.after, (67 : UInt8) ∉ header.octets) (told : response.Told)
    {other : NumberedResponse} (reordered : response.Reordered other) :
    branchTaken other.text = some (Branch.of response.number) := by
  have clean : (67 : UInt8) ∉ other.front := by
    unfold front linesText
    simp only [List.mem_append, List.mem_flatMap, not_or, not_exists, not_and]
    refine ⟨by decide, by rwa [reordered.status], by decide, fun header member => ⟨?_, by decide⟩⟩
    exact headers header (reordered.headers.mem_iff.mp (List.mem_append_left _ member))
  have number : other.number = response.number := congrArg digitsValue reordered.digits
  rw [branchTaken_clean clean, number, (of_int32_iff response.number).mpr told]

end NumberedResponse

theorem success_plain : (13 : UInt8) ∉ ascii "200 OK" ∧ (10 : UInt8) ∉ ascii "200 OK" := by decide

theorem success_terminated : (0 : UInt8) ∉ ascii "200 OK" := by decide

theorem no_body_terminated : (0 : UInt8) ∉ ([] : List UInt8) := List.not_mem_nil

theorem two_numeral : ascii "2" ≠ [] ∧ ∀ digit ∈ ascii "2", isDigit digit := by decide +kernel

def uncached (before after : List LineText)
    (single : ∀ header ∈ before ++ after, ¬ ascii "CSeq:" <+: header.octets) : NumberedResponse where
  status := ⟨ascii "200 OK", success_plain, success_terminated⟩
  before
  digits := ascii "2"
  after
  body := []
  numeral := two_numeral
  single
  terminated := no_body_terminated

def noCache : LineText := ⟨ascii "Cache-Control: no-cache", ⟨by decide, by decide⟩, by decide⟩

theorem noCache_single : ∀ header ∈ [noCache], ¬ ascii "CSeq:" <+: header.octets :=
  List.forall_mem_singleton.mpr (by decide)

set_option maxRecDepth 10000 in
/-- The same headers in another order: with Cache-Control in front of CSeq the message is invalid. -/
theorem cache_control_hides_number :
    let first := uncached [] [noCache] noCache_single
    let second := uncached [noCache] [] noCache_single
    first.Reordered second ∧ branchTaken first.text = some .describe ∧ branchTaken second.text = none ∧
      branchTaken second.text ≠ some (Branch.of second.number) := by
  refine ⟨⟨rfl, rfl, List.Perm.refl _⟩, ?_⟩
  decide +kernel

/-! ### The body of a description -/

def isLetter (octet : UInt8) : Bool := (65 ≤ octet && octet ≤ 90) || (97 ≤ octet && octet ≤ 122)

structure SdpLine where
  letter : UInt8
  value : LineText
  named : isLetter letter

def SdpLine.octets (line : SdpLine) : List UInt8 := line.letter :: 61 :: line.value.octets

structure Description where
  statusLine : LineText
  headers : List LineText
  body : List SdpLine

namespace Description

variable (description : Description)

def head : List (List UInt8) := (description.statusLine :: description.headers).map LineText.octets

def bodyLines : List (List UInt8) := description.body.map SdpLine.octets

def text : List UInt8 :=
  description.head.flatMap (· ++ crlf) ++ crlf ++ description.bodyLines.flatMap (· ++ crlf)

def sdp : List UInt8 := description.bodyLines.flatMap (· ++ [10])

/-- An equals sign in front of the body only beside a "Session:", and no "Session:" in the body. -/
def Separable : Prop :=
  (∀ line ∈ description.head, (61 : UInt8) ∈ line → ascii "Session:" <:+: line) ∧
    ∀ line ∈ description.bodyLines, ¬ ascii "Session:" <:+: line

end Description

/-! ### Lines for the parser -/

def forParser (line : List UInt8) : Bool := !(strstr (ascii "Session:") line).isSome && (strchr 61 line).isSome

theorem forParser_iff {line : List UInt8} :
    forParser line ↔ ¬ ascii "Session:" <:+: line ∧ (61 : UInt8) ∈ line := by
  rw [forParser, Bool.and_eq_true, Bool.not_eq_true', Bool.eq_false_iff, strchr_isSome_iff, Ne, strstr_isSome_iff]

theorem describeLine_text (found : Int × List UInt8) (line : List UInt8) :
    (describeLine found line).2 = found.2 ++ if forParser line then line ++ [10] else [] := by
  unfold describeLine forParser
  cases session : (strstr (ascii "Session:") line).isSome with
  | true => simp
  | false => cases equals : (strchr 61 line).isSome <;> simp

theorem foldl_describeLine_lines (lines : List (List UInt8)) (found : Int × List UInt8) :
    (lines.foldl describeLine found).2 = found.2 ++ (lines.filter forParser).flatMap (· ++ [10]) := by
  induction lines generalizing found with
  | nil => exact (List.append_nil _).symm
  | cons line lines ih =>
      rw [List.foldl_cons, ih, describeLine_text]
      by_cases passed : forParser line <;> simp [passed]

theorem sdpText_eq (buf : List UInt8) :
    sdpText buf = ((strtok crlf buf).filter forParser).flatMap (· ++ [10]) :=
  foldl_describeLine_lines _ _

/-! ### The lines of a description -/

theorem LineText.no_crlf (line : LineText) : ∀ octet ∈ line.octets, octet ∉ crlf := by
  intro octet member ends
  have either : octet = 13 ∨ octet = 10 := by simpa [crlf, ascii] using ends
  rcases either with rfl | rfl
  · exact line.plain.1 member
  · exact line.plain.2 member

theorem SdpLine.no_crlf (line : SdpLine) : ∀ octet ∈ line.octets, octet ∉ crlf := by
  intro octet member
  rcases List.mem_cons.mp member with rfl | behind
  · intro ends
    have either : line.letter = 13 ∨ line.letter = 10 := by simpa [crlf, ascii] using ends
    have letter := line.named
    rcases either with same | same <;> rw [same] at letter <;> cases letter
  · rcases List.mem_cons.mp behind with rfl | value
    · decide
    · exact line.value.no_crlf octet value

namespace Description

variable (description : Description)

def lines : List (List UInt8) := description.head ++ [] :: description.bodyLines

theorem text_eq : description.text = description.lines.flatMap (· ++ crlf) := by
  simp [text, lines]

theorem lines_plain : ∀ line ∈ description.lines, ∀ octet ∈ line, octet ∉ crlf := by
  intro line member
  rcases List.mem_append.mp member with inHead | behind
  · obtain ⟨line, -, rfl⟩ := List.mem_map.mp inHead
    exact line.no_crlf
  · rcases List.mem_cons.mp behind with rfl | inBody
    · exact fun octet none => absurd none List.not_mem_nil
    · obtain ⟨line, -, rfl⟩ := List.mem_map.mp inBody
      exact line.no_crlf

theorem equals_of_mem_body {line : List UInt8} (member : line ∈ description.bodyLines) : (61 : UInt8) ∈ line := by
  obtain ⟨line, -, rfl⟩ := List.mem_map.mp member
  exact List.mem_cons_of_mem _ List.mem_cons_self

theorem sdpText_text : sdpText description.text =
    (description.head.filter forParser ++ description.bodyLines.filter forParser).flatMap (· ++ [10]) := by
  have ends : ∀ octet ∈ crlf, octet ∈ crlf := fun _ member => member
  have blank : ([] :: description.bodyLines).filter forParser = description.bodyLines.filter forParser := rfl
  -- the empty pieces that strtok leaves out would not pass either
  have filled : (description.lines.filter (· ≠ [])).filter forParser = description.lines.filter forParser := by
    rw [List.filter_filter]
    refine List.filter_congr fun line _ => ?_
    cases line with
    | nil => rfl
    | cons octet line => simp
  rw [sdpText_eq, text_eq, strtok_lines ends (by decide) description.lines_plain, filled, lines, List.filter_append,
    blank]

end Description

/-- The parser gets the body alone exactly when the two tests tell it from the headers. -/
theorem isolates_iff (description : Description) (session : Int) :
    (describeLines session description.text).2 = description.sdp ↔ description.Separable := by
  unfold Description.Separable Description.sdp
  rw [describeLines_text, description.sdpText_text]
  have ended : ∀ line ∈ description.lines, (10 : UInt8) ∉ line := fun line member ends =>
    description.lines_plain line member 10 ends (by decide)
  constructor
  · intro same
    have lines := flatMap_lines_inj (fun line member => ended line ?_) (fun line member => ended line ?_) same
    · have passed : ∀ line ∈ description.bodyLines, forParser line := by
        intro line member
        rw [← lines] at member
        rcases List.mem_append.mp member with inHead | inBody
        · exact (List.mem_filter.mp inHead).2
        · exact (List.mem_filter.mp inBody).2
      -- nothing of the body is left out, so nothing else is in
      rw [List.filter_eq_self.mpr passed, List.append_left_eq_self] at lines
      refine ⟨fun line member equals => ?_, fun line member => (forParser_iff.mp (passed line member)).1⟩
      by_contra absent
      exact List.filter_eq_nil_iff.mp lines line member (forParser_iff.mpr ⟨absent, equals⟩)
    · rcases List.mem_append.mp member with inHead | inBody
      · exact List.mem_append_left _ (List.mem_filter.mp inHead).1
      · exact List.mem_append_right _ (List.mem_cons_of_mem _ (List.mem_filter.mp inBody).1)
    · exact List.mem_append_right _ (List.mem_cons_of_mem _ member)
  · rintro ⟨head, body⟩
    have none : description.head.filter forParser = [] := by
      refine List.filter_eq_nil_iff.mpr fun line member passed => ?_
      obtain ⟨absent, equals⟩ := forParser_iff.mp passed
      exact absent (head line member equals)
    have all : description.bodyLines.filter forParser = description.bodyLines :=
      List.filter_eq_self.mpr fun line member =>
        forParser_iff.mpr ⟨body line member, description.equals_of_mem_body member⟩
    rw [none, all, List.nil_append]

def queried : Description where
  statusLine := ⟨ascii "RTSP/1.0 200 OK", ⟨by decide, by decide⟩, by decide⟩
  headers := [⟨ascii "CSeq: 2", ⟨by decide, by decide⟩, by decide⟩,
    ⟨ascii "Content-Base: rtsp://h/s?n=1/", ⟨by decide, by decide⟩, by decide⟩]
  body := [⟨118, ⟨ascii "0", ⟨by decide, by decide⟩, by decide⟩, by decide⟩,
    ⟨115, ⟨ascii "Session: 7", ⟨by decide, by decide⟩, by decide⟩, by decide⟩]

set_option maxRecDepth 10000 in
/-- The header goes to the parser, the session name does not. -/
theorem header_joins_body :
    queried.sdp = ascii "v=0\ns=Session: 7\n" ∧
      (describeLines 0 queried.text).2 = ascii "Content-Base: rtsp://h/s?n=1/\nv=0\n" ∧
      (describeLines 0 queried.text).2 ≠ queried.sdp := by
  decide +kernel

end H264Streaming.RtspClient
