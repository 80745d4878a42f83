import H264Streaming.H264Dec.Responses

/-! The parameter sets of a DESCRIBE response, as rtsp_cmd_describe and rtsp_loop cut them out. -/

set_option autoImplicit false

namespace H264Streaming.H264Dec

open H264Streaming.Bytes H264Streaming.Format H264Streaming.Semantics

/-- rtsp_loop: the texts of the SPS and of the PPS for base64_decode, from the block that `params`
points to. It fails where strchr finds no comma and where strlen finds no terminator in the block. -/
def splitSets (block : List UInt8) : Option (List UInt8 × List UInt8) :=
  if 0 ∈ block then
    match strchr 44 (cString block) with
    | none => none
    | some sep =>
        let pSize := (between (cString block) sep).length
        let sps := block.take pSize
        let rest := (cString block).length - pSize
        let pps := (block.drop (pSize + 1)).take rest
        some (cString sps, cString pps)
  else none

/-- The same behind the commands. rtsp_cmd_describe allocates an octet more than it copies to the block. -/
def parameterSets (fresh : Nat → UInt8) (c : Client) : Option (List UInt8 × List UInt8) :=
  c.params.bind fun params => splitSets (params ++ [fresh params.length])

/-! ### Descriptions -/

def isBase64 (octet : UInt8) : Bool :=
  (65 ≤ octet && octet ≤ 90) || (97 ≤ octet && octet ≤ 122) || isDigit octet || octet = 43 || octet = 47 || octet = 61

def spropKey : List UInt8 := ascii "sprop-parameter-sets="

structure Description where
  head : OkHead
  before : List UInt8
  params : List UInt8
  sps : List UInt8
  pps : List UInt8
  more : List UInt8
  after : List UInt8
  line : (13 : UInt8) ∉ params
  base64 : ∀ octet ∈ sps ++ pps, isBase64 octet
  further : more = [] ∨ ∃ others, more = 59 :: others ∧ (13 : UInt8) ∉ others
  terminated : (0 : UInt8) ∉ before ++ (params ++ (more ++ after))

namespace Description

variable (description : Description)

def front : List UInt8 := description.before ++ (ascii "a=fmtp:" ++ description.params)

def sets : List UInt8 := description.sps ++ 44 :: description.pps

def sdp : List UInt8 :=
  description.front ++ (spropKey ++ (description.sets ++ (description.more ++ 13 :: description.after)))

def text : List UInt8 := description.head.text ++ description.sdp

def arrives (arrived : Nat) : List UInt8 := description.sdp.take (min 4095 arrived - description.head.text.length)

/-- The first key that arrives has the two sets alone in front of a line end, and malloc finds a zero
behind them. -/
def Alone (fresh : Nat → UInt8) (arrived : Nat) : Prop :=
  FieldAt spropKey 13 (description.arrives arrived) description.sets ∧ fresh description.sets.length = 0

end Description

def HandsOver (fresh : Nat → UInt8) (recv : List UInt8) (c : Client) (sps pps : List UInt8) : Prop :=
  (rtspCmdDescribe recv c).2 = some 0 ∧ parameterSets fresh (rtspCmdDescribe recv c).1.state = some (sps, pps)

/-! ### The two functions -/

theorem sprop_take_iff (head : OkHead) {body params : List UInt8} {room : Nat} :
    sprop ((head.text ++ body).take room) = some params ↔
      FieldAt spropKey 13 (body.take (room - head.text.length)) params := by
  have breaks : ascii "\r\n\r\n" = crlf ++ crlf := by decide
  have cut (buf : List UInt8) : sprop buf =
      (strstr (ascii "\r\n\r\n") buf).bind fun p => fieldBehind spropKey 13 (p.drop 4) := rfl
  rw [← fieldBehind_eq_some_iff (by decide), cut, breaks, Option.bind_eq_some_iff]
  constructor
  · rintro ⟨p, empty, found⟩
    obtain ⟨-, rfl⟩ := head.strstr_take_iff.mp empty
    exact found
  · intro found
    have inside : head.text.length ≤ room := by
      by_contra outside
      rw [Nat.sub_eq_zero_of_le (by omega), List.take_zero] at found
      cases found
    exact ⟨_, head.strstr_take_iff.mpr ⟨inside, rfl⟩, found⟩

theorem splitSets_iff {params sps pps : List UInt8} {octet : UInt8} (terminated : (0 : UInt8) ∉ params) :
    splitSets (params ++ [octet]) = some (sps, pps) ↔
      octet = 0 ∧ params = sps ++ 44 :: pps ∧ (44 : UInt8) ∉ sps := by
  unfold splitSets
  by_cases zero : octet = 0
  · subst zero
    rw [if_pos ((zero_mem_append_iff terminated).mpr rfl), cString_append_zero terminated]
    cases comma : strchr 44 params with
    | none =>
        have absent := strchr_eq_none_iff.mp comma
        refine ⟨fun found => (by cases found), fun ⟨_, same, _⟩ => absurd ?_ absent⟩
        rw [same]
        simp
    | some sep =>
        obtain ⟨first, second, rfl, plain, rfl⟩ := strchr_eq_some_iff.mp comma
        simp only [List.mem_append, List.mem_cons, not_or] at terminated
        obtain ⟨noFirst, -, noSecond⟩ := terminated
        have whole : (first ++ 44 :: second) ++ [0] = (first ++ [44]) ++ (second ++ [0]) := by simp
        have sizes : first.length + 1 = (first ++ [44]).length := by simp
        have rest : (first ++ 44 :: second).length - first.length = (second ++ [0]).length := by simp
        dsimp only
        rw [between_append, List.append_assoc first, List.take_left, cString_of_plain noFirst, ← List.append_assoc first,
          whole, sizes, List.drop_left, rest, List.take_length, cString_append_zero noSecond]
        constructor
        · intro found
          cases found
          exact ⟨rfl, rfl, plain⟩
        · rintro ⟨-, same, other⟩
          obtain ⟨rfl, rfl⟩ := append_cons_inj plain other same
          rfl
  · rw [if_neg (mt (zero_mem_append_iff terminated).mp zero)]
    exact ⟨fun found => (by cases found), fun ⟨same, _⟩ => absurd same zero⟩

theorem rtspCmdDescribe_params {recv params : List UInt8} {c : Client} :
    (rtspCmdDescribe recv c).2 = some 0 ∧ (rtspCmdDescribe recv c).1.state.params = some params ↔
      Answered recv 200 ∧ sprop (received recv) = some params := by
  rw [(rtspCmdDescribe_spec recv c).1, Described, and_assoc]
  refine and_congr_right fun answered => ?_
  unfold rtspCmdDescribe
  rw [exchange_answered answered]
  cases sprop (received recv) with
  | none => simp
  | some found => simp

theorem rtspCmdSetup_params (recv : List UInt8) (c : Client) : (rtspCmdSetup recv c).1.state.params = c.params := by
  unfold rtspCmdSetup
  rcases answered_or_silent recv with ⟨status, answered⟩ | silent
  · rw [exchange_answered answered]
    by_cases ok : status = 200
    · rw [if_pos ok]
      cases strstr (ascii "Transport: ") (received recv) with
      | none => rfl
      | some _ =>
          cases strstr (ascii "Session: ") (received recv) with
          | none => rfl
          | some p =>
              dsimp only
              cases sessionId p <;> rfl
    · rw [if_neg ok]
  · rw [exchange_silent silent]

theorem rtspCmdPlay_params (recv : List UInt8) (c : Client) : (rtspCmdPlay recv c).1.state.params = c.params := by
  unfold rtspCmdPlay
  rcases answered_or_silent recv with ⟨status, answered⟩ | silent
  · rw [exchange_answered answered]
    rfl
  · rw [exchange_silent silent]

theorem parameterSets_rtspLoop (fresh : Nat → UInt8) {responses : List (List UInt8)} {c : Client}
    (accepted : Answered (response responses 0) 200) :
    parameterSets fresh (rtspLoop responses c).state =
      parameterSets fresh (rtspCmdDescribe (response responses 1) c.rtspCseqInc).1.state := by
  obtain ⟨accepts, incremented⟩ := rtspCmdOptions_spec (response responses 0) c
  have options := accepts.mpr accepted
  unfold rtspLoop
  rw [proceed_of_true (decide_eq_true options), Traced.follow_state, incremented options]
  cases described : decide ((rtspCmdDescribe (response responses 1) c.rtspCseqInc).2 = some 0) with
  | false => rw [proceed_of_false described]
  | true =>
      rw [proceed_of_true described, Traced.follow_state]
      generalize (rtspCmdDescribe (response responses 1) c.rtspCseqInc).1.state = c
      unfold parameterSets
      cases goes : (rtspCmdSetup (response responses 2) c).2.isSome with
      | false => rw [proceed_of_false goes, rtspCmdSetup_params]
      | true => rw [proceed_of_true goes, Traced.follow_state, rtspCmdPlay_params, rtspCmdSetup_params]

/-! ### What is handed over -/

theorem not_isBase64 {octet : UInt8} {texts : List UInt8} (base64 : ∀ octet ∈ texts, isBase64 octet)
    (foreign : isBase64 octet = false) : octet ∉ texts := fun member => by
  have among := base64 octet member
  rw [foreign] at among
  cases among

namespace Description

variable (description : Description)

theorem sets_plain : (13 : UInt8) ∉ description.sets ∧ (0 : UInt8) ∉ description.sets ∧ (44 : UInt8) ∉ description.sps := by
  have line := not_isBase64 description.base64 (by decide : isBase64 13 = false)
  have zero := not_isBase64 description.base64 (by decide : isBase64 0 = false)
  have comma := not_isBase64 description.base64 (by decide : isBase64 44 = false)
  rw [List.mem_append, not_or] at line zero comma
  refine ⟨?_, ?_, comma.1⟩
  · rw [sets, List.mem_append, List.mem_cons, not_or, not_or]
    exact ⟨line.1, by decide, line.2⟩
  · rw [sets, List.mem_append, List.mem_cons, not_or, not_or]
    exact ⟨zero.1, by decide, zero.2⟩

theorem sdp_terminated : (0 : UInt8) ∉ description.sdp := by
  have rest := description.terminated
  have sets := description.sets_plain.2.1
  simp only [List.mem_append, not_or] at rest
  obtain ⟨before, params, more, after⟩ := rest
  simp only [sdp, front, List.mem_append, List.mem_cons, not_or]
  exact ⟨⟨before, by decide, params⟩, by decide, sets, more, by decide, after⟩

theorem text_terminated : (0 : UInt8) ∉ description.text := fun member =>
  (List.mem_append.mp member).elim description.head.text_terminated description.sdp_terminated

theorem received_text (arrived : Nat) :
    received (description.text.take arrived) = (description.head.text ++ description.sdp).take (min 4095 arrived) :=
  received_take description.text_terminated arrived

theorem sprop_terminated {params : List UInt8} {arrived : Nat}
    (found : sprop (received (description.text.take arrived)) = some params) : (0 : UInt8) ∉ params := by
  rw [received_text, sprop_take_iff] at found
  exact fun zero => description.sdp_terminated (List.mem_of_mem_take (found.mem_text zero))

end Description

/-- Both texts come to base64_decode exactly when they arrive alone, with a zero behind them. -/
theorem hands_over_iff (description : Description) (fresh : Nat → UInt8) (arrived : Nat) (c : Client) :
    HandsOver fresh (description.text.take arrived) c description.sps description.pps ↔
      description.Alone fresh arrived := by
  obtain ⟨noLine, noZero, noComma⟩ := description.sets_plain
  unfold HandsOver Description.Alone parameterSets
  rw [Option.bind_eq_some_iff]
  constructor
  · rintro ⟨zero, params, held, split⟩
    obtain ⟨-, found⟩ := rtspCmdDescribe_params.mp ⟨zero, held⟩
    obtain ⟨blank, rfl, -⟩ := (splitSets_iff (description.sprop_terminated found)).mp split
    rw [description.received_text, sprop_take_iff] at found
    exact ⟨found, blank⟩
  · rintro ⟨alone, blank⟩
    have found : sprop (received (description.text.take arrived)) = some description.sets := by
      rw [description.received_text, sprop_take_iff]
      exact alone
    have line : 13 ∈ received (description.text.take arrived) := by
      rw [description.received_text, List.take_append]
      exact List.mem_append_right _ alone.mem_stop
    have answered := description.head.answered description.sdp_terminated line
    obtain ⟨zero, held⟩ := rtspCmdDescribe_params (c := c) |>.mpr ⟨answered, found⟩
    exact ⟨zero, description.sets, held, (splitSets_iff noZero).mpr ⟨blank, rfl, noComma⟩⟩

theorem Description.alone_iff (description : Description) (fresh : Nat → UInt8) (arrived : Nat)
    (own : FirstAt spropKey description.front
      (spropKey ++ ((description.sets ++ description.more) ++ 13 :: description.after))) :
    description.Alone fresh arrived ↔
      description.more = [] ∧ fresh description.sets.length = 0 ∧
        (description.head.text ++ (description.front ++ (spropKey ++ description.sets))).length < min 4095 arrived := by
  have plain : (13 : UInt8) ∉ description.sets ++ description.more := by
    rw [List.mem_append, not_or]
    refine ⟨description.sets_plain.1, ?_⟩
    rcases description.further with none | ⟨others, same, absent⟩
    · rw [none]
      exact List.not_mem_nil
    · rw [same, List.mem_cons, not_or]
      exact ⟨by decide, absent⟩
  have sdp : description.sdp = description.front ++
      (spropKey ++ ((description.sets ++ description.more) ++ 13 :: description.after)) := by
    rw [Description.sdp, List.append_assoc description.sets]
  rw [Description.Alone, Description.arrives, sdp, fieldAt_take_iff own plain, List.self_eq_append_right, and_assoc]
  refine and_congr_right fun ended => ?_
  rw [ended, List.append_nil, and_comm]
  refine and_congr_right fun _ => ?_
  simp only [List.length_append]
  omega

def profiled (more : List UInt8) (further : more = [] ∨ ∃ others, more = 59 :: others ∧ (13 : UInt8) ∉ others)
    (terminated : (0 : UInt8) ∉ more) : Description where
  head := ⟨ascii "OK", [ascii "CSeq: 1"], ok_plain, by simpa using ⟨by decide, by decide⟩, by decide⟩
  before := ascii "v=0\r\n"
  params := ascii "96 "
  sps := ascii "Z0LgHg=="
  pps := ascii "aM4xUg=="
  more
  after := [10]
  line := by decide
  base64 := by decide +kernel
  further
  terminated := by
    simp only [List.mem_append, not_or]
    exact ⟨by decide, by decide, terminated, by decide⟩

set_option maxRecDepth 10000 in
/-- The parameter behind the sets is taken for part of the PPS; and where malloc leaves no zero, strlen
runs out of the block. -/
theorem profile_joins_pps :
    let client := Client.start (ascii "rtsp://h/s") (ascii "h") 554 0
    let first := profiled (ascii ";profile-level-id=42e01e") (Or.inr ⟨_, rfl, by decide⟩) (by decide)
    let second := profiled [] (Or.inl rfl) (by decide)
    parameterSets (fun _ => 0) (rtspCmdDescribe (first.text.take 1500) client).1.state =
        some (ascii "Z0LgHg==", ascii "aM4xUg==;profile-level-id=42e01e") ∧
      ¬ HandsOver (fun _ => 0) (first.text.take 1500) client first.sps first.pps ∧
      parameterSets (fun _ => 0x21) (rtspCmdDescribe (second.text.take 1500) client).1.state = none ∧
      ¬ HandsOver (fun _ => 0x21) (second.text.take 1500) client second.sps second.pps := by
  intro client first second
  have joined : parameterSets (fun _ => 0) (rtspCmdDescribe (first.text.take 1500) client).1.state =
      some (ascii "Z0LgHg==", ascii "aM4xUg==;profile-level-id=42e01e") := by decide +kernel
  have outside : parameterSets (fun _ => 0x21) (rtspCmdDescribe (second.text.take 1500) client).1.state = none := by
    decide +kernel
  refine ⟨joined, ?_, outside, ?_⟩
  · rintro ⟨-, same⟩
    rw [joined] at same
    exact absurd same (by decide)
  · rintro ⟨-, same⟩
    rw [outside] at same
    cases same

end H264Streaming.H264Dec
