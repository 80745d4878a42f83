import H264Streaming.Bytes.Numerals
import H264Streaming.H264Dec.Commands

/-! Order, numbering and size of the requests of rtsp_loop. -/

set_option autoImplicit false

namespace H264Streaming.H264Dec

open H264Streaming.Bytes H264Streaming.Semantics

/-- A response came and was read to the end of its status line. -/
def Answered (recv : List UInt8) (status : Int) : Prop :=
  recv ≠ [] ∧ rtspResponseStatus (received recv) = some status

instance (recv : List UInt8) (status : Int) : Decidable (Answered recv status) :=
  inferInstanceAs (Decidable (_ ∧ _))

def Described (recv : List UInt8) : Prop := Answered recv 200 ∧ (sprop (received recv)).isSome

/-- An answer to SETUP with another status, or without its Transport or Session header. -/
def Refused (recv : List UInt8) : Prop :=
  ∃ status, Answered recv status ∧ (status = 200 →
    strstr (ascii "Transport: ") (received recv) = none ∨ strstr (ascii "Session: ") (received recv) = none)

theorem Answered.unique {recv : List UInt8} {first second : Int} (one : Answered recv first)
    (other : Answered recv second) : first = second :=
  Option.some.inj (one.2.symm.trans other.2)

/-! ### One command -/

section
variable {request : Sent} {recv : List UInt8} {handle : List UInt8 → Int → Option (Client × Int)} {c : Client}

theorem exchange_events : (exchange request recv handle c).1.events = [request] := by
  unfold exchange
  split
  · rfl
  · split <;> rfl

theorem exchange_silent (silent : ∀ status, ¬ Answered recv status) :
    exchange request recv handle c = (⟨c, [request]⟩, none) := by
  unfold exchange
  by_cases empty : recv = []
  · rw [if_pos empty]
  · rw [if_neg empty]
    cases status : rtspResponseStatus (received recv) with
    | none => rfl
    | some code => exact absurd ⟨empty, status⟩ (silent code)

theorem exchange_answered {status : Int} (answered : Answered recv status) :
    exchange request recv handle c =
      match handle (received recv) status with
      | none => (⟨c, [request]⟩, none)
      | some (c, ret) => (⟨c, [request]⟩, some ret) := by
  unfold exchange
  rw [if_neg answered.1, answered.2]
  rfl

end

theorem answered_or_silent (recv : List UInt8) :
    (∃ status, Answered recv status) ∨ ∀ status, ¬ Answered recv status := by
  by_cases some_answer : ∃ status, Answered recv status
  · exact Or.inl some_answer
  · exact Or.inr fun status answered => some_answer ⟨status, answered⟩

theorem rtspCmdOptions_spec (recv : List UInt8) (c : Client) :
    ((rtspCmdOptions recv c).2 = some 0 ↔ Answered recv 200) ∧
      ((rtspCmdOptions recv c).2 = some 0 → (rtspCmdOptions recv c).1.state = c.rtspCseqInc) := by
  unfold rtspCmdOptions
  rcases answered_or_silent recv with ⟨status, answered⟩ | silent
  · rw [exchange_answered answered]
    refine ⟨⟨fun zero => ?_, fun other => ?_⟩, fun _ => rfl⟩
    · by_cases ok : status = 200
      · exact ok ▸ answered
      · simp [ok] at zero
    · rw [if_pos (answered.unique other)]
  · rw [exchange_silent silent]
    exact ⟨⟨fun ended => (by cases ended), fun other => absurd other (silent 200)⟩, fun ended => (by cases ended)⟩

theorem rtspCmdDescribe_spec (recv : List UInt8) (c : Client) :
    ((rtspCmdDescribe recv c).2 = some 0 ↔ Described recv) ∧
      ((rtspCmdDescribe recv c).2 = some 0 →
        (rtspCmdDescribe recv c).1.state.rtspCseq = c.rtspCseq + 1 ∧
          (rtspCmdDescribe recv c).1.state.session = c.session) := by
  unfold rtspCmdDescribe Described
  rcases answered_or_silent recv with ⟨status, answered⟩ | silent
  · rw [exchange_answered answered]
    cases found : sprop (received recv) with
    | none => simp
    | some params =>
        refine ⟨⟨fun zero => ⟨?_, rfl⟩, fun other => ?_⟩, fun _ => ⟨rfl, rfl⟩⟩
        · by_cases ok : status = 200
          · exact ok ▸ answered
          · simp [ok] at zero
        · rw [answered.unique other.1]
          rfl
  · rw [exchange_silent silent]
    exact ⟨⟨fun ended => (by cases ended), fun other => absurd other.1 (silent 200)⟩, fun ended => (by cases ended)⟩

theorem rtspCmdSetup_spec (recv : List UInt8) (c : Client) :
    ((rtspCmdSetup recv c).2 = none ∧ ¬ Refused recv) ∨
      ((rtspCmdSetup recv c).2.isSome = true ∧ Refused recv ∧ (rtspCmdSetup recv c).1.state = c) ∨
      ((rtspCmdSetup recv c).2.isSome = true ∧ ¬ Refused recv ∧ Answered recv 200 ∧
        (rtspCmdSetup recv c).1.state.rtspCseq = c.rtspCseq + 1 ∧ (rtspCmdSetup recv c).1.state.session ≠ none) := by
  unfold rtspCmdSetup
  rcases answered_or_silent recv with ⟨status, answered⟩ | silent
  · rw [exchange_answered answered]
    by_cases ok : status = 200
    · subst ok
      rw [if_pos rfl]
      cases transport : strstr (ascii "Transport: ") (received recv) with
      | none => exact Or.inr (Or.inl ⟨rfl, ⟨200, answered, fun _ => Or.inl transport⟩, rfl⟩)
      | some _ =>
          cases header : strstr (ascii "Session: ") (received recv) with
          | none => exact Or.inr (Or.inl ⟨rfl, ⟨200, answered, fun _ => Or.inr header⟩, rfl⟩)
          | some p =>
              -- both headers are there
              have granted : ¬ Refused recv := by
                rintro ⟨other, same, absent⟩
                rcases absent (same.unique answered) with none | none
                · cases transport.symm.trans none
                · cases header.symm.trans none
              dsimp only
              cases parsed : sessionId p with
              | none => exact Or.inl ⟨rfl, granted⟩
              | some id => exact Or.inr (Or.inr ⟨rfl, granted, answered, rfl, Option.some_ne_none id⟩)
    · rw [if_neg ok]
      exact Or.inr (Or.inl ⟨rfl, ⟨status, answered, fun same => absurd same ok⟩, rfl⟩)
  · rw [exchange_silent silent]
    exact Or.inl ⟨rfl, fun ⟨status, answered, _⟩ => silent status answered⟩

/-! ### The whole sequence -/

/-- PLAY is sent only behind three answers with status 200 and with a session, and the requests
are numbered from zero on. -/
structure Ordered (responses : List (List UInt8)) (sent : List Sent) : Prop where
  methods : sent.map Sent.method <+: [.options, .describe, .setup, .play]
  play : ∀ request ∈ sent, request.method = .play → Answered (response responses 0) 200 ∧
    Answered (response responses 1) 200 ∧ Answered (response responses 2) 200 ∧ request.session ≠ none
  cseq : sent.map Sent.cseq = List.range sent.length

theorem proceed_of_true {command : Traced Client Sent × Option Int} {allows : Option Int → Bool}
    {next : Client → Traced Client Sent} (allowed : allows command.2 = true) :
    proceed command allows next = command.1.follow next :=
  if_pos allowed

theorem proceed_of_false {command : Traced Client Sent × Option Int} {allows : Option Int → Bool}
    {next : Client → Traced Client Sent} (stopped : allows command.2 = false) :
    proceed command allows next = command.1 := by
  unfold proceed
  rw [stopped]
  exact if_neg Bool.false_ne_true

inductive Outcome (responses : List (List UInt8)) : List Sent → Prop where
  | unanswered (first : Client) (zero : first.rtspCseq = 0) (stopped : ¬ Answered (response responses 0) 200) :
      Outcome responses [cmdOptions first]
  | undescribed (first second : Client) (zero : first.rtspCseq = 0) (one : second.rtspCseq = 1)
      (stopped : ¬ Described (response responses 1)) :
      Outcome responses [cmdOptions first, cmdDescribe second]
  | ended (first second third : Client) (zero : first.rtspCseq = 0) (one : second.rtspCseq = 1)
      (two : third.rtspCseq = 2) (stopped : ¬ Refused (response responses 2)) :
      Outcome responses [cmdOptions first, cmdDescribe second, cmdSetup third]
  | refused (first second third : Client) (accepted : Answered (response responses 0) 200)
      (described : Described (response responses 1)) (refused : Refused (response responses 2))
      (fresh : third.session = none) :
      Outcome responses [cmdOptions first, cmdDescribe second, cmdSetup third, cmdPlay third]
  | granted (first second third fourth : Client) (zero : first.rtspCseq = 0) (one : second.rtspCseq = 1)
      (two : third.rtspCseq = 2) (three : fourth.rtspCseq = 3) (accepted : Answered (response responses 0) 200)
      (described : Described (response responses 1)) (unrefused : ¬ Refused (response responses 2))
      (answered : Answered (response responses 2) 200) (held : fourth.session ≠ none) :
      Outcome responses [cmdOptions first, cmdDescribe second, cmdSetup third, cmdPlay fourth]

theorem rtspLoop_outcome (responses : List (List UInt8)) (c : Client) (zero : c.rtspCseq = 0)
    (fresh : c.session = none) : Outcome responses (rtspLoop responses c).events := by
  have sendsOptions : (rtspCmdOptions (response responses 0) c).1.events = [cmdOptions c] := exchange_events
  obtain ⟨accepts, next⟩ := rtspCmdOptions_spec (response responses 0) c
  unfold rtspLoop
  by_cases accepted : Answered (response responses 0) 200
  · have options := accepts.mpr accepted
    rw [proceed_of_true (decide_eq_true options), Traced.follow_events, sendsOptions, next options]
    have one : c.rtspCseqInc.rtspCseq = 1 := congrArg (· + 1) zero
    have unset : c.rtspCseqInc.session = none := fresh
    generalize c.rtspCseqInc = second at one unset
    have sendsDescribe : (rtspCmdDescribe (response responses 1) second).1.events = [cmdDescribe second] :=
      exchange_events
    obtain ⟨describes, after⟩ := rtspCmdDescribe_spec (response responses 1) second
    by_cases described : Described (response responses 1)
    · have describe := describes.mpr described
      obtain ⟨number, session⟩ := after describe
      rw [proceed_of_true (decide_eq_true describe), Traced.follow_events, sendsDescribe]
      generalize (rtspCmdDescribe (response responses 1) second).1.state = third at number session
      have two : third.rtspCseq = 2 := by rw [number, one]
      have sendsSetup : (rtspCmdSetup (response responses 2) third).1.events = [cmdSetup third] := exchange_events
      have sendsPlay : ∀ c : Client, (rtspCmdPlay (response responses 3) c).1.events = [cmdPlay c] :=
        fun _ => exchange_events
      -- PLAY follows in the second and third case alike
      rcases rtspCmdSetup_spec (response responses 2) third with
        ⟨none, unrefused⟩ | ⟨goes, refused, same⟩ | ⟨goes, unrefused, answered, count, held⟩
      · rw [proceed_of_false (none ▸ rfl), sendsSetup]
        exact .ended c second third zero one two unrefused
      · rw [proceed_of_true goes, Traced.follow_events, sendsSetup, same, sendsPlay]
        exact .refused c second third accepted described refused (session.trans unset)
      · rw [proceed_of_true goes, Traced.follow_events, sendsSetup, sendsPlay]
        exact .granted c second third _ zero one two (by rw [count, two]) accepted described unrefused answered held
    · rw [proceed_of_false (decide_eq_false fun describe => described (describes.mp describe)), sendsDescribe]
      exact .undescribed c second zero one described
  · rw [proceed_of_false (decide_eq_false fun options => accepted (accepts.mp options)), sendsOptions]
    exact .unanswered c zero accepted

/-- The requests are in order and numbered unless SETUP is refused: PLAY is then sent with the
CSeq of SETUP and a session that was never assigned. -/
theorem requests_ordered_iff (stream streamHost : List UInt8) (streamPort stack : Nat)
    (responses : List (List UInt8)) :
    Ordered responses (rtspLoop responses (.start stream streamHost streamPort stack)).events ↔
      ¬ (Answered (response responses 0) 200 ∧ Described (response responses 1) ∧
        Refused (response responses 2)) := by
  have outcome := rtspLoop_outcome responses (.start stream streamHost streamPort stack) rfl rfl
  generalize (rtspLoop responses (.start stream streamHost streamPort stack)).events = sent at outcome
  cases outcome with
  | unanswered first zero stopped =>
      refine ⟨fun _ bad => stopped bad.1, fun _ => ⟨?_, ?_, ?_⟩⟩
      · exact List.prefix_append [Method.options] _
      · simp [cmdOptions]
      · simp [cmdOptions, zero]
  | undescribed first second zero one stopped =>
      refine ⟨fun _ bad => stopped bad.2.1, fun _ => ⟨?_, ?_, ?_⟩⟩
      · exact List.prefix_append [Method.options, .describe] _
      · simp [cmdOptions, cmdDescribe]
      · simp [cmdOptions, cmdDescribe, zero, one, List.range_succ]
  | ended first second third zero one two stopped =>
      refine ⟨fun _ bad => stopped bad.2.2, fun _ => ⟨?_, ?_, ?_⟩⟩
      · exact List.prefix_append [Method.options, .describe, .setup] _
      · simp [cmdOptions, cmdDescribe, cmdSetup]
      · simp [cmdOptions, cmdDescribe, cmdSetup, zero, one, two, List.range_succ]
  | refused first second third accepted described refused fresh =>
      refine ⟨fun ordered => ?_, fun good => absurd ⟨accepted, described, refused⟩ good⟩
      exact absurd fresh (ordered.play (cmdPlay third) (by simp) rfl).2.2.2
  | granted first second third fourth zero one two three accepted described unrefused answered held =>
      refine ⟨fun _ bad => unrefused bad.2.2, fun _ => ⟨List.prefix_rfl, ?_, ?_⟩⟩
      · intro request member play
        have last : request = cmdPlay fourth := by
          simp only [List.mem_cons, List.not_mem_nil, or_false] at member
          rcases member with same | same | same | same
          · cases same ▸ play
          · cases same ▸ play
          · cases same ▸ play
          · exact same
        rw [last]
        exact ⟨accepted, described.1, answered, held⟩
      · simp [cmdOptions, cmdDescribe, cmdSetup, cmdPlay, zero, one, two, three, List.range_succ]

set_option maxRecDepth 10000 in
/-- SETUP answered with 454: PLAY follows with its number, and without a session. -/
theorem play_without_session :
    let responses := [ascii "RTSP/1.0 200 OK\r\nCSeq: 0\r\n\r\n",
      ascii "RTSP/1.0 200 OK\r\nCSeq: 1\r\n\r\na=fmtp:96 sprop-parameter-sets=AA,BB\r\n",
      ascii "RTSP/1.0 454 Session Not Found\r\nCSeq: 2\r\n\r\n"]
    (rtspLoop responses (.start (ascii "rtsp://h/s") (ascii "h") 554 0)).events.map
        (fun sent => (sent.method, sent.cseq, sent.session)) =
      [(.options, 0, none), (.describe, 1, none), (.setup, 2, none), (.play, 2, none)] := by
  decide +kernel

/-! ### Room for the requests -/

structure Client.Short (c : Client) (cseq : Nat) : Prop where
  stream : c.stream.length ≤ 4000
  streamHost : c.streamHost.length ≤ 4000
  streamPort : c.streamPort < 18446744073709551616
  session : ∀ session ∈ c.session, session < 18446744073709551616
  stack : c.stack < 18446744073709551616
  rtspCseq : c.rtspCseq ≤ cseq

namespace Client.Short

variable {c : Client} {cseq : Nat} (short : c.Short cseq)

include short

theorem next : c.Short (cseq + 1) := { short with rtspCseq := Nat.le_succ_of_le short.rtspCseq }

theorem inc : c.rtspCseqInc.Short (cseq + 1) := { short with rtspCseq := Nat.succ_le_succ short.rtspCseq }

theorem described (params : Option (List UInt8)) : { c.rtspCseqInc with params }.Short (cseq + 1) := { short.inc with }

theorem granted {id : Nat} (long : id < 18446744073709551616) :
    (Client.rtspCseqInc { c with session := some id }).Short (cseq + 1) :=
  { short.inc with session := fun _ same => Option.some.inj same ▸ long }

theorem fits (few : cseq < 10) {request : Sent}
    (among : request = cmdOptions c ∨ request = cmdDescribe c ∨ request = cmdSetup c ∨ request = cmdPlay c) :
    request.Fits := by
  have number : (decimal c.rtspCseq).length ≤ 1 :=
    (length_decimal_le_iff (by decide)).mpr (Nat.lt_of_le_of_lt short.rtspCseq few)
  have long : ∀ n < 18446744073709551616, (decimal (n : Nat)).length ≤ 20 := fun n small =>
    (length_decimal_le_iff (by decide)).mpr (Nat.lt_trans small (by decide))
  have port := long c.streamPort short.streamPort
  have session : (decimal (c.session.getD c.stack : Nat)).length ≤ 20 := by
    refine long _ ?_
    cases held : c.session with
    | none => exact short.stack
    | some session => exact short.session session held
  have stream := short.stream
  have host := short.streamHost
  unfold Sent.Fits requestSize
  rcases among with rfl | rfl | rfl | rfl
  · simp only [cmdOptions, List.length_append, ascii, List.length_map]
    simp
    omega
  · simp only [cmdDescribe, List.length_append, ascii, List.length_map]
    simp
    omega
  · simp only [cmdSetup, List.length_append, ascii, List.length_map]
    simp
    omega
  · simp only [cmdPlay, List.length_append, ascii, List.length_map]
    simp
    omega

end Client.Short

theorem exchange_short {request : Sent} {recv : List UInt8} {handle : List UInt8 → Int → Option (Client × Int)}
    {c : Client} {cseq : Nat} (short : c.Short cseq)
    (handles : ∀ buf status next, handle buf status = some next → next.1.Short (cseq + 1)) :
    (exchange request recv handle c).1.state.Short (cseq + 1) := by
  unfold exchange
  split
  · exact short.next
  · split
    · exact short.next
    · next read =>
        obtain ⟨status, -, handled⟩ := Option.bind_eq_some_iff.mp read
        exact handles _ status _ handled

theorem rtspCmdOptions_short {c : Client} {cseq : Nat} (short : c.Short cseq) (recv : List UInt8) :
    (rtspCmdOptions recv c).1.state.Short (cseq + 1) :=
  exchange_short short fun _ _ _ same => Option.some.inj same ▸ short.inc

theorem rtspCmdDescribe_short {c : Client} {cseq : Nat} (short : c.Short cseq) (recv : List UInt8) :
    (rtspCmdDescribe recv c).1.state.Short (cseq + 1) := by
  refine exchange_short short fun buf status next same => ?_
  cases found : sprop buf with
  | none =>
      rw [found] at same
      exact Option.some.inj same ▸ short.inc
  | some params =>
      rw [found] at same
      exact Option.some.inj same ▸ short.described (some params)

theorem sessionId_lt {p : List UInt8} {id : Nat} (read : sessionId p = some id) : id < 18446744073709551616 := by
  unfold sessionId at read
  obtain ⟨sep, -, field⟩ := Option.bind_eq_some_iff.mp read
  dsimp only at field
  split at field
  · rw [← Option.some.inj field]
    omega
  · cases field

theorem rtspCmdSetup_short {c : Client} {cseq : Nat} (short : c.Short cseq) (recv : List UInt8) :
    (rtspCmdSetup recv c).1.state.Short (cseq + 1) := by
  refine exchange_short short fun buf status next same => ?_
  split at same
  · split at same
    · exact Option.some.inj same ▸ short.next
    · split at same
      · exact Option.some.inj same ▸ short.next
      · obtain ⟨id, read, rfl⟩ := Option.map_eq_some_iff.mp same
        exact short.granted (sessionId_lt read)
  · exact Option.some.inj same ▸ short.next

theorem mem_proceed {command : Traced Client Sent × Option Int} {allows : Option Int → Bool}
    {next : Client → Traced Client Sent} {request : Sent} (member : request ∈ (proceed command allows next).events) :
    request ∈ command.1.events ∨ request ∈ (next command.1.state).events := by
  unfold proceed at member
  split at member
  · exact List.mem_append.mp member
  · exact Or.inl member

/-- With a URL and a host of up to 4000 octets every request of every run fits. -/
theorem requests_fit {stream streamHost : List UInt8} {streamPort stack : Nat} (url : stream.length ≤ 4000)
    (host : streamHost.length ≤ 4000) (port : streamPort < 18446744073709551616) (word : stack < 18446744073709551616)
    (responses : List (List UInt8)) :
    ∀ request ∈ (rtspLoop responses (.start stream streamHost streamPort stack)).events, request.Fits := by
  intro request member
  have start : (Client.start stream streamHost streamPort stack).Short 0 :=
    ⟨url, host, port, fun session none => absurd none (Option.not_mem_none session), word, Nat.le_refl 0⟩
  have sent : ∀ {request own : Sent} {recv : List UInt8} {handle : List UInt8 → Int → Option (Client × Int)} {c : Client},
      request ∈ (exchange own recv handle c).1.events → request = own := by
    intro request own recv handle c among
    rw [exchange_events] at among
    exact List.mem_singleton.mp among
  -- each command keeps the client short for the next one
  have second := rtspCmdOptions_short start (response responses 0)
  rcases mem_proceed member with options | member
  · exact start.fits (by decide) (Or.inl (sent options))
  have third := rtspCmdDescribe_short second (response responses 1)
  rcases mem_proceed member with describe | member
  · exact second.fits (by decide) (Or.inr (Or.inl (sent describe)))
  have fourth := rtspCmdSetup_short third (response responses 2)
  rcases mem_proceed member with setup | play
  · exact third.fits (by decide) (Or.inr (Or.inr (Or.inl (sent setup))))
  · exact fourth.fits (by decide) (Or.inr (Or.inr (Or.inr (sent play))))

end H264Streaming.H264Dec
