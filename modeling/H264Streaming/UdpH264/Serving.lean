import H264Streaming.UdpH264.Passing

/-! The server (Server.c, main) over the requests that it gets: it answers one after another, each with the
whole file, and as often as it is told to. -/

set_option autoImplicit false

namespace H264Streaming.UdpH264

open H264Streaming.Bytes H264Streaming.Format H264Streaming.Semantics

def scanf (isCircle : Int) : List (Option Int) → Int × List (Option Int)
  | some number :: rest => (number, rest)
  | none :: rest => (isCircle, rest)
  | [] => (isCircle, [])

/-- `while(isCircle > 0)`, with so many turns at most. In a pass every turn takes an octet of the file or
meets its end, so the turns suffice. -/
def circle : Nat → Int → Main → Option (Traced Main (List UInt8))
  | 0, _, _ => none
  | turns + 1, isCircle, m =>
      if 0 < isCircle then do
        let isCircle := isCircle - 1
        let sent ← sendFile (m.h264Bitsream.content.length + 2) m
        let m := { sent.state with h264Bitsream := sent.state.h264Bitsream.rewind }
        let (isCircle, typed) := if isCircle = 0 then scanf isCircle m.typed else (isCircle, m.typed)
        let rest ← circle turns isCircle { m with typed }
        return ⟨rest.state, sent.events ++ rest.events⟩
      else some (.quiet m)

def reqBufSize : Nat := 50

structure Request (A : Type) where
  clientaddr : A
  octets : List UInt8

variable {A : Type}

/-- One request. It fails where the zero behind it is stored behind `req_buf`. -/
def answer (turns : Nat) (request : Request A) (m : Main) : Option (Traced Main (A × List UInt8)) :=
  if reqBufSize ≤ request.octets.length then none
  else (circle turns 1 m).map fun sent => ⟨sent.state, sent.events.map (request.clientaddr, ·)⟩

def serve (turns : Nat) (requests : List (Request A)) (m : Main) : Option (Traced Main (A × List UInt8)) :=
  attempt (answer turns) requests m

/-! ### How often the file is sent -/

/-- The passes that the numbers typed ask for behind the last one, and what is left of the numbers. -/
def repeats : List (Option Int) → Nat × List (Option Int)
  | some number :: rest => if 0 < number then (number.toNat + (repeats rest).1, (repeats rest).2) else (0, rest)
  | none :: rest => (0, rest)
  | [] => (0, [])

def served : List (Request A) → List (Option Int) → List (A × Nat)
  | [], _ => []
  | request :: rest, typed => (request.clientaddr, (repeats typed).1 + 1) :: served rest (repeats typed).2

def asked (typed : List (Option Int)) : Nat := (typed.map fun number => (number.getD 0).toNat).sum

theorem repeats_asked (typed : List (Option Int)) : (repeats typed).1 + asked (repeats typed).2 ≤ asked typed := by
  induction typed with
  | nil => exact Nat.le_refl 0
  | cons number rest ih =>
      have sum : asked (number :: rest) = (number.getD 0).toNat + asked rest := List.sum_cons
      rw [sum]
      cases number with
      | none => exact Nat.le_of_eq rfl
      | some number =>
          rw [repeats, Option.getD_some]
          split
          · dsimp only
            omega
          · dsimp only
            omega

/-! ### One client -/

structure Main.Ready (m : Main) (content : List UInt8) : Prop where
  size : m.nFrame.maxSize = bufferSize
  file : m.h264Bitsream = .fopen content

theorem sendAll_passes (count : Nat) (units : List NalUnit) (s : Server) :
    (sendAll (List.replicate (count + 1) units).flatten s).events =
      (sendAll units s).events ++ (sendAll (List.replicate count units).flatten (sendAll units s).state).events := by
  rw [List.replicate_succ, List.flatten_cons, sendAll, run_append, Traced.follow_events]
  rfl

section
variable {coded : CodedUnit} {rest : List CodedUnit} (escaped : ∀ unit ∈ coded :: rest, Escaped unit.unit.bytes)
  (room : ∀ unit ∈ coded :: rest, unit.unit.bytes.length + 8 ≤ bufferSize)
include escaped room

theorem pass_ready {m : Main} (ready : m.Ready (annexB (coded :: rest))) :
    ∃ after, sendFile (m.h264Bitsream.content.length + 2) m =
        some ⟨after, (sendAll (sentUnits (coded :: rest)) m.server).events⟩ ∧
      after.server = (sendAll (sentUnits (coded :: rest)) m.server).state ∧ after.typed = m.typed ∧
      after.nFrame.maxSize = bufferSize ∧ after.h264Bitsream.rewind = .fopen (annexB (coded :: rest)) := by
  obtain ⟨size, file⟩ := ready
  have start : m.At (annexB (coded :: rest)) := ⟨size, by rw [file]; rfl, by rw [file]; rfl⟩
  have content : m.h264Bitsream.content = annexB (coded :: rest) := by rw [file]; rfl
  have turns : rest.length + 2 ≤ m.h264Bitsream.content.length + 2 := by
    have units := length_annexB (coded :: rest)
    rw [content]
    rw [List.length_cons] at units
    omega
  obtain ⟨after, sent, passed⟩ := sendFile_annexB escaped room turns start
  exact ⟨after, sent, passed.server, passed.typed, passed.size, File.rewind_eq (passed.content.trans content)⟩

/-- From its start on the loop sends these units so many times and leaves these numbers. -/
def Circles (content : List UInt8) (units : List NalUnit) (turns : Nat) (isCircle : Int) (typed : List (Option Int))
    (count : Nat) (left : List (Option Int)) : Prop :=
  ∀ m : Main, m.Ready content → m.typed = typed → ∃ after,
    circle turns isCircle m = some ⟨after, (sendAll (List.replicate count units).flatten m.server).events⟩ ∧
      after.typed = left ∧ after.Ready content

omit escaped room in
theorem Circles.done {content : List UInt8} {units : List NalUnit} {turns : Nat} (enough : 0 < turns) {isCircle : Int}
    (done : ¬ 0 < isCircle) (typed : List (Option Int)) : Circles content units turns isCircle typed 0 typed := by
  intro m ready same
  obtain ⟨more, rfl⟩ := Nat.exists_eq_add_one_of_ne_zero (Nat.ne_of_gt enough)
  exact ⟨m, by rw [circle, if_neg done]; rfl, same, ready⟩

theorem Circles.more {turns : Nat} {isCircle : Int} (positive : 0 < isCircle) {typed left : List (Option Int)} {count : Nat}
    {next : Int × List (Option Int)}
    (reads : next = if isCircle - 1 = 0 then scanf (isCircle - 1) typed else (isCircle - 1, typed))
    (behind : Circles (annexB (coded :: rest)) (sentUnits (coded :: rest)) turns next.1 next.2 count left) :
    Circles (annexB (coded :: rest)) (sentUnits (coded :: rest)) (turns + 1) isCircle typed (count + 1) left := by
  intro m ready same
  subst same
  obtain ⟨isCircle', numbers⟩ := next
  obtain ⟨after, sent, server, kept, size, file⟩ := pass_ready escaped room ready
  have again : ({ after with h264Bitsream := after.h264Bitsream.rewind, typed := numbers } : Main).Ready
      (annexB (coded :: rest)) := ⟨size, file⟩
  obtain ⟨final, circled, left, ended⟩ := behind _ again rfl
  refine ⟨final, ?_, left, ended⟩
  rw [circle, if_pos positive, sent]
  simp only [Option.bind_eq_bind, Option.bind_some]
  rw [kept, ← reads, circled, sendAll_passes, ← server]
  rfl

theorem Circles.due {turns count : Nat} {typed left : List (Option Int)}
    (last : Circles (annexB (coded :: rest)) (sentUnits (coded :: rest)) turns 1 typed count left) (more : Nat) :
    Circles (annexB (coded :: rest)) (sentUnits (coded :: rest)) (turns + more) (more + 1 : Nat) typed (count + more)
      left := by
  induction more with
  | zero => exact last
  | succ more ih =>
      have positive : (0 : Int) < (more + 1 + 1 : Nat) := Int.natCast_pos.mpr (Nat.succ_pos _)
      have before : ((more + 1 + 1 : Nat) : Int) - 1 = (more + 1 : Nat) := by omega
      have unread : ¬ ((more + 1 : Nat) : Int) = 0 := Int.natCast_ne_zero.mpr (Nat.succ_ne_zero _)
      exact .more escaped room positive (by rw [before, if_neg unread]) ih

theorem circle_sends (typed : List (Option Int)) {turns : Nat} (enough : (repeats typed).1 + 1 < turns) :
    Circles (annexB (coded :: rest)) (sentUnits (coded :: rest)) turns 1 typed ((repeats typed).1 + 1)
      (repeats typed).2 := by
  induction typed generalizing turns with
  | nil =>
      obtain ⟨turns, rfl⟩ := Nat.exists_eq_add_one_of_ne_zero (Nat.ne_of_gt (Nat.zero_lt_of_lt enough))
      exact .more escaped room Int.one_pos rfl (.done (Nat.lt_of_succ_lt_succ enough) (Int.lt_irrefl 0) [])
  | cons number later ih =>
      obtain ⟨turns, rfl⟩ := Nat.exists_eq_add_one_of_ne_zero (Nat.ne_of_gt (Nat.zero_lt_of_lt enough))
      cases number with
      | none => exact .more escaped room Int.one_pos rfl (.done (Nat.lt_of_succ_lt_succ enough) (Int.lt_irrefl 0) later)
      | some number =>
          refine .more escaped room Int.one_pos rfl ?_
          show Circles _ _ turns number later _ _
          rw [repeats] at enough ⊢
          by_cases positive : 0 < number
          · obtain ⟨more, rfl⟩ : ∃ more : Nat, number = (more + 1 : Nat) := ⟨number.toNat - 1, by omega⟩
            rw [if_pos positive] at enough ⊢
            dsimp only at enough ⊢
            rw [Int.toNat_natCast] at enough ⊢
            obtain ⟨others, rfl⟩ := Nat.exists_eq_add_of_le' (show more ≤ turns by omega)
            have last := (ih (show (repeats later).1 + 1 < others by omega)).due escaped room more
            rwa [show (repeats later).1 + 1 + more = more + 1 + (repeats later).1 by omega] at last
          · rw [if_neg positive] at enough ⊢
            exact .done (Nat.lt_of_succ_lt_succ enough) positive later

end

/-! ### All clients -/

def sentTo [DecidableEq A] (client : A) (sent : List (A × List UInt8)) : List (List UInt8) :=
  (sent.filter fun datagram => datagram.1 = client).map Prod.snd

def passes [DecidableEq A] (client : A) (served : List (A × Nat)) : Nat :=
  ((served.filter fun turn => turn.1 = client).map Prod.snd).sum

def copy (coded : List CodedUnit) : List UInt8 := (sentUnits coded).flatMap fun unit => startCode ++ arrived unit

theorem sentTo_append [DecidableEq A] (client : A) (first second : List (A × List UInt8)) :
    sentTo client (first ++ second) = sentTo client first ++ sentTo client second := by
  rw [sentTo, List.filter_append, List.map_append]
  rfl

theorem sentTo_one [DecidableEq A] (client other : A) (datagrams : List (List UInt8)) :
    sentTo client (datagrams.map (other, ·)) = if other = client then datagrams else [] := by
  unfold sentTo
  by_cases same : other = client
  · simp [same, List.filter_map, Function.comp_def]
  · simp [same, List.filter_map, Function.comp_def]

theorem passes_cons [DecidableEq A] (client other : A) (count : Nat) (served : List (A × Nat)) :
    passes client ((other, count) :: served) = (if other = client then count else 0) + passes client served := by
  unfold passes
  by_cases same : other = client
  · simp [same]
  · simp [same]

theorem header_sentUnits {coded : List CodedUnit} {unit : NalUnit} (sent : unit ∈ sentUnits coded) :
    ∃ read ∈ coded, unit.header = read.unit.header := by
  fun_induction sentUnits coded with
  | case1 => cases sent
  | case2 coded =>
      rw [List.mem_singleton.mp sent]
      exact ⟨coded, List.mem_cons_self, rfl⟩
  | case3 coded rest _ ih =>
      rcases List.mem_cons.mp sent with rfl | later
      · exact ⟨coded, List.mem_cons_self, rfl⟩
      · obtain ⟨read, member, same⟩ := ih later
        exact ⟨read, List.mem_cons_of_mem coded member, same⟩

theorem receive_passes {coded : List CodedUnit} (whole : ∀ unit ∈ coded, unitType unit.unit.header ≠ 28) (count : Nat)
    (s : Server) (c : Client) :
    ∃ next, attempt receive (sendAll (List.replicate count (sentUnits coded)).flatten s).events c =
      some ⟨next, (List.replicate count (copy coded)).flatten⟩ := by
  have types : ∀ unit ∈ (List.replicate count (sentUnits coded)).flatten, unitType unit.header ≠ 28 := by
    intro unit member
    obtain ⟨units, among, within⟩ := List.mem_flatten.mp member
    rw [List.eq_of_mem_replicate among] at within
    obtain ⟨read, member, same⟩ := header_sentUnits within
    rw [same]
    exact whole read member
  obtain ⟨received, ran, octets⟩ := Option.map_eq_some_iff.mp (written_eq _ types s c)
  refine ⟨received.state, ran.trans ?_⟩
  have copies : (List.replicate count (copy coded)).flatten = received.events := by
    rw [octets, List.flatMap_def, List.map_flatten, List.flatten_flatten, List.map_map, List.map_replicate]
    rfl
  rw [copies]

theorem serve_sends [DecidableEq A] {coded : CodedUnit} {rest : List CodedUnit}
    (escaped : ∀ unit ∈ coded :: rest, Escaped unit.unit.bytes)
    (room : ∀ unit ∈ coded :: rest, unit.unit.bytes.length + 8 ≤ bufferSize)
    (whole : ∀ unit ∈ coded :: rest, unitType unit.unit.header ≠ 28)
    {requests : List (Request A)} (short : ∀ request ∈ requests, request.octets.length < 50) {turns : Nat} {m : Main}
    (ready : m.Ready (annexB (coded :: rest))) (enough : asked m.typed + 1 < turns) :
    ∃ sent, serve turns requests m = some sent ∧
      ∀ (client : A) (c : Client), ∃ next, attempt receive (sentTo client sent.events) c =
        some ⟨next, (List.replicate (passes client (served requests m.typed)) (copy (coded :: rest))).flatten⟩ := by
  induction requests generalizing m with
  | nil => exact ⟨.quiet m, rfl, fun client c => ⟨c, rfl⟩⟩
  | cons request requests ih =>
      obtain ⟨fits, others⟩ := List.forall_mem_cons.mp short
      have bound := repeats_asked m.typed
      obtain ⟨after, circled, left, again⟩ :=
        circle_sends escaped room m.typed (show (repeats m.typed).1 + 1 < turns by omega) m ready rfl
      have answered := congrArg (Option.map fun sent : Traced Main (List UInt8) =>
        (⟨sent.state, sent.events.map (request.clientaddr, ·)⟩ : Traced Main (A × List UInt8))) circled
      have answered : answer turns request m = _ := (if_neg (Nat.not_le.mpr fits)).trans answered
      obtain ⟨later, served, received⟩ := ih others again (by rw [left]; omega)
      refine ⟨_, attempt_cons answered served, fun client c => ?_⟩
      rw [UdpH264.served, passes_cons, sentTo_append, sentTo_one]
      by_cases own : request.clientaddr = client
      · obtain ⟨middle, first⟩ := receive_passes whole ((repeats m.typed).1 + 1) m.server c
        obtain ⟨next, second⟩ := received client middle
        rw [if_pos own, if_pos own, ← left]
        refine ⟨next, (attempt_append first second).trans ?_⟩
        rw [List.replicate_add ((repeats m.typed).1 + 1), List.flatten_append]
      · rw [if_neg own, if_neg own, Nat.zero_add, List.nil_append, ← left]
        exact received client c

/-- decode_rtp2h264, given the datagrams of this client with their lengths, writes the file as often as the server
has gone over it for the client's requests, and nothing of what the others get. -/
theorem serves_copies [DecidableEq A] (coded : List CodedUnit) (some_unit : coded ≠ [])
    (escaped : ∀ unit ∈ coded, Escaped unit.unit.bytes)
    (room : ∀ unit ∈ coded, unit.unit.bytes.length + 8 ≤ bufferSize)
    (whole : ∀ unit ∈ coded, unitType unit.unit.header ≠ 28)
    (requests : List (Request A)) (short : ∀ request ∈ requests, request.octets.length < 50)
    (server : Server) (typed : List (Option Int)) (turns : Nat) (enough : asked typed + 1 < turns) :
    ∃ sent, serve turns requests ⟨allocNALU bufferSize, server, .fopen (annexB coded), typed⟩ = some sent ∧
      ∀ (client : A) (c : Client), (attempt receive (sentTo client sent.events) c).map Traced.events =
        some (List.replicate (passes client (served requests typed)) (copy coded)).flatten := by
  obtain ⟨first, rest, rfl⟩ := List.exists_cons_of_ne_nil some_unit
  have ready : (⟨allocNALU bufferSize, server, .fopen (annexB (first :: rest)), typed⟩ : Main).Ready
      (annexB (first :: rest)) := ⟨rfl, rfl⟩
  obtain ⟨sent, ran, received⟩ := serve_sends escaped room whole short ready enough
  refine ⟨sent, ran, fun client c => ?_⟩
  obtain ⟨next, written⟩ := received client c
  rw [written]
  rfl

theorem serves_copies_two :
    ∃ sent, serve 3 [⟨1, [0x67]⟩, ⟨2, [0x67]⟩] ⟨allocNALU bufferSize, idleServer,
        .fopen (annexB [⟨true, ⟨0x67, [0x42]⟩⟩, ⟨false, ⟨0x65, [0x88]⟩⟩]), [some 1, some 0]⟩ = some sent ∧
      (attempt receive (sentTo 1 sent.events) idleClient).map Traced.events =
        some [0, 0, 0, 1, 0x67, 0x42, 0, 0, 0, 1, 0x65, 0x88, 0xFF, 0, 0, 0, 1, 0x67, 0x42, 0, 0, 0, 1, 0x65, 0x88, 0xFF] ∧
      (attempt receive (sentTo 2 sent.events) idleClient).map Traced.events =
        some [0, 0, 0, 1, 0x67, 0x42, 0, 0, 0, 1, 0x65, 0x88, 0xFF] := by
  let coded : List CodedUnit := [⟨true, ⟨0x67, [0x42]⟩⟩, ⟨false, ⟨0x65, [0x88]⟩⟩]
  have escaped : ∀ unit ∈ coded, Escaped unit.unit.bytes := by
    simp only [coded, List.forall_mem_cons]
    exact ⟨⟨by decide, by decide, by decide⟩, ⟨by decide, by decide, by decide⟩, nofun⟩
  obtain ⟨sent, ran, received⟩ := serves_copies coded (List.cons_ne_nil _ _) escaped (by decide) (by decide)
    [(⟨1, [0x67]⟩ : Request Nat), ⟨2, [0x67]⟩] (by decide) idleServer [some 1, some 0] 3 (by decide)
  exact ⟨sent, ran, received 1 idleClient, received 2 idleClient⟩

end H264Streaming.UdpH264
