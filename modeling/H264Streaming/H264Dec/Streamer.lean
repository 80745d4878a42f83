import Mathlib.Data.List.Basic
import H264Streaming.Semantics.Traced

/-! The two threads of h264dec (h264dec/streamer.c): streamer_write on the side of rtsp_loop, and
streamer_worker, which hands on to one client what comes out of the pipe.

The threads act in any order. How many octets a write leaves in the pipe, and how many a send
takes, is part of the act, as neither waits. The pipe stays open.
-/

set_option autoImplicit false

namespace H264Streaming.H264Dec

open H264Streaming.Semantics

/-- `dump` is the file of stream_dump, if there is one; `remote` what the client has been sent, once
accept has returned it. -/
structure Streamer where
  dump : Option (List UInt8)
  pipe : List UInt8
  remote : Option (List UInt8)

def Streamer.start (dump : Option (List UInt8)) : Streamer := ⟨dump, [], none⟩

inductive Act where
  | write (octets : List UInt8) (taken : Nat)
  | accept
  | read (first second : Nat)

/-- What read has left in `buf`, and how much of it each of the two calls of send takes. -/
structure Handover where
  buf : List UInt8
  first : Nat
  second : Nat
  deriving DecidableEq

def Handover.sent (handover : Handover) : List UInt8 :=
  handover.buf.take handover.first ++ handover.buf.take handover.second

def workerSize : Nat := 650000

def streamerWriteTo (octets : List UInt8) (taken : Nat) (s : Streamer) : Streamer :=
  { s with dump := s.dump.map (· ++ octets), pipe := s.pipe ++ octets.take taken }

/-- The inner loop of streamer_worker, which nothing leaves. -/
def streamerRead (first second : Nat) (remote : List UInt8) (s : Streamer) : Traced Streamer Handover :=
  let handover : Handover := ⟨s.pipe.take workerSize, first, second⟩
  -- the pipe does not block: read returns -1, and the loop starts over
  if handover.buf = [] then .quiet s
  else ⟨{ s with pipe := s.pipe.drop workerSize, remote := some (remote ++ handover.sent) }, [handover]⟩

def Act.take (act : Act) (s : Streamer) : Traced Streamer Handover :=
  match act, s.remote with
  | write octets taken, _ => .quiet (streamerWriteTo octets taken s)
  | accept, none => .quiet { s with remote := some [] }
  | accept, some _ => .quiet s
  | read _ _, none => .quiet s
  | read first second, some remote => streamerRead first second remote s

/-! ### Runs -/

def Act.written : Act → Option (List UInt8)
  | write octets _ => some octets
  | accept => none
  | read _ _ => none

def Act.piped : Act → List UInt8
  | write octets taken => octets.take taken
  | accept => []
  | read _ _ => []

structure Relayed (dump : Option (List UInt8)) (acts : List Act) (s : Streamer) (handovers : List Handover) : Prop where
  piped : (handovers.map Handover.buf).flatten ++ s.pipe = acts.flatMap Act.piped
  sent : s.remote.getD [] = handovers.flatMap Handover.sent
  dumped : s.dump = dump.map (· ++ (acts.filterMap Act.written).flatten)
  sized : ∀ handover ∈ handovers, handover.buf ≠ [] ∧ handover.buf.length ≤ workerSize

theorem relayed_step {dump : Option (List UInt8)} {acts : List Act} {s : Streamer} {handovers : List Handover}
    (relayed : Relayed dump acts s handovers) (act : Act) :
    Relayed dump (acts ++ [act]) (act.take s).state (handovers ++ (act.take s).events) := by
  obtain ⟨piped, sent, dumped, sized⟩ := relayed
  -- an act of the worker that reads nothing leaves all but the connection alone
  have idle (other : act.piped = [] ∧ act.written = none) (remote : Option (List UInt8))
      (same : remote.getD [] = s.remote.getD []) :
      Relayed dump (acts ++ [act]) { s with remote } (handovers ++ []) := by
    rw [List.append_nil]
    refine ⟨?_, same.trans sent, ?_, sized⟩
    · rw [List.flatMap_append, List.flatMap_singleton, other.1, List.append_nil]
      exact piped
    · rw [List.filterMap_append, List.filterMap_cons_none other.2, List.filterMap_nil, List.append_nil]
      exact dumped
  cases act with
  | write octets taken =>
      refine ⟨?_, ?_, ?_, ?_⟩
      · simp only [Act.take, streamerWriteTo, Traced.quiet_state, Traced.quiet_events, List.append_nil]
        rw [← List.append_assoc, piped, List.flatMap_append, List.flatMap_singleton, Act.piped]
      · simpa only [Act.take, streamerWriteTo, Traced.quiet_state, Traced.quiet_events, List.append_nil] using sent
      · simp only [Act.take, streamerWriteTo, Traced.quiet_state, dumped, Option.map_map, List.filterMap_append]
        simp [Function.comp_def, Act.written]
      · simpa only [Act.take, Traced.quiet_events, List.append_nil] using sized
  | accept =>
      cases held : s.remote with
      | none =>
          simp only [Act.take, held, Traced.quiet_state, Traced.quiet_events]
          exact idle ⟨rfl, rfl⟩ (some []) (by rw [held]; rfl)
      | some remote =>
          simp only [Act.take, held, Traced.quiet_state, Traced.quiet_events]
          exact idle ⟨rfl, rfl⟩ s.remote rfl
  | read first second =>
      cases held : s.remote with
      | none =>
          simp only [Act.take, held, Traced.quiet_state, Traced.quiet_events]
          exact idle ⟨rfl, rfl⟩ s.remote rfl
      | some remote =>
          by_cases empty : s.pipe.take workerSize = []
          · simp only [Act.take, held, streamerRead, if_pos empty, Traced.quiet_state, Traced.quiet_events]
            exact idle ⟨rfl, rfl⟩ s.remote rfl
          · simp only [Act.take, held, streamerRead, if_neg empty]
            refine ⟨?_, ?_, ?_, ?_⟩
            · rw [List.map_append, List.flatten_append, List.map_singleton, List.flatten_singleton, List.append_assoc,
                List.take_append_drop, piped, List.flatMap_append]
              simp [Act.piped]
            · rw [held, Option.getD_some] at sent
              rw [Option.getD_some, sent, List.flatMap_append, List.flatMap_singleton]
            · rw [dumped, List.filterMap_append, List.filterMap_cons_none rfl, List.filterMap_nil, List.append_nil]
            · intro handover member
              rcases List.mem_append.mp member with earlier | last
              · exact sized handover earlier
              · rw [List.mem_singleton.mp last]
                exact ⟨empty, by rw [List.length_take]; exact Nat.min_le_left _ _⟩

/-- In every interleaving the pipe is a queue: what the worker reads and what is left in it are the octets
that it took, in their order, and the client is sent of each part read what the first send takes and then,
from its start again, what the second one takes. -/
theorem run_relayed (dump : Option (List UInt8)) (acts : List Act) :
    Relayed dump acts (run Act.take acts (.start dump)).state (run Act.take acts (.start dump)).events := by
  refine run_history (P := fun acts s handovers => Relayed dump acts s handovers) ?_ ⟨rfl, rfl, ?_, nofun⟩
  · exact fun acts act _ s handovers relayed => relayed_step relayed act
  · cases dump <;> simp [Streamer.start]

/-! ### With room -/

/-- The pipe and the socket take all that they are handed. -/
def Act.Whole : Act → Prop
  | write octets taken => octets.length ≤ taken
  | accept => True
  | read first second => workerSize ≤ first ∧ workerSize ≤ second

theorem Act.piped_of_whole {acts : List Act} (whole : ∀ act ∈ acts, act.Whole) :
    acts.flatMap Act.piped = (acts.filterMap Act.written).flatten := by
  induction acts with
  | nil => rfl
  | cons act rest ih =>
      obtain ⟨here, later⟩ := List.forall_mem_cons.mp whole
      rw [List.flatMap_cons, ih later]
      cases act with
      | write octets taken =>
          rw [Act.piped, List.take_of_length_le here]
          rfl
      | accept => rfl
      | read first second => rfl

theorem mem_take_events {act : Act} {s : Streamer} {handover : Handover} (member : handover ∈ (act.take s).events) :
    act = .read handover.first handover.second := by
  unfold Act.take at member
  split at member
  · cases member
  · cases member
  · cases member
  · cases member
  · unfold streamerRead at member
    dsimp only at member
    split at member
    · cases member
    · rw [List.mem_singleton.mp member]

theorem run_whole {dump : Option (List UInt8)} {acts : List Act} (whole : ∀ act ∈ acts, act.Whole) :
    ∀ handover ∈ (run Act.take acts (.start dump)).events, handover.sent = handover.buf ++ handover.buf := by
  have one : ∀ act ∈ acts, ∀ s : Streamer, True → True ∧ ∀ handover ∈ (act.take s).events,
      workerSize ≤ handover.first ∧ workerSize ≤ handover.second := by
    intro act member s _
    refine ⟨trivial, fun handover taken => ?_⟩
    have here := whole act member
    rw [mem_take_events taken] at here
    exact here
  intro handover member
  obtain ⟨first, second⟩ := (run_invariant one trivial).2 handover member
  have size := ((run_relayed dump acts).sized handover member).2
  rw [Handover.sent, List.take_of_length_le (Nat.le_trans size first), List.take_of_length_le (Nat.le_trans size second)]

theorem length_doubled (parts : List (List UInt8)) :
    (parts.flatMap fun part => part ++ part).length = 2 * parts.flatten.length := by
  induction parts with
  | nil => rfl
  | cons part rest ih =>
      rw [List.flatMap_cons, List.flatten_cons, List.length_append, List.length_append, List.length_append, ih]
      omega

theorem doubled_eq_flatten_iff {parts : List (List UInt8)} (filled : ∀ part ∈ parts, part ≠ []) :
    (parts.flatMap fun part => part ++ part) = parts.flatten ↔ parts = [] := by
  constructor
  · intro same
    have sizes := congrArg List.length same
    rw [length_doubled] at sizes
    have empty : parts.flatten = [] := List.length_eq_zero_iff.mp (by omega)
    refine List.eq_nil_iff_forall_not_mem.mpr fun part member => filled part member ?_
    exact List.flatten_eq_nil_iff.mp empty part member
  · rintro rfl
    rfl

/-- With room everywhere the client gets each part that is read twice, so it has got what was read only as
long as nothing was; the dump file has all of it once. -/
theorem sends_twice (dump : Option (List UInt8)) (acts : List Act) (whole : ∀ act ∈ acts, act.Whole) :
    let ran := run Act.take acts (.start dump)
    let parts := ran.events.map Handover.buf
    parts.flatten ++ ran.state.pipe = (acts.filterMap Act.written).flatten ∧
      ran.state.remote.getD [] = parts.flatMap (fun part => part ++ part) ∧
      (ran.state.remote.getD [] = parts.flatten ↔ parts = []) ∧
      ran.state.dump = dump.map (· ++ (acts.filterMap Act.written).flatten) := by
  intro ran parts
  obtain ⟨piped, sent, dumped, sized⟩ := run_relayed dump acts
  have doubled : ran.state.remote.getD [] = parts.flatMap (fun part => part ++ part) := by
    rw [sent, List.flatMap_map]
    exact List.flatMap_congr fun handover member => run_whole whole handover member
  refine ⟨by rw [piped, Act.piped_of_whole whole], doubled, ?_, dumped⟩
  rw [doubled]
  refine doubled_eq_flatten_iff fun part member => ?_
  obtain ⟨handover, among, rfl⟩ := List.mem_map.mp member
  exact (sized handover among).1

theorem sends_twice_split :
    let acts := [Act.write [0, 0, 0, 1] 4, .accept, .read workerSize workerSize, .write [0x65, 7] 2,
      .read workerSize workerSize]
    (run Act.take acts (.start none)).state.remote = some [0, 0, 0, 1, 0, 0, 0, 1, 0x65, 7, 0x65, 7] ∧
      ¬ (run Act.take acts (.start none)).state.remote.getD [] =
        ((run Act.take acts (.start none)).events.map Handover.buf).flatten := by
  intro acts
  have whole : ∀ act ∈ acts, act.Whole := by
    simp only [acts, List.forall_mem_cons, Act.Whole]
    exact ⟨by decide, trivial, ⟨Nat.le_refl _, Nat.le_refl _⟩, by decide, ⟨Nat.le_refl _, Nat.le_refl _⟩, nofun⟩
  obtain ⟨-, -, none, -⟩ := sends_twice none acts whole
  refine ⟨by decide +kernel, fun same => ?_⟩
  exact absurd (none.mp same) (by decide +kernel)

end H264Streaming.H264Dec
