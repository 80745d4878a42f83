import H264Streaming.H264Dec.Turns

/-! Streams of any length in the receive loop of rtsp_loop: the buffer is emptied whenever what has arrived
ends with a frame, so a stream may come in bursts that each fit into it. -/

set_option autoImplicit false

namespace H264Streaming.H264Dec

open H264Streaming.Bytes H264Streaming.Semantics

/-! ### Calls that move alike -/

def MovesAlike (first second : List UInt8 → Int) (handed : Handed) : Prop :=
  consumed first handed.channel handed.payload = consumed second handed.channel handed.payload

theorem turn_shorter {rtpParse : List UInt8 → Int} {d : Demux} {next : Traced Demux Handed}
    (taken : turn rtpParse d = some next) (more : d.rawOffset < d.rawLength) :
    next.state.rawLength - next.state.rawOffset < d.rawLength - d.rawOffset := by
  obtain ⟨offset, forward, state⟩ := turn_forward taken
  rw [state]
  dsimp only
  omega

section
variable {first second : List UInt8 → Int}

theorem parse_congr {d : Demux} (alike : ∀ handed ∈ (parse second d).events, MovesAlike first second handed) :
    parse first d = parse second d := by
  rw [parse_eq] at alike
  rw [parse_eq, parse_eq]
  by_cases more : d.rawOffset < d.rawLength
  · rw [if_pos more] at alike ⊢
    rw [if_pos more]
    -- the turn is the same but for how far it moves
    have same : turn first d = turn second d := by
      unfold turn at alike ⊢
      dsimp only at alike ⊢
      split
      · split
        · rfl
        · split
          · rfl
          · rename_i magic filled available
            rw [if_pos magic, if_neg filled, if_neg available] at alike
            have moved := alike _ (List.mem_append_left _ (List.mem_singleton_self _))
            rw [moved]
      · rfl
    rw [same]
    cases taken : turn second d with
    | none => rfl
    | some next =>
        have shorter := turn_shorter taken more
        rw [taken] at alike
        have later := parse_congr fun handed member => alike handed (List.mem_append_right _ member)
        exact Traced.follow_congr later
  · rw [if_neg more, if_neg more]
  termination_by d.rawLength - d.rawOffset

theorem step_congr (chunk : List UInt8) (d : Demux)
    (alike : ∀ handed ∈ (step second chunk d).events, MovesAlike first second handed) :
    step first chunk d = step second chunk d := by
  unfold step at alike ⊢
  dsimp only at alike ⊢
  split
  · rename_i running
    rw [if_pos running] at alike
    split
    · rfl
    · rename_i filled
      rw [if_neg filled] at alike
      exact parse_congr alike
  · rfl

end

/-! ### An empty buffer -/

/-- The loop never waits behind the last octet of the buffer. -/
def Settled (d : Demux) : Prop := d.rawOffset < d.rawLength ∨ d.rawLength = 0

section
variable {rtpParse : List UInt8 → Int}

theorem parse_settled (d : Demux) : Settled (parse rtpParse d).state := by
  rw [parse_eq]
  by_cases more : d.rawOffset < d.rawLength
  · rw [if_pos more]
    cases taken : turn rtpParse d with
    | none => exact Or.inl more
    | some next =>
        have shorter := turn_shorter taken more
        exact parse_settled next.state
  · rw [if_neg more]
    exact Or.inr rfl
  termination_by d.rawLength - d.rawOffset

theorem step_settled (chunk : List UInt8) {d : Demux} (settled : Settled d) : Settled (step rtpParse chunk d).state := by
  have moved : Settled (reset d) := by
    unfold reset
    dsimp only
    split
    · split
      · rename_i full behind
        left
        dsimp only
        omega
      · exact Or.inr rfl
    · exact settled
  unfold step
  dsimp only
  split
  · split
    · exact moved
    · exact parse_settled _
  · exact settled

/-! ### A burst -/

structure Drained (d : Demux) : Prop where
  waiting : Waiting d []
  empty : d.rawLength = 0

theorem drained_start (memory : Nat → UInt8) : Drained (.start memory) := ⟨waiting_start memory, rfl⟩

theorem run_drained {frames : List Frame}
    (moves : ∀ frame ∈ frames, consumed rtpParse frame.channel frame.payload = frame.payload.length)
    (fits : (stream Frame.bytes frames).length < maxBufSize) {chunks : List (List UInt8)}
    (filled : ∀ chunk ∈ chunks, chunk ≠ []) (cutting : chunks.flatten = stream Frame.bytes frames)
    (uncut : ∀ front, front <+: chunks → ¬ CutInLength frames front.flatten) {d : Demux} (drained : Drained d) :
    (run (step rtpParse) chunks d).events = frames.map Frame.handed ∧ Drained (run (step rtpParse) chunks d).state := by
  -- a call that returned the length of everything would move alike
  let plain : List UInt8 → Int := fun payload => payload.length
  have consumes : ∀ payload, plain payload ≤ 0 ∨ plain payload = payload.length := fun _ => Or.inr rfl
  have start : History frames [] d [] := by
    have reach : Reaches Frame.bytes frames [] [] frames [] := by
      refine ⟨rfl, rfl, List.nil_prefix, fun frame _ => ?_⟩
      rw [Frame.length_bytes]
      exact Nat.succ_pos _
    refine Or.inl ⟨fun before initial => ?_, ⟨[], frames, [], reach, drained.waiting, rfl⟩, Nat.le_of_eq drained.empty⟩
    rw [List.prefix_nil.mp initial]
    exact uncut [] List.nil_prefix
  have history : chunks <+: chunks → History frames chunks (run (step plain) chunks d).state
      (run (step plain) chunks d).events := by
    refine run_history (P := fun front d events => front <+: chunks → History frames front d events) ?_ (fun _ => start)
    intro front chunk member d events before initial
    have received : front.flatten ++ chunk <+: stream Frame.bytes frames := by
      obtain ⟨rest, same⟩ := initial
      rw [← cutting, ← same, List.flatten_append, List.flatten_concat]
      exact List.prefix_append _ _
    exact history_step consumes (before ((List.prefix_append front [chunk]).trans initial)) (filled chunk member)
      received fits
  have kept : ∀ chunk ∈ chunks, ∀ d, Settled d → Settled (step plain chunk d).state ∧
      ∀ handed ∈ (step plain chunk d).events, True :=
    fun chunk _ d before => ⟨step_settled chunk before, fun _ _ => trivial⟩
  have settled : Settled (run (step plain) chunks d).state := (run_invariant kept (Or.inr drained.empty)).1
  rcases history List.prefix_rfl with ⟨-, progress⟩ | ⟨⟨before, early, cut⟩, -⟩
  · obtain ⟨⟨done, left, part, reach, waiting, handed⟩, -⟩ := progress
    rw [cutting] at reach
    have all := reach.complete
    have none : part = [] := by
      have octets := reach.received_eq
      rwa [all, List.self_eq_append_right] at octets
    rw [all] at handed
    rw [none] at waiting
    have alike : ∀ handed ∈ (run (step plain) chunks d).events, MovesAlike rtpParse plain handed := by
      rw [handed]
      intro event member
      obtain ⟨frame, among, rfl⟩ := List.mem_map.mp member
      exact (moves frame among).trans (consumed_eq consumes frame.channel frame.payload).symm
    have same : run (step rtpParse) chunks d = run (step plain) chunks d := run_congr (fun chunk _ => step_congr chunk) alike
    rw [same]
    refine ⟨handed, waiting, ?_⟩
    have length := waiting.length
    rw [List.length_nil] at length
    rcases settled with behind | empty
    · omega
    · exact empty
  · exact absurd cut (uncut before early)

/-- Frames that arrive while the buffer fills, from one moment at which it is empty to another, with no cut
between the two octets of the length of a long frame. -/
structure Burst where
  frames : List Frame
  chunks : List (List UInt8)
  filled : ∀ chunk ∈ chunks, chunk ≠ []
  cutting : chunks.flatten = stream Frame.bytes frames
  fits : (stream Frame.bytes frames).length < maxBufSize
  uncut : ∀ front, front <+: chunks → ¬ CutInLength frames front.flatten

/-- All frames of a stream of bursts are handed over. -/
theorem run_bursts {bursts : List Burst}
    (moves : ∀ frame ∈ bursts.flatMap Burst.frames,
      consumed rtpParse frame.channel frame.payload = frame.payload.length)
    {d : Demux} (drained : Drained d) :
    (run (step rtpParse) (bursts.flatMap Burst.chunks) d).events = (bursts.flatMap Burst.frames).map Frame.handed := by
  induction bursts generalizing d with
  | nil => rfl
  | cons burst rest ih =>
      rw [List.flatMap_cons, List.forall_mem_append] at moves
      obtain ⟨handed, again⟩ := run_drained moves.1 burst.fits burst.filled burst.cutting burst.uncut drained
      rw [List.flatMap_cons, List.flatMap_cons, run_append, Traced.follow_events, handed, ih moves.2 again, List.map_append]

end

end H264Streaming.H264Dec
