import H264Streaming.H264Dec.Turns

/-! What waits in the buffer of rtsp_loop: frames left behind by the parsing loop, and octets moved
or lost when the buffer is full. -/

set_option autoImplicit false

namespace H264Streaming.H264Dec

open H264Streaming.Bytes H264Streaming.Semantics

/-! ### Complete frames -/

def Demux.lengthField (d : Demux) : Nat := value16 (d.raw.byte (d.rawOffset + 2)) (d.raw.byte (d.rawOffset + 3))

structure HoldsFrame (d : Demux) : Prop where
  magic : d.raw.byte d.rawOffset = 0x24
  arrived : d.rawOffset + 4 + d.lengthField ≤ d.rawLength

section
variable (rtpParse : List UInt8 → Int)

/-- The states in which the parsing loop comes to examine an octet, from `d` on. -/
inductive Examined (d : Demux) : Demux → Prop where
  | first (more : d.rawOffset < d.rawLength) : Examined d d
  | turn {s : Demux} {next : Traced Demux Handed} (earlier : Examined d s) (taken : turn rtpParse s = some next)
      (more : next.state.rawOffset < next.state.rawLength) : Examined d next.state

/-- A jump to read_pending leaves no frame behind, and a frame that has arrived is consumed. -/
structure NeverWaiting (d : Demux) : Prop where
  jump : ∀ s, Examined rtpParse d s → turn rtpParse s = none → ¬ HoldsFrame s
  progress : ∀ s, Examined rtpParse d s → HoldsFrame s →
    ∃ next, turn rtpParse s = some next ∧ s.rawOffset + 4 ≤ next.state.rawOffset

variable {rtpParse}

theorem Examined.rawLength_eq {d s : Demux} (examined : Examined rtpParse d s) : s.rawLength = d.rawLength := by
  induction examined with
  | first more => rfl
  | turn earlier taken more ih =>
      obtain ⟨offset, -, same⟩ := turn_forward taken
      rw [same]
      exact ih

theorem parse_stops {d s : Demux} (examined : s.rawOffset < s.rawLength → Examined rtpParse d s) :
    (∃ t, Examined rtpParse d t ∧ turn rtpParse t = none ∧ (parse rtpParse s).state = t) ∨
      (parse rtpParse s).state.rawLength = 0 := by
  rw [parse_eq]
  split
  · rename_i more
    split
    · rename_i jump
      exact Or.inl ⟨s, examined more, jump, rfl⟩
    · rename_i next taken
      obtain ⟨offset, forward, same⟩ := turn_forward taken
      have shorter : next.state.rawLength - next.state.rawOffset < s.rawLength - s.rawOffset := by
        rw [same]
        dsimp only
        omega
      exact parse_stops fun further => .turn (examined more) taken further
  · exact Or.inr rfl
  termination_by s.rawLength - s.rawOffset

theorem turn_eq_none_iff {d : Demux} (holds : HoldsFrame d) (bounded : d.rawLength ≤ maxBufSize) :
    turn rtpParse d = none ↔ d.lengthField = 0 := by
  have arrived := holds.arrived
  have small : d.rawLength < 4294967296 := Nat.lt_of_le_of_lt bounded (by decide)
  have available : ¬ unsignedSub d.rawLength (d.rawOffset + 4) < d.lengthField := by
    rw [unsignedSub_of_le (by omega) small]
    omega
  unfold Demux.lengthField at available ⊢
  unfold turn
  dsimp only
  rw [if_pos holds.magic, if_neg available]
  split
  · rename_i empty
    exact ⟨fun _ => empty, fun _ => rfl⟩
  · rename_i filled
    constructor
    · intro jump
      cases jump
    · intro empty
      exact absurd empty filled

theorem NeverWaiting.drained {d : Demux} (never : NeverWaiting rtpParse d) : ¬ HoldsFrame (parse rtpParse d).state := by
  rcases parse_stops Examined.first with ⟨s, examined, jump, same⟩ | empty
  · rw [same]
    exact never.jump s examined jump
  · intro holds
    have arrived := holds.arrived
    omega

variable (rtpParse) in
/-- In a pass over any buffer no frame is left waiting exactly when no frame of length zero is met. -/
theorem never_waiting_iff (d : Demux) (bounded : d.rawLength ≤ maxBufSize) :
    NeverWaiting rtpParse d ↔ ∀ s, Examined rtpParse d s → HoldsFrame s → s.lengthField ≠ 0 := by
  have small : ∀ s, Examined rtpParse d s → s.rawLength ≤ maxBufSize :=
    fun s examined => examined.rawLength_eq ▸ bounded
  constructor
  · intro never s examined holds empty
    exact never.jump s examined ((turn_eq_none_iff holds (small s examined)).mpr empty) holds
  · intro filled
    refine ⟨fun s examined jump holds => ?_, fun s examined holds => ?_⟩
    · exact filled s examined holds ((turn_eq_none_iff holds (small s examined)).mp jump)
    · cases taken : turn rtpParse s with
      | none => exact absurd ((turn_eq_none_iff holds (small s examined)).mp taken) (filled s examined holds)
      | some next =>
          refine ⟨next, rfl, ?_⟩
          unfold turn at taken
          dsimp only at taken
          rw [if_pos holds.magic] at taken
          split at taken
          · cases taken
          · split at taken
            · cases taken
            · cases taken
              exact Nat.le_add_right _ _

theorem never_waiting_iff_report :
    NeverWaiting (fun payload => payload.length) (buffered report.bytes) ↔
      ∀ s, Examined (fun payload => payload.length) (buffered report.bytes) s → HoldsFrame s → s.lengthField ≠ 0 :=
  never_waiting_iff _ _ (by decide)

/-- A frame of length zero is complete and not consumed, and the pass ends in front of it. -/
theorem empty_frame_waits :
    HoldsFrame (buffered [0x24, 0, 0, 0]) ∧ turn rtpReturn (buffered [0x24, 0, 0, 0]) = none ∧
      ¬ NeverWaiting rtpReturn (buffered [0x24, 0, 0, 0]) := by
  have holds : HoldsFrame (buffered [0x24, 0, 0, 0]) := ⟨by decide, by decide⟩
  have jump : turn rtpReturn (buffered [0x24, 0, 0, 0]) = none :=
    (turn_eq_none_iff holds (by decide)).mpr (by decide +kernel)
  exact ⟨holds, jump, fun never => never.jump _ (.first (by decide)) jump holds⟩

end

/-! ### A full buffer -/

def Demux.unread (d : Demux) : List UInt8 := d.raw.read d.rawOffset (d.rawLength - d.rawOffset)

/-- The reset block keeps what is unread, and makes room if anything has been parsed. -/
structure Compacted (d : Demux) : Prop where
  kept : (reset d).unread = d.unread
  ordered : (reset d).rawOffset ≤ (reset d).rawLength
  bounded : (reset d).rawLength ≤ maxBufSize
  room : 0 < d.rawOffset → (reset d).rawLength < maxBufSize

theorem reset_moves {d : Demux} (full : maxBufSize ≤ d.rawLength) (two : d.rawOffset + 2 ≤ d.rawLength) :
    reset d = { d with raw := (memset d.raw).write 0 d.unread, rawLength := d.unread.length, rawOffset := 0 } := by
  rw [reset, if_pos full, if_pos (by omega), Demux.unread, Buffer.length_read]

theorem reset_drops {d : Demux} (full : maxBufSize ≤ d.rawLength) (few : ¬ d.rawOffset + 2 ≤ d.rawLength) :
    reset d = { d with raw := memset d.raw, rawLength := 0 } := by
  rw [reset, if_pos full, if_neg]
  unfold maxBufSize at full
  omega

/-- The reset block of a full buffer keeps the unread octets exactly when there are two or more. -/
theorem compacted_iff (d : Demux) (full : maxBufSize ≤ d.rawLength) (ordered : d.rawOffset ≤ d.rawLength)
    (bounded : d.rawLength ≤ maxBufSize) : Compacted d ↔ d.rawOffset + 2 ≤ d.rawLength := by
  constructor
  · intro compacted
    by_contra few
    -- raw_length becomes zero and raw_offset stays at the end
    have behind := compacted.ordered
    rw [reset_drops full few] at behind
    unfold maxBufSize at full
    dsimp only at behind
    omega
  · intro two
    have length : d.unread.length = d.rawLength - d.rawOffset := Buffer.length_read ..
    have stored := (memset d.raw).read_write_self 0 d.unread
    refine ⟨?_, ?_, ?_, ?_⟩
    · rw [reset_moves full two]
      exact stored
    · rw [reset_moves full two]
      exact Nat.zero_le _
    · rw [reset_moves full two]
      dsimp only
      omega
    · intro parsed
      rw [reset_moves full two]
      dsimp only
      omega

def backlog : Demux := ⟨.untouched fun _ => 0x24, 1, maxBufSize, true⟩

theorem compacted_backlog : Compacted backlog ↔ backlog.rawOffset + 2 ≤ backlog.rawLength :=
  compacted_iff backlog (Nat.le_refl _) (by decide) (Nat.le_refl _)

def lastOctet : Demux := ⟨.untouched fun i => if i = 999999 then 0x24 else 0, 999999, maxBufSize, true⟩

/-- The octet is lost, and raw_offset stands behind raw_length. -/
theorem last_octet_lost :
    maxBufSize ≤ lastOctet.rawLength ∧ lastOctet.rawOffset ≤ lastOctet.rawLength ∧
      lastOctet.rawLength ≤ maxBufSize ∧ (reset lastOctet).rawLength = 0 ∧ (reset lastOctet).rawOffset = 999999 ∧
      ¬ Compacted lastOctet := by
  have full : maxBufSize ≤ lastOctet.rawLength := Nat.le_refl _
  have same := reset_drops full (by decide)
  refine ⟨full, by decide, full, ?_, ?_, ?_⟩
  · rw [same]
  · rw [same]
    rfl
  · intro compacted
    have behind := compacted.ordered
    rw [same] at behind
    exact absurd behind (by decide)

end H264Streaming.H264Dec
