import H264Streaming.H264Send.Parsing

/-! Whatever the file, no packet of the parser holds a start code. -/

set_option autoImplicit false

namespace H264Streaming.H264Send

open H264Streaming.Bytes H264Streaming.Format

/-- The buffer holds no start code, and what is held back is zeros. -/
structure Scan.Clean (s : Scan) : Prop where
  escaped : Escaped s.buff
  few : s.flag ≤ 3
  zeros : ∀ k < s.flag, s.tmpbuf.byte k = 0

def Whole (nal : H264NalPacket) : Prop := ∃ data, data ≠ [] ∧ Escaped data ∧ nal = .of data

def Turn.Clean : Turn → Prop
  | .next s => s.Clean
  | .packet nal => Whole nal

theorem Scan.Clean.advances {s : Scan} (clean : s.Clean) {octet : UInt8} {turn : Turn} (advances : s.Advances octet turn) :
    turn.Clean := by
  have restart : Scan.Clean { s with flag := 0 } :=
    ⟨clean.escaped, Nat.zero_le 3, fun k below => absurd below (Nat.not_lt_zero k)⟩
  cases advances with
  | held zero less => exact ⟨clean.escaped, Nat.succ_le_succ less, hold_zero clean.zeros⟩
  | stored nonzero less other fits =>
      have grown := clean.escaped.store less nonzero other
      rw [← read_zeros clean.zeros] at grown
      exact ⟨grown, restart.few, restart.zeros⟩
  | ended one held some_octet => exact ⟨s.buff, List.ne_nil_of_length_pos some_octet, clean.escaped, rfl⟩
  | skipped one held none => exact restart
  | dropped other held => exact restart

theorem nextNaluLoop_clean (octets : List UInt8) {s : Scan} (clean : s.Clean) {nal : H264NalPacket}
    {rest : List UInt8} (returned : nextNaluLoop octets s = some (some nal, rest)) : Whole nal := by
  induction octets generalizing s with
  | nil => cases returned
  | cons octet later ih =>
      rcases s.advance_spec clean.few octet with ⟨turn, ran, advances⟩ | ⟨failed, -⟩
      · have kept := clean.advances advances
        rw [nextNaluLoop, ran] at returned
        cases turn with
        | next next => exact ih kept returned
        | packet other =>
            cases returned
            exact kept
      · rw [nextNaluLoop, failed] at returned
        cases returned

/-- Every packet of any number of calls on any file. -/
theorem nextNalus_escaped (content : Nat → UInt8) (calls : Nat) (h264file : List UInt8)
    (results : List (Option H264NalPacket)) (ran : nextNalus content calls h264file = some results)
    (nal : H264NalPacket) (returned : some nal ∈ results) :
    ∃ data, data ≠ [] ∧ Escaped data ∧ nal = .of data := by
  have nothing : Escaped [] := ⟨by decide, by decide, by decide⟩
  have start : Scan.Clean ⟨[], .untouched content, 0⟩ :=
    ⟨nothing, Nat.zero_le 3, fun k below => absurd below (Nat.not_lt_zero k)⟩
  induction calls generalizing h264file results with
  | zero =>
      cases ran
      cases returned
  | succ calls ih =>
      simp only [nextNalus, Option.bind_eq_bind, Option.bind_eq_some_iff] at ran
      obtain ⟨⟨first, rest⟩, here, others, later, same⟩ := ran
      cases same
      rcases List.mem_cons.mp returned with rfl | member
      · exact nextNaluLoop_clean h264file start here
      · exact ih rest others later member

/-- Octets dropped behind three zeros bring together what was apart in the file. -/
theorem nextNalus_escaped_dropped :
    ∃ data, data ≠ [] ∧ Escaped data ∧ H264NalPacket.of [0x65, 1, 0, 2] = .of data :=
  nextNalus_escaped (fun _ => 7) 2 [0x65, 0, 0, 0, 9, 1, 0, 2, 0, 0, 1, 0x41] [some (.of [0x65, 1, 0, 2]), none]
    (by decide +kernel) (.of [0x65, 1, 0, 2]) List.mem_cons_self

end H264Streaming.H264Send
