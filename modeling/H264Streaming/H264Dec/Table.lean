import H264Streaming.H264Dec.Compound

/-! How far rtcp_decode reads, and how many entries of its table it needs, for any payload. -/

set_option autoImplicit false

namespace H264Streaming.H264Dec

open H264Streaming.Bytes H264Streaming.Semantics

/-- It comes back with an entry of the table for each packet and reads none behind the payload.
An entry that is not in the table would make it fail. -/
def DecodesInside (now : Timeval) (payload : Buffer) (len : Nat) (pk : Fin 16 → RtcpPkg) (rtpSt : RtpStats) : Prop :=
  ∃ ran, rtcpDecode false now payload len pk rtpSt = some ran ∧ ran.events.length ≤ 16 ∧
    ∀ decoded ∈ ran.events, decoded.reach ≤ len

/-! ### What a payload has to hold -/

/-- The octets of a packet that are read: a sender report without blocks, a source description up to
behind its text, or the common header. -/
def packetReach (octets : List UInt8) : Nat :=
  if octets.getD 1 0 = rtcpSR then 28
  else if octets.getD 1 0 = rtcpSDES then 11 + (octets.getD 9 0).toNat
  else 4

def packetSkip (octets : List UInt8) : Nat :=
  (if octets.getD 1 0 = rtcpSDES then 12 + (octets.getD 9 0).toNat else packetReach octets) +
    value16 (octets.getD 2 0) (octets.getD 3 0)

/-- The payload is used up within that many packets, each of which holds what is read of it. -/
def Walks : Nat → List UInt8 → Prop
  | _, [] => True
  | 0, _ :: _ => False
  | more + 1, octet :: rest =>
      packetReach (octet :: rest) ≤ (octet :: rest).length ∧
        Walks more ((octet :: rest).drop (packetSkip (octet :: rest)))

theorem walks_succ {more : Nat} {octets : List UInt8} (filled : octets ≠ []) :
    Walks (more + 1) octets ↔ packetReach octets ≤ octets.length ∧ Walks more (octets.drop (packetSkip octets)) := by
  cases octets with
  | nil => exact absurd rfl filled
  | cons octet rest => exact Iff.rfl

theorem four_le_packetReach (octets : List UInt8) : 4 ≤ packetReach octets := by
  unfold packetReach
  split
  · omega
  · split <;> omega

/-! ### One packet -/

theorem decodeTyped_moves (now : Timeval) (payload : Buffer) (start : Nat) (pkg : RtcpPkg) (rtpSt : RtpStats) :
    let common := decodeCommon payload start pkg
    let typed := decodeTyped now payload (start + 3) common rtpSt
    reached typed.1 typed.2.1 = start + packetReach (payload.read start 10) ∧
      typed.2.1 + common.length.toNat + 1 = start + packetSkip (payload.read start 10) := by
  have type : (payload.read start 10).getD 1 0 = (decodeCommon payload start pkg).type := rfl
  have text : (payload.read start 10).getD 9 0 = payload.byte (start + 9) := rfl
  have words : value16 ((payload.read start 10).getD 2 0) ((payload.read start 10).getD 3 0) =
      (decodeCommon payload start pkg).length.toNat := (length_decodeCommon payload start pkg).symm
  unfold packetSkip packetReach
  dsimp only
  rw [words, type, text]
  generalize decodeCommon payload start pkg = common
  unfold decodeTyped
  by_cases report : common.type = rtcpSR
  · have other : ¬ common.type = rtcpSDES := by
      rw [report]
      decide
    rw [if_pos report, if_pos report, if_neg other]
    dsimp only
    have kept : ¬ (decodeSR payload (start + 3) common).type = rtcpSDES := other
    rw [reached, if_neg kept]
    omega
  · rw [if_neg report, if_neg report]
    by_cases description : common.type = rtcpSDES
    · rw [if_pos description, if_pos description, if_pos description]
      have kept : (decodeSDES payload (start + 3) common).type = rtcpSDES := description
      have length : (decodeSDES payload (start + 3) common).sdesLength = payload.byte (start + 9) := rfl
      dsimp only
      rw [reached, if_pos kept, length]
      omega
    · rw [if_neg description, if_neg description, if_neg description]
      dsimp only
      rw [reached, if_neg description]
      omega

theorem packet_congr {front octets : List UInt8} (same : ∀ k < 4, front.getD k 0 = octets.getD k 0)
    (text : octets.getD 1 0 = rtcpSDES → front.getD 9 0 = octets.getD 9 0) :
    packetReach front = packetReach octets ∧ packetSkip front = packetSkip octets := by
  unfold packetSkip packetReach
  rw [same 1 (by decide), same 2 (by decide), same 3 (by decide)]
  by_cases description : octets.getD 1 0 = rtcpSDES
  · rw [text description]
    exact ⟨rfl, rfl⟩
  · simp only [if_neg description, and_self]

theorem eleven_le_packetReach {octets : List UInt8} (description : octets.getD 1 0 = rtcpSDES) :
    11 ≤ packetReach octets := by
  have other : ¬ octets.getD 1 0 = rtcpSR := by
    rw [description]
    decide
  rw [packetReach, if_neg other, if_pos description]
  omega

theorem packetReach_read_iff (storage : Buffer) (octets : List UInt8) (start : Nat) :
    let front := (storage.write 0 octets).read start 10
    (start + packetReach front ≤ octets.length ↔ packetReach (octets.drop start) ≤ (octets.drop start).length) ∧
      (start + packetReach front ≤ octets.length → packetSkip front = packetSkip (octets.drop start)) := by
  have reach := four_le_packetReach (octets.drop start)
  have reachFront := four_le_packetReach ((storage.write 0 octets).read start 10)
  have same : ∀ k < 10, start + k < octets.length →
      ((storage.write 0 octets).read start 10).getD k 0 = (octets.drop start).getD k 0 := by
    intro k below inside
    have stored := storage.byte_write_inside 0 octets inside
    rw [Nat.zero_add] at stored
    have octet : ((storage.write 0 octets).read start 10)[k]? = some ((storage.write 0 octets).byte (start + k)) :=
      Buffer.byte_of_read rfl below
    rw [List.getD_eq_getElem?_getD, List.getD_eq_getElem?_getD, octet, stored, List.getElem?_drop,
      List.getElem?_eq_getElem inside]
  rw [List.length_drop]
  dsimp only
  by_cases header : start + 4 ≤ octets.length
  · have common : ∀ k < 4, ((storage.write 0 octets).read start 10).getD k 0 = (octets.drop start).getD k 0 :=
      fun k below => same k (by omega) (by omega)
    by_cases missing : (octets.drop start).getD 1 0 = rtcpSDES ∧ octets.length ≤ start + 9
    · -- a description without the octet that counts its text is not whole
      have long := eleven_le_packetReach missing.1
      have longFront := eleven_le_packetReach ((common 1 (by decide)).trans missing.1)
      omega
    · have counted (description : (octets.drop start).getD 1 0 = rtcpSDES) : start + 9 < octets.length :=
        Nat.lt_of_not_le fun past => missing ⟨description, past⟩
      have equal := packet_congr common fun description => same 9 (by decide) (counted description)
      rw [equal.1, equal.2]
      omega
  · omega

/-! ### The loop -/

theorem decodeFrom_inside_iff (now : Timeval) (storage : Buffer) (octets : List UInt8) (table : List RtcpPkg)
    (start : Nat) (rtpSt : RtpStats) :
    (∃ ran, decodeFrom false now (storage.write 0 octets) octets.length table start rtpSt = some ran ∧
      ran.events.length ≤ table.length ∧ ∀ decoded ∈ ran.events, decoded.reach ≤ octets.length) ↔
      Walks table.length (octets.drop start) := by
  induction table generalizing start rtpSt with
  | nil =>
      by_cases inside : start < octets.length
      · obtain ⟨octet, rest, same⟩ := List.exists_cons_of_ne_nil (List.drop_eq_nil_iff.not.mpr (Nat.not_le.mpr inside))
        rw [same, decodeFrom, if_pos inside]
        constructor
        · rintro ⟨ran, through, -⟩
          cases through
        · exact False.elim
      · rw [List.drop_eq_nil_of_le (Nat.le_of_not_lt inside), decodeFrom_done [] (Nat.le_of_not_lt inside)]
        exact ⟨fun _ => trivial, fun _ => ⟨_, rfl, Nat.le_refl _, fun _ member => absurd member List.not_mem_nil⟩⟩
  | cons pkg rest ih =>
      by_cases inside : start < octets.length
      · have filled : octets.drop start ≠ [] := List.drop_eq_nil_iff.not.mpr (Nat.not_le.mpr inside)
        obtain ⟨reach, next⟩ := decodeTyped_moves now (storage.write 0 octets) start pkg rtpSt
        obtain ⟨whole, skips⟩ := packetReach_read_iff storage octets start
        rw [← reach] at whole skips
        rw [List.length_cons, walks_succ filled, ← whole]
        constructor
        · rintro ⟨ran, through, short, reaches⟩
          obtain ⟨later, ranLater, rfl⟩ := (decodeFrom_next inside).mp through
          obtain ⟨here, behind⟩ := List.forall_mem_cons.mp reaches
          rw [next, skips here] at ranLater
          refine ⟨here, ?_⟩
          rw [List.drop_drop, ← ih]
          exact ⟨later, ranLater, Nat.le_of_succ_le_succ short, behind⟩
        · rintro ⟨here, walks⟩
          rw [List.drop_drop, ← ih] at walks
          obtain ⟨later, ranLater, short, behind⟩ := walks
          rw [← skips here, ← next] at ranLater
          exact ⟨_, (decodeFrom_next inside).mpr ⟨later, ranLater, rfl⟩, Nat.succ_le_succ short,
            List.forall_mem_cons.mpr ⟨here, behind⟩⟩
      · rw [List.drop_eq_nil_of_le (Nat.le_of_not_lt inside), decodeFrom_done _ (Nat.le_of_not_lt inside)]
        exact ⟨fun _ => trivial, fun _ => ⟨_, rfl, Nat.zero_le _, fun _ member => absurd member List.not_mem_nil⟩⟩

/-- rtcp_decode stays in its table and its payload exactly when the payload is used up within 16 packets
that hold what is read of them. -/
theorem decodes_inside_iff (now : Timeval) (storage : Buffer) (octets : List UInt8) (pk : Fin 16 → RtcpPkg)
    (rtpSt : RtpStats) :
    DecodesInside now (storage.write 0 octets) octets.length pk rtpSt ↔ Walks 16 octets := by
  have whole := decodeFrom_inside_iff now storage octets (List.ofFn pk) 0 rtpSt
  rwa [List.length_ofFn] at whole

def goodbyes (count : Nat) : List UInt8 := (List.replicate count [0x80, 203, 0, 0]).flatten

/-- A seventeenth packet needs a seventeenth entry; a payload of one octet is read up to the fourth. -/
theorem goodbyes_overrun :
    ¬ DecodesInside ⟨1, 0⟩ ((Buffer.untouched fun _ => 0).write 0 (goodbyes 17)) 68 (fun _ => .holding 0) .reset ∧
      ¬ DecodesInside ⟨1, 0⟩ ((Buffer.untouched fun _ => 0).write 0 [0x80]) 1 (fun _ => .holding 0) .reset := by
  constructor
  · rintro ⟨ran, through, -⟩
    have failed : (rtcpDecode false ⟨1, 0⟩ ((Buffer.untouched fun _ => 0).write 0 (goodbyes 17)) 68
        (fun _ => .holding 0) .reset).isNone := by decide +kernel
    rw [through] at failed
    cases failed
  · rintro ⟨ran, through, -, reaches⟩
    have past : (rtcpDecode false ⟨1, 0⟩ ((Buffer.untouched fun _ => 0).write 0 [0x80]) 1
        (fun _ => .holding 0) .reset).map (fun ran => ran.events.map Decoded.reach) = some [4] := by decide +kernel
    rw [through] at past
    have only : ran.events.map Decoded.reach = [4] := Option.some.inj past
    have first : 4 ∈ ran.events.map Decoded.reach := only ▸ List.mem_singleton_self 4
    obtain ⟨decoded, member, reach⟩ := List.mem_map.mp first
    have inside := reaches decoded member
    omega

end H264Streaming.H264Dec
