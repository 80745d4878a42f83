import H264Streaming.Bytes.Fields
import H264Streaming.H264Dec.Rtcp
import H264Streaming.Semantics.Framing
import Mathlib.Data.List.Forall2

/-! RTCP packets one behind the other, and where rtcp_decode looks for them.

The decoder skips as many octets as the length field counts words, and behind a source
description it has already passed the text, so it meets a packet where one starts
only if these two happen to come out even. -/

set_option autoImplicit false

namespace H264Streaming.H264Dec

open H264Streaming.Bytes H264Streaming.Semantics

/-- A packet of `words + 1` words. A sender report has no report blocks. -/
structure RtcpPacket where
  first : UInt8
  type : UInt8
  words : Nat
  body : List UInt8
  version : first >>> 6 = 2
  known : rtcpSR ≤ type ∧ type ≤ 204
  sized : body.length = 4 * words
  short : words < 65536
  report : type = rtcpSR → first &&& 0x1F = 0 ∧ 24 ≤ body.length

def RtcpPacket.octets (packet : RtcpPacket) : List UInt8 :=
  [packet.first, packet.type] ++ be16 packet.words ++ packet.body

def RtcpPacket.word (packet : RtcpPacket) (k : Nat) : Nat := valueBE ((packet.body.drop (4 * k)).take 4)

def Matches (packet : RtcpPacket) (pkg : RtcpPkg) : Prop :=
  pkg.type = packet.type ∧ pkg.length.toNat = packet.words ∧
    (packet.type = rtcpSR → [pkg.ssrc, pkg.tsMsw, pkg.tsLsw, pkg.tsRtp, pkg.sdPkC, pkg.sdOcC].map UInt32.toNat =
      (List.range 6).map packet.word)

/-- What is skipped on top of the length, in a source description up to the end of its text. -/
def textSkip (payload : Buffer) (type : UInt8) (start : Nat) : Nat :=
  if type = rtcpSDES then 8 + (payload.byte (start + 9)).toNat else 0

/-- From `start` on, each skip ends at octets that read as the header of the next packet,
and the last one at the end of the payload or behind it. -/
def Lands (payload : Buffer) (len : Nat) : List RtcpPacket → Nat → Prop
  | [], start => len ≤ start
  | packet :: rest, start =>
      start < len ∧ payload.byte (start + 1) = packet.type ∧
        value16 (payload.byte (start + 2)) (payload.byte (start + 3)) = packet.words ∧
        Lands payload len rest (start + 4 + packet.words + textSkip payload packet.type start)

instance decidableLands (payload : Buffer) (len : Nat) :
    (packets : List RtcpPacket) → (start : Nat) → Decidable (Lands payload len packets start)
  | [], start => inferInstanceAs (Decidable (len ≤ start))
  | packet :: rest, start =>
      have := decidableLands payload len rest (start + 4 + packet.words + textSkip payload packet.type start)
      inferInstanceAs (Decidable (_ ∧ _ ∧ _ ∧ _))

/-! ### One entry -/

theorem decodeTyped_keeps (now : Timeval) (payload : Buffer) (i : Nat) (pkg : RtcpPkg) (rtpSt : RtpStats) :
    let decoded := (decodeTyped now payload i pkg rtpSt).1
    decoded.type = pkg.type ∧ decoded.length = pkg.length ∧ decoded.sdOcC = pkg.sdOcC := by
  unfold decodeTyped
  split
  · exact ⟨rfl, rfl, rfl⟩
  · split <;> exact ⟨rfl, rfl, rfl⟩

theorem decodeTyped_cursor (now : Timeval) (payload : Buffer) (start : Nat) (pkg : RtcpPkg) (rtpSt : RtpStats)
    (other : pkg.type ≠ rtcpSR) :
    (decodeTyped now payload (start + 3) pkg rtpSt).2.1 = start + 3 + textSkip payload pkg.type start := by
  unfold decodeTyped textSkip
  rw [if_neg other]
  split
  · have text : start + 3 + 6 = start + 9 := rfl
    dsimp only [decodeSDES]
    rw [text]
    omega
  · rfl

theorem length_decodeCommon (payload : Buffer) (start : Nat) (pkg : RtcpPkg) :
    (decodeCommon payload start pkg).length.toNat =
      value16 (payload.byte (start + 2)) (payload.byte (start + 3)) := by
  have high := UInt8.toNat_lt (payload.byte (start + 2))
  have low := UInt8.toNat_lt (payload.byte (start + 3))
  simp only [decodeCommon, UInt16.toNat_ofNat', value16]
  omega

section
variable {now : Timeval} {payload : Buffer} {len start : Nat} {pkg : RtcpPkg} {rest : List RtcpPkg}
  {rtpSt : RtpStats}

theorem decodeFrom_done (table : List RtcpPkg) (past : len ≤ start) :
    decodeFrom false now payload len table start rtpSt = some (.quiet rtpSt) := by
  cases table with
  | nil => rw [decodeFrom, if_neg (Nat.not_lt.mpr past)]
  | cons pkg rest => rw [decodeFrom, if_neg (Nat.not_lt.mpr past)]

theorem decodeFrom_next (inside : start < len) {ran : Traced RtpStats Decoded} :
    decodeFrom false now payload len (pkg :: rest) start rtpSt = some ran ↔
      let common := decodeCommon payload start pkg
      let typed := decodeTyped now payload (start + 3) common rtpSt
      ∃ later, decodeFrom false now payload len rest (typed.2.1 + common.length.toNat + 1) typed.2.2 = some later ∧
        ran = ⟨later.state, ⟨typed.1, reached typed.1 typed.2.1⟩ :: later.events⟩ := by
  obtain ⟨-, length, -⟩ := decodeTyped_keeps now payload (start + 3) (decodeCommon payload start pkg) rtpSt
  rw [decodeFrom, if_pos inside]
  simp only [skip, Bool.false_eq_true, if_false, length, Option.bind_eq_bind, Option.bind_some,
    Option.bind_eq_some_iff]
  constructor
  · rintro ⟨later, ran, same⟩
    exact ⟨later, ran, (Option.some.inj same).symm⟩
  · rintro ⟨later, ran, rfl⟩
    exact ⟨later, ran, rfl⟩

theorem matches_iff {packet : RtcpPacket} (other : packet.type ≠ rtcpSR) :
    Matches packet (decodeTyped now payload (start + 3) (decodeCommon payload start pkg) rtpSt).1 ↔
      payload.byte (start + 1) = packet.type ∧
        value16 (payload.byte (start + 2)) (payload.byte (start + 3)) = packet.words := by
  obtain ⟨type, length, -⟩ := decodeTyped_keeps now payload (start + 3) (decodeCommon payload start pkg) rtpSt
  rw [Matches, type, length, length_decodeCommon]
  constructor
  · rintro ⟨sameType, sameLength, -⟩
    exact ⟨sameType, sameLength⟩
  · rintro ⟨sameType, sameLength⟩
    exact ⟨sameType, sameLength, fun report => absurd report other⟩

theorem cursor_behind {packet : RtcpPacket} (other : packet.type ≠ rtcpSR)
    (type : payload.byte (start + 1) = packet.type)
    (length : value16 (payload.byte (start + 2)) (payload.byte (start + 3)) = packet.words) :
    (decodeTyped now payload (start + 3) (decodeCommon payload start pkg) rtpSt).2.1 +
        (decodeCommon payload start pkg).length.toNat + 1 =
      start + 4 + packet.words + textSkip payload packet.type start := by
  have common : (decodeCommon payload start pkg).type = packet.type := type
  have typed := decodeTyped_cursor now payload start (decodeCommon payload start pkg) rtpSt (by rwa [common])
  rw [typed, length_decodeCommon, length, common]
  omega

end

/-- Without sender reports the entries fit the packets exactly when the skips land on them. -/
theorem decodeFrom_matches_iff (now : Timeval) (payload : Buffer) (len : Nat) (packets : List RtcpPacket)
    (others : ∀ packet ∈ packets, packet.type ≠ rtcpSR) (table : List RtcpPkg) (room : packets.length ≤ table.length)
    (start : Nat) (rtpSt : RtpStats) :
    (∃ ran, decodeFrom false now payload len table start rtpSt = some ran ∧
      List.Forall₂ Matches packets (ran.events.map Decoded.pkg)) ↔ Lands payload len packets start := by
  induction packets generalizing table start rtpSt with
  | nil =>
      rw [Lands]
      constructor
      · rintro ⟨ran, through, fits⟩
        by_contra more
        cases table with
        | nil =>
            rw [decodeFrom, if_pos (Nat.lt_of_not_le more)] at through
            cases through
        | cons pkg rest =>
            obtain ⟨later, -, rfl⟩ := (decodeFrom_next (Nat.lt_of_not_le more)).mp through
            cases fits
      · intro past
        exact ⟨.quiet rtpSt, decodeFrom_done table past, .nil⟩
  | cons packet rest ih =>
      obtain ⟨pkg, free, rfl⟩ := List.exists_cons_of_length_pos (Nat.lt_of_lt_of_le (Nat.succ_pos _) room)
      have other := others packet List.mem_cons_self
      have next := ih (fun later member => others later (List.mem_cons_of_mem packet member)) free
        (Nat.le_of_succ_le_succ room)
      rw [Lands]
      constructor
      · rintro ⟨ran, through, fits⟩
        by_cases inside : start < len
        · obtain ⟨later, ranLater, rfl⟩ := (decodeFrom_next inside).mp through
          obtain ⟨here, behind⟩ := List.forall₂_cons.mp fits
          obtain ⟨type, length⟩ := (matches_iff other).mp here
          rw [cursor_behind other type length] at ranLater
          exact ⟨inside, type, length, (next _ _).mp ⟨later, ranLater, behind⟩⟩
        · rw [decodeFrom_done _ (Nat.le_of_not_lt inside)] at through
          cases through
          cases fits
      · rintro ⟨inside, type, length, lands⟩
        obtain ⟨later, ranLater, behind⟩ := (next _ _).mpr lands
        rw [← cursor_behind other type length] at ranLater
        exact ⟨_, (decodeFrom_next inside).mpr ⟨later, ranLater, rfl⟩,
          .cons ((matches_iff other).mpr ⟨type, length⟩) behind⟩

/-! ### Sender reports -/

theorem decodeFrom_sdOcC (now : Timeval) (payload : Buffer) (len : Nat) (table : List RtcpPkg) (start : Nat)
    (rtpSt : RtpStats) {ran : Traced RtpStats Decoded}
    (through : decodeFrom false now payload len table start rtpSt = some ran) :
    ∀ decoded ∈ ran.events, ∃ pkg ∈ table, decoded.pkg.sdOcC = pkg.sdOcC := by
  induction table generalizing start rtpSt ran with
  | nil =>
      rw [decodeFrom] at through
      split at through
      · cases through
      · cases through
        exact fun decoded member => absurd member List.not_mem_nil
  | cons pkg rest ih =>
      by_cases inside : start < len
      · obtain ⟨later, ranLater, rfl⟩ := (decodeFrom_next inside).mp through
        intro decoded member
        rcases List.mem_cons.mp member with rfl | behind
        · exact ⟨pkg, List.mem_cons_self, (decodeTyped_keeps now payload (start + 3) _ rtpSt).2.2⟩
        · obtain ⟨other, among, same⟩ := ih _ _ ranLater decoded behind
          exact ⟨other, List.mem_cons_of_mem pkg among, same⟩
      · rw [decodeFrom_done _ (Nat.le_of_not_lt inside)] at through
        cases through
        exact fun decoded member => absurd member List.not_mem_nil

def compound (storage : Buffer) (packets : List RtcpPacket) : Buffer :=
  storage.write 0 (stream RtcpPacket.octets packets)

def Decodes (now : Timeval) (storage : Buffer) (packets : List RtcpPacket) (rtpSt : RtpStats) : Prop :=
  ∀ pk, ∃ ran, rtcpDecode false now (compound storage packets) (stream RtcpPacket.octets packets).length pk rtpSt =
    some ran ∧ List.Forall₂ Matches packets (ran.events.map Decoded.pkg)

def RtcpPkg.holding (count : UInt32) : RtcpPkg := ⟨0, 0, 0, 0, 0, 0, 0, 0, 0, 0, 0, count, 0, 0, 0, 0⟩

/-- With a sender report the entries depend on what the table held. -/
theorem not_decodes_report {now : Timeval} {storage : Buffer} {packets : List RtcpPacket} {packet : RtcpPacket}
    (member : packet ∈ packets) (report : packet.type = rtcpSR) (rtpSt : RtpStats) :
    ¬ Decodes now storage packets rtpSt := by
  intro decodes
  let count : UInt32 := if packet.word 5 = 0 then 1 else 0
  have differs : count.toNat ≠ packet.word 5 := by
    intro same
    by_cases zero : packet.word 5 = 0
    · rw [show count = 1 from if_pos zero, zero] at same
      cases same
    · rw [show count = 0 from if_neg zero] at same
      exact zero same.symm
  obtain ⟨ran, through, fits⟩ := decodes fun _ => .holding count
  obtain ⟨k, bound, rfl⟩ := List.getElem_of_mem member
  have position : k < (ran.events.map Decoded.pkg).length := by rwa [← fits.length_eq]
  obtain ⟨-, -, words⟩ := fits.get bound position
  -- the last of the six words is what the table held
  have last := congrArg (fun fields => fields.getLast?) (words report)
  obtain ⟨decoded, among, same⟩ := List.mem_map.mp (List.getElem_mem position)
  obtain ⟨pkg, held, kept⟩ := decodeFrom_sdOcC _ _ _ _ _ _ through decoded among
  obtain ⟨_, rfl⟩ := List.mem_ofFn.mp held
  rw [List.get_eq_getElem, ← same] at last
  apply differs
  rw [show count = decoded.pkg.sdOcC from kept.symm]
  exact Option.some.inj last

/-- A compound is decoded exactly when it has no sender report and the skips land on its packets. -/
theorem decodes_iff (now : Timeval) (storage : Buffer) (packets : List RtcpPacket) (few : packets.length ≤ 16)
    (rtpSt : RtpStats) :
    Decodes now storage packets rtpSt ↔ (∀ packet ∈ packets, packet.type ≠ rtcpSR) ∧
      Lands (compound storage packets) (stream RtcpPacket.octets packets).length packets 0 := by
  have room : ∀ pk : Fin 16 → RtcpPkg, packets.length ≤ (List.ofFn pk).length := by
    intro pk
    rwa [List.length_ofFn]
  constructor
  · intro decodes
    have others : ∀ packet ∈ packets, packet.type ≠ rtcpSR := fun packet member report =>
      not_decodes_report member report rtpSt decodes
    refine ⟨others, ?_⟩
    exact (decodeFrom_matches_iff now _ _ packets others _ (room fun _ => .holding 0) 0
      rtpSt).mp (decodes _)
  · rintro ⟨others, lands⟩ pk
    exact (decodeFrom_matches_iff now _ _ packets others _ (room pk) 0 rtpSt).mpr lands

/-- The source description of h264dec itself, padded to whole words. -/
def monkeyDescription : RtcpPacket :=
  ⟨0x81, rtcpSDES, 4, be32 rtcpSsrc ++ [1, 6] ++ ascii "monkey" ++ [0, 0, 0, 0], by decide, by decide, rfl, by decide,
    by decide⟩

def emptyReport : RtcpPacket := ⟨0x80, rtcpRR, 1, be32 rtcpSsrc, by decide, by decide, rfl, by decide, by decide⟩

theorem decodes_description : Decodes ⟨1, 0⟩ (.untouched fun _ => 0) [monkeyDescription] .reset :=
  (decodes_iff ⟨1, 0⟩ (.untouched fun _ => 0) [monkeyDescription] (by decide) .reset).mpr
    ⟨by decide, by decide +kernel⟩

/-- Behind a receiver report of two words the loop goes on at its sixth octet. -/
theorem not_decodes_report_description :
    ¬ Decodes ⟨1, 0⟩ (.untouched fun _ => 0) [emptyReport, monkeyDescription] .reset := by
  intro decodes
  have lands := (decodeFrom_matches_iff ⟨1, 0⟩ _ _ [emptyReport, monkeyDescription] (by decide) _ (by simp) 0 .reset).mp
    (decodes fun _ => .holding 0)
  revert lands
  decide +kernel

/-! ### Without source descriptions -/

theorem Lands.len_le {payload : Buffer} {len : Nat} {packets : List RtcpPacket}
    (noText : ∀ packet ∈ packets, packet.type ≠ rtcpSDES) {start : Nat} (lands : Lands payload len packets start) :
    len ≤ start + (packets.map fun packet => 4 + packet.words).sum := by
  induction packets generalizing start with
  | nil => exact lands
  | cons packet rest ih =>
      obtain ⟨-, -, -, behind⟩ := lands
      rw [textSkip, if_neg (noText packet List.mem_cons_self)] at behind
      have later := ih (fun other member => noText other (List.mem_cons_of_mem packet member)) behind
      rw [List.map_cons, List.sum_cons]
      omega

theorem length_octets (packet : RtcpPacket) : packet.octets.length = 4 + 4 * packet.words := by
  rw [RtcpPacket.octets, List.length_append, packet.sized]
  rfl

theorem length_stream (packets : List RtcpPacket) :
    (stream RtcpPacket.octets packets).length =
      (packets.map fun packet => 4 + packet.words).sum + 3 * (packets.map RtcpPacket.words).sum := by
  induction packets with
  | nil => rfl
  | cons packet rest ih =>
      rw [stream_cons, List.length_append, length_octets, ih, List.map_cons, List.sum_cons, List.map_cons,
        List.sum_cons]
      omega

theorem header_read {payload : Buffer} {start : Nat} {packet : RtcpPacket}
    (held : payload.read start packet.octets.length = packet.octets) :
    payload.byte (start + 1) = packet.type ∧
      value16 (payload.byte (start + 2)) (payload.byte (start + 3)) = packet.words := by
  have size := length_octets packet
  have type := Buffer.byte_of_read held (show 1 < packet.octets.length by omega)
  have high := Buffer.byte_of_read held (show 2 < packet.octets.length by omega)
  have low := Buffer.byte_of_read held (show 3 < packet.octets.length by omega)
  have words := value16_be16 packet.words
  rw [Nat.mod_eq_of_lt packet.short] at words
  rw [← Option.some.inj type, ← Option.some.inj high, ← Option.some.inj low]
  exact ⟨rfl, words⟩

theorem lands_of_empty {payload : Buffer} {packets : List RtcpPacket}
    (noText : ∀ packet ∈ packets, packet.type ≠ rtcpSDES) (empty : ∀ packet ∈ packets, packet.words = 0) {start : Nat}
    (held : payload.read start (stream RtcpPacket.octets packets).length = stream RtcpPacket.octets packets) :
    Lands payload (start + (stream RtcpPacket.octets packets).length) packets start := by
  induction packets generalizing start with
  | nil => exact Nat.le_refl start
  | cons packet rest ih =>
      have none := empty packet List.mem_cons_self
      have size := length_octets packet
      rw [stream_cons, List.length_append, Buffer.read_add] at held
      obtain ⟨here, behind⟩ := List.append_inj held (by rw [Buffer.length_read])
      obtain ⟨type, length⟩ := header_read here
      have later := ih (fun other member => noText other (List.mem_cons_of_mem packet member))
        (fun other member => empty other (List.mem_cons_of_mem packet member)) behind
      rw [none] at size
      have next : start + 4 + packet.words + textSkip payload packet.type start = start + packet.octets.length := by
        rw [textSkip, if_neg (noText packet List.mem_cons_self), none, size]
      have inside : start < start + (stream RtcpPacket.octets (packet :: rest)).length := by
        rw [stream_cons, List.length_append, size]
        omega
      refine ⟨inside, type, length, ?_⟩
      rwa [next, stream_cons, List.length_append, ← Nat.add_assoc]

theorem lands_without_text_iff (storage : Buffer) (packets : List RtcpPacket)
    (noText : ∀ packet ∈ packets, packet.type ≠ rtcpSDES) :
    Lands (compound storage packets) (stream RtcpPacket.octets packets).length packets 0 ↔
      ∀ packet ∈ packets, packet.words = 0 := by
  constructor
  · intro lands
    have enough := lands.len_le noText
    rw [length_stream, Nat.zero_add] at enough
    have none : (packets.map RtcpPacket.words).sum = 0 := by omega
    intro packet member
    exact List.sum_eq_zero_iff_forall_eq_nat.mp none packet.words (List.mem_map_of_mem member)
  · intro empty
    have whole := lands_of_empty noText empty (Buffer.read_write_self storage 0 (stream RtcpPacket.octets packets))
    rwa [Nat.zero_add] at whole

end H264Streaming.H264Dec
