import H264Streaming.H264Send.Indicators
import H264Streaming.H264Send.Reading
import H264Streaming.Interop.Playing

/-! A file sent by h264Send and played by rtsp_client: the parser, the packetizer and the player in a row,
over a network that neither loses nor reorders a datagram. -/

set_option autoImplicit false

namespace H264Streaming.Interop

open H264Streaming.Bytes H264Streaming.Format H264Streaming.Semantics H264Streaming.H264Send
open H264Streaming.RtspClient (Delivery Writes startCode handled_single handled_fragment)

/-! ### A unit behind the pointer -/

theorem plays_short (s : State) {unit : NalUnit} (aimed : Aimed s) (short : unit.bytes.length ≤ rtpPayloadMaxSize)
    (typed : unitType unit.header ≤ 23) : Plays (sendNalu unit.bytes s).events (startCode ++ unit.bytes) := by
  obtain ⟨datagram, sent, same⟩ := (sendNalu_unit s aimed unit).carries.short short
  rw [sent]
  refine plays_of_writes ?_ fun deliveries carried => ?_
  · intro other member
    rw [List.mem_singleton.mp member]
    have sizes := congrArg List.length same
    rw [List.length_drop, NalUnit.length_bytes] at sizes
    omega
  · rw [List.map_singleton, same] at carried
    obtain ⟨delivery, rfl, payload⟩ := List.map_eq_singleton_iff.mp carried
    refine ⟨[startCode, unit.bytes], ?_, by simp⟩
    rw [List.flatMap_singleton, handled_single delivery unit payload typed]
    rfl

theorem fuIndicator_eq (header : UInt8) : fuIndicator header = (header &&& 0xE0) ||| 28 := by
  revert header
  exact forall_octet (by decide +kernel)

def ticked (s : State) : State := { s with mTimestamp := s.mTimestamp + (s.mClock / frameRate).toUInt32 }

theorem sendNalu_cut (s : State) {unit : NalUnit} (long : ¬ unit.bytes.length ≤ rtpPayloadMaxSize) :
    sendNalu unit.bytes s = run (sendFu unit.bytes) (List.range (fuPackNum unit.bytes.length)) (ticked s) := by
  have nonempty : ¬ unit.bytes.length < 1 := Nat.not_lt.mpr (Nat.succ_le_succ (Nat.zero_le _))
  simp only [sendNalu, if_neg nonempty, if_neg long]
  rfl

def pieces (unit : NalUnit) : List (List UInt8) :=
  (List.range (fuPackNum unit.bytes.length)).map (piece rtpPayloadMaxSize unit.bytes)

theorem joined_pieces {unit : NalUnit} (long : ¬ unit.bytes.length ≤ rtpPayloadMaxSize) :
    (pieces unit).flatten = unit.body := by
  obtain ⟨several, covers, -⟩ := fuPackNum_bounds long
  exact flatten_pieces_all (by decide) (List.cons_ne_nil _ _) (by omega) covers

theorem length_pieces (unit : NalUnit) : (pieces unit).length = fuPackNum unit.bytes.length := by
  rw [pieces, List.length_map, List.length_range]

theorem length_header (p : H264RtpPacketizer) (final : Bool) : (p.header final).length = 12 := by
  rw [H264RtpPacketizer.header, length_rtpHeader]

theorem plays_aimed {s : State} (aim : s.naluHdr = some 12) {unit : NalUnit}
    (long : ¬ unit.bytes.length ≤ rtpPayloadMaxSize) :
    Plays (sendNalu unit.bytes s).events (startCode ++ unit.bytes) := by
  obtain ⟨several, -⟩ := fuPackNum_bounds long
  have indicated := (sendNalu_long aim long).octet
  have aimed : Aimed (ticked s) := Or.inr aim
  obtain ⟨length, fragments, -, -⟩ := run_sendFu_sends (ticked s) aimed unit.bytes long _ (Nat.le_refl _)
  rw [sendNalu_cut s long] at indicated ⊢
  generalize run (sendFu unit.bytes) (List.range (fuPackNum unit.bytes.length)) (ticked s) = sent at *
  refine plays_of_writes ?_ fun deliveries carried => ?_
  · intro datagram member
    obtain ⟨k, found⟩ := List.getElem?_of_mem member
    obtain ⟨indicator, rfl⟩ := fragments k datagram found
    rw [List.length_append, length_header]
    exact Nat.le_add_right 12 _
  · have payloads : sent.events.map (·.drop 12) =
        Format.fragments ((unit.header &&& 0xE0) ||| 28) (unitType unit.header) true (pieces unit) := by
      refine List.ext_getElem? fun k => ?_
      rw [List.getElem?_map, getElem?_fragments, length_pieces]
      cases found : sent.events[k]? with
      | none =>
          have outside := List.getElem?_eq_none_iff.mp found
          rw [length, ← length_pieces] at outside
          rw [List.getElem?_eq_none outside]
          rfl
      | some datagram =>
          have inside := (List.getElem?_eq_some_iff.mp found).1
          rw [length] at inside
          obtain ⟨indicator, rfl⟩ := fragments k datagram found
          have octet := indicated _ (List.mem_of_getElem? found)
          rw [List.getElem?_append_right (by rw [length_header]), length_header] at octet
          have own : indicator = fuIndicator unit.header := Option.some.inj octet
          rw [Option.map_some, List.drop_left' (length_header _ _), own, fuIndicator_eq, pieces, List.getElem?_map,
            List.getElem?_range inside, Option.map_some, Option.map_some, Bool.true_and]
          rfl
    have cut : RtspClient.Carries unit _ := .fragmented (pieces unit) (by rw [length_pieces]; exact several)
      (joined_pieces long)
    exact cut.writes (carried.trans payloads)

/-! ### A unit without it -/

/-- The octet in the place of the indicator when no assignment reaches it; the last fragment alone has its type
written through fu_ind. -/
def strayIndicator (final : Bool) : UInt8 := if final then 28 else 0

theorem sendFu_strays {s : State} (unset : s.naluHdr = none) (unit : NalUnit)
    (large : ¬ unit.bytes.length ≤ rtpPayloadMaxSize) {k : Nat} (within : k < fuPackNum unit.bytes.length) :
    (∀ datagram ∈ (sendFu unit.bytes k s).events,
        datagram[12]? = some (strayIndicator (k + 1 = fuPackNum unit.bytes.length))) ∧
      (sendFu unit.bytes k s).state.naluHdr = none := by
  obtain ⟨several, -⟩ := fuPackNum_bounds large
  -- no assignment reaches the buffer, which was cleared before
  have cleared (marker : UInt8) :
      (fillNaluHdr (fillRtpHdr (clearSendBuff s) marker) unit.header 28).sendBuff.byte 12 = 0 := by
    simp only [fillNaluHdr, setNaluHdr, fillRtpHdr, clearSendBuff, unset]
    exact fillRtpHdr_cleared s marker
  have kept (marker : UInt8) : (fillNaluHdr (fillRtpHdr (clearSendBuff s) marker) unit.header 28).naluHdr = none := by
    rw [fillNaluHdr_naluHdr]
    exact unset
  have sends {t : State} {octet : UInt8} (start final header : UInt8) (octets : List UInt8) (size : Nat)
      (here : t.sendBuff.byte 12 = octet ∧ t.naluHdr = none) :
      (∀ datagram ∈ (send (copyPayload (fillFuHdr t start final header) 14 octets) (12 + 2 + size)).events,
          datagram[12]? = some octet) ∧
        (send (copyPayload (fillFuHdr t start final header) 14 octets) (12 + 2 + size)).state.naluHdr = none :=
    ⟨fun datagram member => here.1 ▸ octet_behind t start final header octets size datagram member, here.2⟩
  unfold sendFu
  by_cases first : k = 0
  · have notLast : ¬ k + 1 = fuPackNum unit.bytes.length := by omega
    rw [if_pos first, decide_eq_false notLast]
    exact sends 1 0 _ _ _ ⟨cleared 0, kept 0⟩
  · rw [if_neg first]
    by_cases middle : k < fuPackNum unit.bytes.length - 1
    · have notLast : ¬ k + 1 = fuPackNum unit.bytes.length := by omega
      rw [if_pos middle, decide_eq_false notLast]
      exact sends 0 0 _ _ _ ⟨cleared 0, kept 0⟩
    · have last : k + 1 = fuPackNum unit.bytes.length := by omega
      have zero := fillRtpHdr_cleared s 1
      rw [if_neg middle, decide_eq_true last]
      refine sends 0 1 _ _ _ ⟨?_, ?_⟩
      · simp only [setNaluHdr, fillRtpHdr, clearSendBuff, unset] at zero ⊢
        simp only [Buffer.byte_setBits, if_true] at zero ⊢
        rw [zero]
        rfl
      · simp only [setNaluHdr_naluHdr]
        exact unset

theorem run_sendFu_strays {s : State} (unset : s.naluHdr = none) (unit : NalUnit)
    (large : ¬ unit.bytes.length ≤ rtpPayloadMaxSize) (count : Nat) (within : count ≤ fuPackNum unit.bytes.length) :
    let sent := run (sendFu unit.bytes) (List.range count) s
    (∀ k datagram, sent.events[k]? = some datagram →
        datagram[12]? = some (strayIndicator (k + 1 = fuPackNum unit.bytes.length))) ∧ sent.state.naluHdr = none := by
  induction count with
  | zero => exact ⟨by simp, unset⟩
  | succ count ih =>
      have aimed : Aimed s := Or.inl unset
      obtain ⟨octets, still⟩ := ih (Nat.le_of_succ_le within)
      obtain ⟨length, -, -, aim⟩ := run_sendFu_sends s aimed unit.bytes large count (Nat.le_of_succ_le within)
      obtain ⟨⟨datagram, sent, -⟩, -, -⟩ := sendFu_sends _ aim unit.bytes large count within
      obtain ⟨octet, unaimed⟩ := sendFu_strays still unit large within
      dsimp only
      rw [List.range_succ, run_snoc, Traced.follow_events, Traced.follow_state]
      refine ⟨fun k other found => ?_, unaimed⟩
      rcases Nat.lt_or_ge k count with before | behind
      · rw [List.getElem?_append_left (by omega)] at found
        exact octets k other found
      · rw [List.getElem?_append_right (by omega), length, sent] at found
        obtain ⟨inside, -⟩ := List.getElem?_eq_some_iff.mp found
        rw [List.length_singleton] at inside
        have last : k = count := by omega
        subst last
        rw [Nat.sub_self] at found
        obtain rfl := Option.some.inj found
        exact octet _ (by rw [sent]; exact List.mem_singleton_self _)

/-- What the player writes for the k-th fragment then: the whole payload as a unit, but for the last one. -/
def strayOctets (unit : NalUnit) (k : Nat) : List UInt8 :=
  if k + 1 = fuPackNum unit.bytes.length then piece rtpPayloadMaxSize unit.bytes k
  else startCode ++ (0 :: fuHeader (k = 0) false (unitType unit.header) :: piece rtpPayloadMaxSize unit.bytes k)

theorem stray_type (header : UInt8) :
    28 = (unitType header &&& 0xE0) ||| 28 ∧ unitType (unitType header) = unitType header := by
  revert header
  exact forall_octet (by decide +kernel)

theorem plays_stray {p : H264RtpPacketizer} {unit : NalUnit} {k : Nat} {datagram : List UInt8}
    (fragment : Fragment p unit.bytes k datagram)
    (octet : datagram[12]? = some (strayIndicator (k + 1 = fuPackNum unit.bytes.length)))
    (several : 2 ≤ fuPackNum unit.bytes.length) : Plays [datagram] (strayOctets unit k) := by
  obtain ⟨indicator, rfl⟩ := fragment
  rw [List.getElem?_append_right (by rw [length_header]), length_header] at octet
  have own : indicator = strayIndicator (k + 1 = fuPackNum unit.bytes.length) := Option.some.inj octet
  refine plays_packet (length_header _ _) fun delivery carried => ?_
  unfold strayOctets
  by_cases last : k + 1 = fuPackNum unit.bytes.length
  · have later : ¬ k = 0 := by omega
    obtain ⟨indicates, same⟩ := stray_type unit.header
    rw [own, decide_eq_true last, strayIndicator, if_pos rfl, decide_eq_false later, indicates] at carried
    rw [if_pos last]
    refine handled_fragment delivery (unitType unit.header) false true _ ?_
    rw [carried, same]
    rfl
  · rw [own, decide_eq_false last, strayIndicator, if_neg Bool.false_ne_true] at carried
    rw [if_neg last]
    let taken : NalUnit := ⟨0, fuHeader (k = 0) false (unitType unit.header) :: piece rtpPayloadMaxSize unit.bytes k⟩
    have zero : unitType taken.header ≤ 23 := show unitType 0 ≤ 23 by decide
    refine ⟨[startCode, taken.bytes], ?_, by simp [taken, NalUnit.bytes]⟩
    rw [List.flatMap_singleton, handled_single delivery taken carried zero]
    rfl

theorem length_strayOctets (unit : NalUnit) (ks : List Nat) :
    ((ks.map (piece rtpPayloadMaxSize unit.bytes)).flatten).length ≤ (ks.flatMap (strayOctets unit)).length := by
  induction ks with
  | nil => exact Nat.le_refl 0
  | cons k rest ih =>
      have here : (piece rtpPayloadMaxSize unit.bytes k).length ≤ (strayOctets unit k).length := by
        unfold strayOctets
        split
        · exact Nat.le_refl _
        · simp only [List.length_append, List.length_cons]
          omega
      rw [List.map_cons, List.flatten_cons, List.flatMap_cons, List.length_append, List.length_append]
      omega

theorem plays_unset {s : State} (unset : s.naluHdr = none) {unit : NalUnit}
    (long : ¬ unit.bytes.length ≤ rtpPayloadMaxSize) :
    ∃ octets, Plays (sendNalu unit.bytes s).events octets ∧ (startCode ++ unit.bytes).length < octets.length := by
  obtain ⟨several, -⟩ := fuPackNum_bounds long
  have unaimed : (ticked s).naluHdr = none := unset
  obtain ⟨length, fragments, -, -⟩ := run_sendFu_sends (ticked s) (Or.inl unaimed) unit.bytes long _ (Nat.le_refl _)
  obtain ⟨octets, -⟩ := run_sendFu_strays unaimed unit long _ (Nat.le_refl _)
  rw [sendNalu_cut s long]
  refine ⟨_, @plays_each (strayOctets unit) _ 0 fun k datagram found => ?_, ?_⟩
  · rw [Nat.zero_add]
    exact plays_stray (fragments k datagram found) (octets k datagram found) several
  · rw [length, ← List.range_eq_range']
    have first : (strayOctets unit 0).length = (piece rtpPayloadMaxSize unit.bytes 0).length + 6 := by
      rw [strayOctets, if_neg (by omega)]
      rfl
    have body := congrArg List.length (joined_pieces long)
    obtain ⟨more, count⟩ := Nat.exists_eq_add_one_of_ne_zero (show fuPackNum unit.bytes.length ≠ 0 by omega)
    have rest := length_strayOctets unit ((List.range more).map Nat.succ)
    rw [pieces, count, List.range_succ_eq_map, List.map_cons, List.flatten_cons, List.length_append] at body
    rw [count, List.range_succ_eq_map, List.flatMap_cons, List.length_append, List.length_append, first,
      NalUnit.length_bytes]
    show 4 + _ < _
    omega

/-! ### A whole file -/

/-- Everything that the player writes in a run, by where the pointer is aimed at its start. -/
theorem plays_run {s : State} (aimed : Aimed s) (units : List NalUnit)
    (typed : ∀ unit ∈ units, unit.bytes.length ≤ rtpPayloadMaxSize → unitType unit.header ≤ 23) :
    ∃ octets, Plays (run sendNalu (units.map NalUnit.bytes) s).events octets ∧
      (copied units).length ≤ octets.length ∧
      (octets = copied units ↔
        s.naluHdr = some 12 ∨ ∀ first ∈ units.head?, first.bytes.length ≤ rtpPayloadMaxSize) := by
  induction units generalizing s with
  | nil => exact ⟨[], .nil, Nat.le_refl 0, iff_of_true rfl (Or.inr (by simp))⟩
  | cons unit rest ih =>
      obtain ⟨here, others⟩ := List.forall_mem_cons.mp typed
      have sends := sendNalu_unit s aimed unit
      obtain ⟨octets, behind, longer, exact⟩ := ih sends.aim others
      rw [List.map_cons, run_cons, Traced.follow_events]
      have whole : copied (unit :: rest) = (startCode ++ unit.bytes) ++ copied rest := List.flatMap_cons
      -- a unit that comes through leaves the pointer aimed, so the rest comes through too
      have through (front : Plays (sendNalu unit.bytes s).events (startCode ++ unit.bytes))
          (aim : (sendNalu unit.bytes s).state.naluHdr = some 12)
          (good : s.naluHdr = some 12 ∨ ∀ first ∈ (unit :: rest).head?, first.bytes.length ≤ rtpPayloadMaxSize) :
          ∃ octets, Plays ((sendNalu unit.bytes s).events ++ (run sendNalu (rest.map NalUnit.bytes)
              (sendNalu unit.bytes s).state).events) octets ∧
            (copied (unit :: rest)).length ≤ octets.length ∧
            (octets = copied (unit :: rest) ↔
              s.naluHdr = some 12 ∨ ∀ first ∈ (unit :: rest).head?, first.bytes.length ≤ rtpPayloadMaxSize) := by
        have same := exact.mpr (Or.inl aim)
        rw [same] at behind
        refine ⟨_, front.append behind, ?_, iff_of_true whole.symm good⟩
        rw [whole]
      by_cases short : unit.bytes.length ≤ rtpPayloadMaxSize
      · refine through (plays_short s aimed short (here short)) (sendNalu_short s short).1 (Or.inr fun first head => ?_)
        obtain rfl := Option.some.inj head
        exact short
      · rcases aimed with unset | set
        · obtain ⟨front, written, more⟩ := plays_unset unset short
          refine ⟨front ++ octets, written.append behind, ?_, ?_⟩
          · rw [List.length_append] at more
            simp only [whole, List.length_append]
            omega
          · constructor
            · intro same
              have sizes := congrArg List.length same
              rw [List.length_append] at more
              simp only [whole, List.length_append] at sizes
              omega
            · rintro (set | good)
              · rw [unset] at set
                cases set
              · exact absurd (good unit rfl) short
        · exact through (plays_aimed set short) (sendNalu_long set short).aim (Or.inl set)

/-- Sent and played, a file is written as it was without its last unit and with long start codes, exactly when
the first unit of those sent is not cut. -/
theorem copies_iff (packetizer : H264RtpPacketizer) (stack content : Nat → UInt8) (coded : List CodedUnit)
    (parsable : ∀ unit ∈ coded, Parsable unit)
    (typed : ∀ unit ∈ coded, unit.unit.bytes.length ≤ rtpPayloadMaxSize → unitType unit.unit.header ≤ 23) :
    ∃ sent, startFile packetizer stack content (annexB coded) = some sent ∧
      (Plays sent.events (annexB (coded.dropLast.map fun coded => ⟨true, coded.unit⟩)) ↔
        ∀ first ∈ coded.dropLast.head?, first.unit.bytes.length ≤ rtpPayloadMaxSize) := by
  have entered : Aimed (enter packetizer stack) := Or.inl rfl
  have kept : ∀ unit ∈ coded.dropLast.map CodedUnit.unit,
      unit.bytes.length ≤ rtpPayloadMaxSize → unitType unit.header ≤ 23 := by
    intro unit member
    obtain ⟨coded, among, rfl⟩ := List.mem_map.mp member
    exact typed coded (List.dropLast_subset _ among)
  obtain ⟨octets, plays, -, same⟩ := plays_run entered (coded.dropLast.map CodedUnit.unit) kept
  have unset : ¬ (enter packetizer stack).naluHdr = some 12 := nofun
  have heads : (∀ first ∈ (coded.dropLast.map CodedUnit.unit).head?, first.bytes.length ≤ rtpPayloadMaxSize) ↔
      ∀ first ∈ coded.dropLast.head?, first.unit.bytes.length ≤ rtpPayloadMaxSize := by
    rw [List.head?_map]
    cases coded.dropLast.head? <;> simp
  rw [or_iff_right unset, heads] at same
  refine ⟨_, startFile_annexB packetizer stack content parsable, ?_⟩
  rw [annexB_copied, ← same]
  constructor
  · exact fun written => plays.unique written
  · rintro rfl
    exact plays

theorem copies_iff_sets :
    ∃ sent, startFile ⟨0, 0, 0, 90000⟩ (fun _ => 7) (fun _ => 7)
        (annexB [⟨true, ⟨0x67, [0x42]⟩⟩, ⟨false, ⟨0x68, [0xCE]⟩⟩, ⟨false, ⟨0x65, [0x88]⟩⟩]) = some sent ∧
      Plays sent.events [0, 0, 0, 1, 0x67, 0x42, 0, 0, 0, 1, 0x68, 0xCE] := by
  let coded : List CodedUnit := [⟨true, ⟨0x67, [0x42]⟩⟩, ⟨false, ⟨0x68, [0xCE]⟩⟩, ⟨false, ⟨0x65, [0x88]⟩⟩]
  have parsable : ∀ unit ∈ coded, Parsable unit := by
    simp only [coded, List.forall_mem_cons]
    exact ⟨⟨⟨by decide, by decide, by decide⟩, by decide⟩, ⟨⟨by decide, by decide, by decide⟩, by decide⟩,
      ⟨⟨by decide, by decide, by decide⟩, by decide⟩, nofun⟩
  obtain ⟨sent, started, played⟩ := copies_iff ⟨0, 0, 0, 90000⟩ (fun _ => 7) (fun _ => 7) coded parsable (by decide)
  refine ⟨sent, started, played.mpr fun first head => ?_⟩
  obtain rfl := Option.some.inj head
  decide

end H264Streaming.Interop
