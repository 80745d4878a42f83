import H264Streaming.Format.AnnexB
import H264Streaming.H264Dec.Base64
import H264Streaming.H264Dec.ParameterSets

/-! The stream header of h264dec: what streamer_write_h264_header and streamer_prepare
(h264dec/streamer.c) write of the parameter sets that rtsp_loop decodes. -/

set_option autoImplicit false

namespace H264Streaming.H264Dec

open H264Streaming.Bytes H264Streaming.Format H264Streaming.Semantics

/-- streamer_write_h264_header; streamer_prepare writes the same to the metadata file.
A write from NULL leaves no octets. -/
def streamerWriteH264Header (spsDec ppsDec : Option (List UInt8)) : List UInt8 :=
  [0, 0, 0, 1] ++ (spsDec.getD [] ++ ([0, 0, 0, 1] ++ ppsDec.getD []))

def h264Header (fresh : Nat → UInt8) (c : Client) : Option (List UInt8) :=
  (parameterSets fresh c).map fun (sps, pps) => streamerWriteH264Header (base64Decode sps) (base64Decode pps)

/-! ### Letters behind an encoding -/

theorem length_blocks (src : List UInt8) : (blocks src).length = src.length / 4 * 3 := by
  induction src using blocks.induct with
  | case1 a b c d rest ih =>
      rw [blocks, List.length_append, ih]
      simp only [blockOctets, List.length_cons, List.length_nil]
      omega
  | case2 src short =>
      have few : src.length < 4 := by
        rcases src with _ | ⟨a, _ | ⟨b, _ | ⟨c, _ | ⟨d, rest⟩⟩⟩⟩
        · simp
        · simp
        · simp
        · simp
        · exact absurd rfl (short a b c d rest)
      rw [blocks, Nat.div_eq_of_lt few]
      · rfl
      · exact short

theorem padding_le (last : List UInt8) : padding last ≤ 2 := by
  unfold padding
  split
  · split
    · exact Nat.le_refl 2
    · split <;> decide
  · exact Nat.zero_le 2

theorem decodes_first_iff {src octets more : List UInt8} (kept : src.filter counted = Base64.encode octets ++ more)
    (filled : octets ≠ []) : (base64Decode src).getD [] = octets ↔ more = [] := by
  constructor
  · intro same
    by_contra others
    have some_octets := List.length_pos_of_ne_nil filled
    have some_letters := List.length_pos_of_ne_nil others
    have sizes := congrArg List.length same
    rw [base64Decode_eq, kept] at sizes
    split at sizes
    · simp only [Option.getD_none, List.length_nil] at sizes
      omega
    · next whole =>
        have few := padding_le (lastBlock [] (Base64.encode octets ++ more))
        simp only [Option.getD_some, List.length_take, length_blocks] at sizes
        simp only [List.length_append, Base64.length_encode] at sizes whole
        omega
  · rintro rfl
    rw [decodes (by rw [kept, List.append_nil]), Option.getD_some]

/-! ### The header of a description -/

structure Description.Carries (description : Description) (sps pps : NalUnit) : Prop where
  first : description.sps = Base64.encode sps.bytes
  second : description.pps = Base64.encode pps.bytes
  own : FirstAt spropKey description.front
    (spropKey ++ ((description.sets ++ description.more) ++ 13 :: description.after))

def setsHeader (sps pps : NalUnit) : List UInt8 := annexB [⟨true, sps⟩, ⟨true, pps⟩]

namespace Description

variable (description : Description)

theorem plain_parameters :
    (13 : UInt8) ∉ description.sets ++ description.more ∧ (0 : UInt8) ∉ description.sets ++ description.more := by
  have rest := description.terminated
  simp only [List.mem_append, not_or] at rest
  obtain ⟨line, zero, -⟩ := description.sets_plain
  refine ⟨?_, fun member => (List.mem_append.mp member).elim zero rest.2.2.1⟩
  rcases description.further with none | ⟨others, same, absent⟩
  · rwa [none, List.append_nil]
  · rw [same, List.mem_append, List.mem_cons, not_or, not_or]
    exact ⟨line, by decide, absent⟩

theorem params_iff (own : FirstAt spropKey description.front
    (spropKey ++ ((description.sets ++ description.more) ++ 13 :: description.after)))
    {arrived : Nat} {c : Client} {params : List UInt8} :
    (rtspCmdDescribe (description.text.take arrived) c).2 = some 0 ∧
        (rtspCmdDescribe (description.text.take arrived) c).1.state.params = some params ↔
      params = description.sets ++ description.more ∧
        (description.head.text ++ (description.front ++ (spropKey ++ (description.sets ++ description.more)))).length <
          min 4095 arrived := by
  have sdp : description.sdp = description.front ++
      (spropKey ++ ((description.sets ++ description.more) ++ 13 :: description.after)) := by
    rw [Description.sdp, List.append_assoc description.sets]
  have total : (description.head.text ++ (description.front ++ (spropKey ++ (description.sets ++ description.more)))).length =
      description.head.text.length + (description.front ++ (spropKey ++ (description.sets ++ description.more))).length :=
    List.length_append
  rw [rtspCmdDescribe_params, description.received_text, sprop_take_iff, sdp,
    fieldAt_take_iff own description.plain_parameters.1, total]
  constructor
  · rintro ⟨-, same, inside⟩
    exact ⟨same, by omega⟩
  · rintro ⟨same, inside⟩
    refine ⟨?_, same, by omega⟩
    have arrives : FieldAt spropKey 13 (description.sdp.take (min 4095 arrived - description.head.text.length))
        (description.sets ++ description.more) := by
      rw [sdp]
      exact (fieldAt_take_iff own description.plain_parameters.1).mpr ⟨rfl, by omega⟩
    have line : 13 ∈ received (description.text.take arrived) := by
      rw [description.received_text, List.take_append]
      exact List.mem_append_right _ arrives.mem_stop
    exact description.head.answered description.sdp_terminated line

end Description

/-- The header is the two sets exactly when all of the response has arrived, malloc leaves a zero behind
them, and what stands behind them on their line holds no octet of the alphabet. -/
theorem header_iff (description : Description) (sps pps : NalUnit) (carries : description.Carries sps pps)
    (fresh : Nat → UInt8) (arrived : Nat) (c : Client) :
    (rtspCmdDescribe (description.text.take arrived) c).2 = some 0 ∧
        h264Header fresh (rtspCmdDescribe (description.text.take arrived) c).1.state = some (setsHeader sps pps) ↔
      description.more.filter counted = [] ∧ fresh (description.sets ++ description.more).length = 0 ∧
        (description.head.text ++ (description.front ++ (spropKey ++ (description.sets ++ description.more)))).length <
          min 4095 arrived := by
  obtain ⟨first, second, own⟩ := carries
  have header : setsHeader sps pps = [0, 0, 0, 1] ++ (sps.bytes ++ ([0, 0, 0, 1] ++ pps.bytes)) := by
    rw [setsHeader, annexB_cons, annexB_cons, annexB, stream_nil, List.append_nil]
    rfl
  have sets : description.sets ++ description.more = description.sps ++ 44 :: (description.pps ++ description.more) := by
    rw [Description.sets, List.append_assoc]
    rfl
  have one : base64Decode description.sps = some sps.bytes := decodes (by rw [first, counted_encode])
  have letters : (description.pps ++ description.more).filter counted =
      Base64.encode pps.bytes ++ description.more.filter counted := by
    rw [List.filter_append, second, counted_encode]
  have other := decodes_first_iff letters (List.cons_ne_nil _ _)
  -- the texts handed over are the SPS and everything behind the comma
  have written (params : List UInt8) (same : params = description.sets ++ description.more) :
      ((splitSets (params ++ [fresh params.length])).map fun (sps, pps) =>
          streamerWriteH264Header (base64Decode sps) (base64Decode pps)) = some (setsHeader sps pps) ↔
        fresh params.length = 0 ∧ description.more.filter counted = [] := by
    have zero := description.plain_parameters.2
    rw [← same] at zero
    rw [Option.map_eq_some_iff]
    constructor
    · rintro ⟨⟨firstText, secondText⟩, split, equal⟩
      obtain ⟨blank, parts, absent⟩ := (splitSets_iff zero).mp split
      rw [same, sets] at parts
      obtain ⟨rfl, rfl⟩ := append_cons_inj description.sets_plain.2.2 absent parts
      dsimp only at equal
      rw [streamerWriteH264Header, one, Option.getD_some, header, List.append_cancel_left_eq, List.append_cancel_left_eq,
        List.append_cancel_left_eq] at equal
      exact ⟨blank, other.mp equal⟩
    · rintro ⟨blank, none⟩
      refine ⟨(description.sps, description.pps ++ description.more), ?_, ?_⟩
      · exact (splitSets_iff zero).mpr ⟨blank, by rw [same, sets], description.sets_plain.2.2⟩
      · dsimp only
        rw [streamerWriteH264Header, one, other.mpr none, header]
        rfl
  unfold h264Header parameterSets
  constructor
  · rintro ⟨zero, whole⟩
    obtain ⟨texts, handed, equal⟩ := Option.map_eq_some_iff.mp whole
    obtain ⟨params, held, split⟩ := Option.bind_eq_some_iff.mp handed
    obtain ⟨same, inside⟩ := (description.params_iff own).mp ⟨zero, held⟩
    obtain ⟨blank, none⟩ := (written params same).mp (Option.map_eq_some_iff.mpr ⟨texts, split, equal⟩)
    rw [same] at blank
    exact ⟨none, blank, inside⟩
  · rintro ⟨none, blank, inside⟩
    obtain ⟨zero, held⟩ := (description.params_iff (c := c) own).mpr ⟨rfl, inside⟩
    rw [held]
    exact ⟨zero, (written _ rfl).mpr ⟨blank, none⟩⟩

theorem header_iff_profile :
    let client := Client.start (ascii "rtsp://h/s") (ascii "h") 554 0
    let first := profiled [] (Or.inl rfl) (by decide)
    let second := profiled (ascii ";profile-level-id=42e01e") (Or.inr ⟨_, rfl, by decide⟩) (by decide)
    h264Header (fun _ => 0) (rtspCmdDescribe (first.text.take 1500) client).1.state =
        some (setsHeader ⟨0x67, [0x42, 0xE0, 0x1E]⟩ ⟨0x68, [0xCE, 0x31, 0x52]⟩) ∧
      ¬ ((rtspCmdDescribe (second.text.take 1500) client).2 = some 0 ∧
        h264Header (fun _ => 0) (rtspCmdDescribe (second.text.take 1500) client).1.state =
          some (setsHeader ⟨0x67, [0x42, 0xE0, 0x1E]⟩ ⟨0x68, [0xCE, 0x31, 0x52]⟩)) := by
  intro client first second
  have carries (description : Description) (plain : description.sps = ascii "Z0LgHg==" ∧ description.pps = ascii "aM4xUg==")
      (own : FirstAt spropKey description.front
        (spropKey ++ ((description.sets ++ description.more) ++ 13 :: description.after))) :
      description.Carries ⟨0x67, [0x42, 0xE0, 0x1E]⟩ ⟨0x68, [0xCE, 0x31, 0x52]⟩ :=
    ⟨by rw [plain.1]; decide +kernel, by rw [plain.2]; decide +kernel, own⟩
  refine ⟨?_, fun written => ?_⟩
  · refine ((header_iff first _ _ (carries first ⟨rfl, rfl⟩ ⟨List.prefix_append _ _, ?_⟩) (fun _ => 0) 1500 client).mpr
      ⟨rfl, rfl, by decide +kernel⟩).2
    decide +kernel
  · have letters := ((header_iff second _ _ (carries second ⟨rfl, rfl⟩ ⟨List.prefix_append _ _, by decide +kernel⟩)
      (fun _ => 0) 1500 client).mp written).1
    exact absurd letters (by decide +kernel)

end H264Streaming.H264Dec
