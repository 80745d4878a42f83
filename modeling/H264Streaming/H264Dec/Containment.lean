import H264Streaming.Format.Payload
import H264Streaming.H264Dec.Cuts
import H264Streaming.H264Dec.Rtp

/-! Where rtp_parse reads, what it subtracts and which part of the payload it hands over. -/

set_option autoImplicit false

namespace H264Streaming.H264Dec

open H264Streaming.Bytes H264Streaming.Format H264Streaming.Semantics

inductive Access where
  /-- Octets of `raw` read. -/
  | raw (offset count : Nat)
  /-- A difference of unsigned ints. -/
  | difference (left right : Nat)
  /-- nalu_size, with the offset in `payload` from which it counts. -/
  | naluSize (offset size : Nat)
  | startCode
  /-- Octets of `payload` given to the streamer. -/
  | range (offset count : Nat)
  /-- An octet given to the streamer that is computed from octets of `payload`. -/
  | octet (offset count : Nat) (compute : List UInt8 → UInt8)

def Access.write (payload : Buffer) : Access → Option Write
  | .startCode => some streamerWriteNal
  | .range offset count => some (streamerWrite payload offset count)
  | .octet offset count compute => some (.octets [compute (payload.read offset count)])
  | _ => none

def lowOctet (octets : List UInt8) : UInt8 := UInt8.ofNat (value16 (octets.getD 0 0) (octets.getD 1 0))

def fuKey (octets : List UInt8) : UInt8 :=
  (((octets.getD 0 0 &&& 0x60) >>> 5) <<< 5) ||| (octets.getD 1 0 &&& 0x1F)

def stapAAccesses (payload : Buffer) (paysize nidx : Nat) : List Access :=
  if nidx < paysize - 1 then
    let naluSize := value16 (payload.byte (1 + nidx)) (payload.byte (1 + nidx + 1))
    if naluSize = 0 then
      .difference paysize 1 :: .startCode :: .naluSize (1 + (nidx + 2)) naluSize :: .octet (1 + nidx) 2 lowOctet ::
        stapAAccesses payload paysize (nidx + 2 + 1)
    else
      .difference paysize 1 :: .startCode :: .naluSize (1 + (nidx + 2)) naluSize :: .octet (1 + nidx) 2 lowOctet ::
        .range (1 + (nidx + 2)) naluSize :: stapAAccesses payload paysize (nidx + 2 + naluSize)
  else [.difference paysize 1]
  termination_by paysize - nidx

def fuAAccesses (payload : Buffer) (paysize : Nat) : List Access :=
  let data := [.difference paysize 2, .range 2 (unsignedSub paysize 2)]
  if payload.byte 1 &&& 0x80 ≠ 0 then .startCode :: .octet 0 2 fuKey :: data else data

def payloadAccesses (payload : Buffer) (paysize : Nat) : List Access :=
  let nalType := payload.byte 0 &&& 0x1F
  if 1 ≤ nalType ∧ nalType ≤ 23 then [.startCode, .range 0 4]
  else if nalType = 24 then stapAAccesses payload paysize 0
  else if nalType = 28 then fuAAccesses payload paysize
  else []

/-- All of rtp_parse: the 12 octets of the header, paysize, memcpy, and what the payload's type asks for. -/
def accesses (raw : Buffer) (size : Nat) : List Access :=
  let paysize := unsignedSub size 12
  .raw 0 12 :: .difference size 12 :: .raw 12 paysize :: payloadAccesses (payloadArray raw paysize) paysize

/-! ### The accesses are those of rtp_parse -/

theorem writeStapA_eq (payload : Buffer) (paysize nidx : Nat) :
    writeStapA payload paysize nidx = (stapAAccesses payload paysize nidx).filterMap (Access.write payload) := by
  fun_induction writeStapA payload paysize nidx with
  | case1 nidx more naluSize size hollow ih =>
      rw [stapAAccesses, if_pos more]
      dsimp only
      rw [if_pos hollow, ih]
      rfl
  | case2 nidx more naluSize size unit ih =>
      rw [stapAAccesses, if_pos more]
      dsimp only
      rw [if_neg unit, ih]
      rfl
  | case3 nidx done =>
      rw [stapAAccesses, if_neg done]
      rfl

theorem writeFuA_eq (payload : Buffer) (paysize : Nat) :
    writeFuA payload paysize = (fuAAccesses payload paysize).filterMap (Access.write payload) := by
  unfold writeFuA fuAAccesses
  dsimp only
  split <;> rfl

theorem writePayload_eq (payload : Buffer) (paysize : Nat) :
    writePayload payload paysize = (payloadAccesses payload paysize).filterMap (Access.write payload) := by
  unfold writePayload payloadAccesses
  dsimp only
  split
  · rfl
  · split
    · exact writeStapA_eq payload paysize 0
    · split
      · exact writeFuA_eq payload paysize
      · rfl

/-! ### Staying inside -/

/-- An access is inside: no octet beyond the `size` octets of `raw` or the `paysize` octets of payload
in them, no difference below zero. -/
def Access.Inside (size paysize : Nat) : Access → Prop
  | .raw offset count => offset + count ≤ size
  | .difference left right => right ≤ left
  | .naluSize offset size => offset + size ≤ paysize
  | .startCode => True
  | .range offset count => offset + count ≤ paysize
  | .octet offset count _ => offset + count ≤ paysize

def Contained (raw : Buffer) (size : Nat) : Prop :=
  ∀ access ∈ accesses raw size, access.Inside size (size - 12)

/-- Sizes followed by their units up to the end; an empty unit takes the octet behind it with it. -/
inductive Entries : List UInt8 → Prop where
  | nil : Entries []
  | unit {octets rest : List UInt8} (nonempty : octets ≠ []) (sized : octets.length < 65536) (later : Entries rest) :
      Entries (entry octets ++ rest)
  | hollow {rest : List UInt8} (later : Entries (rest.drop 1)) : Entries (entry [] ++ rest)

/-- What a payload has to hold, by its NAL type. -/
def PayloadFits : List UInt8 → Prop
  | [] => True
  | header :: rest =>
      let nalType := header &&& 0x1F
      if 1 ≤ nalType ∧ nalType ≤ 23 then 3 ≤ rest.length
      else if nalType = 24 then Entries rest
      else if nalType = 28 then 1 ≤ rest.length
      else True

theorem entries_cons_cons_iff {high low : UInt8} {rest : List UInt8} :
    Entries (high :: low :: rest) ↔
      if value16 high low = 0 then Entries (rest.drop 1)
      else value16 high low ≤ rest.length ∧ Entries (rest.drop (value16 high low)) := by
  constructor
  · intro entries
    generalize whole : high :: low :: rest = list at entries
    cases entries with
    | nil => cases whole
    | unit nonempty sized later =>
        obtain ⟨size, rfl⟩ := (eq_entry_append_iff sized).mp whole
        have filled := List.length_pos_of_ne_nil nonempty
        rw [size, if_neg (by omega), List.drop_left, List.length_append]
        exact ⟨Nat.le_add_right _ _, later⟩
    | hollow later =>
        obtain ⟨size, rfl⟩ := (eq_entry_append_iff (by decide)).mp whole
        rw [size]
        exact later
  · split
    · intro later
      rename_i hollow
      have whole : high :: low :: rest = entry [] ++ rest := (eq_entry_append_iff (by decide)).mpr ⟨hollow, rfl⟩
      exact whole ▸ .hollow later
    · rintro ⟨inside, later⟩
      rename_i filled
      have small := value16_lt high low
      have size : (rest.take (value16 high low)).length = value16 high low := List.length_take_of_le inside
      have whole := (List.take_append_drop (value16 high low) rest).symm
      rw [(eq_entry_append_iff (by omega)).mpr ⟨size.symm, whole⟩]
      refine .unit ?_ (by omega) later
      intro empty
      rw [empty] at size
      exact filled size.symm

theorem not_entries_singleton (octet : UInt8) : ¬ Entries [octet] := by
  intro entries
  generalize whole : [octet] = list at entries
  have lengths := congrArg List.length whole
  cases entries with
  | nil => cases lengths
  | unit nonempty sized later =>
      rw [List.length_append, length_entry, List.length_singleton] at lengths
      omega
  | hollow later =>
      rw [List.length_append, length_entry, List.length_singleton] at lengths
      omega

theorem entries_drop_iff {rest : List UInt8} {nidx : Nat} (more : nidx < rest.length) :
    Entries (rest.drop nidx) ↔
      nidx + 2 ≤ rest.length ∧
        let size := value16 (rest[nidx]?.getD 0) (rest[nidx + 1]?.getD 0)
        if size = 0 then Entries (rest.drop (nidx + 2 + 1))
        else nidx + 2 + size ≤ rest.length ∧ Entries (rest.drop (nidx + 2 + size)) := by
  rw [List.drop_eq_getElem_cons more]
  by_cases both : nidx + 1 < rest.length
  · rw [List.drop_eq_getElem_cons both, entries_cons_cons_iff, List.getElem?_eq_getElem more,
      List.getElem?_eq_getElem both, Option.getD_some, Option.getD_some, List.drop_drop, List.drop_drop,
      List.length_drop]
    dsimp only
    generalize value16 rest[nidx] rest[nidx + 1] = size
    have fits : size ≤ rest.length - (nidx + 1 + 1) ↔ nidx + 2 + size ≤ rest.length := by omega
    rw [fits]
    exact ⟨fun later => ⟨both, later⟩, fun later => later.2⟩
  · rw [List.drop_eq_nil_of_le (by omega)]
    constructor
    · intro single
      exact absurd single (not_entries_singleton _)
    · intro pair
      omega

theorem stapAAccesses_inside_iff {payload : Buffer} {rest : List UInt8} {size : Nat}
    (stored : ∀ k, payload.byte (1 + k) = rest[k]?.getD 0) (nidx : Nat) :
    (∀ access ∈ stapAAccesses payload (rest.length + 1) nidx, access.Inside size (rest.length + 1)) ↔
      Entries (rest.drop nidx) := by
  generalize same : rest.length + 1 = paysize
  fun_induction stapAAccesses payload paysize nidx with
  | case1 nidx more naluSize hollow ih =>
      have inside : nidx < rest.length := by omega
      have field : value16 (rest[nidx]?.getD 0) (rest[nidx + 1]?.getD 0) = 0 := by
        rw [← stored, ← stored]
        exact hollow
      simp only [List.forall_mem_cons, ih, entries_drop_iff inside, field, if_true]
      simp only [Access.Inside, true_and]
      constructor
      · rintro ⟨-, -, both, later⟩
        exact ⟨by omega, later⟩
      · rintro ⟨both, later⟩
        exact ⟨by omega, by omega, by omega, later⟩
  | case2 nidx more naluSize unit ih =>
      have inside : nidx < rest.length := by omega
      have field : value16 (rest[nidx]?.getD 0) (rest[nidx + 1]?.getD 0) = naluSize := by
        rw [← stored, ← stored]
        rfl
      simp only [List.forall_mem_cons, ih, entries_drop_iff inside, field, if_neg unit]
      simp only [Access.Inside, true_and]
      constructor
      · rintro ⟨-, fits, both, -, later⟩
        exact ⟨by omega, by omega, later⟩
      · rintro ⟨both, fits, later⟩
        exact ⟨by omega, by omega, by omega, by omega, later⟩
  | case3 nidx done =>
      have none : rest.drop nidx = [] := List.drop_eq_nil_of_le (by omega)
      rw [none, List.forall_mem_singleton]
      exact ⟨fun _ => .nil, fun _ => by simp only [Access.Inside]; omega⟩

theorem fuAAccesses_inside_iff (payload : Buffer) (size : Nat) {paysize : Nat} (small : paysize < 4294967296) :
    (∀ access ∈ fuAAccesses payload paysize, access.Inside size paysize) ↔ 2 ≤ paysize := by
  have data : (∀ access ∈ [.difference paysize 2, .range 2 (unsignedSub paysize 2)], Access.Inside size paysize access) ↔
      2 ≤ paysize := by
    rw [List.forall_mem_cons, List.forall_mem_singleton]
    refine ⟨fun both => both.1, fun enough => ⟨enough, ?_⟩⟩
    rw [unsignedSub_of_le enough small, Access.Inside]
    omega
  unfold fuAAccesses
  dsimp only
  split
  · rw [List.forall_mem_cons, List.forall_mem_cons, data]
    simp only [Access.Inside, true_and]
    omega
  · exact data

theorem payloadAccesses_inside_iff {payload : Buffer} {octets : List UInt8} (size : Nat)
    (stored : ∀ k, payload.byte k = octets[k]?.getD 0) (small : octets.length < 4294967296) :
    (∀ access ∈ payloadAccesses payload octets.length, access.Inside size octets.length) ↔ PayloadFits octets := by
  unfold payloadAccesses
  rw [stored 0]
  cases octets with
  | nil =>
      constructor
      · intro _
        trivial
      · intro _ access member
        exact absurd member List.not_mem_nil
  | cons header rest =>
      have behind : ∀ k, payload.byte (1 + k) = rest[k]?.getD 0 := by
        intro k
        rw [stored, Nat.add_comm, List.getElem?_cons_succ]
      rw [List.getElem?_cons_zero, Option.getD_some, PayloadFits]
      dsimp only
      split
      · rw [List.forall_mem_cons, List.forall_mem_singleton]
        simp only [Access.Inside, true_and, List.length_cons]
        omega
      · split
        · exact stapAAccesses_inside_iff behind 0
        · split
          · rw [fuAAccesses_inside_iff payload size small, List.length_cons]
            omega
          · simp

/-- rtp_parse stays inside a frame exactly when the frame holds an RTP header and what its payload's
type asks for. -/
theorem contained_iff (frame : Frame) (storage : Buffer) :
    Contained (storage.write 0 frame.payload) frame.payload.length ↔
      12 ≤ frame.payload.length ∧ PayloadFits (frame.payload.drop 12) := by
  have bounded := frame.sized.2
  unfold Contained accesses
  simp only [List.forall_mem_cons]
  by_cases headed : 12 ≤ frame.payload.length
  · have length : (frame.payload.drop 12).length = frame.payload.length - 12 := List.length_drop
    have stored : ∀ k, (payloadArray (storage.write 0 frame.payload) (frame.payload.length - 12)).byte k =
        (frame.payload.drop 12)[k]?.getD 0 :=
      byte_payloadArray storage headed
    have inner := payloadAccesses_inside_iff frame.payload.length stored (by omega)
    rw [length] at inner
    rw [unsignedSub_of_le headed (by omega), inner]
    simp only [Access.Inside]
    exact ⟨fun all => ⟨headed, all.2.2.2⟩, fun fits => ⟨by omega, headed, by omega, fits.2⟩⟩
  · simp only [Access.Inside]
    omega

def delimiterFrame : Frame := ⟨0, [0x80, 0x60, 0, 1, 0, 0, 0x0E, 0x10, 0, 0, 0, 7, 0x09, 0xF0], by decide⟩

/-- Its two octets are handed over with two octets of the zeroed array behind them. -/
theorem delimiter_padded :
    ¬ Contained ((Buffer.untouched fun _ => 0).write 0 delimiterFrame.payload) delimiterFrame.payload.length ∧
      (let raw := (Buffer.untouched fun _ => 0).write 0 delimiterFrame.payload
       (rtpParse ⟨1, 0⟩ raw 14 .reset).map Traced.events =
         some [⟨14, [streamerWriteNal, .octets [0x09, 0xF0, 0, 0]]⟩]) := by
  constructor
  · intro contained
    have handed : Access.range 0 4 ∈ accesses ((Buffer.untouched fun _ => 0).write 0 delimiterFrame.payload) 14 :=
      List.mem_of_getElem? (show _[4]? = _ from rfl)
    have inside : 0 + 4 ≤ 14 - 12 := contained _ handed
    omega
  · decide +kernel

end H264Streaming.H264Dec
