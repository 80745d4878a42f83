import H264Streaming.Jrtplib.Framing

/-! What SendH264Nalu reads of its buffer.

A payload cut out of a list says nothing about an address behind its end, so the
loop is followed once more with the arguments of SendPacket: an offset and a length. -/

set_option autoImplicit false

namespace H264Streaming.Jrtplib

open H264Streaming.Bytes H264Streaming.Semantics

/-! ### Ranges of a list -/

structure Range where
  offset : Nat
  length : Nat
  deriving DecidableEq

variable {α : Type}

def Range.of (r : Range) (whole : List α) : List α := (whole.drop r.offset).take r.length

/-- Ranges that are not empty and not longer than limit, each starting where the one before ends. -/
inductive Covers (limit : Nat) : Nat → Nat → List Range → Prop where
  | done {stop : Nat} : Covers limit stop stop []
  | next {start length stop : Nat} {rest : List Range} (positive : 1 ≤ length) (bounded : length ≤ limit)
      (later : Covers limit (start + length) stop rest) : Covers limit start stop (⟨start, length⟩ :: rest)

namespace Covers

variable {limit start stop : Nat} {ranges : List Range}

theorem le (covers : Covers limit start stop ranges) : start ≤ stop := by
  induction covers with
  | done => exact Nat.le_refl _
  | next positive bounded later ih => exact Nat.le_trans (Nat.le_add_right _ _) ih

theorem inside (covers : Covers limit start stop ranges) :
    ∀ r ∈ ranges, 1 ≤ r.length ∧ r.length ≤ limit ∧ r.offset + r.length ≤ stop := by
  induction covers with
  | done => exact fun _ member => absurd member List.not_mem_nil
  | next positive bounded later ih =>
      rw [List.forall_mem_cons]
      exact ⟨⟨positive, bounded, later.le⟩, ih⟩

theorem flatten (covers : Covers limit start stop ranges) (whole : List α) :
    (ranges.map fun r => r.of whole).flatten = (whole.drop start).take (stop - start) := by
  induction covers with
  | done => rw [Nat.sub_self, List.take_zero, List.map_nil, List.flatten_nil]
  | @next start length stop rest positive bounded later ih =>
      have reached := later.le
      have split : stop - start = length + (stop - (start + length)) := by omega
      rw [List.map_cons, List.flatten_cons, ih, split, List.take_add, List.drop_drop]
      rfl

end Covers

/-! ### The calls of SendPacket -/

/-- sendLoop with the arguments of SendPacket in place of its packets. -/
def rangeLoop (buflen allPacket overData : Nat) : Nat → Nat → Option (List Range)
  | 0, _ => none
  | iterations + 1, sendPacket =>
      if sendPacket < allPacket ∨ sendPacket = allPacket ∧ 0 < overData then
        -- the first packet or the second last packet
        if 0 = sendPacket ∨ sendPacket < allPacket ∧ 0 ≠ sendPacket then do
          let rest ← rangeLoop buflen allPacket overData iterations (sendPacket + 1)
          return ⟨sendPacket * maxLen, maxLen⟩ :: rest
        -- the last packet
        else if allPacket = sendPacket ∧ 0 < overData ∨ sendPacket + 1 = allPacket ∧ overData = 0 then do
          let iSendLen := if 0 < overData then buflen - sendPacket * maxLen else maxLen
          let rest ← rangeLoop buflen allPacket overData iterations (sendPacket + 1)
          return ⟨sendPacket * maxLen, iSendLen⟩ :: rest
        else rangeLoop buflen allPacket overData iterations sendPacket
      else some []

def sendRanges (buflen : Nat) : Option (List Range) :=
  if buflen ≤ maxLen then some [⟨0, buflen⟩]
  else rangeLoop buflen (buflen / maxLen) (buflen % maxLen) (buflen / maxLen + 2) 0

def payloads (sent : Traced RTPSession RTPPacket) : List (List UInt8) := sent.events.map RTPPacket.payload

theorem sendLoop_payloads (h264buf : List UInt8) (allPacket overData iterations sendPacket : Nat) (sess : RTPSession) :
    (sendLoop h264buf allPacket overData iterations sendPacket sess).map payloads =
      (rangeLoop h264buf.length allPacket overData iterations sendPacket).map
        fun ranges => ranges.map fun r => r.of h264buf := by
  induction iterations generalizing sendPacket sess with
  | zero => rfl
  | succ iterations ih =>
      -- a packet and its range in front of what the remaining iterations send
      have joined (r : Range) (next : RTPSession) :
          (do let rest ← sendLoop h264buf allPacket overData iterations (sendPacket + 1) next
              return ⟨rest.state, (next.sendPacket (r.of h264buf)).events ++ rest.events⟩ :
            Option (Traced RTPSession RTPPacket)).map payloads =
          (do let rest ← rangeLoop h264buf.length allPacket overData iterations (sendPacket + 1)
              return r :: rest : Option (List Range)).map fun ranges => ranges.map fun r => r.of h264buf := by
        have later := ih (sendPacket + 1) next
        cases sent : sendLoop h264buf allPacket overData iterations (sendPacket + 1) next with
        | none =>
            rw [sent, Option.map_none, eq_comm, Option.map_eq_none_iff] at later
            rw [later]
            rfl
        | some rest =>
            rw [sent, Option.map_some, eq_comm, Option.map_eq_some_iff] at later
            obtain ⟨ranges, found, same⟩ := later
            rw [found]
            exact congrArg (fun rest => some (r.of h264buf :: rest)) same.symm
      rw [sendLoop, rangeLoop]
      split
      · split
        · exact joined ⟨sendPacket * maxLen, maxLen⟩ (sess.setDefaultMark false)
        · split
          · exact joined ⟨sendPacket * maxLen, if 0 < overData then h264buf.length - sendPacket * maxLen else maxLen⟩
              (sess.setDefaultMark true)
          · exact ih sendPacket sess
      · rfl

theorem sendH264Nalu_payloads (h264buf : List UInt8) (sess : RTPSession) :
    (sendH264Nalu h264buf sess).map payloads =
      (sendRanges h264buf.length).map fun ranges => ranges.map fun r => r.of h264buf := by
  unfold sendH264Nalu sendRanges
  dsimp only
  split
  · exact congrArg (fun payload => some [payload]) (List.take_length).symm
  · exact sendLoop_payloads h264buf _ _ _ _ sess

theorem rangeLoop_covers {buflen all overData : Nat} (quotient : buflen / maxLen = all)
    (remainder : buflen % maxLen = overData) (some_packet : 0 < all) (left k iterations : Nat)
    (here : k + left = all) (enough : left + 2 ≤ iterations) :
    ∃ ranges, rangeLoop buflen all overData iterations k = some ranges ∧ Covers maxLen (k * maxLen) buflen ranges := by
  have total : all * maxLen + overData = buflen := by
    rw [← quotient, ← remainder, Nat.mul_comm]
    exact Nat.div_add_mod buflen maxLen
  induction left generalizing k iterations with
  | zero =>
      obtain ⟨more, rfl⟩ := Nat.exists_eq_add_of_le' enough
      obtain rfl : k = all := here
      have finished : rangeLoop buflen k overData (more + 1) (k + 1) = some [] := by
        rw [rangeLoop, if_neg (by omega)]
      rw [rangeLoop]
      by_cases rest : 0 < overData
      · have below : overData < maxLen := by
          rw [← remainder]
          exact Nat.mod_lt _ (by decide)
        rw [if_pos (by omega), if_neg (by omega), if_pos (by omega), if_pos rest, finished]
        refine ⟨[⟨k * maxLen, buflen - k * maxLen⟩], rfl, .next (by omega) (by omega) ?_⟩
        rw [Nat.add_sub_cancel' (by omega)]
        exact .done
      · rw [if_neg (by omega)]
        obtain rfl : k * maxLen = buflen := by omega
        exact ⟨[], rfl, .done⟩
  | succ left ih =>
      obtain ⟨more, rfl⟩ := Nat.exists_eq_add_of_le' (show 1 ≤ iterations by omega)
      obtain ⟨ranges, sent, covers⟩ := ih (k + 1) more (by omega) (by omega)
      rw [Nat.succ_mul] at covers
      rw [rangeLoop, if_pos (by omega), if_pos (by omega), sent]
      exact ⟨⟨k * maxLen, maxLen⟩ :: ranges, rfl, .next (by decide) (Nat.le_refl _) covers⟩

theorem sendRanges_covers {buflen : Nat} (some_octet : 1 ≤ buflen) :
    ∃ ranges, sendRanges buflen = some ranges ∧ Covers maxLen 0 buflen ranges := by
  rw [sendRanges]
  split
  · rename_i small
    refine ⟨[⟨0, buflen⟩], rfl, .next some_octet small ?_⟩
    rw [Nat.zero_add]
    exact .done
  · rename_i large
    have some_packet : 0 < buflen / maxLen := Nat.div_pos (Nat.le_of_not_le large) (by decide)
    have covered := rangeLoop_covers rfl rfl some_packet (buflen / maxLen) 0 _ (Nat.zero_add _) (Nat.le_refl _)
    rwa [Nat.zero_mul] at covered

/-- SendH264Nalu returns. What it passes to SendPacket are non-empty parts of the
buffer, none of them above MAXLEN octets, and one behind the other they are the buffer. -/
theorem sendH264Nalu_covers (h264buf : List UInt8) (some_octet : 1 ≤ h264buf.length) (sess : RTPSession) :
    ∃ ranges sent, sendRanges h264buf.length = some ranges ∧ sendH264Nalu h264buf sess = some sent ∧
      sent.events.map RTPPacket.payload = ranges.map (fun r => r.of h264buf) ∧
      (∀ r ∈ ranges, 1 ≤ r.length ∧ r.length ≤ maxLen ∧ r.offset + r.length ≤ h264buf.length) ∧
      (∀ pack ∈ sent.events, 1 ≤ pack.payload.length ∧ pack.payload.length ≤ maxLen) ∧
      (sent.events.map RTPPacket.payload).flatten = h264buf := by
  obtain ⟨ranges, made, covers⟩ := sendRanges_covers some_octet
  have same := sendH264Nalu_payloads h264buf sess
  rw [made, Option.map_some, Option.map_eq_some_iff] at same
  obtain ⟨sent, passed, carried⟩ := same
  have whole := covers.flatten h264buf
  rw [List.drop_zero, Nat.sub_zero, List.take_length, ← carried] at whole
  refine ⟨ranges, sent, made, passed, carried, covers.inside, ?_, whole⟩
  intro pack member
  have payload := List.mem_map_of_mem (f := RTPPacket.payload) member
  change pack.payload ∈ payloads sent at payload
  rw [carried] at payload
  obtain ⟨r, listed, cut⟩ := List.mem_map.mp payload
  have bounds := covers.inside r listed
  have exact_length : pack.payload.length = r.length := by
    rw [← cut, Range.of, List.length_take, List.length_drop]
    omega
  rw [exact_length]
  exact ⟨bounds.1, bounds.2.1⟩

theorem sendH264Nalu_covers_even :
    1 ≤ (List.replicate 2600 (7 : UInt8)).length ∧
      ∃ ranges sent, sendRanges (List.replicate 2600 (7 : UInt8)).length = some ranges ∧
        sendH264Nalu (List.replicate 2600 7) ⟨true, 96⟩ = some sent ∧
        sent.events.map RTPPacket.payload = ranges.map (fun r => r.of (List.replicate 2600 7)) ∧
        (∀ r ∈ ranges, 1 ≤ r.length ∧ r.length ≤ maxLen ∧
          r.offset + r.length ≤ (List.replicate 2600 (7 : UInt8)).length) ∧
        (∀ pack ∈ sent.events, 1 ≤ pack.payload.length ∧ pack.payload.length ≤ maxLen) ∧
        (sent.events.map RTPPacket.payload).flatten = List.replicate 2600 7 :=
  have some_octet : 1 ≤ (List.replicate 2600 (7 : UInt8)).length := by
    rw [List.length_replicate]
    decide
  ⟨some_octet, sendH264Nalu_covers (List.replicate 2600 7) some_octet ⟨true, 96⟩⟩

end H264Streaming.Jrtplib
