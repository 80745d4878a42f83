import H264Streaming.Bytes.Search
import H264Streaming.RtspClient.Handling

/-! Where the handlers of the player read and write, for every result of recv and recvfrom. -/

set_option autoImplicit false

namespace H264Streaming.RtspClient

open H264Streaming.Bytes

inductive Access where
  /-- One octet read. -/
  | octet (offset : Nat)
  /-- fwrite of that many octets; the count becomes a size_t. -/
  | range (offset : Nat) (count : Int)
  /-- An argument that has to be a string: it is read up to its terminator. -/
  | string (offset : Nat)
  /-- strcpy of the whole to a block of that size. -/
  | copy (size : Nat)

/-- HandleRtpMsg; `opened` says whether the file is open or can be opened. -/
def rtpAccesses (opened : Bool) (buf : Buffer) (bufsize : Int) : List Access :=
  let nalu := buf.byte 12
  .octet 12 ::
    if opened then
      if getBits nalu 0 5 < 24 then [.range 12 (bufsize - 12)]
      else if getBits nalu 0 5 = 28 then [.octet 13, .range 14 (bufsize - 14)]
      else []
    else []

def keyAccesses (key buf : List UInt8) : List Access :=
  match strstr key buf with
  | none => [.string 0]
  | some rest => [.string 0, .string 0, .string (buf.length - rest.length)]

def rtspAccesses (received : Received) : List Access :=
  .string 0 ::
    match dispatch received.buf with
    | some .describe => [.copy (received.octets.length + 1)]
    | some .videoSetup => keyAccesses (ascii "client_port=") received.buf ++ keyAccesses (ascii "server_port=") received.buf
    | none => []

def recvbuf (octets : List UInt8) : List UInt8 := octets ++ List.replicate (2048 - octets.length) 0

/-- It stays in the buffer, its length is not negative, and a copy fits in its block. -/
def Access.Inside (memory : List UInt8) : Access → Prop
  | .octet offset => offset < memory.length
  | .range offset count => 0 ≤ count ∧ offset + count ≤ memory.length
  | .string offset => 0 ∈ memory.drop offset
  | .copy size => 0 ∈ memory ∧ (cString memory).length + 1 ≤ size

/-- A result of recvfrom on the RTP socket, `none` for an error, or of recv on the RTSP socket. -/
inductive Result where
  | datagram (opened : Bool) (result : Option (List UInt8)) (bounded : ∀ octets ∈ result, octets.length ≤ 2048)
  | message (received : Received) (filled : received.octets ≠ [])

def Result.accesses : Result → List Access
  | .datagram opened result _ => rtpAccesses opened (recvRtp result).1 (recvRtp result).2
  | .message received _ => rtspAccesses received

def Result.memory : Result → List UInt8
  | .datagram _ result _ => recvbuf (result.getD [])
  | .message received _ => recvbuf received.octets

/-- A datagram has the header and, as a fragment, the octet behind the indicator; a message has a zero or
leaves room for one. -/
def Result.Tolerable : Result → Prop
  | .datagram opened none _ => opened = false
  | .datagram opened (some octets) _ =>
      opened = true → 12 ≤ octets.length ∧ (octets.length = 13 → getBits (octets.getD 12 0) 0 5 ≠ 28)
  | .message received _ => 0 ∈ received.octets ∨ received.octets.length < 2048

/-! ### The accesses are those of the handlers -/

def Access.write (buf : Buffer) : Access → Option Action
  | .range offset count => some (writeFrom buf offset count)
  | _ => none

theorem handleRtpMsg_range (buf : Buffer) (bufsize : Int) :
    (handleRtpMsg buf bufsize).getLast? = ((rtpAccesses true buf bufsize).filterMap (Access.write buf)).getLast? := by
  unfold handleRtpMsg rtpAccesses
  dsimp only
  rw [if_pos rfl]
  by_cases single : getBits (buf.byte 12) 0 5 < 24
  · rw [if_pos single, if_pos single]
    rfl
  · rw [if_neg single, if_neg single]
    by_cases fragment : getBits (buf.byte 12) 0 5 = 28
    · rw [if_pos fragment, if_pos fragment]
      split <;> rfl
    · rw [if_neg fragment, if_neg fragment]
      rfl

/-! ### Datagrams -/

theorem length_recvbuf {octets : List UInt8} (bounded : octets.length ≤ 2048) : (recvbuf octets).length = 2048 := by
  rw [recvbuf, List.length_append, List.length_replicate]
  omega

theorem length_recvbuf_result {result : Option (List UInt8)} (bounded : ∀ octets ∈ result, octets.length ≤ 2048) :
    (recvbuf (result.getD [])).length = 2048 := by
  cases result with
  | none => exact length_recvbuf (Nat.zero_le 2048)
  | some octets => exact length_recvbuf (bounded octets rfl)

theorem byte_recvRtp (octets : List UInt8) (k : Nat) : (recvRtp (some octets)).1.byte k = octets.getD k 0 := by
  simp [recvRtp, Buffer.write, Buffer.untouched, List.getD_eq_getElem?_getD]

theorem Access.range_inside_iff {memory : List UInt8} (whole : memory.length = 2048) (offset : Nat) (count : Int) :
    (Access.range offset count).Inside memory ↔ 0 ≤ count ∧ offset + count ≤ 2048 := by
  rw [Access.Inside, whole]
  exact Iff.rfl

theorem rtpAccesses_inside_iff {buf : Buffer} {size : Nat} {memory : List UInt8} (whole : memory.length = 2048)
    (bounded : size ≤ 2048) (cleared : ∀ k, size ≤ k → buf.byte k = 0) :
    (∀ access ∈ rtpAccesses true buf size, access.Inside memory) ↔
      12 ≤ size ∧ (size = 13 → getBits (buf.byte 12) 0 5 ≠ 28) := by
  have blank : getBits 0 0 5 = 0 := by decide
  have fu : ¬ (28 : UInt8) < 24 := by decide
  unfold rtpAccesses
  dsimp only
  rw [if_pos rfl, List.forall_mem_cons, and_iff_right (show (Access.octet 12).Inside memory by
    rw [Access.Inside, whole]; decide)]
  by_cases single : getBits (buf.byte 12) 0 5 < 24
  · rw [if_pos single, List.forall_mem_singleton, Access.range_inside_iff whole]
    have other : getBits (buf.byte 12) 0 5 ≠ 28 := by
      intro same
      rw [same] at single
      exact fu single
    constructor
    · rintro ⟨positive, -⟩
      exact ⟨by omega, fun _ => other⟩
    · rintro ⟨headed, -⟩
      exact ⟨by omega, by omega⟩
  · rw [if_neg single]
    -- an octet that has not been received would be zero
    have received : 12 < size := by
      by_contra short
      rw [cleared 12 (Nat.le_of_not_lt short), blank] at single
      exact single (by decide)
    by_cases fragment : getBits (buf.byte 12) 0 5 = 28
    · rw [if_pos fragment, List.forall_mem_cons, List.forall_mem_singleton, Access.range_inside_iff whole,
        and_iff_right (show (Access.octet 13).Inside memory by rw [Access.Inside, whole]; decide)]
      constructor
      · rintro ⟨positive, -⟩
        exact ⟨Nat.le_of_lt received, fun thirteen => by omega⟩
      · rintro ⟨-, longer⟩
        have more : size ≠ 13 := fun thirteen => longer thirteen fragment
        exact ⟨by omega, by omega⟩
    · rw [if_neg fragment]
      exact ⟨fun _ => ⟨Nat.le_of_lt received, fun _ => fragment⟩, fun _ _ none => absurd none List.not_mem_nil⟩

theorem rtpAccesses_closed_inside (buf : Buffer) (bufsize : Int) {memory : List UInt8} (whole : memory.length = 2048) :
    ∀ access ∈ rtpAccesses false buf bufsize, access.Inside memory := by
  unfold rtpAccesses
  dsimp only
  rw [if_neg Bool.false_ne_true, List.forall_mem_singleton, Access.Inside, whole]
  decide

theorem rtpAccesses_failed_outside (memory : List UInt8) :
    ¬ ∀ access ∈ rtpAccesses true (recvRtp none).1 (recvRtp none).2, access.Inside memory := by
  intro inside
  have range : Access.range 12 (-13) ∈ rtpAccesses true (recvRtp none).1 (recvRtp none).2 :=
    List.mem_cons_of_mem _ List.mem_cons_self
  exact absurd (inside _ range).1 (by decide)

/-! ### Messages -/

theorem zero_mem_recvbuf_iff {octets : List UInt8} (bounded : octets.length ≤ 2048) :
    0 ∈ recvbuf octets ↔ 0 ∈ octets ∨ octets.length < 2048 := by
  rw [recvbuf, List.mem_append, List.mem_replicate]
  constructor
  · exact Or.imp_right fun ⟨room, _⟩ => by omega
  · exact Or.imp_right fun room => ⟨by omega, rfl⟩

variable {received : Received}

theorem buf_of_terminated (terminated : 0 ∈ recvbuf received.octets) : received.buf = cString (recvbuf received.octets) :=
  cString_append_of_mem terminated

theorem string_inside {offset : Nat} (terminated : 0 ∈ recvbuf received.octets) (within : offset ≤ received.buf.length) :
    (Access.string offset).Inside (recvbuf received.octets) := by
  obtain ⟨behind, split⟩ := exists_behind_cString terminated
  rw [← buf_of_terminated terminated] at split
  rw [Access.Inside, split, List.drop_append_of_le_length within]
  exact List.mem_append_right _ List.mem_cons_self

theorem copy_inside (terminated : 0 ∈ recvbuf received.octets) :
    (Access.copy (received.octets.length + 1)).Inside (recvbuf received.octets) := by
  have text : cString (recvbuf received.octets) = cString received.octets := cString_append_zeros _
  refine ⟨terminated, ?_⟩
  rw [text]
  exact Nat.succ_le_succ (List.takeWhile_prefix _).length_le

theorem keyAccesses_inside (key : List UInt8) (terminated : 0 ∈ recvbuf received.octets) :
    ∀ access ∈ keyAccesses key received.buf, access.Inside (recvbuf received.octets) := by
  have start := string_inside terminated (Nat.zero_le received.buf.length)
  unfold keyAccesses
  split
  · exact List.forall_mem_singleton.mpr start
  · next rest _ =>
      have found := string_inside terminated (Nat.sub_le received.buf.length rest.length)
      simp only [List.forall_mem_cons, start, found, true_and, List.not_mem_nil, false_imp_iff, implies_true]

theorem rtspAccesses_inside_iff :
    (∀ access ∈ rtspAccesses received, access.Inside (recvbuf received.octets)) ↔ 0 ∈ recvbuf received.octets := by
  constructor
  · intro inside
    exact inside (.string 0) List.mem_cons_self
  · intro terminated
    refine List.forall_mem_cons.mpr ⟨string_inside terminated (Nat.zero_le _), ?_⟩
    cases dispatch received.buf with
    | none => exact fun _ absent => absurd absent List.not_mem_nil
    | some handler =>
        cases handler with
        | describe => exact List.forall_mem_singleton.mpr (copy_inside terminated)
        | videoSetup =>
            exact List.forall_mem_append.mpr ⟨keyAccesses_inside _ terminated, keyAccesses_inside _ terminated⟩

theorem message_inside_iff (filled : received.octets ≠ []) :
    (∀ access ∈ (Result.message received filled).accesses, access.Inside (Result.message received filled).memory) ↔
      0 ∈ received.octets ∨ received.octets.length < 2048 :=
  rtspAccesses_inside_iff.trans (zero_mem_recvbuf_iff received.bounded)

/-! ### Every result -/

/-- The handlers stay inside the buffer, use no negative length and overrun no copy for the tolerable results, and
for no other. -/
theorem tolerates_iff (result : Result) :
    (∀ access ∈ result.accesses, access.Inside result.memory) ↔ result.Tolerable := by
  cases result with
  | datagram opened result bounded =>
      cases opened with
      | false =>
          have length := length_recvbuf_result bounded
          have inside := rtpAccesses_closed_inside (recvRtp result).1 (recvRtp result).2 length
          cases result with
          | none => exact iff_of_true inside rfl
          | some octets => exact iff_of_true inside fun opened => absurd opened Bool.false_ne_true
      | true =>
          cases result with
          | none => exact iff_of_false (rtpAccesses_failed_outside _) fun closed => by cases closed
          | some octets =>
              have cleared : ∀ k, octets.length ≤ k → (recvRtp (some octets)).1.byte k = 0 := by
                intro k behind
                rw [byte_recvRtp, List.getD_eq_getElem?_getD, List.getElem?_eq_none behind, Option.getD_none]
              have inside := rtpAccesses_inside_iff (length_recvbuf (bounded octets rfl)) (bounded octets rfl) cleared
              rw [byte_recvRtp] at inside
              exact inside.trans ⟨fun tolerable _ => tolerable, fun tolerable => tolerable rfl⟩
  | message received filled => exact message_inside_iff filled

/-- A datagram of eleven octets gives fwrite a count of -1, and a full buffer without a zero is no string. -/
theorem short_and_full_outside :
    let short := Result.datagram true (some (List.replicate 11 0)) fun _ same => by cases same; simp
    let full := Result.message ⟨List.replicate 2048 67, [], Nat.le_of_eq List.length_replicate⟩ (List.cons_ne_nil _ _)
    (¬ ∀ access ∈ short.accesses, access.Inside short.memory) ∧ ¬ ∀ access ∈ full.accesses, access.Inside full.memory := by
  refine ⟨fun inside => ?_, fun inside => ?_⟩
  · have range := List.mem_cons_of_mem (.octet 12) (List.mem_cons_self (a := Access.range 12 (-1)) (l := []))
    exact absurd (inside _ range).1 (by decide)
  · have length : (List.replicate 2048 (67 : UInt8)).length = 2048 := List.length_replicate
    rcases (message_inside_iff _).mp inside with zero | room
    · exact absurd (List.eq_of_mem_replicate zero) (by decide)
    · exact absurd length (Nat.ne_of_lt room)

end H264Streaming.RtspClient
