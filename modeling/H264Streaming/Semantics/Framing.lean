import Mathlib.Data.List.Basic

/-! Streams of self-delimiting frames, and how far a received part of one reaches.

A received prefix holds some complete frames and a proper part of the next one. The
decomposition exists for every prefix and is unique, so a receiver that depends on it
alone does not depend on how the prefix arrived.
-/

set_option autoImplicit false

namespace H264Streaming.Semantics

variable {F B : Type} (bytes : F → List B)

def stream (frames : List F) : List B := frames.flatMap bytes

@[simp] theorem stream_nil : stream bytes [] = [] := rfl

@[simp] theorem stream_cons (frame : F) (rest : List F) :
    stream bytes (frame :: rest) = bytes frame ++ stream bytes rest := rfl

@[simp] theorem stream_append (first second : List F) :
    stream bytes (first ++ second) = stream bytes first ++ stream bytes second :=
  List.flatMap_append

/-- `received` is the frames `done` and the octets `part` of the next frame. -/
structure Reaches (frames : List F) (received : List B) (done left : List F) (part : List B) : Prop where
  frames_eq : frames = done ++ left
  received_eq : received = stream bytes done ++ part
  started : part <+: stream bytes left
  unfinished : ∀ frame ∈ left.head?, part.length < (bytes frame).length

variable {bytes}

theorem exists_reach {frames : List F} {received : List B} (initial : received <+: stream bytes frames) :
    ∃ done left part, Reaches bytes frames received done left part := by
  induction frames generalizing received with
  | nil => exact ⟨[], [], received, rfl, rfl, initial, by simp⟩
  | cons frame rest ih =>
      by_cases short : received.length < (bytes frame).length
      · refine ⟨[], frame :: rest, received, rfl, rfl, initial, fun first head => ?_⟩
        cases head
        exact short
      · -- the whole first frame has arrived
        rw [stream_cons] at initial
        have whole : bytes frame <+: received :=
          List.prefix_of_prefix_length_le (List.prefix_append _ _) initial (Nat.le_of_not_lt short)
        obtain ⟨later, split⟩ := whole
        rw [← split, List.prefix_append_right_inj] at initial
        obtain ⟨done, left, part, reach⟩ := ih initial
        refine ⟨frame :: done, left, part, ?_, ?_, reach.started, reach.unfinished⟩
        · rw [reach.frames_eq, List.cons_append]
        · rw [← split, reach.received_eq, stream_cons, List.append_assoc]

namespace Reaches

variable {frames done left : List F} {received part : List B}

theorem complete (reach : Reaches bytes frames (stream bytes frames) done left part) : done = frames := by
  cases left with
  | nil => rw [reach.frames_eq, List.append_nil]
  | cons frame rest =>
      have same := reach.received_eq
      rw [reach.frames_eq, stream_append, List.append_cancel_left_eq] at same
      have bound := reach.unfinished frame rfl
      rw [← same, stream_cons, List.length_append] at bound
      omega

theorem extend {chunk next : List B} {more after : List F} (reach : Reaches bytes frames received done left part)
    (further : Reaches bytes left (part ++ chunk) more after next) :
    Reaches bytes frames (received ++ chunk) (done ++ more) after next where
  frames_eq := by rw [reach.frames_eq, further.frames_eq, List.append_assoc]
  received_eq := by
    rw [reach.received_eq, List.append_assoc, further.received_eq, stream_append, List.append_assoc]
  started := further.started
  unfinished := further.unfinished

theorem length_done_le {before after : List F} (reach : Reaches bytes frames received done left part)
    (split : frames = before ++ after) (arrived : (stream bytes before).length ≤ received.length) :
    before.length ≤ done.length := by
  by_contra longer
  have shorter : done.length < before.length := Nat.lt_of_not_le longer
  have same : done ++ left = before ++ after := reach.frames_eq.symm.trans split
  -- otherwise the first frame left over would have arrived
  obtain ⟨between, first⟩ := List.prefix_of_prefix_length_le (List.prefix_append done left)
    (same ▸ List.prefix_append before after) (Nat.le_of_lt shorter)
  cases between with
  | nil =>
      rw [← first, List.append_nil] at shorter
      exact Nat.lt_irrefl _ shorter
  | cons frame rest =>
      rw [← first, List.append_assoc, List.append_cancel_left_eq] at same
      have bound := reach.unfinished frame (by rw [same]; rfl)
      rw [← first, reach.received_eq, stream_append, stream_cons] at arrived
      simp only [List.length_append] at arrived
      omega

theorem unique {others behind : List F} {piece : List B} (reach : Reaches bytes frames received done left part)
    (other : Reaches bytes frames received others behind piece) : done = others ∧ left = behind ∧ part = piece := by
  have here : (stream bytes done).length ≤ received.length := by
    rw [reach.received_eq, List.length_append]
    exact Nat.le_add_right _ _
  have there : (stream bytes others).length ≤ received.length := by
    rw [other.received_eq, List.length_append]
    exact Nat.le_add_right _ _
  have length : done.length = others.length :=
    Nat.le_antisymm (other.length_done_le reach.frames_eq here) (reach.length_done_le other.frames_eq there)
  obtain ⟨same, rest⟩ := List.append_inj (reach.frames_eq.symm.trans other.frames_eq) length
  have octets := reach.received_eq.symm.trans other.received_eq
  rw [same, List.append_cancel_left_eq] at octets
  exact ⟨same, rest, octets⟩

end Reaches

end H264Streaming.Semantics
