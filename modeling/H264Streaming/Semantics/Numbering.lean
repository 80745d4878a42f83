import H264Streaming.Semantics.Traced
import Mathlib.Data.List.Range

/-! Traces whose events carry consecutive numbers modulo a fixed modulus. -/

set_option autoImplicit false

namespace H264Streaming.Semantics

variable {S I E : Type}

/-- The k-th event carries `start + k`, reduced by the modulus: no gap and no repeat. -/
def Numbered (number : E → Nat) (modulus start : Nat) (events : List E) : Prop :=
  ∀ k, (bound : k < events.length) → number events[k] = (start + k) % modulus

def Consecutive (number : E → Nat) (modulus : Nat) (events : List E) : Prop :=
  events.IsChain fun earlier later => number later = (number earlier + 1) % modulus

variable {number : E → Nat} {modulus start : Nat}

theorem consecutive_iff {events : List E} {value : Nat → Nat} {count : Nat}
    (numbers : events.map number = (List.range count).map value) :
    Consecutive number modulus events ↔ ∀ k < count - 1, value (k + 1) = (value k + 1) % modulus := by
  let next (earlier later : Nat) : Prop := later = (earlier + 1) % modulus
  have chain : Consecutive number modulus events ↔ (events.map number).IsChain next :=
    (List.isChain_map (R := next) number).symm
  rw [chain, numbers, List.isChain_map, List.isChain_range]

theorem Numbered.nil : Numbered number modulus start [] := fun _ bound => absurd bound (Nat.not_lt_zero _)

theorem numbered_cons {e : E} {events : List E} :
    Numbered number modulus start (e :: events) ↔
      number e = start % modulus ∧ Numbered number modulus (start + 1) events := by
  constructor
  · intro all
    refine ⟨all 0 (Nat.zero_lt_succ _), fun k bound => ?_⟩
    have next := all (k + 1) (Nat.succ_lt_succ bound)
    simpa [Nat.add_assoc, Nat.add_comm 1 k] using next
  · rintro ⟨head, tail⟩ k bound
    cases k with
    | zero => exact head
    | succ k =>
        have next := tail k (Nat.lt_of_succ_lt_succ bound)
        simpa [Nat.add_assoc, Nat.add_comm 1 k] using next

theorem numbered_singleton {e : E} :
    Numbered number modulus start [e] ↔ number e = start % modulus := by
  simp [numbered_cons, Numbered.nil]

theorem Numbered.append {first second : List E} (front : Numbered number modulus start first)
    (back : Numbered number modulus (start + first.length) second) :
    Numbered number modulus start (first ++ second) := by
  induction first generalizing start with
  | nil => simpa using back
  | cons e rest ih =>
      obtain ⟨head, tail⟩ := numbered_cons.mp front
      refine numbered_cons.mpr ⟨head, ih tail ?_⟩
      simpa [Nat.add_assoc, Nat.add_comm 1] using back

theorem numbered_residue : Numbered number modulus (start % modulus) = Numbered number modulus start := by
  funext events
  simp [Numbered, Nat.mod_add_mod]

/-- `counter` is the next number. If every step numbers its own events from the
counter and advances the counter by their count, the run is numbered throughout. -/
theorem run_numbered {step : I → S → Traced S E} {counter : S → Nat} {Inv : S → Prop} {inputs : List I}
    (one : ∀ i ∈ inputs, ∀ s, Inv s → Inv (step i s).state ∧
      Numbered number modulus (counter s) (step i s).events ∧
      counter (step i s).state % modulus = (counter s + (step i s).events.length) % modulus)
    {s : S} (initial : Inv s) :
    Numbered number modulus (counter s) (run step inputs s).events := by
  induction inputs generalizing s with
  | nil => exact Numbered.nil
  | cons i rest ih =>
      obtain ⟨kept, here, advanced⟩ := one i (List.mem_cons_self ..) s initial
      have later := ih (fun j member => one j (List.mem_cons_of_mem i member)) kept
      rw [← numbered_residue, advanced, numbered_residue] at later
      exact here.append later

end H264Streaming.Semantics
