import Mathlib.Data.List.Induction

/-! Deterministic machines whose steps also emit events.

A step consumes one input and yields the next state together with the events it
emitted, oldest first. Runs keep the complete ordered trace, so a property of a
whole run is a property of one list.
-/

set_option autoImplicit false

namespace H264Streaming.Semantics

/-- The state reached and the events emitted on the way there, in order. -/
structure Traced (S E : Type) where
  state : S
  events : List E

variable {S I E : Type}

namespace Traced

def quiet (s : S) : Traced S E := ⟨s, []⟩

def follow (r : Traced S E) (next : S → Traced S E) : Traced S E :=
  ⟨(next r.state).state, r.events ++ (next r.state).events⟩

@[simp] theorem quiet_state (s : S) : (quiet s : Traced S E).state = s := rfl

@[simp] theorem quiet_events (s : S) : (quiet s : Traced S E).events = [] := rfl

@[simp] theorem follow_state (r : Traced S E) (next : S → Traced S E) :
    (r.follow next).state = (next r.state).state := rfl

@[simp] theorem follow_events (r : Traced S E) (next : S → Traced S E) :
    (r.follow next).events = r.events ++ (next r.state).events := rfl

@[simp] theorem quiet_follow (s : S) (next : S → Traced S E) : (quiet s).follow next = next s := by
  simp [quiet, follow]

theorem follow_congr {r : Traced S E} {f g : S → Traced S E} (same : f r.state = g r.state) : r.follow f = r.follow g := by
  simp only [follow, same]

theorem follow_assoc (r : Traced S E) (f g : S → Traced S E) :
    (r.follow f).follow g = r.follow (fun s => (f s).follow g) := by
  simp [follow, List.append_assoc]

end Traced

def run (step : I → S → Traced S E) : List I → S → Traced S E
  | [], s => .quiet s
  | i :: rest, s => (step i s).follow (run step rest)

variable (step : I → S → Traced S E)

@[simp] theorem run_nil (s : S) : run step [] s = .quiet s := rfl

theorem run_cons (i : I) (rest : List I) (s : S) :
    run step (i :: rest) s = (step i s).follow (run step rest) := rfl

theorem run_append (first second : List I) (s : S) :
    run step (first ++ second) s = (run step first s).follow (run step second) := by
  induction first generalizing s with
  | nil => simp
  | cons i rest ih =>
      have tail : run step (rest ++ second) = fun t => (run step rest t).follow (run step second) :=
        funext ih
      rw [List.cons_append, run_cons, tail, run_cons, Traced.follow_assoc]

theorem run_snoc (inputs : List I) (i : I) (s : S) :
    run step (inputs ++ [i]) s = (run step inputs s).follow (step i) := by
  rw [run_append]
  simp [Traced.follow, run_cons]

variable {step}

/-- One step keeps the invariant and emits only good events; hence every run does. -/
theorem run_invariant {Inv : S → Prop} {Good : E → Prop} {inputs : List I}
    (one : ∀ i ∈ inputs, ∀ s, Inv s → Inv (step i s).state ∧ ∀ e ∈ (step i s).events, Good e)
    {s : S} (start : Inv s) :
    Inv (run step inputs s).state ∧ ∀ e ∈ (run step inputs s).events, Good e := by
  induction inputs generalizing s with
  | nil => exact ⟨start, by simp⟩
  | cons i rest ih =>
      obtain ⟨kept, good⟩ := one i (by simp) s start
      obtain ⟨final, later⟩ := ih (fun j member => one j (List.mem_cons_of_mem i member)) kept
      refine ⟨final, fun e member => ?_⟩
      rcases List.mem_append.mp member with early | late
      · exact good e early
      · exact later e late

theorem mem_run_events_iff {inputs : List I} {s : S} {e : E} :
    e ∈ (run step inputs s).events ↔
      ∃ front i, front ++ [i] <+: inputs ∧ e ∈ (step i (run step front s).state).events := by
  induction inputs using List.reverseRecOn with
  | nil => simp
  | append_singleton front i ih =>
      rw [run_snoc, Traced.follow_events, List.mem_append, ih]
      constructor
      · rintro (⟨before, j, inside, member⟩ | member)
        · exact ⟨before, j, inside.trans (List.prefix_append front [i]), member⟩
        · exact ⟨front, i, List.prefix_rfl, member⟩
      · rintro ⟨before, j, inside, member⟩
        rcases List.prefix_concat_iff.mp inside with whole | early
        · obtain ⟨rfl, ⟨⟩⟩ := List.append_inj' whole rfl
          exact Or.inr member
        · exact Or.inl ⟨before, j, early, member⟩

/-- A relation between the inputs consumed, the state and the trace so far, kept
by every step, holds of the whole run. -/
theorem run_history {P : List I → S → List E → Prop} {inputs : List I}
    (one : ∀ done, ∀ i ∈ inputs, ∀ s es, P done s es →
      P (done ++ [i]) (step i s).state (es ++ (step i s).events))
    {s : S} (start : P [] s []) :
    P inputs (run step inputs s).state (run step inputs s).events := by
  induction inputs using List.reverseRecOn with
  | nil => exact start
  | append_singleton front i ih =>
      rw [run_snoc]
      exact one front i (by simp) _ _
        (ih (fun done j member => one done j (List.mem_append_left [i] member)))

/-- Forward simulation: if related states step to related states and the observed
events are those of the abstract step, the same holds of runs. -/
theorem run_simulates {T F : Type} {R : S → T → Prop} {observe : E → F} {plan : I → T → Traced T F}
    {inputs : List I}
    (one : ∀ i ∈ inputs, ∀ s t, R s t →
      R (step i s).state (plan i t).state ∧ (step i s).events.map observe = (plan i t).events)
    {s : S} {t : T} (start : R s t) :
    R (run step inputs s).state (run plan inputs t).state ∧
      (run step inputs s).events.map observe = (run plan inputs t).events := by
  induction inputs generalizing s t with
  | nil => exact ⟨start, rfl⟩
  | cons i rest ih =>
      obtain ⟨related, observed⟩ := one i (by simp) s t start
      obtain ⟨final, later⟩ := ih (fun j member => one j (List.mem_cons_of_mem i member)) related
      refine ⟨final, ?_⟩
      rw [run_cons, run_cons, Traced.follow_events, Traced.follow_events, List.map_append, observed, later]

theorem run_congr {other : I → S → Traced S E} {Good : E → Prop} {inputs : List I}
    (one : ∀ i ∈ inputs, ∀ s, (∀ e ∈ (other i s).events, Good e) → step i s = other i s) {s : S}
    (all : ∀ e ∈ (run other inputs s).events, Good e) : run step inputs s = run other inputs s := by
  induction inputs generalizing s with
  | nil => rfl
  | cons i rest ih =>
      rw [run_cons, Traced.follow_events, List.forall_mem_append] at all
      obtain ⟨here, later⟩ := all
      rw [run_cons, run_cons, one i List.mem_cons_self s here]
      exact Traced.follow_congr (ih (fun j member => one j (List.mem_cons_of_mem i member)) later)

variable (step)

/-- The trace of a run cut at the step boundaries: one block for each input. -/
def blocks : List I → S → List (List E)
  | [], _ => []
  | i :: rest, s => (step i s).events :: blocks rest (step i s).state

theorem flatten_blocks (inputs : List I) (s : S) :
    (blocks step inputs s).flatten = (run step inputs s).events := by
  induction inputs generalizing s with
  | nil => rfl
  | cons i rest ih => simp [blocks, run_cons, ih]

@[simp] theorem length_blocks (inputs : List I) (s : S) :
    (blocks step inputs s).length = inputs.length := by
  induction inputs generalizing s with
  | nil => rfl
  | cons i rest ih => simp [blocks, ih]

-- The block of an input is what its step emits in the state its predecessors leave.
theorem blocks_getElem? (inputs : List I) (s : S) (n : Nat) :
    (blocks step inputs s)[n]? =
      inputs[n]?.map fun i => (step i (run step (inputs.take n) s).state).events := by
  induction inputs generalizing s n with
  | nil => simp [blocks]
  | cons i rest ih =>
      cases n with
      | zero => simp [blocks]
      | succ n => simpa [blocks, run_cons] using ih (step i s).state n

/-! ### Steps that may fail -/

def attempt (step : I → S → Option (Traced S E)) : List I → S → Option (Traced S E)
  | [], s => some (.quiet s)
  | i :: rest, s => do
      let first ← step i s
      let later ← attempt step rest first.state
      return ⟨later.state, first.events ++ later.events⟩

variable {step : I → S → Option (Traced S E)}

theorem attempt_cons_iff {i : I} {rest : List I} {s : S} {whole : Traced S E} :
    attempt step (i :: rest) s = some whole ↔
      ∃ first later, step i s = some first ∧ attempt step rest first.state = some later ∧
        whole = ⟨later.state, first.events ++ later.events⟩ := by
  simp only [attempt, Option.bind_eq_bind, Option.bind_eq_some_iff]
  constructor
  · rintro ⟨first, here, later, after, same⟩
    cases same
    exact ⟨first, later, here, after, rfl⟩
  · rintro ⟨first, later, here, after, rfl⟩
    exact ⟨first, here, later, after, rfl⟩

theorem attempt_cons {i : I} {rest : List I} {s : S} {first later : Traced S E} (here : step i s = some first)
    (after : attempt step rest first.state = some later) :
    attempt step (i :: rest) s = some ⟨later.state, first.events ++ later.events⟩ :=
  attempt_cons_iff.mpr ⟨first, later, here, after, rfl⟩

theorem attempt_cons_quiet {i : I} {rest : List I} {s : S} (quiet : step i s = some (.quiet s)) :
    attempt step (i :: rest) s = attempt step rest s := by
  rw [attempt, quiet, Option.bind_eq_bind, Option.bind_some, Traced.quiet_state]
  cases attempt step rest s <;> rfl

theorem attempt_cons_congr {J : Type} {other : J → S → Option (Traced S E)} {i : I} {j : J} {rest : List I}
    {later : List J} {s : S} (here : step i s = other j s) (behind : ∀ s, attempt step rest s = attempt other later s) :
    attempt step (i :: rest) s = attempt other (j :: later) s := by
  simp only [attempt, here, behind]

theorem attempt_append_iff {front back : List I} {s : S} {whole : Traced S E} :
    attempt step (front ++ back) s = some whole ↔
      ∃ first later, attempt step front s = some first ∧ attempt step back first.state = some later ∧
        whole = ⟨later.state, first.events ++ later.events⟩ := by
  induction front generalizing s whole with
  | nil => simp [attempt, Traced.quiet, eq_comm]
  | cons i rest ih =>
      simp only [List.cons_append, attempt_cons_iff, ih]
      constructor
      · rintro ⟨here, _, ran, ⟨first, later, before, after, rfl⟩, rfl⟩
        exact ⟨_, later, ⟨here, first, ran, before, rfl⟩, after, by rw [List.append_assoc]⟩
      · rintro ⟨_, later, ⟨here, first, ran, before, rfl⟩, after, rfl⟩
        exact ⟨here, _, ran, ⟨first, later, before, after, rfl⟩, by rw [List.append_assoc]⟩

theorem attempt_append {front back : List I} {s : S} {first later : Traced S E}
    (before : attempt step front s = some first) (after : attempt step back first.state = some later) :
    attempt step (front ++ back) s = some ⟨later.state, first.events ++ later.events⟩ :=
  attempt_append_iff.mpr ⟨first, later, before, after, rfl⟩

/-! ### Runs that should emit what a plan emits -/

variable {T : Type} {plan : I → T → Traced T E}

theorem forall_cons_iff {Ok : I → T → Prop} {i : I} {rest : List I} {t : T} :
    (∀ before j after, i :: rest = before ++ j :: after → Ok j (run plan before t).state) ↔
      Ok i t ∧ ∀ before j after, rest = before ++ j :: after → Ok j (run plan before (plan i t).state).state := by
  constructor
  · intro all
    exact ⟨all [] i rest rfl, fun before j after same => all (i :: before) j after (congrArg (i :: ·) same)⟩
  · rintro ⟨here, later⟩ before j after same
    cases before with
    | nil =>
        cases same
        exact here
    | cons first before =>
        obtain ⟨rfl, behind⟩ := List.cons.inj same
        exact later before j after behind

/-- A run emits what its plan emits exactly when every step does. -/
theorem attempt_agrees_iff {R : S → T → Prop} {Ok : I → T → Prop} {inputs : List I} {t : T}
    (one : ∀ before i after, inputs = before ++ i :: after → ∀ s, R s (run plan before t).state →
      ∃ next, step i s = some next ∧ R next.state (plan i (run plan before t).state).state ∧
        next.events.length = (plan i (run plan before t).state).events.length ∧
        (next.events = (plan i (run plan before t).state).events ↔ Ok i (run plan before t).state))
    {s : S} (start : R s t) :
    ∃ ran, attempt step inputs s = some ran ∧
      (ran.events = (run plan inputs t).events ↔
        ∀ before i after, inputs = before ++ i :: after → Ok i (run plan before t).state) := by
  induction inputs generalizing s t with
  | nil => exact ⟨.quiet s, rfl, iff_of_true rfl fun before i after same => by simp at same⟩
  | cons i rest ih =>
      obtain ⟨next, here, related, lengths, agrees⟩ := one [] i rest rfl s start
      obtain ⟨ran, through, later⟩ :=
        ih (fun before j after same => one (i :: before) j after (congrArg (i :: ·) same)) related
      refine ⟨_, attempt_cons here through, ?_⟩
      rw [run_cons, Traced.follow_events, forall_cons_iff, ← later]
      constructor
      · intro same
        obtain ⟨first, rest⟩ := List.append_inj same lengths
        exact ⟨agrees.mp first, rest⟩
      · rintro ⟨ok, rest⟩
        exact congrArg₂ _ (agrees.mpr ok) rest

end H264Streaming.Semantics
