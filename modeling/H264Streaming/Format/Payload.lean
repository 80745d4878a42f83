import H264Streaming.Bytes.Words
import H264Streaming.Semantics.Traced

/-! NAL units and the RTP payload formats that carry them.

A payload is a single unit, an aggregate of whole units (type 24) or one fragment
of a unit (type 28). The depacketizer is the receiver's reading of a sequence of
payloads; it knows nothing of how they were produced.
-/

set_option autoImplicit false

namespace H264Streaming.Format

open H264Streaming.Bytes H264Streaming.Semantics

/-- A NAL unit is never empty: its first octet is the header. -/
structure NalUnit where
  header : UInt8
  body : List UInt8
  deriving DecidableEq, Repr

def NalUnit.bytes (unit : NalUnit) : List UInt8 := unit.header :: unit.body

@[simp] theorem NalUnit.length_bytes (unit : NalUnit) : unit.bytes.length = unit.body.length + 1 := rfl

def forbiddenBit (header : UInt8) : UInt8 := header &&& 0x80

def nri (header : UInt8) : UInt8 := header &&& 0x60

def unitType (header : UInt8) : UInt8 := header &&& 0x1F

theorem unitType_unitType (header : UInt8) : unitType (unitType header) = unitType header := by
  revert header
  exact forall_octet (by decide +kernel)

theorem nri_or_unitType (header : UInt8) (clear : forbiddenBit header = 0) :
    nri header ||| unitType header = header := by
  revert header
  exact forall_octet (by decide +kernel)

/-! ### Aggregates -/

def entry (unit : List UInt8) : List UInt8 := be16 unit.length ++ unit

@[simp] theorem length_entry (unit : List UInt8) : (entry unit).length = unit.length + 2 := by
  simp [entry, Nat.add_comm]

theorem eq_entry_append_iff {high low : UInt8} {rest unit later : List UInt8} (sized : unit.length < 65536) :
    high :: low :: rest = entry unit ++ later ↔ value16 high low = unit.length ∧ rest = unit ++ later := by
  have octets : high :: low :: rest = be16 (value16 high low) ++ rest := by
    rw [be16_value16]
    rfl
  rw [octets, entry, List.append_assoc]
  constructor
  · intro same
    obtain ⟨size, octets⟩ := List.append_inj same rfl
    have value := congrArg valueBE size
    rw [valueBE_be16, valueBE_be16] at value
    have small := value16_lt high low
    exact ⟨by omega, octets⟩
  · rintro ⟨size, octets⟩
    rw [size, octets]

/-- Cut the units of an aggregate by their sizes. A size that runs past the end stops the cut. -/
def aggregated : List UInt8 → List (List UInt8)
  | high :: low :: rest =>
      if value16 high low ≤ rest.length then
        rest.take (value16 high low) :: aggregated (rest.drop (value16 high low))
      else []
  | _ => []
termination_by octets => octets.length
decreasing_by
  simp only [List.length_drop, List.length_cons]
  omega

theorem aggregated_nil : aggregated [] = [] := by simp [aggregated]

theorem aggregated_entry (unit rest : List UInt8) (sized : unit.length < 65536) :
    aggregated (entry unit ++ rest) = unit :: aggregated rest := by
  have size := value16_be16 unit.length
  rw [Nat.mod_eq_of_lt sized] at size
  simp [entry, be16, aggregated, size]

theorem aggregated_entries (units : List (List UInt8)) (sized : ∀ unit ∈ units, unit.length < 65536) :
    aggregated (units.flatMap entry) = units := by
  induction units with
  | nil => exact aggregated_nil
  | cons unit rest ih =>
      rw [List.flatMap_cons, aggregated_entry unit _ (sized unit (by simp)),
        ih fun other member => sized other (List.mem_cons_of_mem unit member)]

/-! ### Fragments -/

/-- The FU header of a fragment: S and E above the type of the fragmented unit. -/
def fuHeader (start final : Bool) (type : UInt8) : UInt8 :=
  type ||| (if start then 0x80 else 0) ||| (if final then 0x40 else 0)

def fragments (indicator type : UInt8) : Bool → List (List UInt8) → List (List UInt8)
  | _, [] => []
  | start, [piece] => [indicator :: fuHeader start true type :: piece]
  | start, piece :: rest =>
      (indicator :: fuHeader start false type :: piece) :: fragments indicator type false rest

theorem fragments_cons (indicator type : UInt8) (start : Bool) (piece : List UInt8) (rest : List (List UInt8))
    (more : rest ≠ []) :
    fragments indicator type start (piece :: rest) =
      (indicator :: fuHeader start false type :: piece) :: fragments indicator type false rest := by
  cases rest with
  | nil => exact absurd rfl more
  | cons next others => rfl

theorem getElem?_fragments (indicator type : UInt8) (start : Bool) (pieces : List (List UInt8)) (k : Nat) :
    (fragments indicator type start pieces)[k]? =
      pieces[k]?.map fun piece =>
        indicator :: fuHeader (start && decide (k = 0)) (decide (k + 1 = pieces.length)) type :: piece := by
  induction pieces generalizing start k with
  | nil => simp [fragments]
  | cons piece rest ih =>
      by_cases alone : rest = []
      · subst alone
        cases k with
        | zero => simp [fragments]
        | succ k => simp [fragments]
      · rw [fragments_cons _ _ _ _ _ alone]
        cases k with
        | zero => simp [alone]
        | succ k => simp [ih]

/-- A receiver without state forwards all pieces if it forwards each one, the first behind
what it puts in front of a unit. -/
theorem fragments_forwarded {P : Type} {payload : P → List UInt8} {Forwards : List P → List UInt8 → Prop}
    {indicator type : UInt8} {front : List UInt8} {packets : List P}
    (append : ∀ {packet rest left right}, Forwards [packet] left → Forwards rest right →
      Forwards (packet :: rest) (left ++ right))
    (one : ∀ packet ∈ packets, ∀ start final piece, payload packet = indicator :: fuHeader start final type :: piece →
      Forwards [packet] ((if start then front else []) ++ piece))
    {start : Bool} {pieces : List (List UInt8)} (some_piece : pieces ≠ [])
    (same : packets.map payload = fragments indicator type start pieces) :
    Forwards packets ((if start then front else []) ++ pieces.flatten) := by
  induction pieces generalizing start packets with
  | nil => exact absurd rfl some_piece
  | cons piece rest ih =>
      by_cases alone : rest = []
      · subst alone
        obtain ⟨packet, rfl, carried⟩ := List.map_eq_singleton_iff.mp same
        rw [List.flatten_singleton]
        exact one packet List.mem_cons_self start true piece carried
      · rw [fragments_cons _ _ _ _ _ alone] at same
        obtain ⟨packet, later, rfl, carried, others⟩ := List.map_eq_cons_iff.mp same
        have here := one packet List.mem_cons_self start false piece carried
        have behind := ih (fun other member => one other (List.mem_cons_of_mem packet member)) alone others
        rw [if_neg Bool.false_ne_true, List.nil_append] at behind
        rw [List.flatten_cons, ← List.append_assoc]
        exact append here behind

/-! ### The receiver -/

/-- Read one payload. The state is the unit whose fragments are being collected;
an event is a complete unit. Reserved types and fragments without a start yield nothing. -/
def depacketize (payload : List UInt8) (collecting : Option (List UInt8)) :
    Traced (Option (List UInt8)) (List UInt8) :=
  match payload with
  | [] => .quiet collecting
  | header :: rest =>
      if unitType header = 24 then ⟨none, aggregated rest⟩
      else if unitType header = 28 then
        match rest with
        | [] => .quiet none
        | fu :: piece =>
            let joined := if fu &&& 0x80 ≠ 0 then some ((nri header ||| unitType fu) :: piece)
              else collecting.map (· ++ piece)
            if fu &&& 0x40 ≠ 0 then ⟨none, joined.toList⟩ else .quiet joined
      else if 1 ≤ unitType header ∧ unitType header ≤ 23 then ⟨none, [payload]⟩
      else .quiet none

def depacketized (payloads : List (List UInt8)) : List (List UInt8) :=
  (run depacketize payloads none).events

/-- The payloads carry exactly these units, and no fragment is left open at their end. -/
def Reads (payloads units : List (List UInt8)) : Prop := run depacketize payloads none = ⟨none, units⟩

theorem Reads.nil : Reads [] [] := rfl

theorem Reads.append {first second left right : List (List UInt8)} (front : Reads first left)
    (back : Reads second right) : Reads (first ++ second) (left ++ right) := by
  unfold Reads at *
  rw [run_append, front, Traced.follow, back]

theorem Reads.depacketized {payloads units : List (List UInt8)} (reads : Reads payloads units) :
    Format.depacketized payloads = units :=
  congrArg Traced.events reads

theorem depacketize_aggregate (header : UInt8) (units : List (List UInt8)) (collecting : Option (List UInt8))
    (stap : unitType header = 24) (sized : ∀ unit ∈ units, unit.length < 65536) :
    depacketize (header :: units.flatMap entry) collecting = ⟨none, units⟩ := by
  simp only [depacketize, stap, if_true, aggregated_entries units sized]

theorem fuHeader_bits (type : UInt8) (small : unitType type = type) (start final : Bool) :
    (fuHeader start final type &&& 0x80 ≠ 0 ↔ start = true) ∧
      (fuHeader start final type &&& 0x40 ≠ 0 ↔ final = true) ∧
      unitType (fuHeader start final type) = type := by
  revert type
  exact forall_octet (by cases start <;> cases final <;> decide +kernel)

theorem depacketize_fragment (indicator type : UInt8) (start final : Bool) (piece : List UInt8)
    (collecting : Option (List UInt8)) (fuA : unitType indicator = 28) (small : unitType type = type) :
    depacketize (indicator :: fuHeader start final type :: piece) collecting =
      (let joined := if start then some ((nri indicator ||| type) :: piece) else collecting.map (· ++ piece)
       if final then ⟨none, joined.toList⟩ else .quiet joined) := by
  obtain ⟨s, e, same⟩ := fuHeader_bits type small start final
  simp only [depacketize, fuA, if_true, s, e, same]
  rw [if_neg (by decide)]

private theorem run_fragments_tail (indicator type : UInt8) (pieces : List (List UInt8)) (collected : List UInt8)
    (fuA : unitType indicator = 28) (small : unitType type = type) (some_piece : pieces ≠ []) :
    run depacketize (fragments indicator type false pieces) (some collected) =
      ⟨none, [collected ++ pieces.flatten]⟩ := by
  induction pieces generalizing collected with
  | nil => exact absurd rfl some_piece
  | cons piece rest ih =>
      cases rest with
      | nil => simp [fragments, run_cons, depacketize_fragment, fuA, small, Traced.follow]
      | cons next others =>
          rw [fragments_cons _ _ _ _ _ (by simp), run_cons, depacketize_fragment _ _ _ _ _ _ fuA small]
          simp [ih, List.append_assoc]

/-- The receiver joins the fragments of a unit behind the header rebuilt from the
indicator's NRI and the FU header's type. -/
theorem reads_fragments (indicator type : UInt8) (first second : List UInt8) (pieces : List (List UInt8))
    (fuA : unitType indicator = 28) (small : unitType type = type) :
    Reads (fragments indicator type true (first :: second :: pieces))
      [(nri indicator ||| type) :: (first :: second :: pieces).flatten] := by
  rw [Reads, fragments_cons _ _ _ _ _ (by simp), run_cons, depacketize_fragment _ _ _ _ _ _ fuA small]
  simp [run_fragments_tail indicator type (second :: pieces) _ fuA small]

end H264Streaming.Format
