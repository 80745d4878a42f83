import H264Streaming.RtpSend.Carrying

/-! F and NRI of a payload's first octet, against the units that the payload carries. -/

set_option autoImplicit false

namespace H264Streaming.RtpSend

open H264Streaming.Bytes H264Streaming.Format H264Streaming.Semantics

/-- F is set if any of the units has it, and NRI is the greatest of theirs. -/
structure Describes (header : UInt8) (units : List NalUnit) : Prop where
  forbidden : forbiddenBit header = units.foldl (fun bit unit => bit ||| forbiddenBit unit.header) 0
  importance : nri header = units.foldl (fun greatest unit => max greatest (nri unit.header)) 0

def carried (payload : List UInt8) (next : Nat) : Traced Nat (List UInt8 × List Nat) :=
  ⟨(number payload next).state, [(payload, (number payload next).events)]⟩

def Lawful (units : List NalUnit) (sent : List UInt8 × List Nat) : Prop :=
  ∀ header ∈ sent.1.head?, Describes header (sent.2.filterMap (units[·]?))

/-! ### Aggregates -/

theorem mergeHeader_fields (header next : UInt8) :
    forbiddenBit (mergeHeader header next) = forbiddenBit header ||| forbiddenBit next ∧
      nri (mergeHeader header next) = max (nri header) (nri next) := by
  have fields (octet : UInt8) : forbiddenBit (forbiddenBit octet) = forbiddenBit octet ∧
      nri (forbiddenBit octet) = 0 ∧ forbiddenBit (nri octet) = 0 ∧ nri (nri octet) = nri octet ∧
      forbiddenBit (octet &&& 0x9F) = forbiddenBit octet ∧ nri (octet &&& 0x9F) = 0 := by
    revert octet
    exact forall_octet (by decide +kernel)
  have split (a b : UInt8) :
      forbiddenBit (a ||| b) = forbiddenBit a ||| forbiddenBit b ∧ nri (a ||| b) = nri a ||| nri b :=
    ⟨UInt8.toBitVec_inj.mp BitVec.and_or_distrib_right, UInt8.toBitVec_inj.mp BitVec.and_or_distrib_right⟩
  obtain ⟨keepsF, dropsN, dropsF, keepsN, lowF, lowN⟩ := fields next
  obtain ⟨-, -, -, -, headF, headN⟩ := fields header
  unfold mergeHeader
  rw [(split _ _).1, (split _ _).2, keepsF, dropsN, UInt8.or_zero]
  by_cases raised : nri next > nri header
  · rw [if_pos raised, (split _ _).1, (split _ _).2, headF, headN, dropsF, keepsN, UInt8.or_zero, UInt8.zero_or]
    exact ⟨rfl, (if_pos (UInt8.le_of_lt raised)).symm⟩
  · rw [if_neg raised]
    have greatest : max (nri header) (nri next) = nri header := by
      rw [UInt8.max_def]
      split
      · exact UInt8.le_antisymm (UInt8.not_lt.mp raised) ‹_›
      · rfl
    exact ⟨rfl, greatest.symm⟩

theorem stapHeader_describes (units : List NalUnit) : Describes (stapHeader units) units := by
  induction units using List.reverseRecOn with
  | nil => exact ⟨rfl, rfl⟩
  | append_singleton front unit ih =>
      obtain ⟨forbidden, importance⟩ := mergeHeader_fields (stapHeader front) unit.header
      rw [stapHeader_snoc]
      constructor
      · rw [forbidden, ih.forbidden, List.foldl_append]
        rfl
      · rw [importance, ih.importance, List.foldl_append]
        rfl

theorem carried_aggregate {waiting : List NalUnit} (small : Small waiting) (next : Nat) :
    carried (aggregate waiting) next =
      ⟨next + waiting.length, [(aggregate waiting, List.range' next waiting.length)]⟩ := by
  have count : number (aggregate waiting) next = ⟨next + waiting.length, List.range' next waiting.length⟩ := by
    cases waiting with
    | nil => rfl
    | cons unit rest =>
        have sized : ∀ bytes ∈ (unit :: rest).map NalUnit.bytes, bytes.length < 65536 := by
          intro bytes member
          obtain ⟨other, waits, rfl⟩ := List.mem_map.mp member
          exact Nat.lt_of_le_of_lt (small other waits) (by decide)
        rw [aggregate, entries, number_aggregate (unitType_stapHeader _) sized, List.length_map]
  rw [carried, count]

theorem units_at (before waiting after : List NalUnit) :
    (List.range' before.length waiting.length).filterMap ((before ++ waiting ++ after)[·]?) = waiting := by
  induction waiting generalizing before with
  | nil => rfl
  | cons unit rest ih =>
      have here : (before ++ unit :: rest ++ after)[before.length]? = some unit := by
        rw [List.append_assoc, List.getElem?_append_right (Nat.le_refl _), Nat.sub_self]
        rfl
      have regrouped : before ++ unit :: rest ++ after = before ++ [unit] ++ rest ++ after := by simp
      have later := ih (before ++ [unit])
      rw [← regrouped, List.length_append, List.length_singleton] at later
      rw [List.length_cons, List.range'_succ, List.filterMap_cons, here]
      exact congrArg (unit :: ·) later

theorem aggregate_lawful (before waiting after : List NalUnit) :
    Lawful (before ++ waiting ++ after) (aggregate waiting, List.range' before.length waiting.length) := by
  intro header member
  rw [units_at]
  cases waiting with
  | nil => cases member
  | cons unit rest =>
      rw [← Option.some.inj member]
      exact stapHeader_describes (unit :: rest)

/-! ### Fragments -/

theorem run_carried_fragments {indicator type : UInt8} (fuA : unitType indicator = 28) (small : unitType type = type)
    (start : Bool) (pieces : List (List UInt8)) (some_piece : pieces ≠ []) (next : Nat) :
    run carried (fragments indicator type start pieces) next =
      ⟨next + 1, (fragments indicator type start pieces).map (·, [next])⟩ := by
  induction pieces generalizing start with
  | nil => exact absurd rfl some_piece
  | cons piece rest ih =>
      by_cases alone : rest = []
      · subst alone
        simp [fragments, run_cons, carried, number_fragment fuA small, Traced.follow]
      · rw [fragments_cons _ _ _ _ _ alone, run_cons, carried, number_fragment fuA small, if_neg Bool.false_ne_true]
        simp [Traced.follow, ih false alone]

theorem head_fragments {indicator type : UInt8} {start : Bool} {pieces : List (List UInt8)} {payload : List UInt8}
    (member : payload ∈ fragments indicator type start pieces) : payload.head? = some indicator := by
  fun_induction fragments indicator type start pieces with
  | case1 => cases member
  | case2 start piece =>
      rw [List.mem_singleton.mp member]
      rfl
  | case3 start piece rest more ih =>
      rcases List.mem_cons.mp member with rfl | later
      · rfl
      · exact ih later

theorem indicator_describes (unit : NalUnit) :
    Describes (28 ||| nri unit.header) [unit] ↔ forbiddenBit unit.header = 0 := by
  have fields (octet : UInt8) : forbiddenBit (28 ||| nri octet) = 0 ∧
      nri (28 ||| nri octet) = max 0 (nri octet) ∧ 0 ||| forbiddenBit octet = forbiddenBit octet := by
    revert octet
    exact forall_octet (by decide +kernel)
  obtain ⟨cleared, kept, bit⟩ := fields unit.header
  constructor
  · intro describes
    have same := describes.forbidden
    rw [cleared, List.foldl_cons, List.foldl_nil, bit] at same
    exact same.symm
  · intro clear
    refine ⟨?_, kept⟩
    rw [cleared, List.foldl_cons, List.foldl_nil, bit, clear]

/-! ### Runs -/

/-- What the calls for a part of the units leave: the receiver stands at the first unit that
waits, and the payloads are lawful as far as `sound` says. -/
structure Leaves (before : List NalUnit) (sound : Prop) (upto after : List NalUnit)
    (planned : Traced (List NalUnit) (List UInt8)) : Prop where
  small : Small planned.state
  received : ∃ done, upto = done ++ planned.state ∧ (run carried planned.events before.length).state = done.length
  lawful : (∀ sent ∈ (run carried planned.events before.length).events, Lawful (upto ++ after) sent) ↔ sound

theorem flush_leaves {waiting : List NalUnit} (small : Small waiting) (before after : List NalUnit) :
    Leaves before True (before ++ waiting) after ⟨[], [aggregate waiting]⟩ := by
  have count := carried_aggregate small before.length
  have whole : run carried [aggregate waiting] before.length =
      ⟨before.length + waiting.length, [(aggregate waiting, List.range' before.length waiting.length)]⟩ := by
    rw [run_cons, count]
    rfl
  refine ⟨.nil, ⟨before ++ waiting, (List.append_nil _).symm, ?_⟩, ?_⟩
  · rw [whole, List.length_append]
  · rw [whole]
    refine iff_true_intro fun sent member => ?_
    rw [List.mem_singleton.mp member]
    exact aggregate_lawful before waiting after

theorem quiet_leaves {waiting : List NalUnit} (small : Small waiting) (before after : List NalUnit) :
    Leaves before True (before ++ waiting) after (.quiet waiting) :=
  ⟨small, ⟨before, rfl, rfl⟩, iff_true_intro fun _ member => absurd member List.not_mem_nil⟩

theorem fragments_leave (unit : NalUnit) (before after : List NalUnit) :
    Leaves before (forbiddenBit unit.header = 0) (before ++ [unit]) after
      ⟨[], fragments (28 ||| nri unit.header) (unitType unit.header) true (pieces unit.body)⟩ := by
  have fuA : unitType (28 ||| nri unit.header) = 28 := by
    generalize unit.header = octet
    revert octet
    exact forall_octet (by decide +kernel)
  have whole := run_carried_fragments fuA (unitType_unitType unit.header) true _ (pieces_ne_nil unit.body) before.length
  refine ⟨.nil, ⟨before ++ [unit], (List.append_nil _).symm, ?_⟩, ?_⟩
  · rw [whole, List.length_append, List.length_singleton]
  · have only : [before.length].filterMap ((before ++ [unit] ++ after)[·]?) = [unit] := units_at before [unit] after
    rw [whole, ← indicator_describes]
    constructor
    · intro lawful
      obtain ⟨first, rest, same⟩ := List.exists_cons_of_ne_nil (pieces_ne_nil unit.body)
      obtain ⟨payload, member⟩ : ∃ payload, payload ∈ fragments (28 ||| nri unit.header) (unitType unit.header) true (pieces unit.body) := by
        rw [same]
        cases rest <;> exact ⟨_, List.mem_cons_self⟩
      have here := lawful (payload, [before.length]) (List.mem_map.mpr ⟨payload, member, rfl⟩) _ (head_fragments member)
      rwa [only] at here
    · intro describes sent member header first
      obtain ⟨payload, among, rfl⟩ := List.mem_map.mp member
      rw [head_fragments among] at first
      rw [only, ← Option.some.inj first]
      exact describes

theorem Leaves.follow {before upto more after : List NalUnit} {p q : Prop}
    {planned : Traced (List NalUnit) (List UInt8)} {next : List NalUnit → Traced (List NalUnit) (List UInt8)}
    (first : Leaves before p upto (more ++ after) planned)
    (second : ∀ done, upto = done ++ planned.state → Leaves done q (upto ++ more) after (next planned.state)) :
    Leaves before (p ∧ q) (upto ++ more) after (planned.follow next) := by
  obtain ⟨-, ⟨done, split, stands⟩, lawful⟩ := first
  obtain ⟨small, ⟨finished, later, reached⟩, others⟩ := second done split
  constructor
  · exact small
  · refine ⟨finished, later, ?_⟩
    rw [Traced.follow_events, run_append, Traced.follow_state, stands, reached]
  · rw [Traced.follow_events, run_append, Traced.follow_events, List.forall_mem_append, stands]
    refine and_congr ?_ others
    rwa [List.append_assoc]

def Sound (unit : NalUnit) : Prop := rtpPayloadMax < unit.bytes.length → forbiddenBit unit.header = 0

theorem plan_leaves (input : NalUnit × Int) {waiting : List NalUnit} (small : Small waiting) (before after : List NalUnit) :
    Leaves before (Sound input.1) (before ++ waiting ++ [input.1]) after (plan input waiting) := by
  by_cases fits : input.1.bytes.length ≤ rtpPayloadMax
  · have sound : (True ∧ True) = Sound input.1 := by
      rw [true_and]
      exact (eq_true fun large => absurd fits (Nat.not_le_of_lt large)).symm
    have stored (done others : List NalUnit) (smallOthers : Small others) :
        Leaves done True (done ++ others ++ [input.1]) after
          (if input.2 = 1 then ⟨[], [aggregate (others ++ [input.1])]⟩ else .quiet (others ++ [input.1])) := by
      have joined := smallOthers.snoc fits
      rw [List.append_assoc]
      split
      · exact flush_leaves joined done after
      · exact quiet_leaves joined done after
    rw [← sound]
    simp only [plan, if_pos fits]
    -- a full buffer leaves first, and the unit starts the next aggregate
    split
    · refine (flush_leaves small before ([input.1] ++ after)).follow fun done split => ?_
      rw [split]
      exact stored done [] .nil
    · refine (quiet_leaves small before ([input.1] ++ after)).follow fun done split => ?_
      rw [split]
      exact stored done waiting small
  · have sound : (True ∧ forbiddenBit input.1.header = 0) = Sound input.1 := by
      have large : rtpPayloadMax < input.1.bytes.length := Nat.lt_of_not_le fits
      rw [true_and]
      exact propext ⟨fun clear _ => clear, fun sound => sound large⟩
    have cut : plan input waiting = Traced.follow (if waiting = [] then .quiet [] else ⟨[], [aggregate waiting]⟩)
        fun _ => ⟨[], fragments (28 ||| nri input.1.header) (unitType input.1.header) true (pieces input.1.body)⟩ := by
      simp only [plan, if_neg fits, Traced.follow]
      split <;> rfl
    rw [← sound, cut]
    split
    · rename_i none
      subst none
      refine (quiet_leaves small before ([input.1] ++ after)).follow fun done split => ?_
      rw [split, Traced.quiet_state, List.append_nil]
      exact fragments_leave input.1 done after
    · refine (flush_leaves small before ([input.1] ++ after)).follow fun done split => ?_
      rw [split, List.append_nil]
      exact fragments_leave input.1 done after

theorem run_plan_leaves (inputs : List (NalUnit × Int)) {waiting : List NalUnit} (small : Small waiting)
    (before after : List NalUnit) :
    Leaves before (∀ input ∈ inputs, Sound input.1) (before ++ waiting ++ inputs.map Prod.fst) after
      (run plan inputs waiting) := by
  induction inputs generalizing before waiting with
  | nil =>
      have none : (∀ input ∈ ([] : List (NalUnit × Int)), Sound input.1) = True :=
        eq_true fun input member => absurd member List.not_mem_nil
      rw [none, List.map_nil, List.append_nil]
      exact quiet_leaves small before after
  | cons input rest ih =>
      have first := plan_leaves input small before (rest.map Prod.fst ++ after)
      have regrouped : before ++ waiting ++ (input :: rest).map Prod.fst =
          before ++ waiting ++ [input.1] ++ rest.map Prod.fst := by simp
      have every : (∀ other ∈ input :: rest, Sound other.1) = (Sound input.1 ∧ ∀ other ∈ rest, Sound other.1) :=
        propext List.forall_mem_cons
      rw [regrouped, every, run_cons]
      refine first.follow fun done split => ?_
      rw [split]
      exact ih first.small done

/-- In every payload of a run F and NRI are those of the units it carries, exactly when no unit that is cut has F. -/
theorem rtpSendNAL_headers_iff (ctx : RTPMuxContext) (inputs : List (NalUnit × Int)) :
    (∀ sent ∈ (run carried ((sendUnits inputs (initRTPMuxContext ctx)).events.map Packet.payload) 0).events,
        Lawful (inputs.map Prod.fst) sent) ↔
      ∀ input ∈ inputs, rtpPayloadMax < input.1.bytes.length → forbiddenBit input.1.header = 0 := by
  have initial : Buffers (initRTPMuxContext ctx) [] := .empty Int.one_ne_zero rfl
  have lawful := (run_plan_leaves inputs .nil [] []).lawful
  rw [List.append_nil] at lawful
  rw [(sendUnits_refines initial inputs).2]
  exact lawful

/-- A unit of 1401 octets with F: no fragment has it. -/
theorem rtpSendNAL_headers_broken :
    ¬ ∀ sent ∈ (run carried ((sendUnits [(⟨0xE5, List.replicate 1400 0x88⟩, 1)]
          (initRTPMuxContext blankContext)).events.map Packet.payload) 0).events,
        Lawful [⟨0xE5, List.replicate 1400 0x88⟩] sent := by
  intro lawful
  have initial : Buffers (initRTPMuxContext blankContext) [] := .empty Int.one_ne_zero rfl
  have large : rtpPayloadMax < (NalUnit.bytes ⟨0xE5, List.replicate 1400 0x88⟩).length := by
    rw [NalUnit.length_bytes, List.length_replicate]
    decide
  rw [(sendUnits_refines initial _).2] at lawful
  have sound := (run_plan_leaves [(⟨0xE5, List.replicate 1400 0x88⟩, 1)] .nil [] []).lawful.mp lawful
  exact absurd (sound _ List.mem_cons_self large) (by decide)

end H264Streaming.RtpSend
