import H264Streaming.RtpSend.Aggregation

/-! Which runs of the packetizer stay inside `ctx->buf` and `ctx->cache`.

The space check of rtpSendNAL counts what is buffered, the two size octets and the
unit, but not the STAP-A header that goes in front of a first unit. Sizes just
below the limit therefore run past the buffer, and only they do.
-/

set_option autoImplicit false

namespace H264Streaming.RtpSend

open H264Streaming.Bytes H264Streaming.Semantics H264Streaming.Format

-- Nothing has been stored past either array, and the pointer is inside the first.
structure Within (ctx : RTPMuxContext) : Prop where
  pointer : ctx.bufPtr ≤ rtpPayloadMax
  buf : ctx.buf.top ≤ rtpPayloadMax
  cache : ctx.cache.top ≤ rtpPayloadMax + 12

def Sized (packet : Packet) : Prop :=
  1 ≤ packet.payload.length ∧ packet.payload.length ≤ rtpPayloadMax

/-- A call that ends within the limits and handed over only payloads of a legal size. -/
def Guarded (sent : Traced RTPMuxContext Packet) : Prop :=
  Within sent.state ∧ ∀ packet ∈ sent.events, Sized packet

theorem Guarded.quiet {ctx : RTPMuxContext} (within : Within ctx) : Guarded (.quiet ctx) :=
  ⟨within, fun _ member => absurd member List.not_mem_nil⟩

theorem Guarded.follow {sent : Traced RTPMuxContext Packet} {next : RTPMuxContext → Traced RTPMuxContext Packet}
    (first : Guarded sent) (second : Guarded (next sent.state)) : Guarded (sent.follow next) := by
  refine ⟨second.1, ?_⟩
  intro packet member
  rcases List.mem_append.mp member with early | late
  · exact first.2 packet early
  · exact second.2 packet late

theorem Within.store {ctx : RTPMuxContext} (within : Within ctx) {offset : Nat} {octets : List UInt8}
    (fits : offset + octets.length ≤ rtpPayloadMax) :
    Within { ctx with buf := ctx.buf.write offset octets } :=
  ⟨within.pointer, Buffer.top_write_le _ _ _ within.buf fits, within.cache⟩

theorem Within.mark {ctx : RTPMuxContext} (within : Within ctx) {offset : Nat} (octet : UInt8)
    (inside : offset < rtpPayloadMax) : Within { ctx with buf := ctx.buf.write offset [octet] } :=
  within.store inside

theorem Within.move {ctx : RTPMuxContext} (within : Within ctx) {pointer : Nat}
    (inside : pointer ≤ rtpPayloadMax) : Within { ctx with bufPtr := pointer } :=
  ⟨inside, within.buf, within.cache⟩

theorem rtpSendData_guarded {ctx : RTPMuxContext} (within : Within ctx) (payload : List UInt8) (mark : Int)
    (some_octet : 1 ≤ payload.length) (fits : payload.length ≤ rtpPayloadMax) :
    Guarded (rtpSendData ctx payload mark) := by
  rw [rtpSendData_eq]
  refine ⟨⟨Nat.zero_le _, within.buf, ?_⟩, ?_⟩
  · apply Buffer.top_write_le
    · apply Buffer.top_write_le _ _ _ within.cache
      rw [List.length_append, RTPMuxContext.header, length_rtpHeader]
      omega
    · rw [List.length_replicate]
      omega
  · intro packet member
    rw [List.mem_singleton.mp member]
    exact ⟨some_octet, fits⟩

/-! ### Calls that stay inside -/

-- The header takes one octet of an empty buffer and none of a filled one.
theorem storeHeader_within {ctx : RTPMuxContext} (within : Within ctx) (header : UInt8)
    (room : ctx.bufPtr + 1 ≤ rtpPayloadMax) :
    Within (storeHeader ctx ctx.bufPtr header) ∧
      (storeHeader ctx ctx.bufPtr header).bufPtr = if ctx.bufPtr = 0 then 1 else ctx.bufPtr := by
  have front : 0 < rtpPayloadMax := by decide
  unfold storeHeader
  by_cases empty : ctx.bufPtr = 0
  · simp only [if_pos empty]
    exact ⟨((within.mark _ room).move room).mark _ front, by rw [empty]⟩
  · simp only [if_neg empty]
    split
    · exact ⟨(within.mark _ front).mark _ front, rfl⟩
    · exact ⟨within.mark _ front, rfl⟩

theorem storeUnit_within {ctx : RTPMuxContext} (within : Within ctx) (nal : List UInt8) (size : Nat)
    (room : ctx.bufPtr + 2 + size ≤ rtpPayloadMax) :
    Within (storeUnit ctx nal size) ∧ (storeUnit ctx nal size).bufPtr = ctx.bufPtr + 2 + size := by
  unfold storeUnit
  rw [load16_eq]
  have sized : Within { ctx with buf := ctx.buf.write ctx.bufPtr (be16 (UInt16.ofNat size).toNat) } :=
    within.store (by rw [length_be16]; omega)
  have taken : ctx.bufPtr + 2 + (nal.take size).length ≤ rtpPayloadMax := by
    rw [List.length_take]
    omega
  exact ⟨((sized.move (Nat.le_of_add_right_le room)).store taken).move room, rfl⟩

theorem sendAggregated_guarded {ctx : RTPMuxContext} (within : Within ctx) (nal : List UInt8) (size : Nat)
    (last : Int) (room : size + 3 ≤ rtpPayloadMax) : Guarded (sendAggregated ctx nal size last) := by
  have finish : ∀ ctx : RTPMuxContext, Within ctx → (ctx.bufPtr = 0 ∨ ctx.bufPtr + 2 + size ≤ rtpPayloadMax) →
      Guarded (let ctx := storeUnit (storeHeader ctx ctx.bufPtr (nal.headD 0)) nal size
        if last = 1 then rtpSendData ctx (ctx.buf.read 0 ctx.bufPtr) 1 else .quiet ctx) := by
    intro ctx within small
    obtain ⟨headed, start⟩ := storeHeader_within within (nal.headD 0) (by simp only [rtpPayloadMax] at *; omega)
    have enough : (storeHeader ctx ctx.bufPtr (nal.headD 0)).bufPtr + 2 + size ≤ rtpPayloadMax := by
      rw [start]
      split <;> omega
    obtain ⟨stored, extent⟩ := storeUnit_within headed nal size enough
    dsimp only
    split
    · apply rtpSendData_guarded stored <;> rw [Buffer.length_read, extent] <;> omega
    · exact .quiet stored
  -- after a flush the buffer is empty, and without one the check left the room
  unfold sendAggregated
  by_cases full : ctx.bufPtr + 2 + size > rtpPayloadMax
  · simp only [if_pos full]
    have sent := rtpSendData_guarded within (ctx.buf.read 0 ctx.bufPtr) 0
      (by rw [Buffer.length_read]; omega) (by rw [Buffer.length_read]; exact within.pointer)
    exact sent.follow (finish _ sent.1 (.inl rfl))
  · simp only [if_neg full, Traced.quiet_follow]
    exact finish ctx within (.inr (Nat.le_of_not_lt full))

theorem fuLoop_guarded (ctx : RTPMuxContext) (nal : List UInt8) (size : Nat) (last : Int)
    (within : Within ctx) (some_octet : 1 ≤ size) : Guarded (fuLoop ctx nal size last) := by
  fun_induction fuLoop ctx nal size last with
  | case1 ctx nal size large filled ih =>
      have piece : Within filled := within.store (by rw [List.length_take]; simp only [rtpPayloadMax]; omega)
      have sent := rtpSendData_guarded piece (filled.buf.read 0 rtpPayloadMax) 0
        (by rw [Buffer.length_read]; decide) (Nat.le_of_eq (Buffer.length_read _ _ _))
      refine sent.follow (ih _ (sent.1.mark _ (by decide)) ?_)
      simp only [rtpPayloadMax] at *
      omega
  | case2 ctx nal size small marked filled =>
      have ended : Within marked := within.mark _ (by decide)
      have piece : Within filled := ended.store (by rw [List.length_take]; omega)
      apply rtpSendData_guarded piece <;> rw [Buffer.length_read] <;> omega

theorem sendFragmented_guarded {ctx : RTPMuxContext} (within : Within ctx) (nal : List UInt8) (size : Nat)
    (last : Int) (large : 2 ≤ size) : Guarded (sendFragmented ctx nal size last) := by
  have fragmented : ∀ ctx : RTPMuxContext, Within ctx → ∀ first second third fourth : UInt8,
      Guarded (fuLoop { ctx with buf :=
        (((ctx.buf.write 0 [first]).write 0 [second]).write 1 [third]).write 1 [fourth] }
          (nal.drop 1) (size - 1) last) := by
    intro ctx within first second third fourth
    apply fuLoop_guarded
    · exact (((within.mark _ (by decide)).mark _ (by decide)).mark _ (by decide)).mark _ (by decide)
    · omega
  unfold sendFragmented
  by_cases waits : ctx.bufPtr > 0
  · rw [if_pos waits]
    have sent := rtpSendData_guarded within (ctx.buf.read 0 ctx.bufPtr) 0
      (by rw [Buffer.length_read]; exact waits) (by rw [Buffer.length_read]; exact within.pointer)
    exact sent.follow (fragmented _ sent.1 _ _ _ _)
  · rw [if_neg waits, Traced.quiet_follow]
    exact fragmented ctx within _ _ _ _

/-- The sizes the space check lets through without room for the header octet. -/
def Cramped (size : Nat) : Prop := rtpPayloadMax < size + 3 ∧ size ≤ rtpPayloadMax

instance (size : Nat) : Decidable (Cramped size) := inferInstanceAs (Decidable (_ ∧ _))

theorem rtpSendNAL_guarded {ctx : RTPMuxContext} (within : Within ctx) (aggregating : ctx.aggregation ≠ 0)
    (nal : List UInt8) (size : Nat) (last : Int) (roomy : ¬ Cramped size) :
    Guarded (rtpSendNAL ctx nal size last) := by
  unfold rtpSendNAL
  by_cases small : size ≤ rtpPayloadMax
  · rw [if_pos small, if_pos aggregating]
    apply sendAggregated_guarded within
    unfold Cramped at roomy
    omega
  · rw [if_neg small]
    apply sendFragmented_guarded within
    simp only [rtpPayloadMax] at small
    omega

/-! ### Calls that run over -/

-- An empty buffer is flushed or not; either way the header goes in front and the unit ends past the array.
theorem rtpSendNAL_overruns (ctx : RTPMuxContext) (aggregating : ctx.aggregation ≠ 0) (nal : List UInt8)
    (size : Nat) (last : Int) (whole : size ≤ nal.length) (cramped : Cramped size) :
    rtpPayloadMax < (rtpSendNAL ctx nal size last).state.buf.top := by
  have reached : ∀ (ctx : RTPMuxContext) (buffered : Nat), ctx.bufPtr = 0 → buffered = 0 →
      rtpPayloadMax < (let ctx := storeUnit (storeHeader ctx buffered (nal.headD 0)) nal size
        if last = 1 then rtpSendData ctx (ctx.buf.read 0 ctx.bufPtr) 1 else .quiet ctx).state.buf.top := by
    rintro ctx _ empty rfl
    have start : (storeHeader ctx 0 (nal.headD 0)).bufPtr = 1 := by simp [storeHeader, empty]
    have some_octet : nal.take size ≠ [] := by
      apply List.ne_nil_of_length_pos
      rw [List.length_take]
      have := cramped.1
      simp only [rtpPayloadMax] at this
      omega
    have extent : rtpPayloadMax < (storeUnit (storeHeader ctx 0 (nal.headD 0)) nal size).buf.top := by
      have far := Buffer.write_reaches
        (load16 (storeHeader ctx 0 (nal.headD 0)).buf 1 (UInt16.ofNat size)).1 (1 + 2) (nal.take size) some_octet
      rw [List.length_take, Nat.min_eq_left whole] at far
      have short := cramped.1
      simp only [storeUnit, start]
      omega
    dsimp only
    split
    · rw [rtpSendData_buf]
      exact extent
    · exact extent
  obtain ⟨short, fits⟩ := cramped
  unfold rtpSendNAL sendAggregated
  rw [if_pos fits, if_pos aggregating]
  by_cases full : ctx.bufPtr + 2 + size > rtpPayloadMax
  · simp only [if_pos full]
    exact reached _ 0 rfl rfl
  · have empty : ctx.bufPtr = 0 := by omega
    simp only [if_neg full, Traced.quiet_follow]
    exact reached ctx ctx.bufPtr empty empty

/-! ### Runs -/

def Respects (ctx : RTPMuxContext) (inputs : List (NalUnit × Int)) : Prop :=
  ∀ front, front <+: inputs → Guarded (sendUnits front ctx)

/-- A context as main makes it: storage never written, then initRTPMuxContext. -/
def freshContext (ctx : RTPMuxContext) (cache buf : Nat → UInt8) : RTPMuxContext :=
  initRTPMuxContext { ctx with cache := .untouched cache, buf := .untouched buf }

theorem freshContext_within (ctx : RTPMuxContext) (cache buf : Nat → UInt8) :
    Within (freshContext ctx cache buf) :=
  ⟨Nat.zero_le _, Nat.zero_le _, Nat.zero_le _⟩

theorem sendUnits_aggregation (inputs : List (NalUnit × Int)) {ctx : RTPMuxContext}
    (aggregating : ctx.aggregation ≠ 0) : (sendUnits inputs ctx).state.aggregation ≠ 0 := by
  have kept : ∀ input ∈ inputs, ∀ ctx : RTPMuxContext, ctx.aggregation ≠ 0 →
      (rtpSendNAL ctx input.1.bytes input.1.bytes.length input.2).state.aggregation ≠ 0 ∧
        ∀ packet ∈ (rtpSendNAL ctx input.1.bytes input.1.bytes.length input.2).events, True := by
    intro input _ ctx aggregating
    rw [(rtpSendNAL_keeps ctx _ _ _).aggregation]
    exact ⟨aggregating, fun _ _ => trivial⟩
  exact (run_invariant kept aggregating).1

theorem sendUnits_guarded {ctx : RTPMuxContext} (within : Within ctx) (aggregating : ctx.aggregation ≠ 0)
    (inputs : List (NalUnit × Int)) (roomy : ∀ input ∈ inputs, ¬ Cramped input.1.bytes.length) :
    Guarded (sendUnits inputs ctx) := by
  have kept : ∀ input ∈ inputs, ∀ ctx : RTPMuxContext, Within ctx ∧ ctx.aggregation ≠ 0 →
      (Within (rtpSendNAL ctx input.1.bytes input.1.bytes.length input.2).state ∧
        (rtpSendNAL ctx input.1.bytes input.1.bytes.length input.2).state.aggregation ≠ 0) ∧
        ∀ packet ∈ (rtpSendNAL ctx input.1.bytes input.1.bytes.length input.2).events, Sized packet := by
    rintro ⟨unit, last⟩ member ctx ⟨within, aggregating⟩
    have sent := rtpSendNAL_guarded within aggregating unit.bytes unit.bytes.length last (roomy _ member)
    exact ⟨⟨sent.1, by rwa [(rtpSendNAL_keeps ctx _ _ _).aggregation]⟩, sent.2⟩
  obtain ⟨⟨final, -⟩, sized⟩ := run_invariant kept ⟨within, aggregating⟩
  exact ⟨final, sized⟩

theorem overruns_not_respects {ctx : RTPMuxContext} (aggregating : ctx.aggregation ≠ 0)
    (front rest : List (NalUnit × Int)) (unit : NalUnit) (last : Int) (cramped : Cramped unit.bytes.length) :
    ¬ Respects ctx (front ++ (unit, last) :: rest) := by
  intro respects
  have bound := (respects (front ++ [(unit, last)]) ⟨rest, by simp⟩).1.buf
  rw [sendUnits, run_snoc] at bound
  have past := rtpSendNAL_overruns _ (sendUnits_aggregation front aggregating) unit.bytes unit.bytes.length
    last (Nat.le_refl _) cramped
  exact absurd bound (Nat.not_le.mpr past)

/-- The runs that keep the limits are those without a unit of 1398, 1399 or 1400 octets. -/
theorem rtpSendNAL_limits_iff (ctx : RTPMuxContext) (cache buf : Nat → UInt8) (inputs : List (NalUnit × Int)) :
    Respects (freshContext ctx cache buf) inputs ↔
      ∀ input ∈ inputs, ¬ (1398 ≤ input.1.bytes.length ∧ input.1.bytes.length ≤ 1400) := by
  have sizes (size : Nat) : Cramped size ↔ 1398 ≤ size ∧ size ≤ 1400 := by
    simp only [Cramped, rtpPayloadMax]
    omega
  have aggregating : (freshContext ctx cache buf).aggregation ≠ 0 := Int.one_ne_zero
  constructor
  · rintro respects ⟨unit, last⟩ member cramped
    obtain ⟨front, rest, rfl⟩ := List.append_of_mem member
    exact overruns_not_respects aggregating front rest unit last ((sizes _).mpr cramped) respects
  · intro roomy front isPrefix
    apply sendUnits_guarded (freshContext_within ctx cache buf) aggregating
    intro input member
    rw [sizes]
    exact roomy input (isPrefix.subset member)

/-- One unit of 1398 octets, sent into an empty buffer. -/
theorem rtpSendNAL_limits_broken :
    ¬ Respects (freshContext blankContext (fun _ => 0) fun _ => 0) [(⟨0x65, List.replicate 1397 0⟩, 0)] :=
  overruns_not_respects Int.one_ne_zero [] [] _ _ (by rw [NalUnit.length_bytes, List.length_replicate]; decide)

end H264Streaming.RtpSend
