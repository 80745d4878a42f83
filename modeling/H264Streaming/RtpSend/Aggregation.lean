import H264Streaming.Format.Payload
import H264Streaming.RtpSend.RTPEnc

/-! What the packetizer is for: collect small units in one aggregate, cut large
units into fragments.

The plan below keeps the units waiting in the buffer as a list. rtpSendNAL refines
it: `ctx->buf` holds the encoding of the waiting units and nothing else, although
the same storage also serves as scratch space for fragments.
-/

set_option autoImplicit false

namespace H264Streaming.RtpSend

open H264Streaming.Bytes H264Streaming.Semantics H264Streaming.Format

/-! ### The plan -/

/-- The aggregate's header after one more unit: the greater NRI, and F once any unit has it. -/
def mergeHeader (header next : UInt8) : UInt8 :=
  (if nri next > nri header then (header &&& 0x9F) ||| nri next else header) ||| forbiddenBit next

def stapHeader (units : List NalUnit) : UInt8 :=
  units.foldl (fun header unit => mergeHeader header unit.header) 24

def entries (units : List NalUnit) : List UInt8 := (units.map NalUnit.bytes).flatMap entry

def aggregate : List NalUnit → List UInt8
  | [] => []
  | unit :: rest => stapHeader (unit :: rest) :: entries (unit :: rest)

def pieces (body : List UInt8) : List (List UInt8) :=
  if body.length + 2 > rtpPayloadMax then
    body.take (rtpPayloadMax - 2) :: pieces (body.drop (rtpPayloadMax - 2))
  else [body]
termination_by body.length
decreasing_by simp only [rtpPayloadMax, List.length_drop] at *; omega

/-- One unit, given the units waiting. Events are payloads. -/
def plan (input : NalUnit × Int) (waiting : List NalUnit) : Traced (List NalUnit) (List UInt8) :=
  if input.1.bytes.length ≤ rtpPayloadMax then
    let flushed : Traced (List NalUnit) (List UInt8) :=
      if (aggregate waiting).length + 2 + input.1.bytes.length > rtpPayloadMax then ⟨[], [aggregate waiting]⟩
      else .quiet waiting
    flushed.follow fun waiting =>
      if input.2 = 1 then ⟨[], [aggregate (waiting ++ [input.1])]⟩ else .quiet (waiting ++ [input.1])
  else
    ⟨[], (if waiting = [] then [] else [aggregate waiting]) ++
      fragments (28 ||| nri input.1.header) (unitType input.1.header) true (pieces input.1.body)⟩

theorem stapHeader_snoc (units : List NalUnit) (unit : NalUnit) :
    stapHeader (units ++ [unit]) = mergeHeader (stapHeader units) unit.header := by
  simp [stapHeader]

theorem entries_snoc (units : List NalUnit) (unit : NalUnit) :
    entries (units ++ [unit]) = entries units ++ entry unit.bytes := by
  simp [entries]

theorem aggregate_snoc (units : List NalUnit) (unit : NalUnit) :
    aggregate (units ++ [unit]) =
      mergeHeader (stapHeader units) unit.header :: (entries units ++ entry unit.bytes) := by
  rw [← stapHeader_snoc, ← entries_snoc]
  cases units <;> rfl

theorem flatten_pieces (body : List UInt8) : (pieces body).flatten = body := by
  fun_induction pieces body with
  | case1 body large ih => rw [List.flatten_cons, ih, List.take_append_drop]
  | case2 body small => simp

theorem pieces_ne_nil (body : List UInt8) : pieces body ≠ [] := by
  fun_cases pieces body <;> simp

theorem pieces_large (body : List UInt8) (large : body.length + 2 > rtpPayloadMax) :
    ∃ first second rest, pieces body = first :: second :: rest := by
  rw [pieces, if_pos large]
  obtain ⟨second, rest, same⟩ := List.exists_cons_of_ne_nil (pieces_ne_nil (body.drop (rtpPayloadMax - 2)))
  exact ⟨_, second, rest, by rw [same]⟩

/-! ### The refinement -/

structure Buffers (ctx : RTPMuxContext) (waiting : List NalUnit) : Prop where
  aggregating : ctx.aggregation ≠ 0
  extent : ctx.bufPtr = (aggregate waiting).length
  content : ctx.buf.read 0 ctx.bufPtr = aggregate waiting

theorem Buffers.empty {ctx : RTPMuxContext} (aggregating : ctx.aggregation ≠ 0) (reset : ctx.bufPtr = 0) :
    Buffers ctx [] :=
  ⟨aggregating, reset, by rw [reset]; rfl⟩

private theorem first_header (header : UInt8) :
    (24 ||| (header &&& 0x60)) ||| (header &&& 0x80) = mergeHeader 24 header := by
  revert header
  exact forall_octet (by decide +kernel)

theorem storeHeader_eq (ctx : RTPMuxContext) (header : UInt8) :
    (storeHeader ctx ctx.bufPtr header).aggregation = ctx.aggregation ∧
      (storeHeader ctx ctx.bufPtr header).bufPtr = (if ctx.bufPtr = 0 then 1 else ctx.bufPtr) ∧
      (storeHeader ctx ctx.bufPtr header).buf.byte 0 =
        mergeHeader (if ctx.bufPtr = 0 then 24 else ctx.buf.byte 0) header ∧
      ∀ count, (storeHeader ctx ctx.bufPtr header).buf.read 1 count = ctx.buf.read 1 count := by
  have front (b : Buffer) (octet : UInt8) : (b.write 0 [octet]).byte 0 = octet := by simp [Buffer.write]
  have behind (b : Buffer) (octet : UInt8) (count : Nat) : (b.write 0 [octet]).read 1 count = b.read 1 count :=
    Buffer.read_write_above b 0 [octet] (Nat.le_refl 1)
  by_cases empty : ctx.bufPtr = 0
  · simp only [storeHeader, empty, if_true, front, behind, first_header, implies_true, and_self]
  · simp only [storeHeader, if_neg empty]
    by_cases raised : header &&& 0x60 > ctx.buf.byte 0 &&& 0x60
    · have merged : mergeHeader (ctx.buf.byte 0) header =
          ((ctx.buf.byte 0 &&& 0x9F) ||| (header &&& 0x60)) ||| (header &&& 0x80) :=
        congrArg (· ||| forbiddenBit header) (if_pos raised)
      simp only [if_pos raised, front, behind, merged, implies_true, and_self]
    · have merged : mergeHeader (ctx.buf.byte 0) header = ctx.buf.byte 0 ||| (header &&& 0x80) :=
        congrArg (· ||| forbiddenBit header) (if_neg raised)
      simp only [if_neg raised, front, behind, merged, implies_true, and_self]

private theorem storeHeader_held {ctx : RTPMuxContext} {waiting : List NalUnit} (held : Buffers ctx waiting)
    (header : UInt8) :
    (storeHeader ctx ctx.bufPtr header).bufPtr = (entries waiting).length + 1 ∧
      (storeHeader ctx ctx.bufPtr header).buf.read 0 ((entries waiting).length + 1) =
        mergeHeader (stapHeader waiting) header :: entries waiting := by
  obtain ⟨-, extent, content⟩ := held
  obtain ⟨-, pointer, first, behind⟩ := storeHeader_eq ctx header
  rw [Buffer.read_succ, pointer, first, behind]
  cases waiting with
  | nil =>
      rw [show ctx.bufPtr = 0 from extent]
      exact ⟨rfl, rfl⟩
  | cons unit rest =>
      have length : ctx.bufPtr = (entries (unit :: rest)).length + 1 := by simp [extent, aggregate]
      have nonempty : ctx.bufPtr ≠ 0 := by omega
      rw [length, Buffer.read_succ] at content
      obtain ⟨head, tail⟩ := List.cons.inj content
      rw [if_neg nonempty, if_neg nonempty, head, tail]
      exact ⟨length, rfl⟩

theorem storeUnit_held {ctx : RTPMuxContext} {waiting : List NalUnit} (held : Buffers ctx waiting)
    (unit : NalUnit) (beyond : List UInt8) (sized : unit.bytes.length < 65536) :
    Buffers (storeUnit (storeHeader ctx ctx.bufPtr unit.header) (unit.bytes ++ beyond) unit.bytes.length)
      (waiting ++ [unit]) := by
  obtain ⟨pointer, content⟩ := storeHeader_held held unit.header
  have size : (UInt16.ofNat unit.bytes.length).toNat = unit.bytes.length := by
    rw [UInt16.toNat_ofNat', Nat.mod_eq_of_lt sized]
  have extent : (aggregate (waiting ++ [unit])).length = (entries waiting).length + 1 + 2 + unit.bytes.length := by
    rw [aggregate_snoc, List.length_cons, List.length_append, length_entry]
    omega
  constructor
  · exact fun zero => held.aggregating ((storeHeader_eq ctx unit.header).1.symm.trans zero)
  · simp only [storeUnit, load16_eq, pointer, extent]
  · simp only [storeUnit, load16_eq, size, pointer, List.take_left]
    rw [Buffer.read_write_extend _ unit.bytes _ _ rfl, Buffer.read_write_extend _ (be16 _) _ 2 rfl, content,
      aggregate_snoc]
    simp [entry]

theorem sendAggregated_refines {ctx : RTPMuxContext} {waiting : List NalUnit} (held : Buffers ctx waiting)
    (unit : NalUnit) (beyond : List UInt8) (last : Int) (small : unit.bytes.length ≤ rtpPayloadMax) :
    let sent := sendAggregated ctx (unit.bytes ++ beyond) unit.bytes.length last
    Buffers sent.state (plan (unit, last) waiting).state ∧
      sent.events.map Packet.payload = (plan (unit, last) waiting).events := by
  have sized : unit.bytes.length < 65536 := Nat.lt_of_le_of_lt small (by decide)
  have first : (unit.bytes ++ beyond).headD 0 = unit.header := rfl
  simp only [sendAggregated, plan, if_pos small, held.extent, first]
  -- After a flush nothing waits, and what is stored next starts a new aggregate.
  have stored : ∀ (ctx' : RTPMuxContext) (waiting' : List NalUnit), Buffers ctx' waiting' →
      let filled := storeUnit (storeHeader ctx' ctx'.bufPtr unit.header) (unit.bytes ++ beyond) unit.bytes.length
      let finished : Traced RTPMuxContext Packet :=
        if last = 1 then rtpSendData filled (filled.buf.read 0 filled.bufPtr) 1 else .quiet filled
      let planned : Traced (List NalUnit) (List UInt8) :=
        if last = 1 then ⟨[], [aggregate (waiting' ++ [unit])]⟩ else .quiet (waiting' ++ [unit])
      Buffers finished.state planned.state ∧ finished.events.map Packet.payload = planned.events := by
    intro ctx' waiting' held'
    have next := storeUnit_held held' unit beyond sized
    by_cases final : last = 1
    · simp only [if_pos final]
      exact ⟨.empty next.aggregating rfl, by rw [rtpSendData_events, List.map_singleton, next.content]⟩
    · simp only [if_neg final]
      exact ⟨next, rfl⟩
  by_cases full : (aggregate waiting).length + 2 + unit.bytes.length > rtpPayloadMax
  · obtain ⟨kept, sent⟩ := stored (rtpSendData ctx (ctx.buf.read 0 (aggregate waiting).length) 0).state []
      (.empty held.aggregating rfl)
    simp only [if_pos full, Traced.follow_state, Traced.follow_events, List.map_append]
    refine ⟨kept, congrArg₂ (· ++ ·) ?_ sent⟩
    simp [← held.extent, held.content]
  · obtain ⟨kept, sent⟩ := stored ctx waiting held
    rw [held.extent] at kept sent
    simp only [if_neg full, Traced.quiet_follow]
    exact ⟨kept, sent⟩

private theorem fuHeader_next (type : UInt8) (small : unitType type = type) (start : Bool) :
    fuHeader start false type &&& 0x7f = fuHeader false false type ∧
      fuHeader start false type ||| 0x40 = fuHeader start true type := by
  revert type
  exact forall_octet (by cases start <;> decide +kernel)

private theorem scratch_read (b : Buffer) (indicator header : UInt8) (piece : List UInt8) (size : Nat)
    (scratch : b.read 0 2 = [indicator, header]) (exact : size = piece.length) :
    (b.write 2 piece).read 0 (2 + size) = indicator :: header :: piece := by
  rw [Buffer.read_write_extend b piece 2 size exact, scratch]
  rfl

private theorem scratch_header (b : Buffer) (indicator header next : UInt8)
    (scratch : b.read 0 2 = [indicator, header]) :
    (b.write 1 [next]).read 0 2 = [indicator, next] := by
  have kept := Buffer.read_write_extend b [next] 1 1 rfl
  have first : b.read 0 1 = [indicator] := congrArg (List.take 1) scratch
  rw [first] at kept
  exact kept

/-- The loop sends one fragment for each piece; the first has S when the scratch header has it. -/
theorem fuLoop_refines (ctx : RTPMuxContext) (indicator type : UInt8) (start : Bool) (body beyond : List UInt8)
    (last : Int) (small : unitType type = type)
    (scratch : ctx.buf.read 0 2 = [indicator, fuHeader start false type]) :
    (fuLoop ctx (body ++ beyond) body.length last).state.bufPtr = 0 ∧
      (fuLoop ctx (body ++ beyond) body.length last).events.map Packet.payload =
        fragments indicator type start (pieces body) := by
  obtain ⟨cleared, ended⟩ := fuHeader_next type small start
  have headerByte : ctx.buf.byte 1 = fuHeader start false type := (List.cons.inj (List.cons.inj scratch).2).1
  rw [fuLoop, pieces]
  by_cases large : body.length + 2 > rtpPayloadMax
  · have front : (body ++ beyond).take (rtpPayloadMax - 2) = body.take (rtpPayloadMax - 2) :=
      List.take_append_of_le_length (by omega)
    have back : (body ++ beyond).drop (rtpPayloadMax - 2) = body.drop (rtpPayloadMax - 2) ++ beyond :=
      List.drop_append_of_le_length (by omega)
    have whole : rtpPayloadMax - 2 = (body.take (rtpPayloadMax - 2)).length := by
      rw [List.length_take]
      omega
    have payload := scratch_read ctx.buf indicator _ (body.take (rtpPayloadMax - 2)) _ scratch whole
    have nextScratch : (ctx.buf.write 2 (body.take (rtpPayloadMax - 2))).read 0 2 =
        [indicator, fuHeader start false type] := by
      rw [Buffer.read_write_below _ _ _ (by omega), scratch]
    have nextByte : (ctx.buf.write 2 (body.take (rtpPayloadMax - 2))).byte 1 = fuHeader start false type := by
      rw [Buffer.byte_write_of_lt _ _ _ (by omega), headerByte]
    rw [if_pos large, if_pos large, front, back, fragments_cons _ _ _ _ _ (pieces_ne_nil _)]
    have rest := fuLoop_refines
      { (rtpSendData { ctx with buf := ctx.buf.write 2 (body.take (rtpPayloadMax - 2)) }
          (indicator :: fuHeader start false type :: body.take (rtpPayloadMax - 2)) 0).state with
        buf := (ctx.buf.write 2 (body.take (rtpPayloadMax - 2))).write 1 [fuHeader false false type] }
      indicator type false (body.drop (rtpPayloadMax - 2)) beyond last small
      (scratch_header _ _ _ _ nextScratch)
    rw [List.length_drop] at rest
    have sent : (ctx.buf.write 2 (body.take (rtpPayloadMax - 2))).read 0 rtpPayloadMax =
        indicator :: fuHeader start false type :: body.take (rtpPayloadMax - 2) := payload
    simp only [Traced.follow_state, Traced.follow_events, rtpSendData_buf, rtpSendData_events, nextByte, cleared,
      sent, List.map_append, List.map_singleton]
    exact ⟨rest.1, congrArg (_ :: ·) rest.2⟩
  · have nextScratch := scratch_header ctx.buf indicator _ (fuHeader start true type) scratch
    have payload := scratch_read _ indicator _ body body.length nextScratch rfl
    rw [if_neg large, if_neg large, headerByte, ended, List.take_left, Nat.add_comm]
    dsimp only
    rw [payload]
    exact ⟨rfl, by simp [fragments]⟩
termination_by body.length
decreasing_by simp only [rtpPayloadMax, List.length_drop] at *; omega

private theorem fuHeader_first (header : UInt8) :
    (header &&& 0x1F) ||| ((1 : UInt8) <<< (7 : UInt8)) = fuHeader true false (unitType header) := by
  revert header
  exact forall_octet (by decide +kernel)

theorem fuLoop_unit (ctx : RTPMuxContext) (unit : NalUnit) (beyond : List UInt8) (last : Int) :
    let filled := ((ctx.buf.write 0 [28]).write 0 [(ctx.buf.write 0 [28]).byte 0 ||| (unit.header &&& 0x60)]).write 1
      [unit.header &&& 0x1F]
    let sent := fuLoop { ctx with buf := filled.write 1 [filled.byte 1 ||| ((1 : UInt8) <<< (7 : UInt8))] }
      (unit.body ++ beyond) unit.body.length last
    (sent.state.bufPtr = 0 ∧ sent.state.aggregation = ctx.aggregation) ∧
      sent.events.map Packet.payload =
        fragments (28 ||| nri unit.header) (unitType unit.header) true (pieces unit.body) := by
  intro filled sent
  have scratch : (filled.write 1 [filled.byte 1 ||| ((1 : UInt8) <<< (7 : UInt8))]).read 0 2 =
      [28 ||| nri unit.header, fuHeader true false (unitType unit.header)] := by
    rw [← fuHeader_first]
    simp [filled, Buffer.read_succ, Buffer.write, nri]
  obtain ⟨reset, payloads⟩ := fuLoop_refines
    { ctx with buf := filled.write 1 [filled.byte 1 ||| ((1 : UInt8) <<< (7 : UInt8))] } _ _ true unit.body beyond last
    (unitType_unitType unit.header) scratch
  exact ⟨⟨reset, (fuLoop_keeps _ _ _ _).aggregation⟩, payloads⟩

theorem sendFragmented_refines {ctx : RTPMuxContext} {waiting : List NalUnit} (held : Buffers ctx waiting)
    (unit : NalUnit) (beyond : List UInt8) (last : Int) (large : ¬ unit.bytes.length ≤ rtpPayloadMax) :
    let sent := sendFragmented ctx (unit.bytes ++ beyond) unit.bytes.length last
    Buffers sent.state (plan (unit, last) waiting).state ∧
      sent.events.map Packet.payload = (plan (unit, last) waiting).events := by
  have first : (unit.bytes ++ beyond).headD 0 = unit.header := rfl
  have tail : (unit.bytes ++ beyond).drop 1 = unit.body ++ beyond := rfl
  have size : unit.bytes.length - 1 = unit.body.length := rfl
  simp only [sendFragmented, plan, if_neg large, first, tail, size]
  cases waiting with
  | nil =>
      have empty : ¬ ctx.bufPtr > 0 := by rw [held.extent]; exact Nat.lt_irrefl 0
      obtain ⟨⟨reset, kept⟩, payloads⟩ := fuLoop_unit ctx unit beyond last
      simp only [if_neg empty, Traced.quiet_follow, if_true, List.nil_append]
      exact ⟨.empty (fun zero => held.aggregating (kept.symm.trans zero)) reset, payloads⟩
  | cons other rest =>
      have waits : ctx.bufPtr > 0 := by rw [held.extent]; exact Nat.zero_lt_succ _
      obtain ⟨⟨reset, kept⟩, payloads⟩ :=
        fuLoop_unit (rtpSendData ctx (ctx.buf.read 0 ctx.bufPtr) 0).state unit beyond last
      simp only [if_pos waits, Traced.follow_state, Traced.follow_events, List.map_append]
      refine ⟨.empty (fun zero => held.aggregating (kept.symm.trans zero)) reset, congrArg₂ (· ++ ·) ?_ payloads⟩
      simp [held.content]

/-- rtpSendNAL, with aggregation on, carries out the plan. -/
theorem rtpSendNAL_refines {ctx : RTPMuxContext} {waiting : List NalUnit} (held : Buffers ctx waiting)
    (unit : NalUnit) (beyond : List UInt8) (last : Int) :
    let sent := rtpSendNAL ctx (unit.bytes ++ beyond) unit.bytes.length last
    Buffers sent.state (plan (unit, last) waiting).state ∧
      sent.events.map Packet.payload = (plan (unit, last) waiting).events := by
  by_cases small : unit.bytes.length ≤ rtpPayloadMax
  · simpa only [rtpSendNAL, if_pos small, if_pos held.aggregating] using
      sendAggregated_refines held unit beyond last small
  · simpa only [rtpSendNAL, if_neg small] using sendFragmented_refines held unit beyond last small

def sendUnits (inputs : List (NalUnit × Int)) (ctx : RTPMuxContext) : Traced RTPMuxContext Packet :=
  run (fun input ctx => rtpSendNAL ctx input.1.bytes input.1.bytes.length input.2) inputs ctx

theorem sendUnits_refines {ctx : RTPMuxContext} {waiting : List NalUnit} (held : Buffers ctx waiting)
    (inputs : List (NalUnit × Int)) :
    Buffers (sendUnits inputs ctx).state (run plan inputs waiting).state ∧
      (sendUnits inputs ctx).events.map Packet.payload = (run plan inputs waiting).events := by
  apply run_simulates _ held
  intro input _ ctx waiting held
  have sent := rtpSendNAL_refines held input.1 [] input.2
  rwa [List.append_nil] at sent

end H264Streaming.RtpSend
