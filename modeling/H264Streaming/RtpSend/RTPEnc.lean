import H264Streaming.Bytes.Buffer
import H264Streaming.Format.Rtp
import H264Streaming.Semantics.Traced

/-! The packetizer of h264RtpSend (RTPEnc.c, RTPEnc.h and the stores of Utils.c).

A pointer into a NAL unit is the list of octets from that address on. A pointer
into `ctx->buf` is its offset. Each call of `rtpSendData` emits one packet.
-/

set_option autoImplicit false

namespace H264Streaming.RtpSend

open H264Streaming.Bytes H264Streaming.Format H264Streaming.Semantics

def rtpPayloadMax : Nat := 1400
def rtpVersion : UInt8 := 2
def rtpH264 : UInt8 := 96

/-! ### Utils.c -/

def load8 (mem : Buffer) (p : Nat) (x : UInt8) : Buffer × Nat := (mem.write p [x], p + 1)

def load16 (mem : Buffer) (p : Nat) (x : UInt16) : Buffer × Nat :=
  let (mem, p) := load8 mem p (x >>> 8).toUInt8
  load8 mem p x.toUInt8

def load32 (mem : Buffer) (p : Nat) (x : UInt32) : Buffer × Nat :=
  let (mem, p) := load16 mem p (x >>> 16).toUInt16
  load16 mem p x.toUInt16

theorem load16_eq (mem : Buffer) (p : Nat) (x : UInt16) :
    load16 mem p x = (mem.write p (be16 x.toNat), p + 2) := by
  have high : (x >>> 8).toUInt8 = UInt8.ofNat (x.toNat / 256) := by
    apply UInt8.toNat_inj.mp
    simp [Nat.shiftRight_eq_div_pow]
  have low : x.toUInt8 = UInt8.ofNat x.toNat := by
    apply UInt8.toNat_inj.mp
    simp
  have joined := mem.write_write p [UInt8.ofNat (x.toNat / 256)] [UInt8.ofNat x.toNat]
  simp only [List.length_singleton] at joined
  simp only [load16, load8, high, low, joined]
  rfl

theorem be16_low (x : UInt32) : be16 x.toUInt16.toNat = be16 x.toNat := by
  simp only [be16, UInt32.toNat_toUInt16, List.cons.injEq, and_true]
  constructor
  · apply UInt8.toNat_inj.mp
    simp
    omega
  · apply UInt8.toNat_inj.mp
    simp

theorem load32_eq (mem : Buffer) (p : Nat) (x : UInt32) :
    load32 mem p x = (mem.write p (be32 x.toNat), p + 4) := by
  have high : be16 (x >>> 16).toUInt16.toNat = be16 (x.toNat / 65536) := by
    have value : (x >>> 16).toUInt16.toNat = x.toNat / 65536 := by
      have := x.toNat_lt
      simp [Nat.shiftRight_eq_div_pow]
      omega
    rw [value]
  have joined := mem.write_write p (be16 (x.toNat / 65536)) (be16 x.toNat)
  rw [length_be16] at joined
  simp only [load32, load16_eq, high, be16_low, joined]
  rfl

/-! ### RTPEnc.h -/

structure RTPMuxContext where
  cache : Buffer
  buf : Buffer
  bufPtr : Nat
  aggregation : Int
  payloadType : Int
  ssrc : UInt32
  seq : UInt32
  timestamp : UInt32

-- All zeros, storage included.
def blankContext : RTPMuxContext :=
  ⟨.untouched fun _ => 0, .untouched fun _ => 0, 0, 0, 0, 0, 0, 0⟩

/-- One call of rtpSendData: the octets it was handed and the datagram it sent. -/
structure Packet where
  payload : List UInt8
  datagram : List UInt8
  deriving DecidableEq

/-! ### RTPEnc.c -/

def initRTPMuxContext (ctx : RTPMuxContext) : RTPMuxContext :=
  { ctx with
    seq := 0
    timestamp := 0
    ssrc := 0x12345678
    aggregation := 1
    bufPtr := 0
    payloadType := 0 }

/-- `buf` is the `len` octets handed over. The cleared part of the cache is
`RTP_PAYLOAD_MAX+10` octets, two fewer than the cache holds. -/
def rtpSendData (ctx : RTPMuxContext) (buf : List UInt8) (mark : Int) : Traced RTPMuxContext Packet :=
  let pos := ctx.cache.write 0 [(rtpVersion <<< 6) &&& 0xff]
  let pos := pos.write 1 [(rtpH264 &&& 0x7f) ||| (UInt8.ofNat (mark % 2).toNat <<< (7 : UInt8))]
  let pos := (load16 pos 2 ctx.seq.toUInt16).1
  let pos := (load32 pos 4 ctx.timestamp).1
  let pos := (load32 pos 8 ctx.ssrc).1
  let cache := pos.write 12 buf
  let cleared := cache.write 0 (List.replicate (rtpPayloadMax + 10) 0)
  ⟨{ ctx with cache := cleared, bufPtr := 0, seq := (ctx.seq + 1) &&& 0xffff },
    [⟨buf, cache.read 0 (buf.length + 12)⟩]⟩

/-- The STAP-A header: written in front of the first unit, raised in place for a
later one, and marked F when the unit has F. `nal` is the unit's first octet. -/
def storeHeader (ctx : RTPMuxContext) (bufferedSize : Nat) (nal : UInt8) : RTPMuxContext :=
  let curNRI := nal &&& 0x60
  let ctx :=
    if bufferedSize = 0 then
      { ctx with buf := ctx.buf.write ctx.bufPtr [24 ||| curNRI], bufPtr := ctx.bufPtr + 1 }
    else
      let lastNRI := ctx.buf.byte 0 &&& 0x60
      if curNRI > lastNRI then
        { ctx with buf := ctx.buf.write 0 [(ctx.buf.byte 0 &&& 0x9F) ||| curNRI] }
      else ctx
  { ctx with buf := ctx.buf.write 0 [ctx.buf.byte 0 ||| (nal &&& 0x80)] }

def storeUnit (ctx : RTPMuxContext) (nal : List UInt8) (size : Nat) : RTPMuxContext :=
  let ctx := { ctx with buf := (load16 ctx.buf ctx.bufPtr (UInt16.ofNat size)).1, bufPtr := ctx.bufPtr + 2 }
  { ctx with buf := ctx.buf.write ctx.bufPtr (nal.take size), bufPtr := ctx.bufPtr + size }

def sendAggregated (ctx : RTPMuxContext) (nal : List UInt8) (size : Nat) (last : Int) :
    Traced RTPMuxContext Packet :=
  let bufferedSize := ctx.bufPtr
  let full := bufferedSize + 2 + size > rtpPayloadMax
  let flushed := if full then rtpSendData ctx (ctx.buf.read 0 bufferedSize) 0 else .quiet ctx
  let bufferedSize := if full then 0 else bufferedSize
  flushed.follow fun ctx =>
    let ctx := storeUnit (storeHeader ctx bufferedSize (nal.headD 0)) nal size
    if last = 1 then rtpSendData ctx (ctx.buf.read 0 ctx.bufPtr) 1 else .quiet ctx

/-- The loop over the fragments and the last fragment after it; `ctx->buf` holds
the indicator and the FU header in front of every piece. -/
def fuLoop (ctx : RTPMuxContext) (nal : List UInt8) (size : Nat) (last : Int) : Traced RTPMuxContext Packet :=
  if size + 2 > rtpPayloadMax then
    let ctx := { ctx with buf := ctx.buf.write 2 (nal.take (rtpPayloadMax - 2)) }
    (rtpSendData ctx (ctx.buf.read 0 rtpPayloadMax) 0).follow fun ctx =>
      fuLoop { ctx with buf := ctx.buf.write 1 [ctx.buf.byte 1 &&& 0x7f] }
        (nal.drop (rtpPayloadMax - 2)) (size - (rtpPayloadMax - 2)) last
  else
    let ctx := { ctx with buf := ctx.buf.write 1 [ctx.buf.byte 1 ||| 0x40] }
    let ctx := { ctx with buf := ctx.buf.write 2 (nal.take size) }
    rtpSendData ctx (ctx.buf.read 0 (size + 2)) last
termination_by size
decreasing_by simp only [rtpPayloadMax] at *; omega

def sendFragmented (ctx : RTPMuxContext) (nal : List UInt8) (size : Nat) (last : Int) :
    Traced RTPMuxContext Packet :=
  let flushed := if ctx.bufPtr > 0 then rtpSendData ctx (ctx.buf.read 0 ctx.bufPtr) 0 else .quiet ctx
  flushed.follow fun ctx =>
    let type := nal.headD 0 &&& 0x1F
    let nri := nal.headD 0 &&& 0x60
    let ctx := { ctx with buf := ctx.buf.write 0 [28] }
    let ctx := { ctx with buf := ctx.buf.write 0 [ctx.buf.byte 0 ||| nri] }
    let ctx := { ctx with buf := ctx.buf.write 1 [type] }
    let ctx := { ctx with buf := ctx.buf.write 1 [ctx.buf.byte 1 ||| ((1 : UInt8) <<< (7 : UInt8))] }
    fuLoop ctx (nal.drop 1) (size - 1) last

def rtpSendNAL (ctx : RTPMuxContext) (nal : List UInt8) (size : Nat) (last : Int) :
    Traced RTPMuxContext Packet :=
  if size ≤ rtpPayloadMax then
    if ctx.aggregation ≠ 0 then sendAggregated ctx nal size last
    else rtpSendData ctx (nal.take size) last
  else sendFragmented ctx nal size last

/-! ### What one packet is -/

def RTPMuxContext.header (ctx : RTPMuxContext) (mark : Int) : List UInt8 :=
  rtpHeader (UInt8.ofNat (mark % 2).toNat) ctx.seq.toNat ctx.timestamp.toNat ctx.ssrc.toNat

theorem cache_stores (cache : Buffer) (buf : List UInt8) (mark : Int) (seq timestamp ssrc : UInt32) :
    ((load32 (load32 (load16 ((cache.write 0 [(rtpVersion <<< 6) &&& 0xff]).write 1
      [(rtpH264 &&& 0x7f) ||| (UInt8.ofNat (mark % 2).toNat <<< (7 : UInt8))]) 2 seq.toUInt16).1 4 timestamp).1 8 ssrc).1.write
        12 buf) = cache.write 0
          (rtpHeader (UInt8.ofNat (mark % 2).toNat) seq.toNat timestamp.toNat ssrc.toNat ++ buf) := by
  have adjacent (i : Nat) (first second : List UInt8) (same : i = first.length) :
      (cache.write 0 first).write i second = cache.write 0 (first ++ second) := by
    have joined := cache.write_write 0 first second
    rwa [Nat.zero_add, ← same] at joined
  simp only [load16_eq, load32_eq]
  rw [adjacent 1 _ _ rfl, adjacent 2 _ _ rfl, adjacent 4 _ _ rfl, adjacent 8 _ _ rfl, adjacent 12 _ _ rfl,
    be16_low]
  rfl

theorem rtpSendData_eq (ctx : RTPMuxContext) (buf : List UInt8) (mark : Int) :
    rtpSendData ctx buf mark =
      ⟨{ ctx with
          cache := (ctx.cache.write 0 (ctx.header mark ++ buf)).write 0
            (List.replicate (rtpPayloadMax + 10) 0)
          bufPtr := 0
          seq := (ctx.seq + 1) &&& 0xffff },
        [⟨buf, ctx.header mark ++ buf⟩]⟩ := by
  have sent := ctx.cache.read_write_self 0 (ctx.header mark ++ buf)
  rw [List.length_append, RTPMuxContext.header, length_rtpHeader, Nat.add_comm] at sent
  simp only [rtpSendData, cache_stores, sent]
  rfl

section
variable (ctx : RTPMuxContext) (buf : List UInt8) (mark : Int)

@[simp] theorem rtpSendData_buf : (rtpSendData ctx buf mark).state.buf = ctx.buf := rfl

@[simp] theorem rtpSendData_seq : (rtpSendData ctx buf mark).state.seq = (ctx.seq + 1) &&& 0xffff := rfl

@[simp] theorem rtpSendData_events : (rtpSendData ctx buf mark).events =
    [⟨buf, ctx.header mark ++ buf⟩] := by
  rw [rtpSendData_eq]

end

/-! ### What a call leaves alone -/

structure Keeps (ctx : RTPMuxContext) (sent : Traced RTPMuxContext Packet) : Prop where
  aggregation : sent.state.aggregation = ctx.aggregation
  timestamp : sent.state.timestamp = ctx.timestamp
  stamped : ∀ packet ∈ sent.events, Format.timestamp packet.datagram = ctx.timestamp.toNat

theorem Keeps.quiet (ctx : RTPMuxContext) : Keeps ctx (.quiet ctx) :=
  ⟨rfl, rfl, fun _ member => absurd member List.not_mem_nil⟩

theorem Keeps.rebase {ctx other : RTPMuxContext} {sent : Traced RTPMuxContext Packet} (kept : Keeps other sent)
    (aggregation : other.aggregation = ctx.aggregation) (timestamp : other.timestamp = ctx.timestamp) :
    Keeps ctx sent := by
  refine ⟨kept.aggregation.trans aggregation, kept.timestamp.trans timestamp, ?_⟩
  rw [← timestamp]
  exact kept.stamped

theorem Keeps.follow {ctx : RTPMuxContext} {sent : Traced RTPMuxContext Packet}
    {next : RTPMuxContext → Traced RTPMuxContext Packet} (first : Keeps ctx sent)
    (second : Keeps sent.state (next sent.state)) : Keeps ctx (sent.follow next) := by
  refine ⟨second.aggregation.trans first.aggregation, second.timestamp.trans first.timestamp, ?_⟩
  intro packet member
  rcases List.mem_append.mp member with early | late
  · exact first.stamped packet early
  · rw [← first.timestamp]
    exact second.stamped packet late

theorem rtpSendData_keeps (ctx : RTPMuxContext) (payload : List UInt8) (mark : Int) :
    Keeps ctx (rtpSendData ctx payload mark) := by
  refine ⟨rfl, rfl, ?_⟩
  intro packet member
  rw [rtpSendData_events] at member
  rw [List.mem_singleton.mp member]
  exact (timestamp_rtpHeader _ _ _ _ _).trans (Nat.mod_eq_of_lt ctx.timestamp.toNat_lt)

theorem storeUnit_header_keeps (ctx : RTPMuxContext) (buffered : Nat) (nal : List UInt8) (size : Nat) :
    let stored := storeUnit (storeHeader ctx buffered (nal.headD 0)) nal size
    stored.seq = ctx.seq ∧ stored.aggregation = ctx.aggregation ∧ stored.timestamp = ctx.timestamp := by
  unfold storeUnit storeHeader
  dsimp only
  split
  · exact ⟨rfl, rfl, rfl⟩
  · split <;> exact ⟨rfl, rfl, rfl⟩

theorem sendAggregated_keeps (ctx : RTPMuxContext) (nal : List UInt8) (size : Nat) (last : Int) :
    Keeps ctx (sendAggregated ctx nal size last) := by
  have stored : ∀ (ctx : RTPMuxContext) (buffered : Nat),
      Keeps ctx (let ctx := storeUnit (storeHeader ctx buffered (nal.headD 0)) nal size
        if last = 1 then rtpSendData ctx (ctx.buf.read 0 ctx.bufPtr) 1 else .quiet ctx) := by
    intro ctx buffered
    obtain ⟨-, aggregation, timestamp⟩ := storeUnit_header_keeps ctx buffered nal size
    dsimp only
    split
    · exact (rtpSendData_keeps _ _ 1).rebase aggregation timestamp
    · exact (Keeps.quiet _).rebase aggregation timestamp
  unfold sendAggregated
  dsimp only
  split
  · exact (rtpSendData_keeps ctx _ 0).follow (stored _ _)
  · rw [Traced.quiet_follow]
    exact stored ctx _

theorem fuLoop_keeps (ctx : RTPMuxContext) (nal : List UInt8) (size : Nat) (last : Int) :
    Keeps ctx (fuLoop ctx nal size last) := by
  fun_induction fuLoop ctx nal size last with
  | case1 ctx nal size large filled ih =>
      have piece : Keeps ctx (rtpSendData filled (filled.buf.read 0 rtpPayloadMax) 0) :=
        (rtpSendData_keeps filled _ 0).rebase rfl rfl
      exact piece.follow ((ih (rtpSendData filled (filled.buf.read 0 rtpPayloadMax) 0).state).rebase rfl rfl)
  | case2 ctx nal size small marked filled => exact (rtpSendData_keeps filled _ last).rebase rfl rfl

theorem sendFragmented_keeps (ctx : RTPMuxContext) (nal : List UInt8) (size : Nat) (last : Int) :
    Keeps ctx (sendFragmented ctx nal size last) := by
  have fragments : ∀ (ctx : RTPMuxContext) (buf : Buffer),
      Keeps ctx (fuLoop { ctx with buf } (nal.drop 1) (size - 1) last) :=
    fun ctx buf => (fuLoop_keeps { ctx with buf } _ _ last).rebase rfl rfl
  unfold sendFragmented
  split
  · exact (rtpSendData_keeps ctx _ 0).follow (fragments _ _)
  · rw [Traced.quiet_follow]
    exact fragments ctx _

theorem rtpSendNAL_keeps (ctx : RTPMuxContext) (nal : List UInt8) (size : Nat) (last : Int) :
    Keeps ctx (rtpSendNAL ctx nal size last) := by
  unfold rtpSendNAL
  split
  · split
    · exact sendAggregated_keeps ctx nal size last
    · exact rtpSendData_keeps ctx _ last
  · exact sendFragmented_keeps ctx nal size last

end H264Streaming.RtpSend
