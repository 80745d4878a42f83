import H264Streaming.H264Dec.Rtp

/-! The RTCP side of h264dec (h264dec/rtcp.c, rtcp.h). -/

set_option autoImplicit false

namespace H264Streaming.H264Dec

open H264Streaming.Bytes H264Streaming.Semantics

def rtcpSR : UInt8 := 200
def rtcpRR : UInt8 := 201
def rtcpSDES : UInt8 := 202
def rtcpSsrc : Nat := 0x0c143e07

/-! ### rtcp_receiver_report -/

/-- The octets of a report, and the fraction that is computed but not sent. -/
structure Report where
  octets : List UInt8
  fraction : UInt8
  deriving DecidableEq

/-- The delay since the last sender report. `delay` is the difference of the two times
in units of 1/65536 seconds, which the code computes in doubles. -/
def rtcpDlsr (delay : Timeval → Timeval → UInt32) (now : Timeval) (rtpSt : RtpStats) : RtpStats × UInt32 :=
  if rtpSt.lastRcvSRTs = 0 then (rtpSt, 0)
  else
    let rtpSt := { rtpSt with delaySncLastSR := delay now rtpSt.lastRcvSRTime }
    (rtpSt, rtpSt.delaySncLastSR)

def lostFraction (expectedInterval lostInterval : UInt32) : UInt8 :=
  -- lost_interval is unsigned
  if expectedInterval = 0 ∨ lostInterval ≤ 0 then 0 else ((lostInterval <<< 8) / expectedInterval).toUInt8

def rtcpReceiverReport (delay : Timeval → Timeval → UInt32) (now : Timeval) (rtpSt : RtpStats) :
    Traced RtpStats Report :=
  let extendedMax := rtpSt.rtpReceived.toUInt32 + rtpSt.highestSeq.toUInt32
  let expected := extendedMax - rtpSt.firstSeq.toUInt32 + 1
  let rtpSt := { rtpSt with rtpCumLost := expected - rtpSt.rtpReceived.toUInt32 - 1 }
  let expectedInterval := expected - rtpSt.rtpExpectedPrior
  let rtpSt := { rtpSt with rtpExpectedPrior := expected }
  let receivedInterval := rtpSt.rtpReceived.toUInt32 - rtpSt.rtpReceivedPrior
  let rtpSt := { rtpSt with rtpReceivedPrior := rtpSt.rtpReceived.toUInt32 }
  let lostInterval := expectedInterval - receivedInterval
  let dlsr := rtcpDlsr delay now rtpSt
  let octets := [0x81, rtcpRR] ++ be16 7 ++ be32 rtcpSsrc ++ be32 rtpSt.rtpIdentifier.toNat ++ be32 0 ++ be16 1 ++
    be16 rtpSt.highestSeq.toNat ++ be32 rtpSt.jitter.toNat ++ be32 rtpSt.lastRcvSRTs.toNat ++ be32 dlsr.2.toNat
  ⟨dlsr.1, [⟨octets, lostFraction expectedInterval lostInterval⟩]⟩

/-! ### rtcp_decode -/

structure RtcpPkg where
  version : UInt8
  padding : UInt8
  extension : UInt8
  ccrc : UInt8
  type : UInt8
  length : UInt16
  ssrc : UInt32
  tsMsw : UInt32
  tsLsw : UInt32
  tsRtp : UInt32
  sdPkC : UInt32
  sdOcC : UInt32
  identifier : UInt32
  sdesType : UInt8
  sdesLength : UInt8
  sdesType2 : UInt8
  deriving DecidableEq

structure Decoded where
  pkg : RtcpPkg
  reach : Nat
  deriving DecidableEq

def word32 (payload : Buffer) (offset : Nat) : UInt32 := UInt32.ofNat (valueBE (payload.read offset 4))

def decodeCommon (payload : Buffer) (start : Nat) (pkg : RtcpPkg) : RtcpPkg :=
  { pkg with
    version := payload.byte start >>> 6
    padding := (payload.byte start &&& 0x20) >>> 5
    extension := (payload.byte start &&& 0x10) >>> 4
    ccrc := payload.byte start &&& 0xF
    type := payload.byte (start + 1)
    length := UInt16.ofNat (value16 (payload.byte (start + 2)) (payload.byte (start + 3))) }

/-- The fields of a sender report; `i` is at the last octet of the common header. -/
def decodeSR (payload : Buffer) (i : Nat) (pkg : RtcpPkg) : RtcpPkg :=
  let pkg := { pkg with
    ssrc := word32 payload (i + 1)
    tsMsw := word32 payload (i + 5)
    tsLsw := word32 payload (i + 9)
    tsRtp := word32 payload (i + 13)
    sdPkC := word32 payload (i + 17) }
  -- the second count is stored in the same field
  { pkg with sdPkC := word32 payload (i + 21) }

def decodeSDES (payload : Buffer) (i : Nat) (pkg : RtcpPkg) : RtcpPkg :=
  let sdesLength := payload.byte (i + 6)
  { pkg with
    identifier := word32 payload (i + 1)
    sdesType := payload.byte (i + 5)
    sdesLength
    sdesType2 := payload.byte (i + 6 + sdesLength.toNat + 1) }

def receivedSR (now : Timeval) (pkg : RtcpPkg) (rtpSt : RtpStats) : RtpStats :=
  { rtpSt with
    lastRcvSRTs := ((pkg.tsMsw &&& 0xFFFF) <<< 16) ||| (pkg.tsLsw >>> 16)
    lastRcvSRTime := now
    rtpIdentifier := pkg.ssrc }

/-- The part of the loop that depends on the type: the entry, `i` and the statistics behind it. -/
def decodeTyped (now : Timeval) (payload : Buffer) (i : Nat) (pkg : RtcpPkg) (rtpSt : RtpStats) :
    RtcpPkg × Nat × RtpStats :=
  if pkg.type = rtcpSR then
    let pkg := decodeSR payload i pkg
    (pkg, i + 24, receivedSR now pkg rtpSt)
  else if pkg.type = rtcpSDES then
    let pkg := decodeSDES payload i pkg
    (pkg, i + 5 + 1 + pkg.sdesLength.toNat + 1 + 1, rtpSt)
  else (pkg, i, rtpSt)

def reached (pkg : RtcpPkg) (i : Nat) : Nat := if pkg.type = rtcpSDES then i else i + 1

/-- The length check under debug_rtcp, which may end the process, or the packet discarded. -/
def skip (debugRtcp : Bool) (start i : Nat) (pkg : RtcpPkg) : Option Nat :=
  if debugRtcp then if (i - start) / 4 ≠ pkg.length.toNat then none else some i
  else some (i + pkg.length.toNat)

/-- The loop over the payload with the entries of the table that are left. It fails
when it needs more of them, or exits. -/
def decodeFrom (debugRtcp : Bool) (now : Timeval) (payload : Buffer) (len : Nat) :
    List RtcpPkg → Nat → RtpStats → Option (Traced RtpStats Decoded)
  | [], start, rtpSt => if start < len then none else some (.quiet rtpSt)
  | pkg :: rest, start, rtpSt =>
      if start < len then do
        let (pkg, i, rtpSt) := decodeTyped now payload (start + 3) (decodeCommon payload start pkg) rtpSt
        let i' ← skip debugRtcp start i pkg
        let later ← decodeFrom debugRtcp now payload len rest (i' + 1) rtpSt
        return ⟨later.state, ⟨pkg, reached pkg i⟩ :: later.events⟩
      else some (.quiet rtpSt)

/-- rtcp_decode; `pk` is what the allocated table holds. The entries come back in order. -/
def rtcpDecode (debugRtcp : Bool) (now : Timeval) (payload : Buffer) (len : Nat) (pk : Fin 16 → RtcpPkg)
    (rtpSt : RtpStats) : Option (Traced RtpStats Decoded) :=
  decodeFrom debugRtcp now payload len (List.ofFn pk) 0 rtpSt

end H264Streaming.H264Dec
