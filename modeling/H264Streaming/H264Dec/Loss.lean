import Mathlib.Order.Interval.Finset.Nat
import H264Streaming.H264Dec.Highest

/-! What the reports count as lost, over a run of packets that arrive in order.

`rtp_received` is added to `highest_seq` where the cycles of the sequence numbers belong,
so the packets received are counted as lost. -/

set_option autoImplicit false

namespace H264Streaming.H264Dec

open H264Streaming.Bytes H264Streaming.Format H264Streaming.Semantics

/-- A packet, a sender report of the other side, or a report that is sent. -/
inductive Event where
  | packet (arrival : Arrival)
  | senderReport (now : Timeval) (pkg : RtcpPkg)
  | report (now : Timeval)

def Event.number : Event → Option Nat
  | .packet arrival => some (sequenceNumber arrival.header)
  | _ => none

def numbers (events : List Event) : List Nat := events.filterMap Event.number

/-- What a report computes: rtp_cum_lost and the fraction of the interval behind the report before. -/
structure Loss where
  cumLost : Nat
  fraction : Nat
  deriving DecidableEq

def account (delay : Timeval → Timeval → UInt32) : Event → RtpStats → Option (Traced RtpStats Loss)
  | .packet arrival, rtpSt => (parseArrival arrival rtpSt).map fun ran => .quiet ran.state
  | .senderReport now pkg, rtpSt => some (.quiet (receivedSR now pkg rtpSt))
  | .report now, rtpSt =>
      let reported := rtcpReceiverReport delay now rtpSt
      some ⟨reported.state, reported.events.map fun report => ⟨reported.state.rtpCumLost.toNat, report.fraction.toNat⟩⟩

/-! ### What is lost -/

def spanned : List Nat → Finset Nat
  | [] => ∅
  | first :: rest => .Icc first (rest.getLastD first)

/-- The numbers received so far, and those received before the last report. -/
structure Ledger where
  received : List Nat
  reported : Option (List Nat)
  seen : ∀ old ∈ reported, old <+: received

def Ledger.empty : Ledger := ⟨[], none, fun _ absent => by cases absent⟩

/-- The numbers missing so far, and their share, in 256ths, among those expected since the last report. -/
def Ledger.loss (ledger : Ledger) : Loss where
  cumLost := (spanned ledger.received \ ledger.received.toFinset).card
  fraction :=
    let expected := spanned ledger.received \ spanned (ledger.reported.getD [])
    256 * (expected \ ledger.received.toFinset).card / expected.card

def Ledger.step : Event → Ledger → Traced Ledger Loss
  | .packet arrival, ledger =>
      .quiet ⟨ledger.received ++ [sequenceNumber arrival.header], ledger.reported,
        fun old member => (ledger.seen old member).trans (List.prefix_append _ _)⟩
  | .senderReport _ _, ledger => .quiet ledger
  | .report _, ledger =>
      ⟨⟨ledger.received, some ledger.received, fun _ member => by cases member; exact List.prefix_rfl⟩, [ledger.loss]⟩

def Accounted (delay : Timeval → Timeval → UInt32) (session : UInt32) (events : List Event) : Prop :=
  ∃ ran, attempt (account delay) events (.start session) = some ran ∧ ran.events = (run Ledger.step events .empty).events

/-- No packet so far, or a single one with a report before. -/
def Ledger.Early (ledger : Ledger) : Prop :=
  ledger.received = [] ∨ ledger.received.length = 1 ∧ ledger.reported.isSome = true

/-- Packets in order, without duplicates, over fewer than 2^15 numbers. -/
structure InOrder (events : List Event) : Prop where
  ascending : (numbers events).Pairwise (· < ·)
  span : (spanned (numbers events)).card < 32768
  /-- The length before an interleaved packet has 16 bits. -/
  short : ∀ arrival, Event.packet arrival ∈ events → arrival.size ≤ 65535
  /-- gettimeofday counts from 1970, and second 0 means that nothing has been received. -/
  late : ∀ arrival, Event.packet arrival ∈ events → arrival.now.sec ≠ 0

/-! ### Numbers in order -/

section
variable {received : List Nat}

theorem first_le_last (ascending : received.Pairwise (· < ·)) {seq : Nat} (member : seq ∈ received) :
    received.headD 0 ≤ seq ∧ seq ≤ received.getLastD 0 := by
  constructor
  · cases received with
    | nil => cases member
    | cons first rest =>
        rcases List.mem_cons.mp member with rfl | later
        · exact Nat.le_refl _
        · exact Nat.le_of_lt ((List.pairwise_cons.mp ascending).1 seq later)
  · obtain rfl | ⟨front, last, rfl⟩ := received.eq_nil_or_concat
    · cases member
    · rw [List.concat_eq_append] at member ascending ⊢
      rw [List.getLastD_concat]
      rcases List.mem_append.mp member with earlier | same
      · exact Nat.le_of_lt ((List.pairwise_append.mp ascending).2.2 seq earlier last List.mem_cons_self)
      · exact Nat.le_of_eq (List.mem_singleton.mp same)

theorem last_le_next {seq : Nat} (ascending : (received ++ [seq]).Pairwise (· < ·)) : received.getLastD 0 ≤ seq := by
  obtain rfl | ⟨front, last, rfl⟩ := received.eq_nil_or_concat
  · exact Nat.zero_le seq
  · rw [List.concat_eq_append] at ascending ⊢
    rw [List.getLastD_concat]
    have less := (List.pairwise_append.mp ascending).2.2 last (List.mem_append_right front List.mem_cons_self)
    exact Nat.le_of_lt (less seq List.mem_cons_self)

theorem headD_le_getLastD (ascending : received.Pairwise (· < ·)) : received.headD 0 ≤ received.getLastD 0 := by
  cases received with
  | nil => exact Nat.le_refl 0
  | cons first rest => exact (first_le_last ascending List.mem_cons_self).2

theorem spanned_eq (filled : received ≠ []) : spanned received = .Icc (received.headD 0) (received.getLastD 0) := by
  obtain ⟨first, rest, rfl⟩ := List.exists_cons_of_ne_nil filled
  rw [List.getLastD_cons]
  rfl

theorem received_spanned (ascending : received.Pairwise (· < ·)) : received.toFinset ⊆ spanned received := by
  intro seq member
  have inside := List.mem_toFinset.mp member
  rw [spanned_eq (List.ne_nil_of_mem inside), Finset.mem_Icc]
  exact first_le_last ascending inside

theorem card_received (ascending : received.Pairwise (· < ·)) : received.toFinset.card = received.length :=
  List.toFinset_card_of_nodup (ascending.imp Nat.ne_of_lt)

theorem length_le_spanned (ascending : received.Pairwise (· < ·)) : received.length ≤ (spanned received).card := by
  rw [← card_received ascending]
  exact Finset.card_le_card (received_spanned ascending)

theorem card_missing (ascending : received.Pairwise (· < ·)) :
    (spanned received \ received.toFinset).card = (spanned received).card - received.length := by
  rw [Finset.card_sdiff_of_subset (received_spanned ascending), card_received ascending]

end

/-! ### The counters -/

def RtpStats.expected (rtpSt : RtpStats) : UInt32 :=
  rtpSt.rtpReceived.toUInt32 + rtpSt.highestSeq.toUInt32 - rtpSt.firstSeq.toUInt32 + 1

def expectedBehind (received : List Nat) : Nat := received.length + received.getLastD 0 - received.headD 0 + 1

structure Ledger.Kept (ledger : Ledger) (rtpSt : RtpStats) : Prop where
  received : rtpSt.rtpReceived.toNat = ledger.received.length
  first : rtpSt.firstSeq.toNat = ledger.received.headD 0
  highest : rtpSt.highestSeq.toNat = ledger.received.getLastD 0
  started : rtpSt.lastRcvTime.sec = 0 ↔ ledger.received = []
  expectedPrior : rtpSt.rtpExpectedPrior.toNat = (ledger.reported.map expectedBehind).getD 0
  receivedPrior : rtpSt.rtpReceivedPrior.toNat = (ledger.reported.map List.length).getD 0

theorem Ledger.empty_kept (session : UInt32) : Ledger.empty.Kept (.start session) :=
  ⟨rfl, rfl, rfl, iff_of_true rfl rfl, rfl, rfl⟩

variable {ledger : Ledger} {rtpSt : RtpStats}

theorem highest_eq (rtpSt : RtpStats) (seq : UInt16) :
    rtpSt.highest seq = { rtpSt with highestSeq := (rtpSt.highest seq).highestSeq } := by
  unfold RtpStats.highest
  split <;> rfl

theorem rtpStatsUpdate_counts (now : Timeval) (rtpH : RtpHeader) (rtpSt : RtpStats) :
    let updated := rtpStatsUpdate now rtpH rtpSt
    updated.rtpReceived = rtpSt.rtpReceived + 1 ∧
      updated.firstSeq = (if rtpSt.lastRcvTime.sec = 0 then rtpH.seq else rtpSt.firstSeq) ∧
      updated.lastRcvTime = (if rtpSt.lastRcvTime.sec = 0 then now else rtpSt.lastRcvTime) ∧
      updated.rtpExpectedPrior = rtpSt.rtpExpectedPrior ∧ updated.rtpReceivedPrior = rtpSt.rtpReceivedPrior := by
  unfold rtpStatsUpdate
  dsimp only
  rw [highest_eq]
  dsimp only
  split <;> exact ⟨rfl, rfl, rfl, rfl, rfl⟩

theorem Ledger.Kept.packet (kept : ledger.Kept rtpSt) (delay : Timeval → Timeval → UInt32) {arrival : Arrival}
    (short : arrival.size ≤ 65535) (late : arrival.now.sec ≠ 0) (few : ledger.received.length + 1 < 65536)
    (ascending : (ledger.received ++ [sequenceNumber arrival.header]).Pairwise (· < ·)) :
    ∃ next, account delay (.packet arrival) rtpSt = some next ∧
      (Ledger.step (.packet arrival) ledger).state.Kept next.state ∧ next.events = [] := by
  have fits : ¬ payloadCapacity < arrival.payload.length := by
    unfold Arrival.size at short
    unfold payloadCapacity
    omega
  obtain ⟨received, first, time, expectedPrior, receivedPrior⟩ :=
    rtpStatsUpdate_counts arrival.now (decodeHeader arrival.raw)
      { rtpSt with rtpIdentifier := (decodeHeader arrival.raw).ssrc }
  have highest := highestSeq_rtpStatsUpdate arrival.now (decodeHeader arrival.raw)
    { rtpSt with rtpIdentifier := (decodeHeader arrival.raw).ssrc }
  rw [account, parseArrival_eq, if_neg fits]
  refine ⟨_, rfl, ?_, rfl⟩
  dsimp only [Ledger.step, Traced.quiet]
  rw [highest_eq]
  refine ⟨?_, ?_, ?_, ?_, ?_, ?_⟩
  · rw [received, UInt16.toNat_add, kept.received, List.length_append, List.length_singleton]
    exact Nat.mod_eq_of_lt few
  · show _ = (ledger.received ++ [sequenceNumber arrival.header]).headD 0
    rw [first]
    by_cases none : ledger.received = []
    · rw [if_pos (kept.started.mpr none), none, seq_decodeHeader]
      rfl
    · obtain ⟨seq, rest, same⟩ := List.exists_cons_of_ne_nil none
      rw [if_neg fun zero => none (kept.started.mp zero), kept.first, same]
      rfl
  · rw [highestSeq_highest, highest, seq_decodeHeader, kept.highest, Nat.max_assoc, Nat.max_self, List.getLastD_concat]
    exact Nat.max_eq_right (last_le_next ascending)
  · rw [time]
    refine iff_of_false ?_ (List.append_ne_nil_of_right_ne_nil _ (List.cons_ne_nil _ _))
    split
    · exact late
    · next running => exact running
  · exact expectedPrior.symm ▸ kept.expectedPrior
  · exact receivedPrior.symm ▸ kept.receivedPrior

theorem account_report (delay : Timeval → Timeval → UInt32) (now : Timeval) (rtpSt : RtpStats) :
    ∃ dlsr, account delay (.report now) rtpSt = some
      ⟨{ rtpSt with
          rtpCumLost := rtpSt.expected - rtpSt.rtpReceived.toUInt32 - 1
          rtpExpectedPrior := rtpSt.expected
          rtpReceivedPrior := rtpSt.rtpReceived.toUInt32
          delaySncLastSR := dlsr },
        [⟨(rtpSt.expected - rtpSt.rtpReceived.toUInt32 - 1).toNat,
          (lostFraction (rtpSt.expected - rtpSt.rtpExpectedPrior)
            (rtpSt.expected - rtpSt.rtpExpectedPrior -
              (rtpSt.rtpReceived.toUInt32 - rtpSt.rtpReceivedPrior))).toNat⟩]⟩ := by
  unfold account rtcpReceiverReport rtcpDlsr
  dsimp only
  split
  · exact ⟨_, rfl⟩
  · exact ⟨_, rfl⟩

theorem Ledger.Kept.expected (kept : ledger.Kept rtpSt) (ascending : ledger.received.Pairwise (· < ·)) :
    rtpSt.expected.toNat = expectedBehind ledger.received := by
  have order := headD_le_getLastD ascending
  have received := rtpSt.rtpReceived.toNat_lt
  have highest := rtpSt.highestSeq.toNat_lt
  rw [RtpStats.expected, expectedBehind, ← kept.received, ← kept.first, ← kept.highest]
  rw [← kept.first, ← kept.highest] at order
  simp only [UInt32.toNat_add, UInt32.toNat_sub, UInt16.toNat_toUInt32, UInt32.toNat_one]
  omega

def intervalFraction (expected expectedPrior received receivedPrior : Nat) : UInt8 :=
  let expectedInterval := UInt32.ofNat expected - UInt32.ofNat expectedPrior
  lostFraction expectedInterval (expectedInterval - (UInt32.ofNat received - UInt32.ofNat receivedPrior))

def fractionBehind (received : List Nat) (reported : Option (List Nat)) : UInt8 :=
  intervalFraction (expectedBehind received) ((reported.map expectedBehind).getD 0)
    received.length ((reported.map List.length).getD 0)

def Ledger.computed (ledger : Ledger) : Loss :=
  ⟨ledger.received.getLastD 0 - ledger.received.headD 0, (fractionBehind ledger.received ledger.reported).toNat⟩

theorem Ledger.Kept.report (kept : ledger.Kept rtpSt) (ascending : ledger.received.Pairwise (· < ·))
    (delay : Timeval → Timeval → UInt32) (now : Timeval) :
    ∃ next, account delay (.report now) rtpSt = some next ∧
      (Ledger.step (.report now) ledger).state.Kept next.state ∧ next.events = [ledger.computed] := by
  obtain ⟨dlsr, same⟩ := account_report delay now rtpSt
  have received : rtpSt.rtpReceived.toUInt32.toNat = ledger.received.length := by
    rw [UInt16.toNat_toUInt32]
    exact kept.received
  have expected := kept.expected ascending
  refine ⟨_, same, ⟨kept.received, kept.first, kept.highest, kept.started, expected, received⟩, ?_⟩
  have order := headD_le_getLastD ascending
  have highest := rtpSt.highestSeq.toNat_lt
  have count := rtpSt.rtpReceived.toNat_lt
  rw [kept.highest] at highest
  rw [kept.received] at count
  have cumLost : (rtpSt.expected - rtpSt.rtpReceived.toUInt32 - 1).toNat =
      ledger.received.getLastD 0 - ledger.received.headD 0 := by
    rw [UInt32.toNat_sub, UInt32.toNat_sub, expected, received, expectedBehind, UInt32.toNat_one]
    omega
  rw [cumLost, Ledger.computed, fractionBehind, intervalFraction, ← expected, ← received, ← kept.expectedPrior, ← kept.receivedPrior,
    UInt32.ofNat_toNat, UInt32.ofNat_toNat, UInt32.ofNat_toNat, UInt32.ofNat_toNat]

/-! ### Where a report is right -/

theorem Ledger.loss_of_whole (whole : spanned ledger.received ⊆ ledger.received.toFinset) : ledger.loss = ⟨0, 0⟩ := by
  have none := Finset.sdiff_eq_empty_iff_subset.mpr whole
  have share : (spanned ledger.received \ spanned (ledger.reported.getD [])) \ ledger.received.toFinset = ∅ :=
    Finset.sdiff_eq_empty_iff_subset.mpr (Finset.sdiff_subset.trans whole)
  unfold Ledger.loss
  dsimp only
  rw [none, share, Finset.card_empty, Nat.mul_zero, Nat.zero_div]

theorem spanned_singleton (seq : Nat) : spanned [seq] ⊆ [seq].toFinset := by
  intro other member
  have inside := Finset.mem_Icc.mp member
  exact List.mem_toFinset.mpr (List.mem_singleton.mpr (Nat.le_antisymm inside.2 inside.1))

theorem expectedBehind_singleton (seq : Nat) : expectedBehind [seq] = 2 :=
  congrArg (· + 1) (Nat.add_sub_cancel (n := 1) (m := seq))

theorem computed_cumLost_iff (filled : ledger.received ≠ []) (ascending : ledger.received.Pairwise (· < ·)) :
    ledger.computed.cumLost = ledger.loss.cumLost ↔ ledger.received.length = 1 := by
  have some_packet := List.length_pos_of_ne_nil filled
  have inside := length_le_spanned ascending
  have order := headD_le_getLastD ascending
  have missing := card_missing ascending
  rw [spanned_eq filled, Nat.card_Icc] at inside missing
  dsimp only [Ledger.loss, Ledger.computed]
  rw [spanned_eq filled, missing]
  omega

theorem fractionBehind_nil {reported : Option (List Nat)} (seen : ∀ old ∈ reported, old <+: []) :
    fractionBehind [] reported = 0 := by
  cases reported with
  | none =>
      show intervalFraction 1 0 0 0 = 0
      decide
  | some old =>
      cases List.prefix_nil.mp (seen old rfl)
      show intervalFraction 1 1 0 0 = 0
      decide

theorem fractionBehind_singleton {seq : Nat} {reported : Option (List Nat)} (seen : ∀ old ∈ reported, old <+: [seq]) :
    fractionBehind [seq] reported = 0 ↔ reported.isSome = true := by
  unfold fractionBehind
  rw [expectedBehind_singleton]
  cases reported with
  | none =>
      show intervalFraction 2 0 1 0 = 0 ↔ false = true
      decide
  | some old =>
      refine iff_of_true ?_ rfl
      rcases List.prefix_cons_iff.mp (seen old rfl) with rfl | ⟨rest, rfl, empty⟩
      · show intervalFraction 2 1 1 0 = 0
        decide
      · cases List.prefix_nil.mp empty
        rw [Option.map_some, Option.getD_some, expectedBehind_singleton]
        show intervalFraction 2 2 1 1 = 0
        decide

theorem computed_eq_loss_iff (ascending : ledger.received.Pairwise (· < ·)) :
    ledger.computed = ledger.loss ↔ ledger.Early := by
  obtain ⟨received, reported, seen⟩ := ledger
  match received with
  | [] =>
      refine iff_of_true ?_ (Or.inl rfl)
      rw [Ledger.loss_of_whole (Finset.empty_subset _), Ledger.computed, fractionBehind_nil seen]
      rfl
  | [seq] =>
      rw [Ledger.loss_of_whole (spanned_singleton seq), Ledger.computed, Ledger.Early,
        ← fractionBehind_singleton seen]
      simp [← UInt8.toNat_inj]
  | first :: second :: rest =>
      refine iff_of_false (fun same => ?_) (by simp [Ledger.Early])
      have single := (computed_cumLost_iff (List.cons_ne_nil first _) ascending).mp (congrArg Loss.cumLost same)
      simp at single

/-! ### Runs -/

theorem received_run (events : List Event) (ledger : Ledger) :
    (run Ledger.step events ledger).state.received = ledger.received ++ numbers events := by
  induction events generalizing ledger with
  | nil => exact (List.append_nil _).symm
  | cons event rest ih =>
      rw [run_cons, Traced.follow_state, ih]
      cases event with
      | packet arrival => exact List.append_assoc _ _ _
      | senderReport now pkg => rfl
      | report now => rfl

section
variable {events before rest : List Event}

theorem InOrder.front_ascending (ordered : InOrder events) (same : events = before ++ rest) :
    (numbers before).Pairwise (· < ·) := by
  have ascending := ordered.ascending
  rw [same, numbers, List.filterMap_append] at ascending
  exact (List.pairwise_append.mp ascending).1

theorem InOrder.front_few (ordered : InOrder events) (same : events = before ++ rest) :
    (numbers before).length < 32768 := by
  have split : numbers events = numbers before ++ numbers rest := by
    rw [same]
    exact List.filterMap_append
  have total := congrArg List.length split
  have bound := length_le_spanned ordered.ascending
  have span := ordered.span
  rw [List.length_append] at total
  omega

end

/-- A report where it is right; the other steps compute no loss. -/
def Event.Placed : Event → Ledger → Prop
  | .report _, ledger => ledger.Early
  | _, _ => True

theorem attempt_account (delay : Timeval → Timeval → UInt32) (session : UInt32) {events : List Event}
    (ordered : InOrder events) :
    ∃ ran, attempt (account delay) events (.start session) = some ran ∧
      (ran.events = (run Ledger.step events .empty).events ↔
        ∀ before event after, events = before ++ event :: after →
          event.Placed (run Ledger.step before .empty).state) := by
  refine attempt_agrees_iff (R := fun rtpSt ledger => ledger.Kept rtpSt)
    (fun before event after same rtpSt kept => ?_) (Ledger.empty_kept session)
  have received : (run Ledger.step before .empty).state.received = numbers before := received_run before .empty
  cases event with
  | packet arrival =>
      have member : Event.packet arrival ∈ events := by
        rw [same]
        exact List.mem_append_right before List.mem_cons_self
      have behind : events = (before ++ [.packet arrival]) ++ after := by
        rw [same, List.append_assoc, List.singleton_append]
      have added : numbers (before ++ [.packet arrival]) =
          (run Ledger.step before .empty).state.received ++ [sequenceNumber arrival.header] := by
        rw [received]
        exact List.filterMap_append
      have next := ordered.front_ascending behind
      have few := ordered.front_few behind
      rw [added] at next few
      rw [List.length_append, List.length_singleton] at few
      obtain ⟨ran, through, stays, quiet⟩ :=
        kept.packet delay (ordered.short arrival member) (ordered.late arrival member) (by omega) next
      exact ⟨ran, through, stays, congrArg List.length quiet, iff_of_true quiet trivial⟩
  | senderReport now pkg =>
      exact ⟨_, rfl, ⟨kept.received, kept.first, kept.highest, kept.started, kept.expectedPrior, kept.receivedPrior⟩,
        rfl, iff_of_true rfl trivial⟩
  | report now =>
      have ascending := ordered.front_ascending same
      rw [← received] at ascending
      obtain ⟨ran, through, stays, computed⟩ := kept.report ascending delay now
      refine ⟨ran, through, stays, by rw [computed]; rfl, ?_⟩
      rw [computed]
      exact List.singleton_inj.trans (computed_eq_loss_iff ascending)

/-- The reports of a run in order compute what is lost exactly when each comes before any packet, or behind
a single one with a report before it. -/
theorem accounted_iff (delay : Timeval → Timeval → UInt32) (session : UInt32) (events : List Event)
    (ordered : InOrder events) :
    Accounted delay session events ↔
      ∀ before now after, events = before ++ .report now :: after → (run Ledger.step before .empty).state.Early := by
  obtain ⟨ran, through, agrees⟩ := attempt_account delay session ordered
  have accounted : Accounted delay session events ↔ ran.events = (run Ledger.step events .empty).events := by
    constructor
    · rintro ⟨_, same, accounted⟩
      rw [through] at same
      cases same
      exact accounted
    · exact fun accounted => ⟨ran, through, accounted⟩
  rw [accounted, agrees]
  constructor
  · exact fun placed before now after same => placed before (.report now) after same
  · intro early before event after same
    cases event with
    | packet arrival => trivial
    | senderReport now pkg => trivial
    | report now => exact early before now after same

theorem accounted_single :
    Accounted (fun _ _ => 0) 7 [.report ⟨1, 0⟩, .packet (numberedTurn 5).arrival, .report ⟨2, 0⟩] := by
  refine (accounted_iff _ _ _ ⟨by decide, by decide, ?_, ?_⟩).mpr fun before now after same => ?_
  · simp [numberedTurn, Arrival.size]
  · simp [numberedTurn]
  · rcases before with _ | ⟨first, _ | ⟨second, _ | ⟨third, before⟩⟩⟩ <;> simp at same
    · exact Or.inl rfl
    · obtain ⟨rfl, rfl, -⟩ := same
      exact Or.inr ⟨rfl, rfl⟩

/-- Behind two packets in a row the report computes one lost, and 128 of 256. -/
theorem received_counted_lost :
    let events := [.packet (numberedTurn 1).arrival, .packet (numberedTurn 2).arrival, .report ⟨2, 0⟩]
    InOrder events ∧ (attempt (account fun _ _ => 0) events (.start 7)).map Traced.events = some [⟨1, 128⟩] ∧
      (run Ledger.step events .empty).events = [⟨0, 0⟩] ∧ ¬ Accounted (fun _ _ => 0) 7 events := by
  intro events
  have ordered : InOrder events := by
    refine ⟨by decide, by decide +kernel, ?_, ?_⟩
    · simp [events, numberedTurn, Arrival.size]
    · simp [events, numberedTurn]
  have computed : (attempt (account fun _ _ => 0) events (.start 7)).map Traced.events = some [⟨1, 128⟩] := by
    decide +kernel
  have lost : (run Ledger.step events .empty).events = [⟨0, 0⟩] := by decide +kernel
  refine ⟨ordered, computed, lost, ?_⟩
  rintro ⟨ran, through, same⟩
  rw [through, Option.map_some, same, lost] at computed
  exact absurd computed (by decide)

end H264Streaming.H264Dec
