import QuicGo.Lib.Reachable
import QuicGo.Wire.AckFrameCodec

/-! The round-trip time statistics of the congestion controller
(`internal/congestion/rtt_stats.go`), and the ACK delay that `sentPacketHandler.ReceivedAck` feeds
them from the frames `parseAckFrame` reads. -/
namespace QuicGo.Congestion
open QuicGo.Lib QuicGo.Wire QuicGo.Utils QuicGo.Protocol

/-- `utils.InfDuration`, `math.MaxInt64` nanoseconds -/
def InfDuration : Int := 2 ^ 63 - 1

/-- `utils.AbsDuration`; the negation of `math.MinInt64` wraps as Go's does. -/
def AbsDuration (d : Int) : Int := if d ≥ 0 then d else toInt64 (-d)

def rttAlpha : Float32 := 0.125
def oneMinusAlpha : Float32 := 1 - rttAlpha
def rttBeta : Float32 := 0.25
def oneMinusBeta : Float32 := 1 - rttBeta

/-- `float32(d / time.Microsecond)`: whole microseconds, truncated as Go's integer division. -/
def microsOfDuration (d : Int) : Float32 := Float32.ofInt (d.tdiv 1000)

/-- `time.Duration(x) * time.Microsecond` for a `float32` number of microseconds: the
conversion truncates towards zero and the product wraps. -/
def durationOfMicros (x : Float32) : Int := toInt64 (x.toInt64.toInt * 1000)

structure RTTStats where
  minRTT : Int
  latestRTT : Int
  smoothedRTT : Int
  meanDeviation : Int
  deriving DecidableEq, Repr

def NewRTTStats : RTTStats := ⟨0, 0, 0, 0⟩

namespace RTTStats

/-- The minimum RTT after a sample: `sendDelta`, unless an earlier minimum is below it. -/
def nextMinRTT (r : RTTStats) (sendDelta : Int) : Int :=
  if r.minRTT = 0 ∨ r.minRTT > sendDelta then sendDelta else r.minRTT

/-- The sample corrected for the ACK delay, against the minimum RTT `minRTT`. -/
def correctedSample (minRTT sendDelta ackDelay : Int) : Int :=
  if toInt64 (sendDelta - minRTT) ≥ ackDelay then toInt64 (sendDelta - ackDelay) else sendDelta

/-- `RTTStats.UpdateRTT` -/
def UpdateRTT (r : RTTStats) (sendDelta ackDelay : Int) : RTTStats :=
  if sendDelta = InfDuration ∨ sendDelta ≤ 0 then r else
  -- the minimum takes the raw `sendDelta`, not the sample corrected for the ACK delay
  let minRTT := r.nextMinRTT sendDelta
  let sample := correctedSample minRTT sendDelta ackDelay
  -- first time call
  if r.smoothedRTT = 0 then
    { minRTT := minRTT
      latestRTT := sample
      smoothedRTT := sample
      meanDeviation := sample.tdiv 2 }
  else
    { minRTT := minRTT
      latestRTT := sample
      meanDeviation := durationOfMicros (oneMinusBeta * microsOfDuration r.meanDeviation +
        rttBeta * microsOfDuration (AbsDuration (toInt64 (r.smoothedRTT - sample))))
      smoothedRTT := durationOfMicros (microsOfDuration r.smoothedRTT * oneMinusAlpha +
        microsOfDuration sample * rttAlpha) }

/-- `RTTStats.OnConnectionMigration` -/
def OnConnectionMigration (_r : RTTStats) : RTTStats := ⟨0, 0, 0, 0⟩

/-- `RTTStats.ExpireSmoothedMetrics` -/
def ExpireSmoothedMetrics (r : RTTStats) : RTTStats :=
  { r with
    meanDeviation := max r.meanDeviation (AbsDuration (toInt64 (r.smoothedRTT - r.latestRTT)))
    smoothedRTT := max r.smoothedRTT r.latestRTT }

/-! ### The sample of one update -/

theorem UpdateRTT_of_not_pos {r : RTTStats} {sendDelta : Int} (ackDelay : Int)
    (h : sendDelta = InfDuration ∨ sendDelta ≤ 0) : r.UpdateRTT sendDelta ackDelay = r := by
  rw [UpdateRTT, if_pos h]

/-- What an update writes: the new minimum, and the corrected sample as the latest RTT and, at
the first sample, as the smoothed RTT. -/
theorem UpdateRTT_spec (r : RTTStats) {sendDelta : Int} (ackDelay : Int) (hpos : 0 < sendDelta)
    (hinf : sendDelta ≠ InfDuration) :
    (r.UpdateRTT sendDelta ackDelay).minRTT = r.nextMinRTT sendDelta ∧
      (r.UpdateRTT sendDelta ackDelay).latestRTT =
        correctedSample (r.nextMinRTT sendDelta) sendDelta ackDelay ∧
      (r.smoothedRTT = 0 → (r.UpdateRTT sendDelta ackDelay).smoothedRTT =
        correctedSample (r.nextMinRTT sendDelta) sendDelta ackDelay) := by
  have hg : ¬(sendDelta = InfDuration ∨ sendDelta ≤ 0) := by omega
  unfold UpdateRTT
  rw [if_neg hg]
  by_cases h0 : r.smoothedRTT = 0
  · rw [if_pos h0]
    exact ⟨rfl, rfl, fun _ => rfl⟩
  · rw [if_neg h0]
    exact ⟨rfl, rfl, fun h => absurd h h0⟩

theorem nextMinRTT_mem {r : RTTStats} {sendDelta : Int} (hr : 0 ≤ r.minRTT) (hpos : 0 < sendDelta) :
    0 < r.nextMinRTT sendDelta ∧ r.nextMinRTT sendDelta ≤ sendDelta := by
  unfold nextMinRTT
  split_ifs with h
  · omega
  · omega

/-- For a delay that is not negative the corrected sample is the raw one or the raw one less the
delay, and never larger than the raw one. -/
theorem correctedSample_le {minRTT sendDelta ackDelay : Int} (hm : 0 < minRTT)
    (hms : minRTT ≤ sendDelta) (hs : sendDelta < 2 ^ 63) (hd : 0 ≤ ackDelay) :
    minRTT ≤ correctedSample minRTT sendDelta ackDelay ∧
      correctedSample minRTT sendDelta ackDelay ≤ sendDelta := by
  unfold correctedSample
  rw [toInt64_of_mem (by omega) (by omega)]
  split_ifs with h
  · rw [toInt64_of_mem (by omega) (by omega)]
    omega
  · omega

theorem correctedSample_of_neg {minRTT sendDelta ackDelay : Int} (hm : 0 < minRTT)
    (hms : minRTT ≤ sendDelta) (hd : ackDelay < 0) (hs : sendDelta - ackDelay < 2 ^ 63) :
    correctedSample minRTT sendDelta ackDelay = sendDelta - ackDelay := by
  unfold correctedSample
  rw [toInt64_of_mem (by omega) (by omega), if_pos (by omega), toInt64_of_mem (by omega) hs]

end RTTStats

/-! ### The statistics over a run

The minimum RTT is never negative in a reachable state. -/

/-- The calls that change an `RTTStats`. -/
inductive Event where
  | updateRTT (sendDelta ackDelay : Int)
  | onConnectionMigration
  | expireSmoothedMetrics

/-- One call. -/
def step (r : RTTStats) : Event → Option RTTStats
  | .updateRTT sendDelta ackDelay => some (r.UpdateRTT sendDelta ackDelay)
  | .onConnectionMigration => some r.OnConnectionMigration
  | .expireSmoothedMetrics => some r.ExpireSmoothedMetrics

/-- The durations a call receives are `int64` values. -/
def Admissible (_r : RTTStats) : Event → Prop
  | .updateRTT sendDelta ackDelay =>
    -2 ^ 63 ≤ sendDelta ∧ sendDelta < 2 ^ 63 ∧ -2 ^ 63 ≤ ackDelay ∧ ackDelay < 2 ^ 63
  | _ => True

/-- The statistics reachable from `NewRTTStats`. -/
def Reachable (r : RTTStats) : Prop :=
  Lib.Reachable step Admissible NewRTTStats r

theorem minRTT_nonneg_step {r r' : RTTStats} {e : Event} (hr : 0 ≤ r.minRTT)
    (hst : step r e = some r') : 0 ≤ r'.minRTT := by
  cases e with
  | updateRTT sendDelta ackDelay =>
    obtain rfl := Option.some.inj hst
    by_cases hg : sendDelta = InfDuration ∨ sendDelta ≤ 0
    · rw [RTTStats.UpdateRTT_of_not_pos ackDelay hg]
      exact hr
    · have hpos : 0 < sendDelta := by omega
      rw [(RTTStats.UpdateRTT_spec r ackDelay hpos (by omega)).1]
      exact (RTTStats.nextMinRTT_mem hr hpos).1.le
  | onConnectionMigration =>
    obtain rfl := Option.some.inj hst
    exact Int.le_refl 0
  | expireSmoothedMetrics =>
    obtain rfl := Option.some.inj hst
    exact hr

theorem Reachable.minRTT_nonneg {r : RTTStats} (hr : Reachable r) : 0 ≤ r.minRTT :=
  Lib.Reachable.invariant (P := fun r => 0 ≤ r.minRTT) (Int.le_refl 0)
    (fun _ _ _ h _ hst => minRTT_nonneg_step h hst) hr

/-- In every reachable state, an update with a positive `int64` sample and a delay that is not
negative sets the latest RTT, and at the first sample the smoothed RTT, to at most the sample. -/
theorem UpdateRTT_le_sendDelta {r : RTTStats} (hr : Reachable r) {sendDelta ackDelay : Int}
    (hpos : 0 < sendDelta) (hs : sendDelta < InfDuration) (hd : 0 ≤ ackDelay) :
    (r.UpdateRTT sendDelta ackDelay).latestRTT ≤ sendDelta ∧
      (r.smoothedRTT = 0 → (r.UpdateRTT sendDelta ackDelay).smoothedRTT ≤ sendDelta) := by
  have hinf : sendDelta ≠ InfDuration := Int.ne_of_lt hs
  obtain ⟨-, hlatest, hsmoothed⟩ := RTTStats.UpdateRTT_spec r ackDelay hpos hinf
  obtain ⟨hm0, hms⟩ := RTTStats.nextMinRTT_mem hr.minRTT_nonneg hpos
  have hle := (RTTStats.correctedSample_le hm0 hms (by unfold InfDuration at hs; omega) hd).2
  exact ⟨hlatest ▸ hle, fun h0 => (hsmoothed h0) ▸ hle⟩

/-! ### The delay of a parsed ACK frame -/

/-- `parseAckFrame` reads the delay as announced whenever it is representable in `int64`
nanoseconds. -/
theorem parsed_delay_of_representable {delay e : Nat} (h : delay * 2 ^ e * 1000 < 2 ^ 63) :
    toInt64 (toInt64 ((delay <<< e : Nat) % 2 ^ 64) * 1000) = delay * 2 ^ e * 1000 := by
  have h' : (delay : Int) * 2 ^ e * 1000 < 2 ^ 63 := by exact_mod_cast h
  have h0 : (0 : Int) ≤ delay * 2 ^ e := by exact_mod_cast Nat.zero_le (delay * 2 ^ e)
  rw [Nat.shiftLeft_eq]
  unfold toInt64
  push_cast
  generalize (delay : Int) * 2 ^ e = x at h' h0 ⊢
  omega

/-- The largest delay a varint can carry, `2^62 - 1` units, wraps for every ack delay exponent a
peer may announce to `-2^e` microseconds. -/
theorem parsed_largest_delay {e : Nat} (he : e ≤ MaxAckDelayExponent) :
    toInt64 (toInt64 (((2 ^ 62 - 1) <<< e : Nat) % 2 ^ 64) * 1000) = -(1000 * 2 ^ e) := by
  have hP : 1 ≤ 2 ^ e ∧ 2 ^ e ≤ 2 ^ 20 :=
    ⟨Nat.one_le_two_pow, Nat.pow_le_pow_right (by decide) he⟩
  have hcases : 2 ^ e = 1 ∨ 2 ^ e = 2 ∨ 4 ∣ 2 ^ e := by
    rcases e with _ | _ | e
    · exact .inl rfl
    · exact .inr (.inl rfl)
    · exact .inr (.inr ⟨2 ^ e, by rw [Nat.pow_succ, Nat.pow_succ]; omega⟩)
  rw [Nat.shiftLeft_eq, show ((2 : Int) ^ e) = ((2 ^ e : Nat) : Int) by push_cast; rfl]
  generalize 2 ^ e = P at hP hcases ⊢
  unfold toInt64
  rcases hcases with rfl | rfl | ⟨k, rfl⟩
  · decide
  · decide
  · push_cast
    omega

theorem ReadVarInt_decodes_zero : Decodes ReadVarInt [0x00] 0 :=
  fun rest => ReadVarInt_one 0 rest (by decide)

theorem ReadVarInt_decodes_largest :
    Decodes ReadVarInt [0xff, 0xff, 0xff, 0xff, 0xff, 0xff, 0xff, 0xff] (2 ^ 62 - 1) := by
  intro rest
  simp only [List.cons_append, List.nil_append]
  rw [ReadVarInt_eight _ _ _ _ _ _ _ _ _ (by decide)]
  rfl

theorem parseAckFrame_largest_delay (e : Nat) :
    Decodes (parseAckFrame e) [0x02, 0x00, 0xff, 0xff, 0xff, 0xff, 0xff, 0xff, 0xff, 0xff, 0x00, 0x00]
      ⟨[⟨0, 0⟩], toInt64 (toInt64 (((2 ^ 62 - 1) <<< e : Nat) % 2 ^ 64) * 1000)⟩ := by
  show Decodes _ (([0x02] : List UInt8) ++ ([0x00] ++ ([0xff, 0xff, 0xff, 0xff, 0xff, 0xff, 0xff,
    0xff] ++ ([0x00] ++ ([0x00] ++ []))))) _
  unfold parseAckFrame
  refine (ReadByte_decodes 2).bind ?_
  refine ReadVarInt_decodes_zero.bind ?_
  refine ReadVarInt_decodes_largest.bind ?_
  refine ReadVarInt_decodes_zero.bind ?_
  refine ReadVarInt_decodes_zero.bind ?_
  have hv (D : Int) : AckFrame.validateAckRanges ⟨[⟨0, 0⟩], D⟩ = true := rfl
  simp only [gt_iff_lt, Nat.lt_irrefl, if_false, Nat.sub_zero, parseAckRanges, pure_bind, hv]
  rw [if_neg (by decide), if_neg (by decide)]
  exact Decodes.pure _

/-- For every ack delay exponent a peer may announce, `parseAckFrame` accepts a frame whose delay
is negative, `-2^e` microseconds; from every reachable state, an update with that delay and a
positive sample sets the latest RTT, and at the first sample the smoothed RTT, above the sample. -/
theorem UpdateRTT_above_sendDelta {e : Nat} (he : e ≤ MaxAckDelayExponent) {r : RTTStats}
    (hr : Reachable r) {sendDelta : Int} (hpos : 0 < sendDelta)
    (hs : sendDelta + 1000 * 2 ^ e < 2 ^ 63) :
    Decodes (parseAckFrame e) [0x02, 0x00, 0xff, 0xff, 0xff, 0xff, 0xff, 0xff, 0xff, 0xff, 0x00, 0x00]
        ⟨[⟨0, 0⟩], -(1000 * 2 ^ e)⟩ ∧
      (r.UpdateRTT sendDelta (-(1000 * 2 ^ e))).latestRTT = sendDelta + 1000 * 2 ^ e ∧
      (r.smoothedRTT = 0 →
        (r.UpdateRTT sendDelta (-(1000 * 2 ^ e))).smoothedRTT = sendDelta + 1000 * 2 ^ e) := by
  have hdecode := parseAckFrame_largest_delay e
  rw [parsed_largest_delay he] at hdecode
  have hunit : (0 : Int) < 1000 * 2 ^ e := by
    exact_mod_cast Nat.mul_pos (show 0 < 1000 by decide) (Nat.two_pow_pos e)
  have hinf : sendDelta ≠ InfDuration := by unfold InfDuration; omega
  obtain ⟨-, hlatest, hsmoothed⟩ := RTTStats.UpdateRTT_spec r (-(1000 * 2 ^ e)) hpos hinf
  obtain ⟨hm0, hms⟩ := RTTStats.nextMinRTT_mem hr.minRTT_nonneg hpos
  have hsample : RTTStats.correctedSample (r.nextMinRTT sendDelta) sendDelta (-(1000 * 2 ^ e)) =
      sendDelta + 1000 * 2 ^ e := by
    rw [RTTStats.correctedSample_of_neg hm0 hms (by omega) (by omega), Int.sub_neg]
  exact ⟨hdecode, hlatest.trans hsample, fun h0 => (hsmoothed h0).trans hsample⟩

/-- With the default exponent 3 and a sample of one millisecond, a new `RTTStats` records a
latest and a smoothed RTT of 1.008 ms. -/
theorem UpdateRTT_above_sendDelta_default :
    (3 : Nat) ≤ MaxAckDelayExponent ∧ (0 : Int) < 1000000 ∧ (1000000 : Int) + 1000 * 2 ^ 3 < 2 ^ 63 ∧
      (NewRTTStats.UpdateRTT 1000000 (-(1000 * 2 ^ 3))).latestRTT = 1008000 :=
  ⟨by decide, by decide, by decide,
    (UpdateRTT_above_sendDelta (e := 3) (by decide) Lib.Reachable.init (by decide)
      (by decide)).2.1⟩

end QuicGo.Congestion
