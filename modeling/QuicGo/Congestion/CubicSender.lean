import QuicGo.Congestion.RTTStats

/-! The congestion controller of `internal/congestion`: the cubic sender (`cubic_sender.go`), its
cubic window function (`cubic.go`), hybrid slow start (`hybrid_slow_start.go`) and proportional rate
reduction (`prr_sender.go`). -/
namespace QuicGo.Congestion
open QuicGo.Lib QuicGo.Wire QuicGo.Protocol

/-- `protocol.DefaultTCPMSS`, the maximum packet size of Linux TCP -/
def DefaultTCPMSS : UInt64 := 1460

/-! ### Cubic -/

/-- `cubeScale`: the cube of the time unit of 2^10 fractions of a second -/
def cubeScale : UInt64 := 40

def cubeCongestionWindowScale : Int := 410

def cubeFactor : UInt64 := 1 <<< cubeScale / 410 / DefaultTCPMSS

def defaultNumConnections : Int := 2

/-- `beta`, the default cubic backoff factor -/
def beta : Float32 := 0.7

/-- `betaLastMax`, the additional backoff factor after a loss in the concave part -/
def betaLastMax : Float32 := 0.85

/-- `Cubic`; the zero time of `epoch` is `none`. -/
structure Cubic where
  numConnections : Int
  epoch : Option Int
  lastMaxCongestionWindow : UInt64
  ackedBytesCount : UInt64
  estimatedTCPcongestionWindow : UInt64
  originPointCongestionWindow : UInt64
  timeToOriginPoint : UInt32
  lastTargetCongestionWindow : UInt64
  deriving DecidableEq, Repr

namespace Cubic

/-- `Reset`, called after a timeout -/
def Reset (c : Cubic) : Cubic :=
  { c with
    epoch := none
    lastMaxCongestionWindow := 0
    ackedBytesCount := 0
    estimatedTCPcongestionWindow := 0
    originPointCongestionWindow := 0
    timeToOriginPoint := 0
    lastTargetCongestionWindow := 0 }

/-- `beta`, the backoff factor of an ensemble of `numConnections` Reno connections -/
def beta (c : Cubic) : Float32 :=
  (Float32.ofInt c.numConnections - 1 + Congestion.beta) / Float32.ofInt c.numConnections

/-- `alpha`, the TCP-friendly increase for `numConnections` connections -/
def alpha (c : Cubic) : Float32 :=
  let b := c.beta
  3 * Float32.ofInt c.numConnections * Float32.ofInt c.numConnections * (1 - b) / (1 + b)

def betaLastMax (c : Cubic) : Float32 :=
  (Float32.ofInt c.numConnections - 1 + Congestion.betaLastMax) / Float32.ofInt c.numConnections

/-- `OnApplicationLimited`: freeze the window's growth by resetting the epoch. -/
def OnApplicationLimited (c : Cubic) : Cubic :=
  { c with epoch := none }

/-- `CongestionWindowAfterPacketLoss`: the window after a loss, and the new state. -/
def CongestionWindowAfterPacketLoss (c : Cubic) (currentCongestionWindow : UInt64) :
    UInt64 × Cubic :=
  let lastMaxCongestionWindow :=
    if currentCongestionWindow + DefaultTCPMSS < c.lastMaxCongestionWindow then
      -- the old maximum was never reached: back off further for a competing flow
      (c.betaLastMax * currentCongestionWindow.toFloat32).toUInt64
    else currentCongestionWindow
  ((currentCongestionWindow.toFloat32 * c.beta).toUInt64,
    { c with lastMaxCongestionWindow, epoch := none })

/-- The first ACK after a loss starts an epoch at `eventTime`. -/
def startEpoch (c : Cubic) (ackedBytes currentCongestionWindow : UInt64) (eventTime : Int) :
    Cubic :=
  let c := { c with
    epoch := some eventTime
    ackedBytesCount := ackedBytes
    estimatedTCPcongestionWindow := currentCongestionWindow }
  if c.lastMaxCongestionWindow ≤ currentCongestionWindow then
    { c with timeToOriginPoint := 0, originPointCongestionWindow := currentCongestionWindow }
  else
    { c with
      timeToOriginPoint :=
        (Float.cbrt (cubeFactor * (c.lastMaxCongestionWindow - currentCongestionWindow)).toFloat
          ).toUInt32
      originPointCongestionWindow := c.lastMaxCongestionWindow }

/-- `CongestionWindowAfterAck`: the window after an ACK, following the cubic function of the time
since the last loss, and the new state. The difference of the two times is taken exactly, where
`time.Time.Sub` saturates at the bounds of `int64`. -/
def CongestionWindowAfterAck (c : Cubic) (ackedBytes currentCongestionWindow : UInt64)
    (delayMin eventTime : Int) : UInt64 × Cubic :=
  let c := { c with ackedBytesCount := c.ackedBytesCount + ackedBytes }
  let (epoch, c) := match c.epoch with
    | some epoch => (epoch, c)
    | none => (eventTime, c.startEpoch ackedBytes currentCongestionWindow eventTime)
  -- microseconds to 2^10 fractions of a second, in `int64`
  let elapsedTime := (toInt64 (((eventTime + delayMin - epoch).tdiv 1000) * 2 ^ 10)).tdiv 1000000
  let offset := toInt64 (c.timeToOriginPoint.toNat - elapsedTime)
  let offset := if offset < 0 then toInt64 (-offset) else offset
  let deltaCongestionWindow :=
    UInt64.ofInt (cubeCongestionWindowScale * offset * offset * offset) * DefaultTCPMSS >>>
      cubeScale
  let targetCongestionWindow :=
    if elapsedTime > c.timeToOriginPoint.toNat then
      c.originPointCongestionWindow + deltaCongestionWindow
    else c.originPointCongestionWindow - deltaCongestionWindow
  -- limit the increase to half the acked bytes
  let targetCongestionWindow :=
    min targetCongestionWindow (currentCongestionWindow + c.ackedBytesCount / 2)
  let c := { c with
    estimatedTCPcongestionWindow := c.estimatedTCPcongestionWindow +
      (c.ackedBytesCount.toFloat32 * c.alpha * DefaultTCPMSS.toFloat32 /
        c.estimatedTCPcongestionWindow.toFloat32).toUInt64
    ackedBytesCount := 0
    lastTargetCongestionWindow := targetCongestionWindow }
  (if targetCongestionWindow < c.estimatedTCPcongestionWindow then c.estimatedTCPcongestionWindow
    else targetCongestionWindow, c)

def SetNumConnections (c : Cubic) (n : Int) : Cubic :=
  { c with numConnections := n }

end Cubic

def NewCubic : Cubic :=
  Cubic.Reset
    { numConnections := defaultNumConnections, epoch := none, lastMaxCongestionWindow := 0,
      ackedBytesCount := 0, estimatedTCPcongestionWindow := 0, originPointCongestionWindow := 0,
      timeToOriginPoint := 0, lastTargetCongestionWindow := 0 }

/-! ### Hybrid slow start -/

/-- `hybridStartLowWindow`, in packets -/
def hybridStartLowWindow : UInt64 := 16

def hybridStartMinSamples : UInt32 := 8

def hybridStartDelayMinThresholdUs : Int := 4000

def hybridStartDelayMaxThresholdUs : Int := 16000

/-- `HybridSlowStart`, starting from its zero value -/
structure HybridSlowStart where
  endPacketNumber : Nat := 0
  lastSentPacketNumber : Nat := 0
  started : Bool := false
  currentMinRTT : Int := 0
  rttSampleCount : UInt32 := 0
  hystartFound : Bool := false
  deriving DecidableEq, Repr

namespace HybridSlowStart

def StartReceiveRound (s : HybridSlowStart) (lastSent : Nat) : HybridSlowStart :=
  { s with endPacketNumber := lastSent, currentMinRTT := 0, rttSampleCount := 0, started := true }

def IsEndOfRound (s : HybridSlowStart) (ack : Nat) : Bool :=
  decide (s.endPacketNumber < ack)

/-- `ShouldExitSlowStart`: whether the RTT rose enough over the round's first samples, with the
window given in packets. -/
def ShouldExitSlowStart (s : HybridSlowStart) (latestRTT minRTT : Int)
    (congestionWindow : UInt64) : Bool × HybridSlowStart :=
  let s := if !s.started then s.StartReceiveRound s.lastSentPacketNumber else s
  if s.hystartFound then (true, s)
  else
    let s : HybridSlowStart := { s with rttSampleCount := s.rttSampleCount + 1 }
    let s := if s.rttSampleCount ≤ hybridStartMinSamples then
        if s.currentMinRTT = 0 ∨ s.currentMinRTT > latestRTT then
          { s with currentMinRTT := latestRTT }
        else s
      else s
    let s := if s.rttSampleCount = hybridStartMinSamples then
        let minRTTincreaseThresholdUs := min (minRTT.tdiv 1000 >>> (3 : Nat)) hybridStartDelayMaxThresholdUs
        let minRTTincreaseThreshold :=
          max minRTTincreaseThresholdUs hybridStartDelayMinThresholdUs * 1000
        if s.currentMinRTT > toInt64 (minRTT + minRTTincreaseThreshold) then
          { s with hystartFound := true }
        else s
      else s
    (congestionWindow ≥ hybridStartLowWindow && s.hystartFound, s)

def OnPacketSent (s : HybridSlowStart) (packetNumber : Nat) : HybridSlowStart :=
  { s with lastSentPacketNumber := packetNumber }

def OnPacketAcked (s : HybridSlowStart) (ackedPacketNumber : Nat) : HybridSlowStart :=
  if s.IsEndOfRound ackedPacketNumber then { s with started := false } else s

def Restart (s : HybridSlowStart) : HybridSlowStart :=
  { s with started := false, hystartFound := false }

end HybridSlowStart

/-! ### Proportional rate reduction -/

/-- `PrrSender`, starting from its zero value -/
structure PrrSender where
  bytesSentSinceLoss : UInt64 := 0
  bytesDeliveredSinceLoss : UInt64 := 0
  ackCountSinceLoss : UInt64 := 0
  bytesInFlightBeforeLoss : UInt64 := 0
  deriving DecidableEq, Repr

namespace PrrSender

def OnPacketSent (p : PrrSender) (sentBytes : UInt64) : PrrSender :=
  { p with bytesSentSinceLoss := p.bytesSentSinceLoss + sentBytes }

def OnPacketLost (p : PrrSender) (priorInFlight : UInt64) : PrrSender :=
  { p with
    bytesSentSinceLoss := 0
    bytesInFlightBeforeLoss := priorInFlight
    bytesDeliveredSinceLoss := 0
    ackCountSinceLoss := 0 }

def OnPacketAcked (p : PrrSender) (ackedBytes : UInt64) : PrrSender :=
  { p with
    bytesDeliveredSinceLoss := p.bytesDeliveredSinceLoss + ackedBytes
    ackCountSinceLoss := p.ackCountSinceLoss + 1 }

end PrrSender

/-! ### The cubic sender -/

def maxBurstBytes : UInt64 := 3 * DefaultTCPMSS

/-- `renoBeta`, the Reno backoff factor -/
def renoBeta : Float32 := 0.7

def defaultMinimumCongestionWindow : UInt64 := 2 * DefaultTCPMSS

structure cubicSender where
  hybridSlowStart : HybridSlowStart
  prr : PrrSender
  cubic : Cubic
  reno : Bool
  largestSentPacketNumber : Nat
  largestAckedPacketNumber : Nat
  largestSentAtLastCutback : Nat
  lastCutbackExitedSlowstart : Bool
  slowStartLargeReduction : Bool
  congestionWindow : UInt64
  minCongestionWindow : UInt64
  maxCongestionWindow : UInt64
  slowstartThreshold : UInt64
  numConnections : Int
  numAckedPackets : UInt64
  initialCongestionWindow : UInt64
  initialMaxCongestionWindow : UInt64
  minSlowStartExitWindow : UInt64
  deriving DecidableEq, Repr

def NewCubicSender (reno : Bool) (initialCongestionWindow initialMaxCongestionWindow : UInt64) :
    cubicSender where
  hybridSlowStart := {}
  prr := {}
  cubic := NewCubic
  reno := reno
  largestSentPacketNumber := 0
  largestAckedPacketNumber := 0
  largestSentAtLastCutback := 0
  lastCutbackExitedSlowstart := false
  slowStartLargeReduction := false
  congestionWindow := initialCongestionWindow
  minCongestionWindow := defaultMinimumCongestionWindow
  maxCongestionWindow := initialMaxCongestionWindow
  slowstartThreshold := initialMaxCongestionWindow
  numConnections := defaultNumConnections
  numAckedPackets := 0
  initialCongestionWindow := initialCongestionWindow
  initialMaxCongestionWindow := initialMaxCongestionWindow
  minSlowStartExitWindow := 0

namespace cubicSender

def GetCongestionWindow (c : cubicSender) : UInt64 :=
  c.congestionWindow

def GetSlowStartThreshold (c : cubicSender) : UInt64 :=
  c.slowstartThreshold

def InRecovery (c : cubicSender) : Bool :=
  decide (c.largestAckedPacketNumber ≤ c.largestSentAtLastCutback) &&
    c.largestAckedPacketNumber != 0

def InSlowStart (c : cubicSender) : Bool :=
  decide (c.GetCongestionWindow < c.GetSlowStartThreshold)

def OnPacketSent (c : cubicSender) (packetNumber : Nat) (bytes : UInt64)
    (isRetransmittable : Bool) : cubicSender :=
  if !isRetransmittable then c
  else
    let c := if c.InRecovery then { c with prr := c.prr.OnPacketSent bytes } else c
    { c with
      largestSentPacketNumber := packetNumber
      hybridSlowStart := c.hybridSlowStart.OnPacketSent packetNumber }

def ExitSlowstart (c : cubicSender) : cubicSender :=
  { c with slowstartThreshold := c.congestionWindow }

def MaybeExitSlowStart (c : cubicSender) (rttStats : RTTStats) : cubicSender :=
  if c.InSlowStart then
    let (exit, hybridSlowStart) := c.hybridSlowStart.ShouldExitSlowStart rttStats.latestRTT
      rttStats.minRTT (c.GetCongestionWindow / DefaultTCPMSS)
    let c := { c with hybridSlowStart }
    if exit then c.ExitSlowstart else c
  else c

def isCwndLimited (c : cubicSender) (bytesInFlight : UInt64) : Bool :=
  let congestionWindow := c.GetCongestionWindow
  if bytesInFlight ≥ congestionWindow then true
  else
    let availableBytes := congestionWindow - bytesInFlight
    let slowStartLimited := c.InSlowStart && decide (bytesInFlight > congestionWindow / 2)
    slowStartLimited || decide (availableBytes ≤ maxBurstBytes)

/-- `maybeIncreaseCwnd`, called for an ACK outside recovery -/
def maybeIncreaseCwnd (c : cubicSender) (rttStats : RTTStats) (ackedBytes priorInFlight : UInt64)
    (eventTime : Int) : cubicSender :=
  -- grow the window only when the sender is close to using it
  if !c.isCwndLimited priorInFlight then { c with cubic := c.cubic.OnApplicationLimited }
  else if c.congestionWindow ≥ c.maxCongestionWindow then c
  else if c.InSlowStart then
    -- slow start: one packet more for each ACK
    { c with congestionWindow := c.congestionWindow + DefaultTCPMSS }
  else if c.reno then
    let c := { c with numAckedPackets := c.numAckedPackets + 1 }
    if c.numAckedPackets * UInt64.ofInt c.numConnections ≥ c.congestionWindow / DefaultTCPMSS then
      { c with congestionWindow := c.congestionWindow + DefaultTCPMSS, numAckedPackets := 0 }
    else c
  else
    let (congestionWindow, cubic) := c.cubic.CongestionWindowAfterAck ackedBytes
      c.congestionWindow rttStats.minRTT eventTime
    { c with congestionWindow := min c.maxCongestionWindow congestionWindow, cubic }

def OnPacketAcked (c : cubicSender) (rttStats : RTTStats) (ackedPacketNumber : Nat)
    (ackedBytes priorInFlight : UInt64) (eventTime : Int) : cubicSender :=
  let c := { c with largestAckedPacketNumber := max ackedPacketNumber c.largestAckedPacketNumber }
  if c.InRecovery then { c with prr := c.prr.OnPacketAcked ackedBytes }
  else
    let c := c.maybeIncreaseCwnd rttStats ackedBytes priorInFlight eventTime
    if c.InSlowStart then
      { c with hybridSlowStart := c.hybridSlowStart.OnPacketAcked ackedPacketNumber }
    else c

def RenoBeta (c : cubicSender) : Float32 :=
  (Float32.ofInt c.numConnections - 1 + renoBeta) / Float32.ofInt c.numConnections

/-- The cutback of `OnPacketLost` for a loss outside the last cutback, before the window is
raised to `minCongestionWindow`. -/
def cutback (c : cubicSender) : cubicSender :=
  if c.slowStartLargeReduction && c.InSlowStart then
    let c := if c.congestionWindow ≥ 2 * c.initialCongestionWindow then
        { c with minSlowStartExitWindow := c.congestionWindow / 2 }
      else c
    { c with congestionWindow := c.congestionWindow - DefaultTCPMSS }
  else if c.reno then
    { c with congestionWindow := (c.congestionWindow.toFloat32 * c.RenoBeta).toUInt64 }
  else
    let (congestionWindow, cubic) := c.cubic.CongestionWindowAfterPacketLoss c.congestionWindow
    { c with congestionWindow, cubic }

def OnPacketLost (c : cubicSender) (packetNumber : Nat) (lostBytes priorInFlight : UInt64) :
    cubicSender :=
  -- losses of packets sent before the last cutback belong to its loss event
  if packetNumber ≤ c.largestSentAtLastCutback then
    if c.lastCutbackExitedSlowstart && c.slowStartLargeReduction then
      -- reduce the window by the lost bytes for every loss
      let congestionWindow := max (c.congestionWindow - lostBytes) c.minSlowStartExitWindow
      { c with congestionWindow, slowstartThreshold := congestionWindow }
    else c
  else
    let c := { c with
      lastCutbackExitedSlowstart := c.InSlowStart
      prr := c.prr.OnPacketLost priorInFlight }
    let c := c.cutback
    let c := if c.congestionWindow < c.minCongestionWindow then
        { c with congestionWindow := c.minCongestionWindow }
      else c
    { c with
      slowstartThreshold := c.congestionWindow
      largestSentAtLastCutback := c.largestSentPacketNumber
      numAckedPackets := 0 }

def SetNumEmulatedConnections (c : cubicSender) (n : Int) : cubicSender :=
  { c with numConnections := max n 1, cubic := c.cubic.SetNumConnections (max n 1) }

def OnRetransmissionTimeout (c : cubicSender) (packetsRetransmitted : Bool) : cubicSender :=
  let c := { c with largestSentAtLastCutback := 0 }
  if !packetsRetransmitted then c
  else
    { c with
      hybridSlowStart := c.hybridSlowStart.Restart
      cubic := c.cubic.Reset
      slowstartThreshold := c.congestionWindow / 2
      congestionWindow := c.minCongestionWindow }

def OnConnectionMigration (c : cubicSender) : cubicSender :=
  { c with
    hybridSlowStart := c.hybridSlowStart.Restart
    prr := {}
    largestSentPacketNumber := 0
    largestAckedPacketNumber := 0
    largestSentAtLastCutback := 0
    lastCutbackExitedSlowstart := false
    cubic := c.cubic.Reset
    numAckedPackets := 0
    congestionWindow := c.initialCongestionWindow
    slowstartThreshold := c.initialMaxCongestionWindow
    maxCongestionWindow := c.initialMaxCongestionWindow }

def SetSlowStartLargeReduction (c : cubicSender) (enabled : Bool) : cubicSender :=
  { c with slowStartLargeReduction := enabled }

/-! ### Runs -/

/-- The calls that change a sender. -/
inductive Event where
  | onPacketSent (packetNumber : Nat) (bytes : UInt64) (isRetransmittable : Bool)
  | onPacketAcked (rttStats : RTTStats) (ackedPacketNumber : Nat)
      (ackedBytes priorInFlight : UInt64) (eventTime : Int)
  | onPacketLost (packetNumber : Nat) (lostBytes priorInFlight : UInt64)
  | maybeExitSlowStart (rttStats : RTTStats)
  | onRetransmissionTimeout (packetsRetransmitted : Bool)
  | onConnectionMigration
  | setNumEmulatedConnections (n : Int)
  | setSlowStartLargeReduction (enabled : Bool)
  deriving DecidableEq, Repr

def step (c : cubicSender) : Event → cubicSender
  | .onPacketSent packetNumber bytes isRetransmittable =>
    c.OnPacketSent packetNumber bytes isRetransmittable
  | .onPacketAcked rttStats ackedPacketNumber ackedBytes priorInFlight eventTime =>
    c.OnPacketAcked rttStats ackedPacketNumber ackedBytes priorInFlight eventTime
  | .onPacketLost packetNumber lostBytes priorInFlight =>
    c.OnPacketLost packetNumber lostBytes priorInFlight
  | .maybeExitSlowStart rttStats => c.MaybeExitSlowStart rttStats
  | .onRetransmissionTimeout packetsRetransmitted => c.OnRetransmissionTimeout packetsRetransmitted
  | .onConnectionMigration => c.OnConnectionMigration
  | .setNumEmulatedConnections n => c.SetNumEmulatedConnections n
  | .setSlowStartLargeReduction enabled => c.SetSlowStartLargeReduction enabled

/-- The configuration a call leaves alone; only `OnConnectionMigration` resets the maximum
window, and only `SetSlowStartLargeReduction` sets the flag. -/
structure SameConfig (c c' : cubicSender) : Prop where
  reno : c'.reno = c.reno
  sslr : c'.slowStartLargeReduction = c.slowStartLargeReduction
  min_eq : c'.minCongestionWindow = c.minCongestionWindow
  max_eq : c'.maxCongestionWindow = c.maxCongestionWindow
  initial : c'.initialCongestionWindow = c.initialCongestionWindow
  initialMax : c'.initialMaxCongestionWindow = c.initialMaxCongestionWindow

theorem SameConfig.trans {c₁ c₂ c₃ : cubicSender} (h₁ : SameConfig c₁ c₂)
    (h₂ : SameConfig c₂ c₃) : SameConfig c₁ c₃ :=
  ⟨h₂.1.trans h₁.1, h₂.2.trans h₁.2, h₂.3.trans h₁.3, h₂.4.trans h₁.4, h₂.5.trans h₁.5,
    h₂.6.trans h₁.6⟩

theorem maybeIncreaseCwnd_sameConfig (c : cubicSender) (rttStats : RTTStats)
    (ackedBytes priorInFlight : UInt64) (eventTime : Int) :
    SameConfig c (c.maybeIncreaseCwnd rttStats ackedBytes priorInFlight eventTime) := by
  unfold maybeIncreaseCwnd
  dsimp only
  split_ifs <;> exact ⟨rfl, rfl, rfl, rfl, rfl, rfl⟩

theorem OnPacketAcked_sameConfig (c : cubicSender) (rttStats : RTTStats) (ackedPacketNumber : Nat)
    (ackedBytes priorInFlight : UInt64) (eventTime : Int) :
    SameConfig c
      (c.OnPacketAcked rttStats ackedPacketNumber ackedBytes priorInFlight eventTime) := by
  unfold OnPacketAcked
  dsimp only
  split
  · exact ⟨rfl, rfl, rfl, rfl, rfl, rfl⟩
  · have h := maybeIncreaseCwnd_sameConfig
      { c with largestAckedPacketNumber := max ackedPacketNumber c.largestAckedPacketNumber }
      rttStats ackedBytes priorInFlight eventTime
    split
    · exact ⟨h.1, h.2, h.3, h.4, h.5, h.6⟩
    · exact ⟨h.1, h.2, h.3, h.4, h.5, h.6⟩

theorem cutback_sameConfig (c : cubicSender) : SameConfig c c.cutback := by
  unfold cutback
  split_ifs <;> exact ⟨rfl, rfl, rfl, rfl, rfl, rfl⟩

theorem OnPacketLost_sameConfig (c : cubicSender) (packetNumber : Nat)
    (lostBytes priorInFlight : UInt64) :
    SameConfig c (c.OnPacketLost packetNumber lostBytes priorInFlight) := by
  unfold OnPacketLost
  split
  · split <;> exact ⟨rfl, rfl, rfl, rfl, rfl, rfl⟩
  · have h := cutback_sameConfig
      { c with
        lastCutbackExitedSlowstart := c.InSlowStart, prr := c.prr.OnPacketLost priorInFlight }
    dsimp only
    split
    · exact ⟨h.1, h.2, h.3, h.4, h.5, h.6⟩
    · exact ⟨h.1, h.2, h.3, h.4, h.5, h.6⟩

theorem min_le_raised (c : cubicSender) :
    c.minCongestionWindow ≤ (if c.congestionWindow < c.minCongestionWindow then
      { c with congestionWindow := c.minCongestionWindow } else c).congestionWindow := by
  split
  · exact UInt64.le_refl _
  · exact UInt64.not_lt.mp ‹_›

/-- What a Reno sender keeps while slow start large reduction is off: its configuration, a
maximum window that one more packet cannot wrap past, and a window of at least
`minCongestionWindow`. -/
structure RenoInv (c : cubicSender) : Prop where
  reno : c.reno = true
  sslr : c.slowStartLargeReduction = false
  min_eq : c.minCongestionWindow = defaultMinimumCongestionWindow
  min_le_initial : c.minCongestionWindow ≤ c.initialCongestionWindow
  max_eq : c.maxCongestionWindow = c.initialMaxCongestionWindow
  max_lt : c.initialMaxCongestionWindow.toNat + DefaultTCPMSS.toNat < 2 ^ 64
  min_le : c.minCongestionWindow ≤ c.congestionWindow

theorem RenoInv.of_sameConfig {c c' : cubicSender} (hi : RenoInv c) (h : SameConfig c c')
    (hw : c.minCongestionWindow ≤ c'.congestionWindow) : RenoInv c' := by
  refine ⟨h.reno ▸ hi.reno, h.sslr ▸ hi.sslr, h.min_eq.trans hi.min_eq, ?_, ?_,
    h.initialMax ▸ hi.max_lt, ?_⟩
  · rw [h.min_eq, h.initial]
    exact hi.min_le_initial
  · rw [h.max_eq, h.initialMax]
    exact hi.max_eq
  · rw [h.min_eq]
    exact hw

theorem le_add_DefaultTCPMSS {c : cubicSender} (hi : RenoInv c)
    (hlt : ¬c.congestionWindow ≥ c.maxCongestionWindow) :
    c.congestionWindow ≤ c.congestionWindow + DefaultTCPMSS := by
  have hmax := hi.max_lt
  rw [hi.max_eq, ge_iff_le, UInt64.not_le, UInt64.lt_iff_toNat_lt] at hlt
  rw [UInt64.le_iff_toNat_le, UInt64.toNat_add]
  omega

theorem maybeIncreaseCwnd_min_le {c : cubicSender} (hi : RenoInv c) (rttStats : RTTStats)
    (ackedBytes priorInFlight : UInt64) (eventTime : Int) :
    c.minCongestionWindow ≤
      (c.maybeIncreaseCwnd rttStats ackedBytes priorInFlight eventTime).congestionWindow := by
  unfold maybeIncreaseCwnd
  dsimp only
  split_ifs with _ hmax _ hreno
  · exact hi.min_le
  · exact hi.min_le
  · exact UInt64.le_trans hi.min_le (le_add_DefaultTCPMSS hi hmax)
  · exact UInt64.le_trans hi.min_le (le_add_DefaultTCPMSS hi hmax)
  · exact hi.min_le
  · exact absurd hi.reno hreno

theorem RenoInv.onPacketAcked {c : cubicSender} (hi : RenoInv c) (rttStats : RTTStats)
    (ackedPacketNumber : Nat) (ackedBytes priorInFlight : UInt64) (eventTime : Int) :
    RenoInv (c.OnPacketAcked rttStats ackedPacketNumber ackedBytes priorInFlight eventTime) := by
  refine hi.of_sameConfig (OnPacketAcked_sameConfig _ _ _ _ _ _) ?_
  let c₁ := { c with largestAckedPacketNumber := max ackedPacketNumber c.largestAckedPacketNumber }
  have hi₁ : RenoInv c₁ := hi.of_sameConfig ⟨rfl, rfl, rfl, rfl, rfl, rfl⟩ hi.min_le
  have hw := maybeIncreaseCwnd_min_le hi₁ rttStats ackedBytes priorInFlight eventTime
  unfold OnPacketAcked
  dsimp only
  split
  · exact hi.min_le
  · split
    · exact hw
    · exact hw

theorem RenoInv.onPacketLost {c : cubicSender} (hi : RenoInv c) (packetNumber : Nat)
    (lostBytes priorInFlight : UInt64) :
    RenoInv (c.OnPacketLost packetNumber lostBytes priorInFlight) := by
  refine hi.of_sameConfig (OnPacketLost_sameConfig _ _ _ _) ?_
  unfold OnPacketLost
  split
  · rw [if_neg (by simp [hi.sslr])]
    exact hi.min_le
  · let c₁ := { c with
      lastCutbackExitedSlowstart := c.InSlowStart, prr := c.prr.OnPacketLost priorInFlight }
    calc c.minCongestionWindow = c₁.cutback.minCongestionWindow :=
          (cutback_sameConfig c₁).min_eq.symm
      _ ≤ _ := min_le_raised c₁.cutback

theorem RenoInv.step {c : cubicSender} (hi : RenoInv c) {e : Event}
    (he : e ≠ .setSlowStartLargeReduction true) : RenoInv (c.step e) := by
  cases e with
  | onPacketSent packetNumber bytes isRetransmittable =>
    show RenoInv (c.OnPacketSent packetNumber bytes isRetransmittable)
    unfold OnPacketSent
    split
    · exact hi
    · split <;> exact hi.of_sameConfig ⟨rfl, rfl, rfl, rfl, rfl, rfl⟩ hi.min_le
  | onPacketAcked rttStats ackedPacketNumber ackedBytes priorInFlight eventTime =>
    exact hi.onPacketAcked rttStats ackedPacketNumber ackedBytes priorInFlight eventTime
  | onPacketLost packetNumber lostBytes priorInFlight =>
    exact hi.onPacketLost packetNumber lostBytes priorInFlight
  | maybeExitSlowStart rttStats =>
    show RenoInv (c.MaybeExitSlowStart rttStats)
    unfold MaybeExitSlowStart
    split
    · dsimp only
      split
      · exact hi.of_sameConfig ⟨rfl, rfl, rfl, rfl, rfl, rfl⟩ hi.min_le
      · exact hi.of_sameConfig ⟨rfl, rfl, rfl, rfl, rfl, rfl⟩ hi.min_le
    · exact hi
  | onRetransmissionTimeout packetsRetransmitted =>
    show RenoInv (c.OnRetransmissionTimeout packetsRetransmitted)
    unfold OnRetransmissionTimeout
    split
    · exact hi.of_sameConfig ⟨rfl, rfl, rfl, rfl, rfl, rfl⟩ hi.min_le
    · exact hi.of_sameConfig ⟨rfl, rfl, rfl, rfl, rfl, rfl⟩ (UInt64.le_refl _)
  | onConnectionMigration =>
    exact ⟨hi.reno, hi.sslr, hi.min_eq, hi.min_le_initial, rfl, hi.max_lt, hi.min_le_initial⟩
  | setNumEmulatedConnections n => exact hi.of_sameConfig ⟨rfl, rfl, rfl, rfl, rfl, rfl⟩ hi.min_le
  | setSlowStartLargeReduction enabled =>
    have henabled : enabled = false := by simpa using he
    subst henabled
    exact hi.of_sameConfig ⟨rfl, hi.sslr.symm, rfl, rfl, rfl, rfl⟩ hi.min_le

/-- Over every run of calls that never turns slow start large reduction on, a Reno sender built
with a window of at least `minCongestionWindow` and a maximum one packet below `2^64` keeps its
window at `minCongestionWindow` or above. -/
theorem minCongestionWindow_le_of_run {initialCongestionWindow initialMaxCongestionWindow : UInt64}
    (hinit : defaultMinimumCongestionWindow ≤ initialCongestionWindow)
    (hmax : initialMaxCongestionWindow.toNat + DefaultTCPMSS.toNat < 2 ^ 64) (es : List Event)
    (hes : ∀ e ∈ es, e ≠ .setSlowStartLargeReduction true) :
    defaultMinimumCongestionWindow ≤
      (es.foldl step (NewCubicSender true initialCongestionWindow initialMaxCongestionWindow)
        ).GetCongestionWindow := by
  have hrun : ∀ (es : List Event) (c : cubicSender),
      (∀ e ∈ es, e ≠ .setSlowStartLargeReduction true) → RenoInv c → RenoInv (es.foldl step c) := by
    intro es
    induction es with
    | nil => exact fun _ _ hi => hi
    | cons e es ih =>
      intro c hes hi
      have hi' := hi.step (hes e List.mem_cons_self)
      exact ih _ (fun e' he' => hes e' (List.mem_cons_of_mem e he')) hi'
  have hi := hrun es (NewCubicSender true initialCongestionWindow initialMaxCongestionWindow) hes
    ⟨rfl, rfl, rfl, hinit, rfl, hmax, hinit⟩
  rw [← hi.min_eq]
  exact hi.min_le

/-- The run of `congestionWindow_wraps_after_slow_start_losses` without slow start large
reduction: twenty packets sent and all of them lost leave the window at two packets or above. -/
theorem minCongestionWindow_le_of_run_twenty_losses :
    let sent := (List.range 20).map fun k => Event.onPacketSent (k + 1) 730 true
    let lost := (List.range 20).map fun k =>
      Event.onPacketLost (k + 1) 730 (UInt64.ofNat (730 * (20 - k)))
    defaultMinimumCongestionWindow ≤ 10 * DefaultTCPMSS ∧
      (200 * DefaultTCPMSS).toNat + DefaultTCPMSS.toNat < 2 ^ 64 ∧
      (∀ e ∈ sent ++ lost, e ≠ .setSlowStartLargeReduction true) ∧
      defaultMinimumCongestionWindow ≤ ((sent ++ lost).foldl step
        (NewCubicSender true (10 * DefaultTCPMSS) (200 * DefaultTCPMSS))).GetCongestionWindow := by
  intro sent lost
  have hinit : defaultMinimumCongestionWindow ≤ 10 * DefaultTCPMSS := by decide
  have hmax : (200 * DefaultTCPMSS).toNat + DefaultTCPMSS.toNat < 2 ^ 64 := by decide
  have hes : ∀ e ∈ sent ++ lost, e ≠ .setSlowStartLargeReduction true := by
    simp only [sent, lost, List.mem_append, List.mem_map]
    rintro e (⟨k, -, rfl⟩ | ⟨k, -, rfl⟩) <;> simp
  exact ⟨hinit, hmax, hes, minCongestionWindow_le_of_run hinit hmax (sent ++ lost) hes⟩

end cubicSender

end QuicGo.Congestion
