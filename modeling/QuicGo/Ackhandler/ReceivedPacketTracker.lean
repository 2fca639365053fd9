import QuicGo.Ackhandler.ReceivedPacketHistory
import QuicGo.Lib.Reachable

/-! `receivedPacketTracker`: the receiving side of one packet number space, which records the
packets received and decides when to send an ACK; `receivedPacketHandler` holds one tracker per
encryption level. -/
namespace QuicGo.Ackhandler
open QuicGo.Protocol QuicGo.Wire QuicGo.Lib receivedPacketHistory PacketInterval

/-- maximum delay that can be applied to an ACK for a retransmittable packet -/
def ackSendDelay : Int := 25 * 1000000

/-- initial maximum number of retransmittable packets received before sending an ack -/
def initialRetransmittablePacketsBeforeAck : Nat := 2

/-- number of retransmittable that an ACK is sent for -/
def retransmittablePacketsBeforeAck : Nat := 10

/-- Minimum number of packets received before ack decimation is enabled. -/
def minReceivedBeforeAckDecimation : Nat := 100

/-- Maximum number of packets to ack immediately after a missing packet. -/
def maxPacketsAfterNewMissing : Nat := 4

structure receivedPacketTracker where
  largestObserved : Nat
  ignoreBelow : Nat
  largestObservedReceivedTime : Int
  packetHistory : receivedPacketHistory
  packetsReceivedSinceLastAck : Nat
  retransmittablePacketsReceivedSinceLastAck : Nat
  ackQueued : Bool
  ackAlarm : Option Int
  lastAck : Option AckFrame
  deriving DecidableEq, Repr

namespace receivedPacketTracker

def newReceivedPacketTracker : receivedPacketTracker where
  largestObserved := 0
  ignoreBelow := 0
  largestObservedReceivedTime := 0
  packetHistory := newReceivedPacketHistory
  packetsReceivedSinceLastAck := 0
  retransmittablePacketsReceivedSinceLastAck := 0
  ackQueued := false
  ackAlarm := none
  lastAck := none

/-- `isMissing` says if a packet was reported missing in the last ACK. -/
def isMissing (h : receivedPacketTracker) (p : Nat) : Except receivedPacketError Bool :=
  match h.lastAck with
  | none => pure false
  | some lastAck =>
    if p < h.ignoreBelow then pure false
    else
      match lastAck.LargestAcked with
      | none => throw (.panic "index out of range")
      | some largestAcked =>
        if p < largestAcked then
          match lastAck.AcksPacket p with
          | none => throw (.panic "index out of range")
          | some acked => pure !acked
        else pure false

def hasNewMissingPackets (h : receivedPacketTracker) : Except receivedPacketError Bool :=
  match h.lastAck with
  | none => pure false
  | some lastAck =>
    let highestRange := h.packetHistory.GetHighestAckRange
    match lastAck.LargestAcked with
    | none => throw (.panic "index out of range")
    | some largestAcked =>
      pure (decide (highestRange.Smallest ≥ largestAcked) &&
        decide (highestRange.Len ≤ maxPacketsAfterNewMissing))

/-- The two branches of ack decimation: queue an ACK once `threshold` retransmittable packets
arrived since the last one, or else set the alarm to `alarm` if it is not set. -/
def queueOrSetAlarm (h : receivedPacketTracker) (threshold : Nat) (alarm : Int) :
    receivedPacketTracker :=
  if h.retransmittablePacketsReceivedSinceLastAck ≥ threshold then { h with ackQueued := true }
  else if h.ackAlarm.isNone then { h with ackAlarm := some alarm }
  else h

/-- The part of `maybeQueueAck` for a packet that should instigate an ACK while none is
queued. -/
def instigateAck (h : receivedPacketTracker) (packetNumber : Nat) (rcvTime minRTT : Int) :
    Except receivedPacketError receivedPacketTracker := do
  let h := { h with
    retransmittablePacketsReceivedSinceLastAck := h.retransmittablePacketsReceivedSinceLastAck + 1 }
  let h := if packetNumber > minReceivedBeforeAckDecimation then
      -- ack up to 10 packets at once, or wait for min(1/4 min-RTT, max ack delay)
      h.queueOrSetAlarm retransmittablePacketsBeforeAck (rcvTime + min ackSendDelay (minRTT / 4))
    else
      -- send an ACK every 2 retransmittable packets, or wait for the max ack delay
      h.queueOrSetAlarm initialRetransmittablePacketsBeforeAck (rcvTime + ackSendDelay)
  -- if there are new missing packets to report, set a short timer to send an ACK
  if ← h.hasNewMissingPackets then
    let ackTime := rcvTime + minRTT / 8
    if h.ackAlarm.all (· > ackTime) then pure { h with ackAlarm := some ackTime } else pure h
  else pure h

def maybeQueueAck (h : receivedPacketTracker) (packetNumber : Nat) (rcvTime : Int)
    (shouldInstigateAck wasMissing : Bool) (minRTT : Int) :
    Except receivedPacketError receivedPacketTracker :=
  let h := { h with packetsReceivedSinceLastAck := h.packetsReceivedSinceLastAck + 1 }
  -- always ack the first packet
  if h.lastAck.isNone then pure { h with ackQueued := true }
  else do
    -- send an ACK if this packet was reported missing in an ACK sent before
    let h := if wasMissing then { h with ackQueued := true } else h
    let h ← if !h.ackQueued && shouldInstigateAck then h.instigateAck packetNumber rcvTime minRTT
      else pure h
    -- cancel the ack alarm
    pure (if h.ackQueued then { h with ackAlarm := none } else h)

def ReceivedPacket (h : receivedPacketTracker) (packetNumber : Nat) (rcvTime : Int)
    (shouldInstigateAck : Bool) (minRTT : Int) :
    Except receivedPacketError receivedPacketTracker :=
  if packetNumber < h.ignoreBelow then pure h
  else do
    let isMissing ← h.isMissing packetNumber
    let h := if packetNumber ≥ h.largestObserved then
        { h with largestObserved := packetNumber, largestObservedReceivedTime := rcvTime }
      else h
    let packetHistory ← h.packetHistory.ReceivedPacket packetNumber
    { h with packetHistory }.maybeQueueAck packetNumber rcvTime shouldInstigateAck isMissing minRTT

/-- `IgnoreBelow`: packets with packet numbers smaller than `p` will not be acked. -/
def IgnoreBelow (h : receivedPacketTracker) (p : Nat) : receivedPacketTracker :=
  if p ≤ h.ignoreBelow then h
  else { h with ignoreBelow := p, packetHistory := h.packetHistory.DeleteBelow p }

/-- `GetAckFrame` at the time `now`. -/
def GetAckFrame (h : receivedPacketTracker) (now : Int) :
    Option AckFrame × receivedPacketTracker :=
  if !h.ackQueued && h.ackAlarm.all (· > now) then (none, h)
  else
    let ack : AckFrame :=
      { AckRanges := h.packetHistory.GetAckRanges, DelayTime := now - h.largestObservedReceivedTime }
    (some ack, { h with
      lastAck := some ack
      ackAlarm := none
      ackQueued := false
      packetsReceivedSinceLastAck := 0
      retransmittablePacketsReceivedSinceLastAck := 0 })

def GetAlarmTimeout (h : receivedPacketTracker) : Option Int :=
  h.ackAlarm

end receivedPacketTracker

/-- A runtime panic. -/
def receivedPacketError.IsPanic : receivedPacketError → Prop
  | .panic _ => True
  | _ => False

namespace receivedPacketTracker

/-! ### The invariant of a tracker -/

/-- What every tracker keeps: a sorted history that shares the tracker's lower bound and
covers nothing below it. -/
structure Inv (t : receivedPacketTracker) : Prop where
  sorted : Sorted t.packetHistory.ranges
  lowest : t.packetHistory.lowestInReceivedPacketNumbers = t.ignoreBelow
  above : ∀ n, Covers t.packetHistory.ranges n → t.ignoreBelow ≤ n

/-- An ACK is queued, or its alarm is set. -/
def Pending (t : receivedPacketTracker) : Prop :=
  t.ackQueued = true ∨ t.ackAlarm.isSome = true

/-- A pending ACK has a range to report. -/
def Ready (t : receivedPacketTracker) : Prop :=
  Pending t → t.packetHistory.ranges ≠ []

theorem inv_newReceivedPacketTracker : Inv newReceivedPacketTracker :=
  ⟨Sorted.nil, rfl, fun n hn => (covers_nil n hn).elim⟩

theorem ready_newReceivedPacketTracker : Ready newReceivedPacketTracker := by
  simp [Ready, Pending, newReceivedPacketTracker]

/-! ### Deciding when to acknowledge -/

/-- The tracker's history and lower bound, which the decision to acknowledge leaves alone. -/
def SameHistory (t t' : receivedPacketTracker) : Prop :=
  t'.packetHistory = t.packetHistory ∧ t'.ignoreBelow = t.ignoreBelow

theorem isMissing_post (h : receivedPacketTracker) (p : Nat) :
    Except.Post receivedPacketError.IsPanic (fun _ => True) (h.isMissing p) := by
  unfold isMissing
  split
  · trivial
  · split
    · trivial
    · split
      · trivial
      · split
        · split <;> trivial
        · trivial

theorem hasNewMissingPackets_post (h : receivedPacketTracker) :
    Except.Post receivedPacketError.IsPanic (fun _ => True) h.hasNewMissingPackets := by
  unfold hasNewMissingPackets
  split
  · trivial
  · split <;> trivial

theorem queueOrSetAlarm_sameHistory (h : receivedPacketTracker) (threshold : Nat) (alarm : Int) :
    SameHistory h (h.queueOrSetAlarm threshold alarm) := by
  unfold queueOrSetAlarm
  split_ifs <;> exact ⟨rfl, rfl⟩

theorem instigateAck_post (h : receivedPacketTracker) (packetNumber : Nat) (rcvTime minRTT : Int) :
    Except.Post receivedPacketError.IsPanic (SameHistory h)
      (h.instigateAck packetNumber rcvTime minRTT) := by
  unfold instigateAck
  dsimp only
  have hq : ∀ h' : receivedPacketTracker, SameHistory h h' →
      Except.Post receivedPacketError.IsPanic (SameHistory h) (do
        if ← h'.hasNewMissingPackets then
          if h'.ackAlarm.all (· > rcvTime + minRTT / 8) then
            pure { h' with ackAlarm := some (rcvTime + minRTT / 8) }
          else pure h'
        else pure h') := by
    intro h' hh'
    refine Except.Post.bind (hasNewMissingPackets_post h') fun b _ => ?_
    split
    · split
      · exact Except.Post.of_pure hh'
      · exact Except.Post.of_pure hh'
    · exact Except.Post.of_pure hh'
  split
  · exact hq _ (queueOrSetAlarm_sameHistory _ _ _)
  · exact hq _ (queueOrSetAlarm_sameHistory _ _ _)

theorem maybeQueueAck_post (h : receivedPacketTracker) (packetNumber : Nat) (rcvTime : Int)
    (shouldInstigateAck wasMissing : Bool) (minRTT : Int) :
    Except.Post receivedPacketError.IsPanic (SameHistory h)
      (h.maybeQueueAck packetNumber rcvTime shouldInstigateAck wasMissing minRTT) := by
  unfold maybeQueueAck
  dsimp only
  split
  · exact Except.Post.of_pure ⟨rfl, rfl⟩
  · have hcancel : ∀ h' : receivedPacketTracker, SameHistory h h' →
        SameHistory h (if h'.ackQueued = true then { h' with ackAlarm := none } else h') := by
      intro h' hh'
      split
      · exact hh'
      · exact hh'
    have hrest : ∀ Y : receivedPacketTracker, SameHistory h Y →
        Except.Post receivedPacketError.IsPanic (SameHistory h)
          (if (!Y.ackQueued && shouldInstigateAck) = true then do
              let h' ← Y.instigateAck packetNumber rcvTime minRTT
              pure (if h'.ackQueued = true then { h' with ackAlarm := none } else h')
            else pure (if Y.ackQueued = true then { Y with ackAlarm := none } else Y)) := by
      intro Y hY
      split
      · refine Except.Post.bind (Except.Post.mono (Q := SameHistory h) (instigateAck_post _ _ _ _)
          fun h' hh' => ⟨hh'.1.trans hY.1, hh'.2.trans hY.2⟩) fun h' hh' => ?_
        exact Except.Post.of_pure (hcancel h' hh')
      · exact Except.Post.of_pure (hcancel Y hY)
    exact hrest _ (by split <;> exact ⟨rfl, rfl⟩)

/-! ### Receiving a packet -/

/-- What `ReceivedPacket` does to the numbers a history covers: a packet below the bound changes
nothing; any other is added, and the history keeps at most `MaxTrackedReceivedAckRanges`
ranges. -/
structure Recorded (t t' : receivedPacketTracker) (packetNumber : Nat) : Prop where
  below : packetNumber < t.ignoreBelow → t' = t
  above : t.ignoreBelow ≤ packetNumber →
    (∀ n, Covers t'.packetHistory.ranges n ↔ Covers t.packetHistory.ranges n ∨ n = packetNumber) ∧
      t'.packetHistory.ranges.length ≤ MaxTrackedReceivedAckRanges

/-- A packet below the bound changes nothing; any other is recorded, which leaves a range to
report. -/
theorem ReceivedPacket_post {t : receivedPacketTracker} (hi : Inv t) (packetNumber : Nat)
    (rcvTime : Int) (shouldInstigateAck : Bool) (minRTT : Int) :
    Except.Post (fun e => e.IsPanic ∨ e = errTooManyOutstandingReceivedAckRanges)
      (fun t' => Inv t' ∧ t'.ignoreBelow = t.ignoreBelow ∧ Recorded t t' packetNumber)
      (t.ReceivedPacket packetNumber rcvTime shouldInstigateAck minRTT) := by
  unfold ReceivedPacket
  refine Except.Post.ite (fun hlt => Except.Post.of_pure ⟨hi, rfl, fun _ => rfl, fun hle => ?_⟩)
    fun hge => ?_
  · exact absurd hle (by omega)
  refine Except.Post.bind ((isMissing_post t packetNumber).imp (fun e he => .inl he)
    fun _ h => h) fun isMissing _ => ?_
  have key : ∀ t₁ : receivedPacketTracker, SameHistory t t₁ →
      Except.Post (fun e => e.IsPanic ∨ e = errTooManyOutstandingReceivedAckRanges)
        (fun t' => Inv t' ∧ t'.ignoreBelow = t.ignoreBelow ∧ Recorded t t' packetNumber)
        (do
          let packetHistory ← t₁.packetHistory.ReceivedPacket packetNumber
          { t₁ with packetHistory }.maybeQueueAck packetNumber rcvTime shouldInstigateAck
            isMissing minRTT) := by
    intro t₁ ⟨hh₁, hb₁⟩
    rw [hh₁]
    refine Except.Post.bind ((ReceivedPacket_spec hi.sorted packetNumber).imp
      (fun e he => .inr he.1) fun _ h => h) fun H ⟨hsH, hcovH, hlowH, hlenH⟩ => ?_
    refine (maybeQueueAck_post _ _ _ _ _ _).imp (fun e he => .inl he) ?_
    rintro t' ⟨hhist, hb⟩
    have hb' : t'.ignoreBelow = t.ignoreBelow := hb.trans hb₁
    refine ⟨⟨?_, ?_, fun n hn => ?_⟩, hb', fun hlt => absurd hlt hge, fun _ => ⟨?_, ?_⟩⟩
    · rw [hhist]
      exact hsH
    · rw [hhist, hb', hlowH, hi.lowest]
    · rw [hhist] at hn
      rcases (hcovH n).mp hn with hn | rfl
      · rw [hb']
        exact hi.above n hn
      · omega
    · rw [hhist]
      exact hcovH
    · rw [hhist]
      exact hlenH
  dsimp only
  split
  · exact key _ ⟨rfl, rfl⟩
  · exact key _ ⟨rfl, rfl⟩

theorem Inv.receivedPacket {t t' : receivedPacketTracker} (hi : Inv t) {packetNumber : Nat}
    {rcvTime : Int} {shouldInstigateAck : Bool} {minRTT : Int}
    (h : t.ReceivedPacket packetNumber rcvTime shouldInstigateAck minRTT = .ok t') : Inv t' :=
  ((ReceivedPacket_post hi packetNumber rcvTime shouldInstigateAck minRTT).of_eq_ok h).1

theorem Ready.receivedPacket_of_le {t t' : receivedPacketTracker} (hi : Inv t)
    {packetNumber : Nat} (hle : t.ignoreBelow ≤ packetNumber) {rcvTime : Int}
    {shouldInstigateAck : Bool} {minRTT : Int}
    (h : t.ReceivedPacket packetNumber rcvTime shouldInstigateAck minRTT = .ok t') : Ready t' := by
  obtain ⟨-, -, -, habove⟩ :=
    (ReceivedPacket_post hi packetNumber rcvTime shouldInstigateAck minRTT).of_eq_ok h
  intro _ hnil
  have hcov : Covers t'.packetHistory.ranges packetNumber := ((habove hle).1 _).mpr (.inr rfl)
  rw [hnil] at hcov
  exact covers_nil _ hcov

theorem Ready.receivedPacket {t t' : receivedPacketTracker} (hi : Inv t) (hr : Ready t)
    {packetNumber : Nat} {rcvTime : Int} {shouldInstigateAck : Bool} {minRTT : Int}
    (h : t.ReceivedPacket packetNumber rcvTime shouldInstigateAck minRTT = .ok t') : Ready t' := by
  by_cases hlt : packetNumber < t.ignoreBelow
  · obtain ⟨-, -, hbelow, -⟩ :=
      (ReceivedPacket_post hi packetNumber rcvTime shouldInstigateAck minRTT).of_eq_ok h
    rw [hbelow hlt]
    exact hr
  · exact Ready.receivedPacket_of_le hi (by omega) h

/-! ### Ignoring old packets -/

theorem Inv.ignoreBelow {t : receivedPacketTracker} (hi : Inv t) (p : Nat) :
    Inv (t.IgnoreBelow p) := by
  unfold IgnoreBelow
  split
  · exact hi
  · rename_i hlt
    have hlow : t.packetHistory.lowestInReceivedPacketNumbers < p := by rw [hi.lowest]; omega
    obtain ⟨hs, hmax, -, hcov⟩ := DeleteBelow_spec hi.sorted p
    refine ⟨hs, ?_, fun n hn => ((hcov hlow n).mp hn).2⟩
    dsimp only
    rw [hmax]
    omega

@[simp] theorem IgnoreBelow_ackQueued (t : receivedPacketTracker) (p : Nat) :
    (t.IgnoreBelow p).ackQueued = t.ackQueued := by
  unfold IgnoreBelow
  split <;> rfl

@[simp] theorem IgnoreBelow_ackAlarm (t : receivedPacketTracker) (p : Nat) :
    (t.IgnoreBelow p).ackAlarm = t.ackAlarm := by
  unfold IgnoreBelow
  split <;> rfl

theorem IgnoreBelow_ignoreBelow (t : receivedPacketTracker) (p : Nat) :
    (t.IgnoreBelow p).ignoreBelow = max t.ignoreBelow p := by
  unfold IgnoreBelow
  split
  · omega
  · dsimp only
    omega

theorem IgnoreBelow_eq_self_or (t : receivedPacketTracker) (p : Nat) :
    t.IgnoreBelow p = t ∨ t.ignoreBelow < (t.IgnoreBelow p).ignoreBelow := by
  rw [IgnoreBelow_ignoreBelow]
  unfold IgnoreBelow
  split
  · exact .inl rfl
  · exact .inr (by omega)

/-! ### Generating an ACK frame -/

theorem GetAckFrame_some {t : receivedPacketTracker} {now : Int} {f : AckFrame}
    (h : (t.GetAckFrame now).1 = some f) :
    Pending t ∧ f.AckRanges = t.packetHistory.GetAckRanges := by
  unfold GetAckFrame at h
  split at h
  · cases h
  · rename_i hpend
    cases h
    refine ⟨?_, rfl⟩
    unfold Pending
    cases hq : t.ackQueued
    · cases ha : t.ackAlarm with
      | none => simp [hq, ha] at hpend
      | some a => exact .inr rfl
    · exact .inl rfl

theorem Inv.getAckFrame {t : receivedPacketTracker} (hi : Inv t) (now : Int) :
    Inv (t.GetAckFrame now).2 := by
  unfold GetAckFrame
  split
  · exact hi
  · exact ⟨hi.sorted, hi.lowest, hi.above⟩

theorem Ready.getAckFrame {t : receivedPacketTracker} (hr : Ready t) (now : Int) :
    Ready (t.GetAckFrame now).2 := by
  unfold GetAckFrame
  split
  · exact hr
  · simp [Ready, Pending]

theorem GetAckFrame_validateAckRanges {t : receivedPacketTracker} (hi : Inv t) (hr : Ready t)
    {now : Int} {f : AckFrame} (h : (t.GetAckFrame now).1 = some f) :
    f.AckRanges ≠ [] ∧ f.validateAckRanges = true := by
  obtain ⟨hpend, hranges⟩ := GetAckFrame_some h
  have hne := hr hpend
  have hvalid : f.validateAckRanges = true := by
    have : f = ⟨t.packetHistory.GetAckRanges, f.DelayTime⟩ := by rw [← hranges]
    rw [this, validateAckRanges_GetAckRanges hi.sorted]
    exact hne
  refine ⟨fun hnil => ?_, hvalid⟩
  simp [AckFrame.validateAckRanges, hnil] at hvalid

@[simp] theorem GetAckFrame_packetHistory (t : receivedPacketTracker) (now : Int) :
    (t.GetAckFrame now).2.packetHistory = t.packetHistory := by
  unfold GetAckFrame
  split <;> rfl

@[simp] theorem GetAckFrame_ignoreBelow (t : receivedPacketTracker) (now : Int) :
    (t.GetAckFrame now).2.ignoreBelow = t.ignoreBelow := by
  unfold GetAckFrame
  split <;> rfl

/-! ### Whole runs

The packet numbers passed to `ReceivedPacket` so far are a ghost of the run, which indexes
`RunInv`. -/

/-- The calls a tracker takes. -/
inductive Event where
  | receivedPacket (packetNumber : Nat) (rcvTime : Int) (shouldInstigateAck : Bool) (minRTT : Int)
  | ignoreBelow (p : Nat)
  | getAckFrame (now : Int)
  deriving DecidableEq, Repr

/-- One call; a call that returns an error ends the run. -/
def step (t : receivedPacketTracker) : Event → Option receivedPacketTracker
  | .receivedPacket packetNumber rcvTime shouldInstigateAck minRTT =>
    (t.ReceivedPacket packetNumber rcvTime shouldInstigateAck minRTT).toOption
  | .ignoreBelow p => some (t.IgnoreBelow p)
  | .getAckFrame now => some (t.GetAckFrame now).2

/-- The packet number that a call passes to `ReceivedPacket`. -/
def Event.received : Event → List Nat
  | .receivedPacket packetNumber _ _ _ => [packetNumber]
  | _ => []

/-- What a tracker keeps over a run, given the packet numbers passed to `ReceivedPacket` so
far. -/
structure RunInv (received : List Nat) (t : receivedPacketTracker) : Prop where
  inv : Inv t
  covers : ∀ n, Covers t.packetHistory.ranges n ↔ n ∈ received ∧ t.ignoreBelow ≤ n
  length_le : t.packetHistory.ranges.length ≤ MaxTrackedReceivedAckRanges

theorem RunInv.init : RunInv [] newReceivedPacketTracker where
  inv := inv_newReceivedPacketTracker
  covers n := by simp [newReceivedPacketTracker, newReceivedPacketHistory]
  length_le := by simp [newReceivedPacketTracker, newReceivedPacketHistory]

theorem RunInv.receivedPacket {R : List Nat} {t t' : receivedPacketTracker} (hi : RunInv R t)
    {packetNumber : Nat} {rcvTime : Int} {shouldInstigateAck : Bool} {minRTT : Int}
    (h : t.ReceivedPacket packetNumber rcvTime shouldInstigateAck minRTT = .ok t') :
    RunInv (R ++ [packetNumber]) t' := by
  obtain ⟨hinv', hb, hrec⟩ :=
    (ReceivedPacket_post hi.inv packetNumber rcvTime shouldInstigateAck minRTT).of_eq_ok h
  by_cases hlt : packetNumber < t.ignoreBelow
  · rw [hrec.below hlt]
    refine ⟨hi.inv, fun n => ?_, hi.length_le⟩
    rw [hi.covers n, List.mem_append, List.mem_singleton]
    constructor
    · rintro ⟨hn, hle⟩
      exact ⟨.inl hn, hle⟩
    · rintro ⟨hn | rfl, hle⟩
      · exact ⟨hn, hle⟩
      · omega
  · obtain ⟨hcov, hlen⟩ := hrec.above (by omega)
    refine ⟨hinv', fun n => ?_, hlen⟩
    rw [hcov n, hi.covers n, hb, List.mem_append, List.mem_singleton]
    constructor
    · rintro (⟨hn, hle⟩ | rfl)
      · exact ⟨.inl hn, hle⟩
      · exact ⟨.inr rfl, by omega⟩
    · rintro ⟨hn | rfl, hle⟩
      · exact .inl ⟨hn, hle⟩
      · exact .inr rfl

/-- After `IgnoreBelow p` the history covers what it covered at or above `p`, also when the
bound does not move. -/
theorem IgnoreBelow_covers {t : receivedPacketTracker} (hi : Inv t) (p n : Nat) :
    Covers (t.IgnoreBelow p).packetHistory.ranges n ↔ Covers t.packetHistory.ranges n ∧ p ≤ n := by
  unfold IgnoreBelow
  split
  · rename_i hle
    exact ⟨fun hn => ⟨hn, le_trans hle (hi.above n hn)⟩, And.left⟩
  · rename_i hlt
    have hlow : t.packetHistory.lowestInReceivedPacketNumbers < p := by rw [hi.lowest]; omega
    exact (DeleteBelow_spec hi.sorted p).2.2.2 hlow n

theorem IgnoreBelow_length_le (t : receivedPacketTracker) (p : Nat) :
    (t.IgnoreBelow p).packetHistory.ranges.length ≤ t.packetHistory.ranges.length := by
  unfold IgnoreBelow
  split
  · exact le_rfl
  · exact DeleteBelow_length_le _ p

theorem RunInv.ignoreBelow {R : List Nat} {t : receivedPacketTracker} (hi : RunInv R t)
    (p : Nat) : RunInv R (t.IgnoreBelow p) := by
  refine ⟨hi.inv.ignoreBelow p, fun n => ?_, (IgnoreBelow_length_le t p).trans hi.length_le⟩
  rw [IgnoreBelow_covers hi.inv, hi.covers n, IgnoreBelow_ignoreBelow, max_le_iff, and_assoc]

theorem RunInv.getAckFrame {R : List Nat} {t : receivedPacketTracker} (hi : RunInv R t)
    (now : Int) : RunInv R (t.GetAckFrame now).2 := by
  refine ⟨hi.inv.getAckFrame now, fun n => ?_, ?_⟩
  · simpa using hi.covers n
  · simpa using hi.length_le

theorem RunInv.of_step {R : List Nat} {t t' : receivedPacketTracker} {e : Event}
    (hi : RunInv R t) (h : receivedPacketTracker.step t e = some t') :
    RunInv (R ++ e.received) t' := by
  cases e with
  | receivedPacket packetNumber rcvTime shouldInstigateAck minRTT =>
    exact hi.receivedPacket (Except.toOption_eq_some_iff.mp h)
  | ignoreBelow p =>
    rw [← Option.some.inj h]
    simpa [Event.received] using hi.ignoreBelow p
  | getAckFrame now =>
    rw [← Option.some.inj h]
    simpa [Event.received] using hi.getAckFrame now

theorem RunInv.of_run {es : List Event} {t : receivedPacketTracker}
    (h : run step (fun _ _ => True) newReceivedPacketTracker es = some t) :
    RunInv (es.flatMap Event.received) t := by
  have h0 : RunInv (([] : List Event).flatMap Event.received) newReceivedPacketTracker :=
    RunInv.init
  have hrun := run_invariant (P := fun past t => RunInv (past.flatMap Event.received) t)
    (fun _ _ _ _ hs _ hst => by simpa using hs.of_step hst) h0 h
  simpa using hrun

/-- Over every run of calls that return no error, the history is sorted with a missing packet
number between neighbouring ranges, holds exactly the packet numbers passed to `ReceivedPacket`
at or above the bound, and has at most `MaxTrackedReceivedAckRanges` ranges; so the ranges of a
non-empty history pass `validateAckRanges`. -/
theorem history_exact_of_run {es : List Event} {t : receivedPacketTracker}
    (h : run step (fun _ _ => True) newReceivedPacketTracker es = some t) :
    Sorted t.packetHistory.ranges ∧
      (∀ n, Covers t.packetHistory.ranges n ↔ n ∈ es.flatMap Event.received ∧ t.ignoreBelow ≤ n) ∧
      t.packetHistory.ranges.length ≤ MaxTrackedReceivedAckRanges ∧
      (t.packetHistory.ranges ≠ [] → ∀ DelayTime : Int,
        AckFrame.validateAckRanges ⟨t.packetHistory.GetAckRanges, DelayTime⟩ = true) := by
  have hi := RunInv.of_run h
  refine ⟨hi.inv.sorted, hi.covers, hi.length_le, fun hne DelayTime => ?_⟩
  exact (validateAckRanges_GetAckRanges hi.inv.sorted DelayTime).mpr hne

/-- Packets 5, 3, 4 and 9 arrive out of order, everything below 4 is then ignored, and an ACK
is sent. -/
theorem history_after_reordering_and_ignoring :
    ∃ t, run step (fun _ _ => True) newReceivedPacketTracker
        [.receivedPacket 5 0 true 0, .receivedPacket 3 0 true 0, .receivedPacket 4 0 true 0,
          .receivedPacket 9 0 true 0, .ignoreBelow 4, .getAckFrame 0] = some t ∧
      t.packetHistory.ranges = [⟨4, 5⟩, ⟨9, 9⟩] ∧
      Sorted t.packetHistory.ranges ∧
      (∀ n, Covers t.packetHistory.ranges n ↔ n ∈ [5, 3, 4, 9] ∧ t.ignoreBelow ≤ n) ∧
      t.packetHistory.ranges.length ≤ MaxTrackedReceivedAckRanges ∧
      (t.packetHistory.ranges ≠ [] → ∀ DelayTime : Int,
        AckFrame.validateAckRanges ⟨t.packetHistory.GetAckRanges, DelayTime⟩ = true) := by
  have hrun : run step (fun _ _ => True) newReceivedPacketTracker
      [.receivedPacket 5 0 true 0, .receivedPacket 3 0 true 0, .receivedPacket 4 0 true 0,
        .receivedPacket 9 0 true 0, .ignoreBelow 4, .getAckFrame 0] = some _ := rfl
  exact ⟨_, hrun, rfl, history_exact_of_run hrun⟩

end receivedPacketTracker

structure receivedPacketHandler where
  initialPackets : receivedPacketTracker
  handshakePackets : receivedPacketTracker
  oneRTTPackets : receivedPacketTracker
  deriving DecidableEq, Repr

namespace receivedPacketHandler
open receivedPacketTracker

def NewReceivedPacketHandler : receivedPacketHandler :=
  ⟨newReceivedPacketTracker, newReceivedPacketTracker, newReceivedPacketTracker⟩

def ReceivedPacket (h : receivedPacketHandler) (pn : Nat) (encLevel : EncryptionLevel)
    (rcvTime : Int) (shouldInstigateAck : Bool) (minRTT : Int) :
    Except receivedPacketError receivedPacketHandler :=
  match encLevel with
  | .EncryptionInitial => (fun t => { h with initialPackets := t }) <$>
      h.initialPackets.ReceivedPacket pn rcvTime shouldInstigateAck minRTT
  | .EncryptionHandshake => (fun t => { h with handshakePackets := t }) <$>
      h.handshakePackets.ReceivedPacket pn rcvTime shouldInstigateAck minRTT
  | .Encryption1RTT => (fun t => { h with oneRTTPackets := t }) <$>
      h.oneRTTPackets.ReceivedPacket pn rcvTime shouldInstigateAck minRTT
  | .EncryptionUnspecified => throw (.unknownEncryptionLevel encLevel)

/-- only to be used with 1-RTT packets -/
def IgnoreBelow (h : receivedPacketHandler) (pn : Nat) : receivedPacketHandler :=
  { h with oneRTTPackets := h.oneRTTPackets.IgnoreBelow pn }

/-- `utils.MinNonZeroTime` -/
def MinNonZeroTime : Option Int → Option Int → Option Int
  | none, b => b
  | a, none => a
  | some a, some b => some (min a b)

def GetAlarmTimeout (h : receivedPacketHandler) : Option Int :=
  MinNonZeroTime (MinNonZeroTime h.initialPackets.GetAlarmTimeout h.handshakePackets.GetAlarmTimeout)
    h.oneRTTPackets.GetAlarmTimeout

def GetAckFrame (h : receivedPacketHandler) (encLevel : EncryptionLevel) (now : Int) :
    Option AckFrame × receivedPacketHandler :=
  match encLevel with
  | .EncryptionInitial =>
    let (ack, t) := h.initialPackets.GetAckFrame now
    (ack, { h with initialPackets := t })
  | .EncryptionHandshake =>
    let (ack, t) := h.handshakePackets.GetAckFrame now
    (ack, { h with handshakePackets := t })
  | .Encryption1RTT =>
    let (ack, t) := h.oneRTTPackets.GetAckFrame now
    (ack, { h with oneRTTPackets := t })
  | .EncryptionUnspecified => (none, h)

/-! ### The trackers of a handler -/

def trackers (h : receivedPacketHandler) : List receivedPacketTracker :=
  [h.initialPackets, h.handshakePackets, h.oneRTTPackets]

/-- Every tracker keeps its invariant and has a range for a pending ACK. -/
def Ready (h : receivedPacketHandler) : Prop :=
  ∀ t ∈ h.trackers, t.Inv ∧ t.Ready

theorem ready_NewReceivedPacketHandler : Ready NewReceivedPacketHandler := by
  simp only [Ready, trackers, NewReceivedPacketHandler, List.mem_cons, List.not_mem_nil, or_false]
  rintro t (rfl | rfl | rfl) <;>
    exact ⟨inv_newReceivedPacketTracker, ready_newReceivedPacketTracker⟩

theorem Ready.of_trackers {h : receivedPacketHandler} (hi : h.initialPackets.Inv ∧ h.initialPackets.Ready)
    (hh : h.handshakePackets.Inv ∧ h.handshakePackets.Ready)
    (ho : h.oneRTTPackets.Inv ∧ h.oneRTTPackets.Ready) : Ready h := by
  simp only [Ready, trackers, List.mem_cons, List.not_mem_nil, or_false]
  rintro t (rfl | rfl | rfl) <;> assumption

theorem Ready.initial {h : receivedPacketHandler} (hr : Ready h) :
    h.initialPackets.Inv ∧ h.initialPackets.Ready :=
  hr _ (by simp [trackers])

theorem Ready.handshake {h : receivedPacketHandler} (hr : Ready h) :
    h.handshakePackets.Inv ∧ h.handshakePackets.Ready :=
  hr _ (by simp [trackers])

theorem Ready.oneRTT {h : receivedPacketHandler} (hr : Ready h) :
    h.oneRTTPackets.Inv ∧ h.oneRTTPackets.Ready :=
  hr _ (by simp [trackers])

theorem Ready.tracker_receivedPacket {t t' : receivedPacketTracker} (ht : t.Inv ∧ t.Ready)
    {pn : Nat} {rcvTime : Int} {shouldInstigateAck : Bool} {minRTT : Int}
    (h : t.ReceivedPacket pn rcvTime shouldInstigateAck minRTT = .ok t') : t'.Inv ∧ t'.Ready :=
  ⟨ht.1.receivedPacket h, receivedPacketTracker.Ready.receivedPacket ht.1 ht.2 h⟩

theorem Ready.receivedPacket {h h' : receivedPacketHandler} (hr : Ready h) {pn : Nat}
    {encLevel : EncryptionLevel} {rcvTime : Int} {shouldInstigateAck : Bool} {minRTT : Int}
    (hrp : h.ReceivedPacket pn encLevel rcvTime shouldInstigateAck minRTT = .ok h') : Ready h' := by
  cases encLevel with
  | EncryptionUnspecified => cases hrp
  | EncryptionInitial =>
    obtain ⟨t, ht, rfl⟩ := Except.map_eq_ok.mp hrp
    exact Ready.of_trackers (Ready.tracker_receivedPacket hr.initial ht) hr.handshake hr.oneRTT
  | EncryptionHandshake =>
    obtain ⟨t, ht, rfl⟩ := Except.map_eq_ok.mp hrp
    exact Ready.of_trackers hr.initial (Ready.tracker_receivedPacket hr.handshake ht) hr.oneRTT
  | Encryption1RTT =>
    obtain ⟨t, ht, rfl⟩ := Except.map_eq_ok.mp hrp
    exact Ready.of_trackers hr.initial hr.handshake (Ready.tracker_receivedPacket hr.oneRTT ht)

theorem Ready.getAckFrame {h : receivedPacketHandler} (hr : Ready h) (encLevel : EncryptionLevel)
    (now : Int) : Ready (h.GetAckFrame encLevel now).2 := by
  have step : ∀ t : receivedPacketTracker, t.Inv ∧ t.Ready →
      (t.GetAckFrame now).2.Inv ∧ (t.GetAckFrame now).2.Ready :=
    fun t ht => ⟨ht.1.getAckFrame now, ht.2.getAckFrame now⟩
  cases encLevel with
  | EncryptionUnspecified => exact hr
  | EncryptionInitial => exact Ready.of_trackers (step _ hr.initial) hr.handshake hr.oneRTT
  | EncryptionHandshake => exact Ready.of_trackers hr.initial (step _ hr.handshake) hr.oneRTT
  | Encryption1RTT => exact Ready.of_trackers hr.initial hr.handshake (step _ hr.oneRTT)

theorem Ready.GetAckFrame_valid {h : receivedPacketHandler} (hr : Ready h)
    {encLevel : EncryptionLevel} {now : Int} {f : AckFrame}
    (hf : (h.GetAckFrame encLevel now).1 = some f) :
    f.AckRanges ≠ [] ∧ f.validateAckRanges = true := by
  cases encLevel with
  | EncryptionUnspecified => cases hf
  | EncryptionInitial => exact GetAckFrame_validateAckRanges hr.initial.1 hr.initial.2 hf
  | EncryptionHandshake => exact GetAckFrame_validateAckRanges hr.handshake.1 hr.handshake.2 hf
  | Encryption1RTT => exact GetAckFrame_validateAckRanges hr.oneRTT.1 hr.oneRTT.2 hf

end receivedPacketHandler

end QuicGo.Ackhandler
