import QuicGo.Protocol.Types
import QuicGo.Lib.Except

/-! The flow controllers of `internal/flowcontrol`: one per stream and one for the connection, both
built on `baseFlowController`. A stream's controller forwards every increase of its highest received
offset and every byte read to the connection's controller, which is shared by all streams; the model
passes the connection's controller in and out of the stream's operations. -/
namespace QuicGo.Flowcontrol
open QuicGo.Protocol QuicGo.Lib

/-- The fields of `baseFlowController`; the RTT statistics and the logger are left out. -/
structure baseFlowController where
  bytesSent : UInt64
  sendWindow : UInt64
  lastBlockedAt : UInt64
  bytesRead : UInt64
  highestReceived : UInt64
  receiveWindow : UInt64
  receiveWindowSize : UInt64
  maxReceiveWindowSize : UInt64
  epochStartTime : Int
  epochStartOffset : UInt64
  deriving DecidableEq, Repr

namespace baseFlowController

/-- The controller that `NewConnectionFlowController` and `NewStreamFlowController` build
around. -/
def new (receiveWindow maxReceiveWindow initialSendWindow : UInt64) : baseFlowController where
  bytesSent := 0
  sendWindow := initialSendWindow
  lastBlockedAt := 0
  bytesRead := 0
  highestReceived := 0
  receiveWindow := receiveWindow
  receiveWindowSize := receiveWindow
  maxReceiveWindowSize := maxReceiveWindow
  epochStartTime := 0
  epochStartOffset := 0

def AddBytesSent (c : baseFlowController) (n : UInt64) : baseFlowController :=
  { c with bytesSent := c.bytesSent + n }

/-- `UpdateSendWindow` should be called after receiving a window update. -/
def UpdateSendWindow (c : baseFlowController) (offset : UInt64) : baseFlowController :=
  if offset > c.sendWindow then { c with sendWindow := offset } else c

def sendWindowSize (c : baseFlowController) : UInt64 :=
  -- this only happens during connection establishment
  if c.bytesSent > c.sendWindow then 0 else c.sendWindow - c.bytesSent

/-- `IsNewlyBlocked` says if it is newly blocked by flow control, and at which offset. -/
def IsNewlyBlocked (c : baseFlowController) : (Bool × UInt64) × baseFlowController :=
  if c.sendWindowSize ≠ 0 ∨ c.sendWindow = c.lastBlockedAt then ((false, 0), c)
  else ((true, c.sendWindow), { c with lastBlockedAt := c.sendWindow })

def startNewAutoTuningEpoch (c : baseFlowController) (now : Int) : baseFlowController :=
  { c with epochStartTime := now, epochStartOffset := c.bytesRead }

def AddBytesRead (c : baseFlowController) (n : UInt64) (now : Int) : baseFlowController :=
  -- pretend we sent a window update when reading the first byte
  let c := if c.bytesRead = 0 then c.startNewAutoTuningEpoch now else c
  { c with bytesRead := c.bytesRead + n }

def checkFlowControlViolation (c : baseFlowController) : Bool :=
  c.highestReceived > c.receiveWindow

/-- `hasWindowUpdate`: more than `WindowUpdateThreshold`, a quarter, of the window was read. The
source compares with `float64(receiveWindowSize) * (1 - WindowUpdateThreshold)` truncated to a
byte count, which is `receiveWindowSize * 3 / 4` for window sizes below `2^51`, where the product
is exact; above that the rounding of `float64` may differ. -/
def hasWindowUpdate (c : baseFlowController) : Bool :=
  let bytesRemaining := c.receiveWindow - c.bytesRead
  -- update the window when more than the threshold was consumed
  bytesRemaining.toNat ≤ c.receiveWindowSize.toNat * 3 / 4

/-- `maybeAdjustWindowSize` doubles the window size, up to its maximum, when more than half of
the window was read in less than four round trips per window. `rtt` is the smoothed RTT of the
RTT statistics and `now` the time of the call. The time bound is the exact quotient rounded down;
the source computes it in `float64`, whose rounding may move it by one unit where the quotient is
close to a whole number. The flow control theorems hold for either outcome of the test. -/
def maybeAdjustWindowSize (c : baseFlowController) (rtt now : Int) : baseFlowController :=
  let bytesReadInEpoch := c.bytesRead - c.epochStartOffset
  -- don't do anything if less than half the window has been consumed
  if bytesReadInEpoch ≤ c.receiveWindowSize / 2 then c
  else if rtt = 0 then c
  else
    let c := if now - c.epochStartTime <
        4 * (bytesReadInEpoch.toNat : Int) * rtt / (c.receiveWindowSize.toNat : Int) then
        -- the window is consumed too fast, try to increase the window size
        { c with receiveWindowSize := min (2 * c.receiveWindowSize) c.maxReceiveWindowSize }
      else c
    c.startNewAutoTuningEpoch now

/-- `getWindowUpdate` moves the receive window when an update is due, and returns the new offset,
or 0. -/
def getWindowUpdate (c : baseFlowController) (rtt now : Int) : UInt64 × baseFlowController :=
  if !c.hasWindowUpdate then (0, c)
  else
    let c := c.maybeAdjustWindowSize rtt now
    let c := { c with receiveWindow := c.bytesRead + c.receiveWindowSize }
    (c.receiveWindow, c)

theorem sendWindowSize_toNat {c : baseFlowController} (h : c.bytesSent ≤ c.sendWindow) :
    c.sendWindowSize.toNat = c.sendWindow.toNat - c.bytesSent.toNat := by
  have hle : c.bytesSent.toNat ≤ c.sendWindow.toNat := UInt64.le_iff_toNat_le.mp h
  unfold sendWindowSize
  rw [if_neg (UInt64.not_lt.mpr h), UInt64.toNat_sub_of_le _ _ h]

theorem AddBytesSent_within {c : baseFlowController} {n : UInt64} (h : c.bytesSent ≤ c.sendWindow)
    (hn : n ≤ c.sendWindowSize) :
    (c.AddBytesSent n).bytesSent.toNat = c.bytesSent.toNat + n.toNat ∧
      (c.AddBytesSent n).bytesSent ≤ c.sendWindow := by
  have hsize := sendWindowSize_toNat h
  have hle : c.bytesSent.toNat ≤ c.sendWindow.toNat := UInt64.le_iff_toNat_le.mp h
  have hnle : n.toNat ≤ c.sendWindowSize.toNat := UInt64.le_iff_toNat_le.mp hn
  have hw : c.sendWindow.toNat < 2 ^ 64 := c.sendWindow.toNat_lt
  have hsum : (c.bytesSent + n).toNat = c.bytesSent.toNat + n.toNat := by
    rw [UInt64.toNat_add]
    exact Nat.mod_eq_of_lt (by omega)
  refine ⟨hsum, ?_⟩
  rw [UInt64.le_iff_toNat_le]
  change (c.bytesSent + n).toNat ≤ _
  omega

theorem le_UpdateSendWindow (c : baseFlowController) (offset : UInt64) :
    c.sendWindow ≤ (c.UpdateSendWindow offset).sendWindow := by
  unfold UpdateSendWindow
  split
  · exact UInt64.le_of_lt ‹_›
  · exact UInt64.le_refl _

@[simp] theorem UpdateSendWindow_bytesSent (c : baseFlowController) (offset : UInt64) :
    (c.UpdateSendWindow offset).bytesSent = c.bytesSent := by
  unfold UpdateSendWindow; split <;> rfl

@[simp] theorem IsNewlyBlocked_bytesSent (c : baseFlowController) :
    c.IsNewlyBlocked.2.bytesSent = c.bytesSent := by
  unfold IsNewlyBlocked; split <;> rfl

@[simp] theorem IsNewlyBlocked_sendWindow (c : baseFlowController) :
    c.IsNewlyBlocked.2.sendWindow = c.sendWindow := by
  unfold IsNewlyBlocked; split <;> rfl

@[simp] theorem AddBytesRead_bytesRead (c : baseFlowController) (n : UInt64) (now : Int) :
    (c.AddBytesRead n now).bytesRead = c.bytesRead + n := by
  unfold AddBytesRead; split <;> rfl

@[simp] theorem AddBytesRead_highestReceived (c : baseFlowController) (n : UInt64) (now : Int) :
    (c.AddBytesRead n now).highestReceived = c.highestReceived := by
  unfold AddBytesRead; split <;> rfl

end baseFlowController

/-- The errors of the flow controllers; each names the `qerr` code and the values of its
message. -/
inductive flowControlError where
  /-- `StreamDataAfterTermination`: "Received inconsistent final offset for stream %d (old: %#x,
  new: %#x bytes)" -/
  | inconsistentFinalOffset (streamID : Nat) (old new : UInt64)
  /-- `StreamDataAfterTermination`: "Received offset %#x for stream %d. Final offset was already
  received at %#x" -/
  | offsetAfterFinalOffset (offset : UInt64) (streamID : Nat) (finalOffset : UInt64)
  /-- `StreamDataAfterTermination`: "Received final offset %#x for stream %d, but already
  received offset %#x before" -/
  | finalOffsetBelowReceived (offset : UInt64) (streamID : Nat) (highestReceived : UInt64)
  /-- `FlowControlReceivedTooMuchData`: "Received %#x bytes on stream %d, allowed %#x bytes" -/
  | streamReceivedTooMuchData (offset : UInt64) (streamID : Nat) (receiveWindow : UInt64)
  /-- `FlowControlReceivedTooMuchData`: "Received %d bytes for the connection, allowed %d
  bytes" -/
  | connectionReceivedTooMuchData (highestReceived receiveWindow : UInt64)
  deriving DecidableEq, Repr

structure connectionFlowController extends base : baseFlowController
  deriving DecidableEq, Repr

namespace connectionFlowController

/-- `NewConnectionFlowController`: the send window is 0 until the peer's transport parameters
arrive. -/
def NewConnectionFlowController (receiveWindow maxReceiveWindow : UInt64) :
    connectionFlowController :=
  ⟨baseFlowController.new receiveWindow maxReceiveWindow 0⟩

/-- `IncrementHighestReceived` adds an increment to the highest received offset. -/
def IncrementHighestReceived (c : connectionFlowController) (increment : UInt64) :
    Except flowControlError connectionFlowController :=
  let c := { c with highestReceived := c.highestReceived + increment }
  if c.checkFlowControlViolation then
    throw (.connectionReceivedTooMuchData c.highestReceived c.receiveWindow)
  else pure c

def AddBytesRead (c : connectionFlowController) (n : UInt64) (now : Int) :
    connectionFlowController :=
  ⟨c.base.AddBytesRead n now⟩

@[simp] theorem AddBytesRead_bytesRead (c : connectionFlowController) (n : UInt64) (now : Int) :
    (c.AddBytesRead n now).bytesRead = c.bytesRead + n :=
  c.base.AddBytesRead_bytesRead n now

@[simp] theorem AddBytesRead_highestReceived (c : connectionFlowController) (n : UInt64)
    (now : Int) : (c.AddBytesRead n now).highestReceived = c.highestReceived :=
  c.base.AddBytesRead_highestReceived n now

def SendWindowSize (c : connectionFlowController) : UInt64 :=
  c.sendWindowSize

def AddBytesSent (c : connectionFlowController) (n : UInt64) : connectionFlowController :=
  ⟨c.base.AddBytesSent n⟩

def UpdateSendWindow (c : connectionFlowController) (offset : UInt64) :
    connectionFlowController :=
  ⟨c.base.UpdateSendWindow offset⟩

def GetWindowUpdate (c : connectionFlowController) (rtt now : Int) :
    UInt64 × connectionFlowController :=
  let (offset, base) := c.base.getWindowUpdate rtt now
  (offset, ⟨base⟩)

/-- `EnsureMinimumWindowSize` raises the window size to `inc`, up to its maximum, when a
stream's window grew. -/
def EnsureMinimumWindowSize (c : connectionFlowController) (inc : UInt64) (now : Int) :
    connectionFlowController :=
  if inc > c.receiveWindowSize then
    ⟨{ c.base with receiveWindowSize := min inc c.maxReceiveWindowSize }.startNewAutoTuningEpoch
      now⟩
  else c

theorem IncrementHighestReceived_ok {c c' : connectionFlowController} {increment : UInt64}
    (h : c.IncrementHighestReceived increment = .ok c') :
    c'.highestReceived = c.highestReceived + increment ∧ c'.receiveWindow = c.receiveWindow ∧
      c'.highestReceived ≤ c.receiveWindow := by
  unfold IncrementHighestReceived at h
  dsimp only at h
  split at h
  · simp at h
  · rename_i hviol
    simp only [pure, Except.pure, Except.ok.injEq] at h
    subst h
    refine ⟨rfl, rfl, ?_⟩
    simpa [baseFlowController.checkFlowControlViolation] using hviol

end connectionFlowController

structure streamFlowController extends base : baseFlowController where
  streamID : Nat
  receivedFinalOffset : Bool
  deriving DecidableEq, Repr

namespace streamFlowController
open connectionFlowController

def NewStreamFlowController (streamID : Nat)
    (receiveWindow maxReceiveWindow initialSendWindow : UInt64) : streamFlowController :=
  { baseFlowController.new receiveWindow maxReceiveWindow initialSendWindow with
    streamID, receivedFinalOffset := false }

/-- `UpdateHighestReceived` updates the highest received offset, if the offset is higher, and
forwards the increase to the connection. -/
def UpdateHighestReceived (c : streamFlowController) (connection : connectionFlowController)
    (offset : UInt64) (final : Bool) :
    Except flowControlError (streamFlowController × connectionFlowController) :=
  -- if the final offset for this stream is already known, check for consistency
  if c.receivedFinalOffset ∧ final ∧ offset ≠ c.highestReceived then
    throw (.inconsistentFinalOffset c.streamID c.highestReceived offset)
  else if c.receivedFinalOffset ∧ offset > c.highestReceived then
    throw (.offsetAfterFinalOffset offset c.streamID c.highestReceived)
  else
    let c := if final then { c with receivedFinalOffset := true } else c
    if offset = c.highestReceived then pure (c, connection)
    -- a higher offset was received before, which can happen due to reordering
    else if offset ≤ c.highestReceived then
      if final then throw (.finalOffsetBelowReceived offset c.streamID c.highestReceived)
      else pure (c, connection)
    else
      let increment := offset - c.highestReceived
      let c := { c with highestReceived := offset }
      if c.checkFlowControlViolation then
        throw (.streamReceivedTooMuchData offset c.streamID c.receiveWindow)
      else do
        let connection ← connection.IncrementHighestReceived increment
        pure (c, connection)

def AddBytesRead (c : streamFlowController) (connection : connectionFlowController) (n : UInt64)
    (now : Int) : streamFlowController × connectionFlowController :=
  ({ c with base := c.base.AddBytesRead n now },
    connection.AddBytesRead n now)

/-- `AddBytesSent` counts the bytes for the stream and for the connection. -/
def AddBytesSent (c : streamFlowController) (connection : connectionFlowController) (n : UInt64) :
    streamFlowController × connectionFlowController :=
  ({ c with base := c.base.AddBytesSent n }, connection.AddBytesSent n)

/-- A stream may send what both its own window and the connection's leave. -/
def SendWindowSize (c : streamFlowController) (connection : connectionFlowController) : UInt64 :=
  min c.base.sendWindowSize connection.SendWindowSize

def UpdateSendWindow (c : streamFlowController) (offset : UInt64) : streamFlowController :=
  { c with base := c.base.UpdateSendWindow offset }

def IsNewlyBlocked (c : streamFlowController) : (Bool × UInt64) × streamFlowController :=
  let (blocked, base) := c.base.IsNewlyBlocked
  (blocked, { c with base })

@[simp] theorem IsNewlyBlocked_bytesSent (c : streamFlowController) :
    c.IsNewlyBlocked.2.bytesSent = c.bytesSent :=
  c.base.IsNewlyBlocked_bytesSent

@[simp] theorem IsNewlyBlocked_sendWindow (c : streamFlowController) :
    c.IsNewlyBlocked.2.sendWindow = c.sendWindow :=
  c.base.IsNewlyBlocked_sendWindow

/-- `Abandon` returns the unread bytes to the connection's flow control window. -/
def Abandon (c : streamFlowController) (connection : connectionFlowController) (now : Int) :
    connectionFlowController :=
  let unread := c.highestReceived - c.bytesRead
  if unread > 0 then connection.AddBytesRead unread now else connection

/-- `GetWindowUpdate` of a stream. When auto-tuning enlarged the window, the connection's window
size is raised to `ConnectionFlowControlMultiplier`, 1.5, times it. The source computes the
product in `float64` and truncates it, which is `receiveWindowSize * 3 / 2` for window sizes below
`2^51`, where the product is exact; above that the rounding may differ. -/
def GetWindowUpdate (c : streamFlowController) (connection : connectionFlowController)
    (rtt now : Int) : UInt64 × streamFlowController × connectionFlowController :=
  -- once the final offset is known, the peer won't need any additional flow control credit
  if c.receivedFinalOffset then (0, c, connection)
  else
    let oldWindowSize := c.receiveWindowSize
    let (offset, base) := c.base.getWindowUpdate rtt now
    let c := { c with base }
    let connection := if c.receiveWindowSize > oldWindowSize then
        connection.EnsureMinimumWindowSize (UInt64.ofNat (c.receiveWindowSize.toNat * 3 / 2)) now
      else connection
    (offset, c, connection)

theorem UpdateHighestReceived_final_again (c : streamFlowController)
    (connection : connectionFlowController) (h : c.receivedFinalOffset = true) :
    c.UpdateHighestReceived connection c.highestReceived true = .ok (c, connection) := by
  have hc : { c with receivedFinalOffset := true } = c := by
    cases c; simp_all
  simp [UpdateHighestReceived, hc]
  rfl

/-- What a call of `UpdateHighestReceived` that returns no error did. -/
structure Updated (c : streamFlowController) (connection : connectionFlowController)
    (offset : UInt64) (final : Bool) (c' : streamFlowController)
    (connection' : connectionFlowController) : Prop where
  receiveWindow : c'.receiveWindow = c.receiveWindow
  receivedFinalOffset : c'.receivedFinalOffset = (c.receivedFinalOffset || final)
  mono : c.highestReceived ≤ c'.highestReceived
  connection_highestReceived :
    connection'.highestReceived = connection.highestReceived + (c'.highestReceived - c.highestReceived)
  connection_receiveWindow : connection'.receiveWindow = connection.receiveWindow
  within : c'.highestReceived ≠ c.highestReceived → c'.highestReceived ≤ c.receiveWindow
  connection_within : c'.highestReceived ≠ c.highestReceived →
    connection'.highestReceived ≤ connection.receiveWindow
  final_eq : final = true → c'.highestReceived = offset
  after_final : c.receivedFinalOffset = true → c'.highestReceived = c.highestReceived

theorem Updated.of_same {c c' : streamFlowController} {connection : connectionFlowController}
    {offset : UInt64} {final : Bool} (hfinal : final = true → offset = c.highestReceived)
    (hhr : c'.highestReceived = c.highestReceived) (hrw : c'.receiveWindow = c.receiveWindow)
    (hrf : c'.receivedFinalOffset = (c.receivedFinalOffset || final)) :
    Updated c connection offset final c' connection :=
  ⟨hrw, hrf, hhr ▸ UInt64.le_refl _, by simp [hhr], rfl, fun hne => absurd hhr hne,
    fun hne => absurd hhr hne, fun h => hhr.trans (hfinal h).symm, fun _ => hhr⟩

/-- A call that raises the offset within the stream's window, and the connection's by as
much. -/
theorem Updated.of_increase {c c' : streamFlowController}
    {connection connection' : connectionFlowController} {offset : UInt64} {final : Bool}
    (hafter : ¬(c.receivedFinalOffset = true ∧ offset > c.highestReceived))
    (hgt : ¬offset ≤ c.highestReceived) (hwin : ¬offset > c.receiveWindow)
    (hhr : c'.highestReceived = offset) (hrw : c'.receiveWindow = c.receiveWindow)
    (hrf : c'.receivedFinalOffset = (c.receivedFinalOffset || final))
    (hinc : connection.IncrementHighestReceived (offset - c.highestReceived) = .ok connection') :
    Updated c connection offset final c' connection' := by
  obtain ⟨hconn, hwindow, hwithin⟩ := IncrementHighestReceived_ok hinc
  refine ⟨hrw, hrf, ?_, by rw [hconn, hhr], hwindow, fun _ => ?_, fun _ => hwithin,
    fun _ => hhr, fun hr => ?_⟩
  · grind
  · grind
  · exact absurd ⟨hr, by grind⟩ hafter

theorem UpdateHighestReceived_updated {c c' : streamFlowController}
    {connection connection' : connectionFlowController} {offset : UInt64} {final : Bool}
    (h : c.UpdateHighestReceived connection offset final = .ok (c', connection')) :
    Updated c connection offset final c' connection' := by
  unfold UpdateHighestReceived at h
  split at h
  · simp at h
  rename_i hincons
  split at h
  · simp at h
  rename_i hafter
  generalize hc₁ : (if final = true then { c with receivedFinalOffset := true } else c) = c₁ at h
  have hhr₁ : c₁.highestReceived = c.highestReceived := by rw [← hc₁]; split <;> rfl
  have hrw₁ : c₁.receiveWindow = c.receiveWindow := by rw [← hc₁]; split <;> rfl
  have hrf₁ : c₁.receivedFinalOffset = (c.receivedFinalOffset || final) := by
    rw [← hc₁]; cases final <;> simp
  dsimp only at h
  split_ifs at h
  · rename_i heq
    simp only [pure, Except.pure, Except.ok.injEq, Prod.mk.injEq] at h
    obtain ⟨rfl, rfl⟩ := h
    exact Updated.of_same (fun _ => heq.trans hhr₁) hhr₁ hrw₁ hrf₁
  · rename_i hfinal
    simp only [pure, Except.pure, Except.ok.injEq, Prod.mk.injEq] at h
    obtain ⟨rfl, rfl⟩ := h
    exact Updated.of_same (fun hf => absurd hf hfinal) hhr₁ hrw₁ hrf₁
  · rename_i hle hviol
    obtain ⟨connection₁, hinc, hpure⟩ := Except.bind_eq_ok h
    simp only [pure, Except.pure, Except.ok.injEq, Prod.mk.injEq] at hpure
    obtain ⟨rfl, rfl⟩ := hpure
    rw [hhr₁] at hle hinc
    have hwin : ¬offset > c.receiveWindow := by
      simpa [baseFlowController.checkFlowControlViolation, hrw₁] using hviol
    exact Updated.of_increase hafter hle hwin rfl hrw₁ hrf₁ hinc

theorem UpdateHighestReceived_error_of_final {c : streamFlowController}
    (connection : connectionFlowController) {offset : UInt64} {final : Bool}
    (hfin : c.receivedFinalOffset = true)
    (hbad : offset > c.highestReceived ∨ (final = true ∧ offset ≠ c.highestReceived)) :
    ∃ e, c.UpdateHighestReceived connection offset final = .error e := by
  unfold UpdateHighestReceived
  by_cases hincons : c.receivedFinalOffset = true ∧ final = true ∧ offset ≠ c.highestReceived
  · exact ⟨_, by rw [if_pos hincons]; rfl⟩
  · have hgt : offset > c.highestReceived := by
      rcases hbad with hgt | hother
      · exact hgt
      · exact absurd ⟨hfin, hother⟩ hincons
    exact ⟨_, by rw [if_neg hincons, if_pos ⟨hfin, hgt⟩]; rfl⟩

/-- `Abandon` credits the connection with the bytes the stream received and did not read, also
when it was called before: it does not record that it did so. -/
@[simp] theorem Abandon_bytesRead (c : streamFlowController) (connection : connectionFlowController)
    (now : Int) :
    (c.Abandon connection now).bytesRead =
      connection.bytesRead + (c.highestReceived - c.bytesRead) := by
  unfold Abandon
  dsimp only
  split
  · simp
  · have hzero : c.highestReceived - c.bytesRead = 0 := by
      simpa [UInt64.pos_iff_ne_zero] using ‹¬c.highestReceived - c.bytesRead > 0›
    simp [hzero]

@[simp] theorem Abandon_highestReceived (c : streamFlowController)
    (connection : connectionFlowController) (now : Int) :
    (c.Abandon connection now).highestReceived = connection.highestReceived := by
  unfold Abandon
  dsimp only
  split <;> simp

end streamFlowController

end QuicGo.Flowcontrol
