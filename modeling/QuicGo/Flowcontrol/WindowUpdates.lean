import QuicGo.Flowcontrol.FlowController
import QuicGo.Lib.Reachable

/-! The receive windows that the flow controllers advertise. `GetWindowUpdate` moves the receive
window to the bytes read plus the window size once more than a quarter of the window was read, after
auto-tuning may have doubled the window size; the connection's window size is also raised by
`EnsureMinimumWindowSize` when a stream's grows. -/
namespace QuicGo.Flowcontrol
open QuicGo.Lib

namespace baseFlowController

/-! ### One call -/

/-- Auto-tuning changes nothing but the window size and the epoch, and the window size either
stays or is doubled up to its maximum. -/
theorem maybeAdjustWindowSize_fields (c : baseFlowController) (rtt now : Int) :
    (c.maybeAdjustWindowSize rtt now).bytesRead = c.bytesRead ∧
      (c.maybeAdjustWindowSize rtt now).receiveWindow = c.receiveWindow ∧
      (c.maybeAdjustWindowSize rtt now).maxReceiveWindowSize = c.maxReceiveWindowSize ∧
      ((c.maybeAdjustWindowSize rtt now).receiveWindowSize = c.receiveWindowSize ∨
        (c.maybeAdjustWindowSize rtt now).receiveWindowSize =
          min (2 * c.receiveWindowSize) c.maxReceiveWindowSize) := by
  unfold maybeAdjustWindowSize
  dsimp only
  split_ifs <;> simp [startNewAutoTuningEpoch]

/-- Doubling a window size below `2^62` up to its maximum does not wrap: it does not lower the
window size and keeps it within the maximum. -/
theorem le_min_two_mul {size max : UInt64} (hle : size ≤ max) (hmax : max.toNat < 2 ^ 62) :
    size ≤ min (2 * size) max ∧ min (2 * size) max ≤ max := by
  have hle' := UInt64.le_iff_toNat_le.mp hle
  have hdouble : (2 * size).toNat = 2 * size.toNat := by
    rw [UInt64.toNat_mul, show (2 : UInt64).toNat = 2 from rfl]
    omega
  have hsize : size ≤ 2 * size := by
    rw [UInt64.le_iff_toNat_le, hdouble]
    omega
  rw [UInt64.min_def]
  split_ifs with h
  · exact ⟨hsize, h⟩
  · exact ⟨hle, UInt64.le_refl max⟩

/-- `getWindowUpdate` either changes nothing and advertises nothing, or, when an update is due,
advertises the window that it moves to the bytes read plus the window size after auto-tuning. -/
theorem getWindowUpdate_cases (c : baseFlowController) (rtt now : Int) :
    c.getWindowUpdate rtt now = (0, c) ∨
      (c.hasWindowUpdate = true ∧ c.getWindowUpdate rtt now =
        ((c.maybeAdjustWindowSize rtt now).bytesRead +
            (c.maybeAdjustWindowSize rtt now).receiveWindowSize,
          { c.maybeAdjustWindowSize rtt now with
            receiveWindow := (c.maybeAdjustWindowSize rtt now).bytesRead +
              (c.maybeAdjustWindowSize rtt now).receiveWindowSize })) := by
  unfold getWindowUpdate
  cases h : c.hasWindowUpdate
  · exact .inl rfl
  · exact .inr ⟨rfl, rfl⟩

@[simp] theorem AddBytesRead_receiveWindow (c : baseFlowController) (n : UInt64) (now : Int) :
    (c.AddBytesRead n now).receiveWindow = c.receiveWindow := by
  unfold AddBytesRead; split <;> rfl

@[simp] theorem AddBytesRead_receiveWindowSize (c : baseFlowController) (n : UInt64) (now : Int) :
    (c.AddBytesRead n now).receiveWindowSize = c.receiveWindowSize := by
  unfold AddBytesRead; split <;> rfl

@[simp] theorem AddBytesRead_maxReceiveWindowSize (c : baseFlowController) (n : UInt64)
    (now : Int) : (c.AddBytesRead n now).maxReceiveWindowSize = c.maxReceiveWindowSize := by
  unfold AddBytesRead; split <;> rfl

/-! ### The receive side between calls -/

/-- The receive side of a controller between calls, within the range of the wire format: the
window size is within its maximum, which is below `2^62`, the bytes read are within the window
and below `2^62`, and a window of size zero is empty. -/
structure WindowInv (c : baseFlowController) : Prop where
  size_le : c.receiveWindowSize ≤ c.maxReceiveWindowSize
  max_lt : c.maxReceiveWindowSize.toNat < 2 ^ 62
  read_le : c.bytesRead ≤ c.receiveWindow
  read_lt : c.bytesRead.toNat < 2 ^ 62
  window_zero : c.receiveWindowSize = 0 → c.receiveWindow = 0

theorem WindowInv.new {receiveWindow maxReceiveWindow : UInt64}
    (hw : receiveWindow ≤ maxReceiveWindow) (hmax : maxReceiveWindow.toNat < 2 ^ 62)
    (initialSendWindow : UInt64) :
    WindowInv (new receiveWindow maxReceiveWindow initialSendWindow) where
  size_le := hw
  max_lt := hmax
  read_le := UInt64.zero_le
  read_lt := (by decide : (0 : UInt64).toNat < 2 ^ 62)
  window_zero h := h

/-- One call of a controller's receive side, with the offset it advertises, or 0: reading bytes
within the window and the range of the wire format, a window update, the connection's raising of
its window size, and a stream's window update once its final offset is known, which does
nothing. -/
inductive WindowStep : baseFlowController → UInt64 → baseFlowController → Prop where
  | addBytesRead {c : baseFlowController} (n : UInt64) (now : Int)
      (hn : c.bytesRead.toNat + n.toNat ≤ c.receiveWindow.toNat)
      (hn' : c.bytesRead.toNat + n.toNat < 2 ^ 62) : WindowStep c 0 (c.AddBytesRead n now)
  | getWindowUpdate (c : baseFlowController) (rtt now : Int) :
      WindowStep c (c.getWindowUpdate rtt now).1 (c.getWindowUpdate rtt now).2
  | ensureMinimumWindowSize (c : baseFlowController) (inc : UInt64) (now : Int) :
      WindowStep c 0 (connectionFlowController.EnsureMinimumWindowSize ⟨c⟩ inc now).base
  | idle (c : baseFlowController) : WindowStep c 0 c

/-- What one step does to the receive side: the window size does not shrink, nor does the
window, and an advertised offset is the new window, above the old one. -/
structure StepUpdated (c : baseFlowController) (o : UInt64) (c' : baseFlowController) : Prop where
  inv : WindowInv c'
  size_le : c.receiveWindowSize ≤ c'.receiveWindowSize
  window_le : c.receiveWindow ≤ c'.receiveWindow
  offset : o ≠ 0 → o = c'.bytesRead + c'.receiveWindowSize ∧ c.receiveWindow < o ∧
    c'.receiveWindow = o

theorem StepUpdated.refl {c : baseFlowController} (hi : WindowInv c) : StepUpdated c 0 c where
  inv := hi
  size_le := UInt64.le_refl _
  window_le := UInt64.le_refl _
  offset h := absurd rfl h

theorem addBytesRead_updated {c : baseFlowController} (hi : WindowInv c) {n : UInt64} (now : Int)
    (hn : c.bytesRead.toNat + n.toNat ≤ c.receiveWindow.toNat)
    (hn' : c.bytesRead.toNat + n.toNat < 2 ^ 62) : StepUpdated c 0 (c.AddBytesRead n now) := by
  have hsum : (c.AddBytesRead n now).bytesRead.toNat = c.bytesRead.toNat + n.toNat := by
    rw [AddBytesRead_bytesRead, UInt64.toNat_add]
    omega
  refine ⟨⟨?_, ?_, ?_, ?_, ?_⟩, ?_, ?_, fun h => absurd rfl h⟩
  · simpa using hi.size_le
  · simpa using hi.max_lt
  · rw [UInt64.le_iff_toNat_le, hsum, AddBytesRead_receiveWindow]
    exact hn
  · rw [hsum]
    exact hn'
  · simpa using hi.window_zero
  · simpa using UInt64.le_refl _
  · simpa using UInt64.le_refl _

/-- A window update, when due, moves the window past the old one, unless the window size is
zero, and then the window is empty and stays so. -/
theorem getWindowUpdate_updated {c : baseFlowController} (hi : WindowInv c) (rtt now : Int) :
    StepUpdated c (c.getWindowUpdate rtt now).1 (c.getWindowUpdate rtt now).2 := by
  rcases getWindowUpdate_cases c rtt now with h | ⟨hupd, h⟩
  · rw [h]
    exact StepUpdated.refl hi
  rw [h]
  obtain ⟨hread, hwin, hmaxeq, hsize⟩ := maybeAdjustWindowSize_fields c rtt now
  set c₁ := c.maybeAdjustWindowSize rtt now
  have hsize₁ : c.receiveWindowSize ≤ c₁.receiveWindowSize ∧
      c₁.receiveWindowSize ≤ c.maxReceiveWindowSize := by
    rcases hsize with hs | hs
    · exact ⟨hs ▸ UInt64.le_refl _, hs ▸ hi.size_le⟩
    · rw [hs]
      exact le_min_two_mul hi.size_le hi.max_lt
  have hs := UInt64.le_iff_toNat_le.mp hsize₁.1
  have hsm := UInt64.le_iff_toNat_le.mp hsize₁.2
  have hrw := UInt64.le_iff_toNat_le.mp hi.read_le
  have hmax := hi.max_lt
  have hrl := hi.read_lt
  have hleft : c.receiveWindow.toNat - c.bytesRead.toNat ≤ c.receiveWindowSize.toNat * 3 / 4 := by
    unfold hasWindowUpdate at hupd
    rw [decide_eq_true_eq, UInt64.toNat_sub_of_le _ _ hi.read_le] at hupd
    exact hupd
  have ho : (c₁.bytesRead + c₁.receiveWindowSize).toNat =
      c.bytesRead.toNat + c₁.receiveWindowSize.toNat := by
    rw [UInt64.toNat_add, hread]
    omega
  have hzero : c₁.receiveWindowSize.toNat = 0 → c.receiveWindow.toNat = 0 := by
    intro h0
    have hs0 : c.receiveWindowSize = 0 := UInt64.toNat_inj.mp (by rw [UInt64.toNat_zero]; omega)
    rw [hi.window_zero hs0, UInt64.toNat_zero]
  have hwin3 : c.receiveWindow.toNat < c.bytesRead.toNat + c₁.receiveWindowSize.toNat ∨
      c.receiveWindow.toNat = 0 := by
    by_cases h0 : c₁.receiveWindowSize.toNat = 0
    · exact .inr (hzero h0)
    · left
      omega
  refine ⟨⟨?_, ?_, ?_, ?_, ?_⟩, hsize₁.1, ?_, fun hne => ⟨rfl, ?_, rfl⟩⟩
  · rw [← hmaxeq] at hsize₁
    exact hsize₁.2
  · rw [hmaxeq]
    exact hmax
  · rw [UInt64.le_iff_toNat_le, ho, hread]
    omega
  · show c₁.bytesRead.toNat < 2 ^ 62
    rw [hread]
    exact hrl
  · intro h0
    have h0' : c₁.receiveWindowSize.toNat = 0 := by rw [h0]; rfl
    have := hzero h0'
    apply UInt64.toNat_inj.mp
    rw [ho, UInt64.toNat_zero]
    omega
  · rw [UInt64.le_iff_toNat_le, ho]
    omega
  · have hne' : (c₁.bytesRead + c₁.receiveWindowSize).toNat ≠ 0 := fun h0 =>
      hne (UInt64.toNat_inj.mp (by rw [h0, UInt64.toNat_zero]))
    rw [UInt64.lt_iff_toNat_lt, ho]
    rw [ho] at hne'
    omega

/-- The connection's raising of its window size keeps it within the maximum, and moves nothing
else but the epoch. -/
theorem ensureMinimumWindowSize_updated {c : baseFlowController} (hi : WindowInv c)
    (inc : UInt64) (now : Int) :
    StepUpdated c 0 (connectionFlowController.EnsureMinimumWindowSize ⟨c⟩ inc now).base := by
  unfold connectionFlowController.EnsureMinimumWindowSize
  split
  · rename_i hinc
    have hmin : c.receiveWindowSize ≤ min inc c.maxReceiveWindowSize ∧
        min inc c.maxReceiveWindowSize ≤ c.maxReceiveWindowSize := by
      rw [UInt64.min_def]
      split_ifs with h
      · exact ⟨UInt64.le_of_lt hinc, h⟩
      · exact ⟨hi.size_le, UInt64.le_refl _⟩
    refine ⟨⟨hmin.2, hi.max_lt, hi.read_le, hi.read_lt, fun h0 => ?_⟩, hmin.1, UInt64.le_refl _,
      fun h => absurd rfl h⟩
    have hle := UInt64.le_iff_toNat_le.mp hmin.1
    change min inc c.maxReceiveWindowSize = 0 at h0
    rw [h0, UInt64.toNat_zero] at hle
    exact hi.window_zero (UInt64.toNat_inj.mp (by rw [UInt64.toNat_zero]; omega))
  · exact StepUpdated.refl hi

theorem WindowStep.updated {c c' : baseFlowController} {o : UInt64} (hi : WindowInv c)
    (h : WindowStep c o c') : StepUpdated c o c' := by
  cases h with
  | addBytesRead n now hn hn' => exact addBytesRead_updated hi now hn hn'
  | getWindowUpdate rtt now => exact getWindowUpdate_updated hi rtt now
  | ensureMinimumWindowSize inc now => exact ensureMinimumWindowSize_updated hi inc now
  | idle => exact StepUpdated.refl hi

/-! ### Whole runs -/

/-- What a call does to the receive side after the offsets `os` were advertised: the window size
grows within its maximum, the window does not shrink, and an offset advertised is the bytes read
plus the window size, above every offset advertised before. -/
structure WindowUpdated (os : List UInt64) (c : baseFlowController) (o : UInt64)
    (c' : baseFlowController) : Prop where
  size_le : c.receiveWindowSize ≤ c'.receiveWindowSize
  size_le_max : c'.receiveWindowSize ≤ c'.maxReceiveWindowSize
  window_le : c.receiveWindow ≤ c'.receiveWindow
  offset : o ≠ 0 → o = c'.bytesRead + c'.receiveWindowSize ∧ ∀ o' ∈ os, o' < o

theorem windowInv_of_run {c₀ c : baseFlowController} {os : List UInt64} (h0 : WindowInv c₀)
    (hr : Run WindowStep c₀ os c) : WindowInv c ∧ ∀ o ∈ os, o ≤ c.receiveWindow := by
  refine hr.invariant (P := fun os c => WindowInv c ∧ ∀ o ∈ os, o ≤ c.receiveWindow)
    ⟨h0, by simp⟩ ?_
  rintro os c₁ o c₂ ⟨hi, hos⟩ hst
  have hu := hst.updated hi
  refine ⟨hu.inv, fun o' ho' => ?_⟩
  rw [List.mem_append, List.mem_singleton] at ho'
  rcases ho' with ho' | rfl
  · exact UInt64.le_trans (hos o' ho') hu.window_le
  · by_cases h0 : o' = 0
    · rw [h0]
      exact UInt64.zero_le
    · rw [(hu.offset h0).2.2]
      exact UInt64.le_refl _

theorem windowUpdated_of_run {c₀ c c' : baseFlowController} {os : List UInt64} {o : UInt64}
    (h0 : WindowInv c₀) (hr : Run WindowStep c₀ os c) (hst : WindowStep c o c') :
    WindowUpdated os c o c' := by
  obtain ⟨hi, hos⟩ := windowInv_of_run h0 hr
  have hu := hst.updated hi
  refine ⟨hu.size_le, hu.inv.size_le, hu.window_le, fun hne => ⟨(hu.offset hne).1, ?_⟩⟩
  intro o' ho'
  exact UInt64.lt_of_le_of_lt (hos o' ho') (hu.offset hne).2.1

end baseFlowController

/-! ### The controllers -/

namespace connectionFlowController
open baseFlowController

/-- The calls of the connection's controller on its receive side, with the offset each
advertises, or 0: reading bytes within the window and the range of the wire format, window
updates, and the raising of the window size for a stream. -/
inductive ReceiveStep : connectionFlowController → UInt64 → connectionFlowController → Prop where
  | AddBytesRead {c : connectionFlowController} (n : UInt64) (now : Int)
      (hn : c.bytesRead.toNat + n.toNat ≤ c.receiveWindow.toNat)
      (hn' : c.bytesRead.toNat + n.toNat < 2 ^ 62) : ReceiveStep c 0 (c.AddBytesRead n now)
  | GetWindowUpdate (c : connectionFlowController) (rtt now : Int) :
      ReceiveStep c (c.GetWindowUpdate rtt now).1 (c.GetWindowUpdate rtt now).2
  | EnsureMinimumWindowSize (c : connectionFlowController) (inc : UInt64) (now : Int) :
      ReceiveStep c 0 (c.EnsureMinimumWindowSize inc now)

theorem ReceiveStep.windowStep {c c' : connectionFlowController} {o : UInt64}
    (h : ReceiveStep c o c') : WindowStep c.base o c'.base := by
  cases h with
  | AddBytesRead n now hn hn' => exact .addBytesRead n now hn hn'
  | GetWindowUpdate rtt now => exact .getWindowUpdate c.base rtt now
  | EnsureMinimumWindowSize inc now => exact .ensureMinimumWindowSize c.base inc now

end connectionFlowController

namespace streamFlowController
open baseFlowController

/-- The calls of a stream's controller on its receive side, which the connection's controller
is passed through, with the offset each advertises, or 0. -/
inductive ReceiveStep : streamFlowController × connectionFlowController → UInt64 →
    streamFlowController × connectionFlowController → Prop where
  | AddBytesRead {c : streamFlowController} {connection : connectionFlowController} (n : UInt64)
      (now : Int) (hn : c.bytesRead.toNat + n.toNat ≤ c.receiveWindow.toNat)
      (hn' : c.bytesRead.toNat + n.toNat < 2 ^ 62) :
      ReceiveStep (c, connection) 0 (c.AddBytesRead connection n now)
  | GetWindowUpdate (c : streamFlowController) (connection : connectionFlowController)
      (rtt now : Int) :
      ReceiveStep (c, connection) (c.GetWindowUpdate connection rtt now).1
        (c.GetWindowUpdate connection rtt now).2

/-- Each call is a step of the receive side of the stream's base controller; a window update
after the final offset is one that does nothing. -/
theorem ReceiveStep.windowStep {s s' : streamFlowController × connectionFlowController}
    {o : UInt64} (h : ReceiveStep s o s') : WindowStep s.1.base o s'.1.base := by
  cases h with
  | AddBytesRead n now hn hn' => exact .addBytesRead n now hn hn'
  | GetWindowUpdate c connection rtt now =>
    unfold streamFlowController.GetWindowUpdate
    split
    · exact .idle c.base
    · exact .getWindowUpdate c.base rtt now

end streamFlowController

open baseFlowController in
theorem advertised_windows_increase {receiveWindow maxReceiveWindow : UInt64}
    (hw : receiveWindow ≤ maxReceiveWindow) (hmax : maxReceiveWindow.toNat < 2 ^ 62) :
    (∀ (os : List UInt64) (c c' : connectionFlowController) (o : UInt64),
      Run connectionFlowController.ReceiveStep
        (connectionFlowController.NewConnectionFlowController receiveWindow maxReceiveWindow) os c →
      connectionFlowController.ReceiveStep c o c' → WindowUpdated os c.base o c'.base) ∧
    (∀ (streamID : Nat) (initialSendWindow : UInt64) (connection : connectionFlowController)
      (os : List UInt64) (s s' : streamFlowController × connectionFlowController) (o : UInt64),
      Run streamFlowController.ReceiveStep
        (streamFlowController.NewStreamFlowController streamID receiveWindow maxReceiveWindow
          initialSendWindow, connection) os s →
      streamFlowController.ReceiveStep s o s' → WindowUpdated os s.1.base o s'.1.base) := by
  constructor
  · intro os c c' o hr hst
    have hbase := hr.map connectionFlowController.base id
      (fun _ _ _ h => connectionFlowController.ReceiveStep.windowStep h)
    rw [List.map_id] at hbase
    exact windowUpdated_of_run (WindowInv.new hw hmax 0) hbase hst.windowStep
  · intro streamID initialSendWindow connection os s s' o hr hst
    have hbase := hr.map (fun s => s.1.base) id
      (fun _ _ _ h => streamFlowController.ReceiveStep.windowStep h)
    rw [List.map_id] at hbase
    exact windowUpdated_of_run (WindowInv.new hw hmax initialSendWindow) hbase hst.windowStep

open baseFlowController in
/-- The connection's controller with the default windows, `InitialMaxData` and
`DefaultMaxReceiveConnectionFlowControlWindow`. -/
theorem advertised_windows_increase_default :
    (786432 : UInt64) ≤ 15728640 ∧ (15728640 : UInt64).toNat < 2 ^ 62 ∧
    ∀ (os : List UInt64) (c c' : connectionFlowController) (o : UInt64),
      Run connectionFlowController.ReceiveStep
        (connectionFlowController.NewConnectionFlowController 786432 15728640) os c →
      connectionFlowController.ReceiveStep c o c' → WindowUpdated os c.base o c'.base :=
  ⟨by decide, by decide, (advertised_windows_increase (by decide) (by decide)).1⟩

open connectionFlowController in
/-- A window of `2^63` bytes, within a maximum of `2^64 - 1`: once more than half of it is read
fast enough, auto-tuning doubles the window size in `uint64`, which wraps to zero, and the window
update lowers the window. -/
theorem GetWindowUpdate_wraps_window_size :
    let c : connectionFlowController :=
      (NewConnectionFlowController (2 ^ 63) (2 ^ 64 - 1)).AddBytesRead (2 ^ 62 + 1) 0
    (2 ^ 63 : UInt64) ≤ 2 ^ 64 - 1 ∧ c.bytesRead ≤ c.receiveWindow ∧
      (c.GetWindowUpdate 1 0).1 = 2 ^ 62 + 1 ∧ (c.GetWindowUpdate 1 0).2.receiveWindowSize = 0 ∧
      (c.GetWindowUpdate 1 0).2.receiveWindow < c.receiveWindow := by
  decide +kernel

end QuicGo.Flowcontrol
