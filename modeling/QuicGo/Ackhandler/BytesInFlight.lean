import QuicGo.Ackhandler.HandlerSafety

/-! The bytes in flight against the packets the histories hold. `sentPacketImpl` adds the length of
each retransmittable packet to `bytesInFlight` and marks it `includedInBytesInFlight`; acknowledging
or losing the packet subtracts it again. -/
namespace QuicGo.Ackhandler
namespace sentPacketHandler
open QuicGo.Protocol QuicGo.Wire QuicGo.Lib sentPacketHistory

/-- The bytes of the packets of a history that count as in flight. -/
def trackedBytes (H : sentPacketHistory) : Nat :=
  ((H.view.filter (·.includedInBytesInFlight)).map (·.Length.toNat)).sum

/-- The bytes of the packets of the three histories that count as in flight. -/
def trackedBytesInFlight (h : sentPacketHandler) : Nat :=
  trackedBytes h.initialPackets.history + trackedBytes h.handshakePackets.history +
    trackedBytes h.oneRTTPackets.history

/-- Sending one Initial packet and completing the handshake leaves 100 bytes in flight while
every history is empty. -/
theorem bytesInFlight_after_SetHandshakeComplete :
    ∃ h, Reachable step Admissible (NewSentPacketHandler 0 0 0 0) h ∧
      h.bytesInFlight = 100 ∧ h.trackedBytesInFlight = 0 ∧
      h.initialPackets.history.packetList = [] ∧ h.handshakePackets.history.packetList = [] ∧
      h.oneRTTPackets.history.packetList = [] := by
  have hrun : run step Admissible (NewSentPacketHandler 0 0 0 0)
      [.sentPacket initialPing, .setHandshakeComplete] = some _ := rfl
  exact ⟨_, reachable_of_run .init hrun, by decide⟩

end sentPacketHandler

end QuicGo.Ackhandler
