import QuicGo.Ackhandler.ReceivedPacketTracker
import QuicGo.Ackhandler.HandlerSafety

/-! The part of `session` that drives the two ack handlers. The frames of a received packet are
handled in order: an ACK frame goes to the `sentPacketHandler` and, at the 1-RTT level, makes the
`receivedPacketHandler` ignore every packet number below the lowest one whose acknowledgement the
peer has not yet confirmed. -/
namespace QuicGo
open Protocol Wire Lib Ackhandler

/-- The fields of `session` that the ack handling reads and writes. -/
structure session where
  perspective : Perspective
  sentPacketHandler : sentPacketHandler
  receivedPacketHandler : receivedPacketHandler
  receivedFirstForwardSecurePacket : Bool
  lastNetworkActivityTime : Int

/-- The errors that close the session. -/
inductive sessionError where
  | ackhandler (e : AckhandlerError)
  | received (e : receivedPacketError)

namespace session

def newSession (perspective : Perspective) (initialPacketNumber : Nat) (num₁ num₂ num₃ : UInt16) :
    session where
  perspective := perspective
  sentPacketHandler := NewSentPacketHandler initialPacketNumber num₁ num₂ num₃
  receivedPacketHandler := receivedPacketHandler.NewReceivedPacketHandler
  receivedFirstForwardSecurePacket := false
  lastNetworkActivityTime := 0

def handleAckFrame (s : session) (frame : AckFrame) (pn : Nat) (encLevel : EncryptionLevel)
    (delayUntilLost : Int) : Except sessionError session := do
  let sph ← (s.sentPacketHandler.ReceivedAck frame pn encLevel s.lastNetworkActivityTime
    delayUntilLost).mapError .ackhandler
  let s := { s with sentPacketHandler := sph }
  if encLevel = .Encryption1RTT then
    pure { s with receivedPacketHandler :=
      s.receivedPacketHandler.IgnoreBelow s.sentPacketHandler.GetLowestPacketNotConfirmedAcked }
  else pure s

/-- `handleFrame`, for the frames that reach the ack handlers. -/
def handleFrame (s : session) (f : Frame) (pn : Nat) (encLevel : EncryptionLevel)
    (delayUntilLost : Int) : Except sessionError session :=
  match f with
  | .ack frame => s.handleAckFrame frame pn encLevel delayUntilLost
  | _ => pure s

/-- The first part of `handleUnpackedPacket`: everything before the packet is recorded. -/
def handlePacketFrames (s : session) (packetNumber : Nat) (encryptionLevel : EncryptionLevel)
    (frames : List Frame) (rcvTime delayUntilLost : Int) : Except sessionError session := do
  let s := { s with lastNetworkActivityTime := rcvTime }
  -- the client knows the server completed the handshake at its first 1-RTT packet
  let s ← if s.perspective = .PerspectiveClient ∧ s.receivedFirstForwardSecurePacket = false ∧
      encryptionLevel = .Encryption1RTT then do
      let sph ← s.sentPacketHandler.SetHandshakeComplete.mapError .ackhandler
      pure { s with receivedFirstForwardSecurePacket := true, sentPacketHandler := sph }
    else pure s
  frames.foldlM (fun s f => s.handleFrame f packetNumber encryptionLevel delayUntilLost) s

def handleUnpackedPacket (s : session) (packetNumber : Nat) (encryptionLevel : EncryptionLevel)
    (frames : List Frame) (rcvTime delayUntilLost minRTT : Int) : Except sessionError session := do
  let s ← s.handlePacketFrames packetNumber encryptionLevel frames rcvTime delayUntilLost
  let isRetransmittable := HasRetransmittableFrames frames
  let receivedPacketHandler ← (s.receivedPacketHandler.ReceivedPacket packetNumber encryptionLevel
    rcvTime isRetransmittable minRTT).mapError .received
  pure { s with receivedPacketHandler }

/-- The calls the session makes into its ack handlers. -/
inductive Event where
  /-- an unpacked packet -/
  | receivedPacket (packetNumber : Nat) (encryptionLevel : EncryptionLevel) (frames : List Frame)
      (rcvTime delayUntilLost minRTT : Int)
  /-- the packer asks for the ACK frame of an encryption level -/
  | getAckFrame (encLevel : EncryptionLevel) (now : Int)
  /-- a packet the packer built is sent -/
  | sentPacket (packet : Packet)

/-- Handle an event; the packer's call returns the ACK frame it gets. -/
def handle (s : session) : Event → Except sessionError (session × Option AckFrame)
  | .receivedPacket packetNumber encryptionLevel frames rcvTime delayUntilLost minRTT =>
    (·, none) <$> s.handleUnpackedPacket packetNumber encryptionLevel frames rcvTime
      delayUntilLost minRTT
  | .getAckFrame encLevel now =>
    let (ack, receivedPacketHandler) := s.receivedPacketHandler.GetAckFrame encLevel now
    pure ({ s with receivedPacketHandler }, ack)
  | .sentPacket packet =>
    (fun sph => ({ s with sentPacketHandler := sph }, none)) <$>
      (s.sentPacketHandler.SentPacket packet).mapError .ackhandler

def step (s : session) (e : Event) : Option session :=
  (s.handle e).toOption.map Prod.fst

/-- The bound below which 1-RTT packets are ignored. -/
def ignoreBelow (s : session) : Nat :=
  s.receivedPacketHandler.oneRTTPackets.ignoreBelow

/-- A received packet whose ACK frames raise the bound below which 1-RTT packets are ignored
at most to its own number. A peer that numbers its packets in order and acknowledges only what
it received sends no other: a packet of ours that it acknowledges carried ACKs only of packets
it had sent before. -/
def AckedBelowOwnNumber (s : session) : Event → Prop
  | .receivedPacket packetNumber encryptionLevel frames rcvTime delayUntilLost _ =>
    ∀ s', s.handlePacketFrames packetNumber encryptionLevel frames rcvTime delayUntilLost = .ok s' →
      s'.ignoreBelow ≤ max packetNumber s.ignoreBelow
  | _ => True

instance (s : session) : (e : Event) → Decidable (AckedBelowOwnNumber s e)
  | .receivedPacket packetNumber encryptionLevel frames rcvTime delayUntilLost _ =>
    match hs : s.handlePacketFrames packetNumber encryptionLevel frames rcvTime delayUntilLost with
    | .ok s' => decidable_of_iff (s'.ignoreBelow ≤ max packetNumber s.ignoreBelow)
        (by simp [AckedBelowOwnNumber, hs])
    | .error _ => isTrue (by simp [AckedBelowOwnNumber, hs])
  | .getAckFrame .. => isTrue trivial
  | .sentPacket _ => isTrue trivial

/-! ### What the frames of a packet do to the receiving side -/

/-- Raising the bound keeps the invariant; the tracker is either unchanged or has a strictly
higher bound. -/
def Settled (t₀ t : receivedPacketTracker) : Prop :=
  t.Inv ∧ (t = t₀ ∨ t₀.ignoreBelow < t.ignoreBelow)

theorem Settled.refl {t : receivedPacketTracker} (hi : t.Inv) : Settled t t :=
  ⟨hi, .inl rfl⟩

theorem Settled.ignoreBelow {t₀ t : receivedPacketTracker} (h : Settled t₀ t) (p : Nat) :
    Settled t₀ (t.IgnoreBelow p) := by
  refine ⟨h.1.ignoreBelow p, ?_⟩
  rcases receivedPacketTracker.IgnoreBelow_eq_self_or t p with heq | hlt
  · rw [heq]
    exact h.2
  · right
    rcases h.2 with rfl | hlt₀
    · exact hlt
    · omega

/-- The receiving side after some of a packet's frames at level `encLevel`: only the 1-RTT
tracker can have changed, only at the 1-RTT level, and it is settled. -/
def FramesInv (encLevel : EncryptionLevel) (s₀ s : session) : Prop :=
  s.receivedPacketHandler.initialPackets = s₀.receivedPacketHandler.initialPackets ∧
    s.receivedPacketHandler.handshakePackets = s₀.receivedPacketHandler.handshakePackets ∧
    Settled s₀.receivedPacketHandler.oneRTTPackets s.receivedPacketHandler.oneRTTPackets ∧
    (encLevel ≠ .Encryption1RTT →
      s.receivedPacketHandler.oneRTTPackets = s₀.receivedPacketHandler.oneRTTPackets)

theorem handleAckFrame_post {encLevel : EncryptionLevel} {s₀ s : session}
    (hs : FramesInv encLevel s₀ s) (frame : AckFrame) (pn : Nat) (delayUntilLost : Int) :
    Except.Post (fun _ => True) (FramesInv encLevel s₀)
      (s.handleAckFrame frame pn encLevel delayUntilLost) := by
  obtain ⟨hin, hhs, hset, hlvl⟩ := hs
  unfold handleAckFrame
  refine Except.Post.bind (P := fun _ => True) (by cases Except.mapError _ _ <;> trivial)
    fun sph _ => Except.Post.ite (fun h1 => ?_) fun _ => Except.Post.of_pure ⟨hin, hhs, hset, hlvl⟩
  exact Except.Post.of_pure ⟨hin, hhs, hset.ignoreBelow _, fun hne => absurd h1 hne⟩

theorem handlePacketFrames_post {s : session} (hi : s.receivedPacketHandler.Ready)
    (packetNumber : Nat) (encryptionLevel : EncryptionLevel) (frames : List Frame)
    (rcvTime delayUntilLost : Int) :
    Except.Post (fun _ => True) (FramesInv encryptionLevel s)
      (s.handlePacketFrames packetNumber encryptionLevel frames rcvTime delayUntilLost) := by
  have hfold : ∀ s₁, FramesInv encryptionLevel s s₁ →
      Except.Post (fun _ => True) (FramesInv encryptionLevel s)
        (frames.foldlM (fun s f => s.handleFrame f packetNumber encryptionLevel delayUntilLost) s₁) :=
    fun s₁ hs₁ => Except.Post.foldlM (fun _ => FramesInv encryptionLevel s) frames s₁ hs₁
      fun f _ s₂ hs₂ => by
        cases f with
        | ack frame => exact handleAckFrame_post hs₂ frame packetNumber delayUntilLost
        | _ => exact Except.Post.of_pure hs₂
  unfold handlePacketFrames
  dsimp only
  split
  · refine Except.Post.bind (P := fun _ => True) (by cases Except.mapError _ _ <;> trivial)
      fun sph _ => ?_
    exact Except.Post.bind (Except.Post.of_pure ⟨rfl, rfl, Settled.refl hi.oneRTT.1, fun _ => rfl⟩)
      fun s₁ hs₁ => hfold s₁ hs₁
  · exact Except.Post.bind (Except.Post.of_pure ⟨rfl, rfl, Settled.refl hi.oneRTT.1, fun _ => rfl⟩)
      fun s₁ hs₁ => hfold s₁ hs₁

/-! ### Every frame the packer gets has a range -/

/-- One call keeps every tracker ready, given that a received packet's ACK frames raise the
bound at most to its own number. -/
theorem ready_step {s s' : session} {e : Event} (hr : s.receivedPacketHandler.Ready)
    (he : AckedBelowOwnNumber s e) (hst : step s e = some s') : s'.receivedPacketHandler.Ready := by
  simp only [step, Option.map_eq_some_iff, Except.toOption_eq_some_iff] at hst
  obtain ⟨⟨s'', ack⟩, hh, rfl⟩ := hst
  cases e with
  | sentPacket packet =>
    obtain ⟨sph, -, hs⟩ := Except.map_eq_ok.mp hh
    cases hs
    exact hr
  | getAckFrame encLevel now =>
    cases hh
    exact hr.getAckFrame encLevel now
  | receivedPacket packetNumber encryptionLevel frames rcvTime delayUntilLost minRTT =>
    obtain ⟨s₂, hs₂, hs⟩ := Except.map_eq_ok.mp hh
    cases hs
    obtain ⟨s₁, hs₁, hrest⟩ := Except.bind_eq_ok hs₂
    obtain ⟨rph, hrph, hs⟩ := Except.bind_eq_ok hrest
    cases hs
    have hrph' : s₁.receivedPacketHandler.ReceivedPacket packetNumber encryptionLevel rcvTime
        (HasRetransmittableFrames frames) minRTT = .ok rph := by
      cases hx : s₁.receivedPacketHandler.ReceivedPacket packetNumber encryptionLevel rcvTime
        (HasRetransmittableFrames frames) minRTT with
      | error e => rw [hx] at hrph; cases hrph
      | ok r => rw [hx] at hrph; cases hrph; rfl
    obtain ⟨hin, hhs, hset, hlvl⟩ := (handlePacketFrames_post hr packetNumber encryptionLevel frames
      rcvTime delayUntilLost).of_eq_ok hs₁
    by_cases h1 : encryptionLevel = .Encryption1RTT
    · subst h1
      obtain ⟨t, ht, rfl⟩ := Except.map_eq_ok.mp hrph'
      refine receivedPacketHandler.Ready.of_trackers (hin ▸ hr.initial) (hhs ▸ hr.handshake)
        ⟨hset.1.receivedPacket ht, ?_⟩
      by_cases hle : s₁.ignoreBelow ≤ packetNumber
      · exact receivedPacketTracker.Ready.receivedPacket_of_le hset.1 hle ht
      · have hb := he s₁ hs₁
        rcases hset.2 with heq | hlt
        · rw [heq] at ht
          exact receivedPacketTracker.Ready.receivedPacket hr.oneRTT.1 hr.oneRTT.2 ht
        · unfold ignoreBelow at hb hle
          omega
    · have hsame : s₁.receivedPacketHandler = s.receivedPacketHandler := by
        calc s₁.receivedPacketHandler
            = ⟨s₁.receivedPacketHandler.initialPackets, s₁.receivedPacketHandler.handshakePackets,
                s₁.receivedPacketHandler.oneRTTPackets⟩ := rfl
          _ = ⟨s.receivedPacketHandler.initialPackets, s.receivedPacketHandler.handshakePackets,
                s.receivedPacketHandler.oneRTTPackets⟩ := by rw [hin, hhs, hlvl h1]
          _ = s.receivedPacketHandler := rfl
      rw [hsame] at hrph'
      exact hr.receivedPacket hrph'

/-- In every session reached by calls that satisfy `AckedBelowOwnNumber`, every ACK frame the
packer gets has a range and passes `validateAckRanges`. -/
theorem reachable_GetAckFrame_valid {perspective : Perspective} {initialPacketNumber : Nat}
    {num₁ num₂ num₃ : UInt16} {s : session}
    (hr : Reachable step AckedBelowOwnNumber
      (newSession perspective initialPacketNumber num₁ num₂ num₃) s)
    {encLevel : EncryptionLevel} {now : Int} {s' : session} {f : AckFrame}
    (hf : s.handle (.getAckFrame encLevel now) = .ok (s', some f)) :
    f.AckRanges ≠ [] ∧ f.validateAckRanges = true := by
  have hready : s.receivedPacketHandler.Ready :=
    hr.invariant (P := fun s : session => s.receivedPacketHandler.Ready)
      receivedPacketHandler.ready_NewReceivedPacketHandler fun _ _ _ hi he hst => ready_step hi he hst
  have hget : (s.receivedPacketHandler.GetAckFrame encLevel now).1 = some f := by
    simp only [handle] at hf
    injection hf with hf
    injection hf
  exact hready.GetAckFrame_valid hget

/-- A 1-RTT packet of the peer carrying a PING frame. -/
def peerPing (packetNumber : Nat) : Event :=
  .receivedPacket packetNumber .Encryption1RTT [.ping] 0 0 0

theorem ackFrame_after_two_pings_valid :
    ∃ s s', run step AckedBelowOwnNumber (newSession .PerspectiveServer 0 0 0 0)
        [peerPing 0, peerPing 1] = some s ∧
      s.handle (.getAckFrame .Encryption1RTT 0) = .ok (s', some ⟨[⟨0, 1⟩], 0⟩) ∧
      (⟨[⟨0, 1⟩], 0⟩ : AckFrame).AckRanges ≠ [] ∧
      AckFrame.validateAckRanges ⟨[⟨0, 1⟩], 0⟩ = true := by
  have hrun : run step AckedBelowOwnNumber (newSession .PerspectiveServer 0 0 0 0)
      [peerPing 0, peerPing 1] = some _ := rfl
  exact ⟨_, _, hrun, rfl, @reachable_GetAckFrame_valid .PerspectiveServer 0 0 0 0 _
    (reachable_of_run .init hrun) .Encryption1RTT 0 _ _ rfl⟩

/-! ### A packet number below an acknowledged one -/

/-- Our first 1-RTT packet, carrying the ACK of the peer's packets 0 to 4 and 6 to 9. -/
def ackingPacket : Packet where
  PacketNumber := 0
  PacketType := .PacketTypeNone
  Frames := [.ack ⟨[⟨6, 9⟩, ⟨0, 4⟩], 0⟩, .ping]
  Length := 50
  EncryptionLevel := .Encryption1RTT
  SendTime := 0

/-- The peer's packets 0 to 4 and 6 to 9 arrive, the packer gets their ACK and sends it in our
packet 0. The late packet 5, reported missing in that ACK, queues a new one. A packet that
reuses the number 3 then acknowledges our packet 0. -/
def reusedPacketNumber : List Event :=
  [peerPing 0, peerPing 1, peerPing 2, peerPing 3, peerPing 4, peerPing 6, peerPing 7, peerPing 8,
    peerPing 9, .getAckFrame .Encryption1RTT 0, .sentPacket ackingPacket, peerPing 5,
    .receivedPacket 3 .Encryption1RTT [.ack ⟨[⟨0, 0⟩], 0⟩] 0 0 0]

/-- After these calls the session ignores every 1-RTT packet below 10, and the packer gets an
ACK frame without ranges, on which `LargestAcked` panics. -/
theorem GetAckFrame_without_ranges :
    ∃ s s', run step (fun _ _ => True) (newSession .PerspectiveServer 0 0 0 0)
        reusedPacketNumber = some s ∧
      s.sentPacketHandler.GetLowestPacketNotConfirmedAcked = 10 ∧
      s.handle (.getAckFrame .Encryption1RTT 0) = .ok (s', some ⟨[], 0⟩) ∧
      AckFrame.LargestAcked ⟨[], 0⟩ = none := by
  have hrun : run step (fun _ _ => True) (newSession .PerspectiveServer 0 0 0 0)
      reusedPacketNumber = some _ := rfl
  exact ⟨_, _, hrun, rfl, rfl, rfl⟩

end session

end QuicGo
