import QuicGo.Ackhandler.HandlerSafety

/-! Probe packets. When the alarm fires with no crypto packet outstanding and no loss timer set,
`onVerifiedAlarm` asks for two probe packets (`numProbesToSend += 2`), and `SendMode` answers
`SendPTO` as long as the count is positive. -/
namespace QuicGo.Ackhandler
namespace sentPacketHandler
open QuicGo.Protocol QuicGo.Wire QuicGo.Lib sentPacketHistory

/-! ### Calls that keep the count -/

/-- `x` fails, or returns a handler with `n` probe packets to send. -/
abbrev KeepsProbes (n : Int) (x : Except AckhandlerError sentPacketHandler) : Prop :=
  Except.Post (fun _ => True) (·.numProbesToSend = n) x

section Keeps

variable {h : sentPacketHandler} {n : Int}

@[simp] theorem setPacketNumberSpace_numProbesToSend (h : sentPacketHandler) (E : EncryptionLevel)
    (s : packetNumberSpace) : (h.setPacketNumberSpace E s).numProbesToSend = h.numProbesToSend := by
  cases E <;> rfl

theorem ignoreError_probes (hn : h.numProbesToSend = n)
    {x : Except AckhandlerError sentPacketHandler} (hx : KeepsProbes n x) :
    KeepsProbes n (h.ignoreError x) := by
  unfold ignoreError
  split
  · exact hx
  · trivial
  · exact hn

theorem queuePacketForRetransmission_probes (hn : h.numProbesToSend = n) (E : EncryptionLevel)
    (el : Nat) : KeepsProbes n (h.queuePacketForRetransmission E el) := by
  unfold queuePacketForRetransmission
  refine Except.Post.bind (Except.Post.top _) fun s _ => ?_
  refine Except.Post.ite (fun _ => Except.Post.throw_bind trivial) fun _ => ?_
  exact Except.Post.bind (Except.Post.top _) fun _ _ => Except.Post.of_pure (by simp [hn])

theorem onPacketLost_probes (E : EncryptionLevel) (hn : h.numProbesToSend = n) (el : Nat) :
    KeepsProbes n (h.onPacketLost E el) := by
  unfold onPacketLost
  refine Except.Post.bind (Except.Post.top _) fun s _ => ?_
  dsimp only
  set h₁ := if (s.history.elements el).includedInBytesInFlight = true then
    { h with bytesInFlight := h.bytesInFlight - (s.history.elements el).Length } else h with hh₁
  have hn₁ : h₁.numProbesToSend = n := by
    rw [hh₁]
    split <;> exact hn
  refine Except.Post.ite
    (fun _ => Except.Post.bind (queuePacketForRetransmission_probes hn₁ E el) fun h₂ hn₂ => ?_)
    (fun _ => Except.Post.bind (P := fun h₂ : sentPacketHandler => h₂.numProbesToSend = n)
      (Except.Post.of_pure hn₁) fun h₂ hn₂ => ?_)
  all_goals
    refine Except.Post.bind (Except.Post.top _) fun _ _ => ignoreError_probes hn₂ ?_
    exact Except.Post.map (Except.Post.top _) fun _ _ => by simp [hn₂]

theorem detectLostPackets_probes (hn : h.numProbesToSend = n) (now : Int) (E : EncryptionLevel)
    (delayUntilLost : Int) : KeepsProbes n (h.detectLostPackets now E delayUntilLost) := by
  unfold detectLostPackets
  set h₁ := if E = .Encryption1RTT then { h with lossTime := none } else h with hh₁
  have hn₁ : h₁.numProbesToSend = n := by
    rw [hh₁]
    split <;> exact hn
  refine Except.Post.bind (Except.Post.top _) fun s _ => ?_
  dsimp only
  exact Except.Post.foldlM (fun _ (h' : sentPacketHandler) => h'.numProbesToSend = n) _ _ hn₁
    fun x _ h' hn' => onPacketLost_probes E hn' x

theorem onPacketAcked_probes (hn : h.numProbesToSend = n) (E : EncryptionLevel) (el : Nat) :
    KeepsProbes n (h.onPacketAcked E el) := by
  unfold onPacketAcked
  refine Except.Post.bind (Except.Post.top _) fun _ _ => ?_
  refine Except.Post.bind (Except.Post.top _) fun _ _ => ?_
  refine Except.Post.ite (fun _ => Except.Post.of_pure hn) fun _ => ?_
  refine Except.Post.bind (Except.Post.top _) fun _ _ => ?_
  dsimp only
  split
  · trivial
  · refine Except.Post.bind (Except.Post.top _) fun _ _ => Except.Post.of_pure ?_
    simp only [setPacketNumberSpace_numProbesToSend]
    split <;> simp [hn]

theorem ReceivedAck_probes (hn : h.numProbesToSend = n) (ackFrame : AckFrame)
    (withPacketNumber : Nat) (E : EncryptionLevel) (rcvTime delayUntilLost : Int) :
    KeepsProbes n (h.ReceivedAck ackFrame withPacketNumber E rcvTime delayUntilLost) := by
  unfold ReceivedAck
  refine Except.Post.bind (Except.Post.top _) fun s _ => ?_
  split
  · dsimp only
    refine Except.Post.ite (fun _ => Except.Post.throw_bind trivial) fun _ => ?_
    split
    · refine Except.Post.ite (fun _ => Except.Post.throw_bind trivial) fun _ => ?_
      refine Except.Post.bind (Except.Post.top _) fun acked _ => ?_
      refine Except.Post.ite (fun _ => Except.Post.of_pure (by simp [hn])) fun _ => ?_
      refine Except.Post.bind (Except.Post.foldlM (fun _ (h' : sentPacketHandler) =>
        h'.numProbesToSend = n) acked _
        (by simp [hn]) fun x _ h' hn' => ?_) fun h' hn' => detectLostPackets_probes hn' _ _ _
      refine Except.Post.bind (Except.Post.top _) fun _ _ => ?_
      split <;> exact onPacketAcked_probes (by exact hn') E x
    · trivial
  · trivial

theorem queueAllPacketsForRetransmission_probes (hn : h.numProbesToSend = n)
    (E : EncryptionLevel) : KeepsProbes n (h.queueAllPacketsForRetransmission E) := by
  unfold queueAllPacketsForRetransmission
  refine Except.Post.bind (Except.Post.top _) fun _ _ => ?_
  exact Except.Post.foldlM (fun _ (h' : sentPacketHandler) => h'.numProbesToSend = n) _ _ hn
    fun x _ h' hn' => queuePacketForRetransmission_probes hn' E x

theorem queueCryptoPacketsForRetransmission_probes (hn : h.numProbesToSend = n) :
    KeepsProbes n h.queueCryptoPacketsForRetransmission :=
  Except.Post.bind (queueAllPacketsForRetransmission_probes hn _) fun _ hn₁ =>
    queueAllPacketsForRetransmission_probes hn₁ _

theorem dropSpace_probes (E : EncryptionLevel) (hn : h.numProbesToSend = n) :
    KeepsProbes n (dropSpace E h) := by
  unfold dropSpace
  refine Except.Post.bind (Except.Post.top _) fun _ _ => ?_
  refine Except.Post.foldlM (fun _ (h' : sentPacketHandler) => h'.numProbesToSend = n) _ _ hn
    fun x _ h' hn' => ?_
  refine Except.Post.bind (Except.Post.top _) fun _ _ => ignoreError_probes hn' ?_
  exact Except.Post.map (Except.Post.top _) fun _ _ => by simp [hn']

theorem SetHandshakeComplete_probes (hn : h.numProbesToSend = n) :
    KeepsProbes n h.SetHandshakeComplete := by
  unfold SetHandshakeComplete
  refine Except.Post.bind (dropSpace_probes _ hn) fun h₁ hn₁ => ?_
  exact Except.Post.bind (dropSpace_probes _ hn₁) fun _ hn₂ => Except.Post.of_pure hn₂

/-- Taking the probe packet out of the queue is not what counts it off: that happens when it is
sent. -/
theorem DequeueProbePacket_probes (hn : h.numProbesToSend = n) :
    Except.Post (fun _ => True) (·.2.numProbesToSend = n) h.DequeueProbePacket := by
  unfold DequeueProbePacket
  refine Except.Post.bind (Except.Post.top _) fun _ _ => ?_
  have hdq : ∀ h' : sentPacketHandler, h'.numProbesToSend = n →
      Except.Post (fun _ => True) (·.2.numProbesToSend = n)
        (pure h'.DequeuePacketForRetransmission : Except AckhandlerError _) := by
    intro h' hn'
    refine Except.Post.of_pure ?_
    unfold DequeuePacketForRetransmission
    split <;> exact hn'
  dsimp only
  split
  · split
    · exact Except.Post.throw_bind trivial
    · exact Except.Post.bind (queuePacketForRetransmission_probes hn _ _) hdq
  · exact hdq h hn

theorem PopPacketNumber_probes (hn : h.numProbesToSend = n) (E : EncryptionLevel) (num : UInt16) :
    Except.Post (fun _ => True) (·.2.numProbesToSend = n) (h.PopPacketNumber E num) :=
  Except.Post.bind (Except.Post.top _) fun _ _ => Except.Post.of_pure (by simp [hn])

end Keeps

/-! ### Calls that change the count -/

section Change

variable {h : sentPacketHandler} {n : Int}

theorem sentPacketImpl_probes (hn : h.numProbesToSend ≤ n) (packet : Packet) :
    Except.Post (fun _ => True) (·.1.numProbesToSend ≤ n) (h.sentPacketImpl packet) := by
  unfold sentPacketImpl
  refine Except.Post.bind (Except.Post.top _) fun _ _ => ?_
  refine Except.Post.bind (Except.Post.top _) fun _ _ => ?_
  dsimp only
  split
  · refine Except.Post.of_pure ?_
    simp only [setPacketNumberSpace_numProbesToSend]
    split <;> omega
  · exact Except.Post.of_pure (by simpa using hn)

theorem SentPacket_probes (hn : h.numProbesToSend ≤ n) (packet : Packet) :
    Except.Post (fun _ => True) (·.numProbesToSend ≤ n) (h.SentPacket packet) := by
  unfold SentPacket
  refine Except.Post.bind (sentPacketImpl_probes hn packet) fun ⟨h₁, _, _⟩ hn₁ => ?_
  dsimp only at hn₁ ⊢
  split
  · exact Except.Post.bind (Except.Post.top _) fun _ _ => Except.Post.of_pure (by simpa using hn₁)
  · exact Except.Post.of_pure hn₁

theorem SentPacketsAsRetransmission_probes (hn : h.numProbesToSend ≤ n) (packets : List Packet)
    (retransmissionOf : Nat) :
    Except.Post (fun _ => True) (·.numProbesToSend ≤ n)
      (h.SentPacketsAsRetransmission packets retransmissionOf) := by
  unfold SentPacketsAsRetransmission
  refine Except.Post.bind (Except.Post.foldlM
    (fun _ (r : sentPacketHandler × List Packet) => r.1.numProbesToSend ≤ n) packets _ hn
    fun x _ ⟨h₁, _⟩ hn₁ => ?_) fun ⟨h₂, _⟩ hn₂ => ?_
  · exact Except.Post.bind (sentPacketImpl_probes hn₁ x) fun _ hn' => Except.Post.of_pure hn'
  · dsimp only at hn₂ ⊢
    split
    · exact Except.Post.bind (Except.Post.top _) fun _ _ => Except.Post.of_pure (by simpa using hn₂)
    · trivial

theorem OnAlarm_probes (hn : h.numProbesToSend = n) (now delayUntilLost : Int) :
    Except.Post (fun _ => True) (fun h' => h'.numProbesToSend = n ∨ h'.numProbesToSend = n + 2)
      (h.OnAlarm now delayUntilLost) := by
  have hkeep : ∀ {x}, KeepsProbes n x → Except.Post (fun _ => True)
      (fun h' : sentPacketHandler => h'.numProbesToSend = n ∨ h'.numProbesToSend = n + 2) x :=
    fun hx => hx.mono fun _ => Or.inl
  unfold OnAlarm onVerifiedAlarm
  refine Except.Post.ite (fun _ => ?_) fun _ => Except.Post.of_pure (.inl hn)
  refine Except.Post.ite (fun _ => hkeep (queueCryptoPacketsForRetransmission_probes hn))
    fun _ => Except.Post.ite (fun _ => hkeep (detectLostPackets_probes hn _ _ _)) fun _ => ?_
  exact Except.Post.of_pure (.inr (by simp [hn]))

end Change

/-- What one call does to the count of probe packets to send: sending lowers it or keeps it,
an alarm adds two or nothing, and every other call keeps it. -/
def ProbesChange (h : sentPacketHandler) : Event → sentPacketHandler → Prop
  | .sentPacket _, h' | .sentPacketsAsRetransmission .., h' =>
    h'.numProbesToSend ≤ h.numProbesToSend
  | .onAlarm .., h' =>
    h'.numProbesToSend = h.numProbesToSend ∨ h'.numProbesToSend = h.numProbesToSend + 2
  | _, h' => h'.numProbesToSend = h.numProbesToSend

theorem handle_probes (h : sentPacketHandler) (e : Event) :
    Except.Post (fun _ => True) (ProbesChange h e) (h.handle e) := by
  cases e with
  | sentPacket packet => exact SentPacket_probes le_rfl packet
  | sentPacketsAsRetransmission packets retransmissionOf =>
    exact SentPacketsAsRetransmission_probes le_rfl packets retransmissionOf
  | receivedAck ackFrame pn encLevel rcvTime delayUntilLost =>
    exact ReceivedAck_probes rfl ackFrame pn encLevel rcvTime delayUntilLost
  | onAlarm now delayUntilLost => exact OnAlarm_probes rfl now delayUntilLost
  | dequeuePacketForRetransmission =>
    refine Except.Post.of_pure ?_
    unfold DequeuePacketForRetransmission
    split <;> rfl
  | dequeueProbePacket => exact (DequeueProbePacket_probes rfl).map fun _ hr => hr
  | setHandshakeComplete => exact SetHandshakeComplete_probes rfl
  | resetForRetry num₁ num₂ => exact Except.Post.of_pure rfl
  | popPacketNumber encLevel num => exact (PopPacketNumber_probes rfl encLevel num).map fun _ hr => hr

theorem step_probes {h h' : sentPacketHandler} {e : Event} (hst : step h e = some h') :
    ProbesChange h e h' :=
  (handle_probes h e).of_eq_ok (Except.toOption_eq_some_iff.mp hst)

/-- The calls that send a packet, the only ones that count probe packets off. -/
def Event.Sends : Event → Bool
  | .sentPacket _ | .sentPacketsAsRetransmission .. => true
  | _ => false

theorem ProbesChange.le {h h' : sentPacketHandler} {e : Event} (hc : ProbesChange h e h')
    (hs : e.Sends = false) : h.numProbesToSend ≤ h'.numProbesToSend := by
  cases e <;> simp only [ProbesChange, Event.Sends, Bool.true_eq_false] at hc hs <;> omega

/-- Along any run in which no packet is sent, the count of probe packets to send never falls:
no acknowledgement, alarm or other call takes back a probe that was asked for. -/
theorem probes_le_of_run {adm : sentPacketHandler → Event → Prop} [∀ s e, Decidable (adm s e)]
    {h h' : sentPacketHandler} {es : List Event} (hr : run step adm h es = some h')
    (hes : ∀ e ∈ es, e.Sends = false) : h.numProbesToSend ≤ h'.numProbesToSend := by
  refine run_invariant_of_nil (P := fun past s => (∀ e ∈ past, e.Sends = false) →
    h.numProbesToSend ≤ s.numProbesToSend) (fun past s e s' hP _ hst hall => ?_)
    (fun _ => le_rfl) hr hes
  have hle := hP fun e' he' => hall e' (List.mem_append_left _ he')
  exact hle.trans ((step_probes hst).le (hall e (by simp)))

/-! ### A probe that cannot be sent -/

/-- A 1-RTT packet of 100 bytes carrying a PING frame. -/
def oneRTTPing (pn : Nat) : Packet where
  PacketNumber := pn
  PacketType := .PacketTypeNone
  Frames := [.ping]
  Length := 100
  EncryptionLevel := .Encryption1RTT
  SendTime := 0

/-- The alarm fires while a 1-RTT PING is outstanding, and an acknowledgement of the PING
arrives before the probe is sent: the handler still asks for a probe (`SendPTO`, whatever the
congestion window), but it has nothing to send as one, and `DequeueProbePacket` fails with the
error that `sendProbePacket` returns and that closes the session. -/
theorem probe_without_outstanding_packet :
    ∃ h, Reachable step Admissible (NewSentPacketHandler 0 0 0 0) h ∧
      h.numProbesToSend = 2 ∧ (∀ congestionWindow, h.SendMode congestionWindow = .SendPTO) ∧
      h.retransmissionQueue = [] ∧ h.oneRTTPackets.history.FirstOutstanding = none ∧
      h.DequeueProbePacket = .error .noOutstandingPackets := by
  have hrun : run step Admissible (NewSentPacketHandler 0 0 0 0)
      [.sentPacket (oneRTTPing 0), .onAlarm 0 0,
        .receivedAck ⟨[⟨0, 0⟩], 0⟩ 0 .Encryption1RTT 0 0] = some _ := rfl
  exact ⟨_, reachable_of_run .init hrun, rfl, fun _ => rfl, rfl, rfl, rfl⟩

end sentPacketHandler

end QuicGo.Ackhandler
