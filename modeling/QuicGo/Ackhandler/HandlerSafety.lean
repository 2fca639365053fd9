import QuicGo.Ackhandler.AckedPackets
import QuicGo.Lib.Reachable

/-! The handler never takes a path that the source marks as a bug. `handle_post` puts the lemmas of
the operations together: from a state satisfying `Inv`, each call the session makes returns a state
satisfying `Inv` or fails with an error that is not a bug. -/
namespace QuicGo.Ackhandler
namespace sentPacketHandler
open QuicGo.Protocol QuicGo.Wire QuicGo.Lib sentPacketHistory

/-! ### The alarm -/

theorem OnAlarm_post {h : sentPacketHandler} (hi : Inv h) (now delayUntilLost : Int) :
    Except.Post NotBug Inv (h.OnAlarm now delayUntilLost) := by
  unfold OnAlarm onVerifiedAlarm
  refine Except.Post.ite (fun _ => ?_) fun _ => Except.Post.of_pure hi
  refine Except.Post.ite (fun _ => queueCryptoPacketsForRetransmission_post hi) fun _ => ?_
  exact Except.Post.ite (fun _ => detectLostPackets_post hi now _ delayUntilLost)
    fun _ => Except.Post.of_pure (hi.of_histories rfl rfl)

/-! ### Completing the handshake -/

/-- The invariant of the loop of `dropSpace` at the elements `rest` still to remove: the space
lists exactly them, with their original values. -/
def DropLoop (E : EncryptionLevel) (H₀ : sentPacketHistory) (rest : List Nat)
    (h : sentPacketHandler) : Prop :=
  Inv h ∧ rest <:+ H₀.packetList ∧ ∃ s, h.getPacketNumberSpace E = .ok s ∧
    s.history.packetList = rest ∧ s.history.elements = H₀.elements

/-- Removing the first listed element: it is the lowest, so what is left is a suffix of the
original list and keeps the invariant. -/
theorem DropLoop.step {E : EncryptionLevel} {H₀ : sentPacketHistory} (hv₀ : ViewInv E H₀.view)
    (x : Nat) (rest : List Nat) (h : sentPacketHandler) (hl : DropLoop E H₀ (x :: rest) h) :
    Except.Post NotBug (DropLoop E H₀ rest) (do
      let pnSpace ← h.getPacketNumberSpace E
      h.ignoreError ((pnSpace.history.Remove (pnSpace.history.elements x).PacketNumber).map
        fun history => h.setPacketNumberSpace E { pnSpace with history })) := by
  obtain ⟨hi, hsuf, s, hg, hlist, helts⟩ := hl
  have hw := (hi.space hg).wf
  have hx : x ∈ s.history.packetList := hlist ▸ List.mem_cons_self
  have hl := hw.lookup_of_mem hx
  have hrest : rest <:+ H₀.packetList := (List.suffix_cons x rest).trans hsuf
  obtain ⟨done, hdone⟩ := hrest
  have hsi : SpaceInv E { s with history :=
      (s.history.erasePacket x (s.history.elements x).PacketNumber).recount } := by
    refine ⟨(Remove_spec hw hl).1, ?_⟩
    have hview : (s.history.erasePacket x (s.history.elements x).PacketNumber).recount.view =
        rest.map H₀.elements := by
      simp [sentPacketHistory.view, hlist, helts]
    have hv : ViewInv E (done.map H₀.elements ++ rest.map H₀.elements) := by
      rw [← List.map_append, hdone]
      exact hv₀
    rw [hview]
    exact hv.of_append_right
  rw [hg]
  refine Except.Post.bind (P := fun s' => s' = s) rfl fun s' hs => ?_
  subst s'
  rw [Remove_eq hw hl]
  exact Except.Post.intro rfl ⟨hi.set hsi, ⟨done, hdone⟩, _,
    getPacketNumberSpace_set_self (getPacketNumberSpace_ne hg), by simp [hlist], by simp [helts]⟩

theorem dropSpace_post {h : sentPacketHandler} (hi : Inv h) (E : EncryptionLevel) :
    Except.Post NotBug Inv (dropSpace E h) := by
  unfold dropSpace
  refine Except.Post.bind (getPacketNumberSpace_post h E) fun s hs => ?_
  dsimp only
  rw [iterateAll_collectAll]
  exact (Except.Post.foldlM (DropLoop E s.history) _ h
    ⟨hi, List.suffix_refl _, s, hs, rfl, rfl⟩
    fun x rest h' hl => DropLoop.step (hi.space hs).view x rest h' hl).mono fun _ hl => hl.1

theorem SetHandshakeComplete_post {h : sentPacketHandler} (hi : Inv h) :
    Except.Post NotBug Inv h.SetHandshakeComplete := by
  unfold SetHandshakeComplete
  refine Except.Post.bind (dropSpace_post hi _) fun h₁ hi₁ => ?_
  refine Except.Post.bind (dropSpace_post hi₁ _) fun h₂ hi₂ => ?_
  exact Except.Post.of_pure (hi₂.of_histories rfl rfl)

/-! ### The other calls -/

theorem SpaceInv.newPacketNumberSpace (lvl : EncryptionLevel) (initialPN : Nat) (num : UInt16) :
    SpaceInv lvl (newPacketNumberSpace initialPN num) :=
  ⟨WF.newSentPacketHistory, ViewInv.nil⟩

theorem Inv.newSentPacketHandler (initialPacketNumber : Nat) (num₁ num₂ num₃ : UInt16) :
    Inv (NewSentPacketHandler initialPacketNumber num₁ num₂ num₃) :=
  ⟨SpaceInv.newPacketNumberSpace _ _ _, SpaceInv.newPacketNumberSpace _ _ _,
    SpaceInv.newPacketNumberSpace _ _ _, rfl⟩

theorem ResetForRetry_inv {h : sentPacketHandler} (hi : Inv h) (num₁ num₂ : UInt16) :
    Inv (h.ResetForRetry num₁ num₂) := by
  unfold ResetForRetry
  exact ⟨SpaceInv.newPacketNumberSpace _ _ _, hi.handshake, hi.oneRTT, hi.dropped⟩

theorem PopPacketNumber_post {h : sentPacketHandler} (hi : Inv h) (E : EncryptionLevel)
    (num : UInt16) : Except.Post NotBug (fun r => Inv r.2) (h.PopPacketNumber E num) := by
  unfold PopPacketNumber
  refine Except.Post.bind (getPacketNumberSpace_post h E) fun s hs => ?_
  split
  · exact Except.Post.of_pure (hi.of_histories (histories_set hs rfl) (by simp))

/-! ### Runs -/

/-- What the session guarantees of a call: a sent packet carries no retransmission links and
is numbered above and sent no earlier than the packets of its space; a retransmission is a
batch of such packets of one encryption level, in order. -/
def Admissible (h : sentPacketHandler) : Event → Prop
  | .sentPacket packet => SentAfter h packet
  | .sentPacketsAsRetransmission packets _ => BatchAfter h packets
  | _ => True

instance (h : sentPacketHandler) : (e : Event) → Decidable (Admissible h e)
  | .sentPacket packet => inferInstanceAs (Decidable (SentAfter h packet))
  | .sentPacketsAsRetransmission packets _ => inferInstanceAs (Decidable (BatchAfter h packets))
  | .receivedAck .. => isTrue trivial
  | .onAlarm .. => isTrue trivial
  | .dequeuePacketForRetransmission => isTrue trivial
  | .dequeueProbePacket => isTrue trivial
  | .setHandshakeComplete => isTrue trivial
  | .resetForRetry .. => isTrue trivial
  | .popPacketNumber .. => isTrue trivial

theorem handle_post {h : sentPacketHandler} (hi : Inv h) {e : Event} (he : Admissible h e) :
    Except.Post NotBug Inv (h.handle e) := by
  cases e with
  | sentPacket packet => exact SentPacket_post hi he
  | sentPacketsAsRetransmission packets retransmissionOf =>
    exact SentPacketsAsRetransmission_post hi he
  | receivedAck ackFrame pn encLevel rcvTime delayUntilLost =>
    exact ReceivedAck_post hi ackFrame pn encLevel rcvTime delayUntilLost
  | onAlarm now delayUntilLost => exact OnAlarm_post hi now delayUntilLost
  | dequeuePacketForRetransmission => exact Except.Post.of_pure (hi.of_histories (by simp) (by simp))
  | dequeueProbePacket => exact (DequeueProbePacket_post hi).map fun _ hr => hr
  | setHandshakeComplete => exact SetHandshakeComplete_post hi
  | resetForRetry num₁ num₂ => exact Except.Post.of_pure (ResetForRetry_inv hi num₁ num₂)
  | popPacketNumber encLevel num => exact (PopPacketNumber_post hi encLevel num).map fun _ hr => hr

theorem Inv.of_reachable {initialPacketNumber : Nat} {num₁ num₂ num₃ : UInt16}
    {h : sentPacketHandler}
    (hr : Reachable step Admissible (NewSentPacketHandler initialPacketNumber num₁ num₂ num₃) h) :
    Inv h :=
  hr.invariant (Inv.newSentPacketHandler _ _ _ _) fun _ _ _ hi he hst =>
    (handle_post hi he).of_eq_ok (Except.toOption_eq_some_iff.mp hst)

/-- In every reachable state no ignored error has been logged, no admissible call fails with
a bug, and every packet number a packet lists among its retransmissions is a packet of its
space. -/
theorem reachable_no_bug {initialPacketNumber : Nat} {num₁ num₂ num₃ : UInt16}
    {h : sentPacketHandler}
    (hr : Reachable step Admissible (NewSentPacketHandler initialPacketNumber num₁ num₂ num₃) h) :
    h.droppedErrors = [] ∧
      (∀ e, Admissible h e → ∀ err, h.handle e = .error err → ¬ err.IsBug) ∧
      ∀ lvl s, h.getPacketNumberSpace lvl = .ok s → ∀ P ∈ s.history.view,
        ∀ r ∈ P.retransmittedAs, ∃ R ∈ s.history.view, R.PacketNumber = r := by
  have hi := Inv.of_reachable hr
  refine ⟨hi.dropped, fun e he err herr => (handle_post hi he).of_eq_error herr, ?_⟩
  intro lvl s hg P hP r hr'
  obtain ⟨R, hR, hRpn, -⟩ := (hi.space hg).view.links P hP r hr'
  exact ⟨R, hR, hRpn⟩

/-- An Initial packet of 100 bytes carrying a PING frame. -/
def initialPing : Packet where
  PacketNumber := 0
  PacketType := .PacketTypeInitial
  Frames := [.ping]
  Length := 100
  EncryptionLevel := .EncryptionInitial
  SendTime := 0

theorem no_bug_after_initialPing : ∃ h, run step Admissible (NewSentPacketHandler 0 0 0 0)
      [.sentPacket initialPing] = some h ∧ h.droppedErrors = [] ∧
      (∀ e, Admissible h e → ∀ err, h.handle e = .error err → ¬ err.IsBug) ∧
      ∀ lvl s, h.getPacketNumberSpace lvl = .ok s → ∀ P ∈ s.history.view,
        ∀ r ∈ P.retransmittedAs, ∃ R ∈ s.history.view, R.PacketNumber = r := by
  have hrun : run step Admissible (NewSentPacketHandler 0 0 0 0)
      [.sentPacket initialPing] = some _ := rfl
  exact ⟨_, hrun, reachable_no_bug (reachable_of_run .init hrun)⟩

end sentPacketHandler

end QuicGo.Ackhandler
