import QuicGo.Ackhandler.LossDetection

/-! Processing an acknowledgement keeps the invariant and raises none of the errors the source marks
as bugs. `determineNewlyAckedPackets` cannot report the BUG of acking a packet outside its range:
the range index stops at the first range at or above the packet, and the last index it can reach is
that of the range holding the largest acknowledged packet. -/
namespace QuicGo.Ackhandler
namespace sentPacketHandler
open QuicGo.Protocol QuicGo.Wire QuicGo.Lib sentPacketHistory

/-! ### Newly acknowledged packets -/

/-- `advanceRange` keeps the index in bounds, and stops at a range reaching up to the packet
or at the highest range. -/
theorem advanceRange_spec (ranges : List AckRange) (pn : Nat) (i : Nat)
    (hi : i ≤ ranges.length - 1) :
    advanceRange ranges pn i ≤ ranges.length - 1 ∧
      (pn ≤ (ranges.getD (ranges.length - 1 - advanceRange ranges pn i) default).Largest ∨
        advanceRange ranges pn i = ranges.length - 1) := by
  fun_induction advanceRange ranges pn i with
  | case1 i hcond ih => exact ih (by omega)
  | case2 i hcond =>
    refine ⟨hi, ?_⟩
    by_cases hle : pn ≤ (ranges.getD (ranges.length - 1 - i) default).Largest
    · exact .inl hle
    · exact .inr (by omega)

theorem getD_zero_Largest {ackFrame : AckFrame} {largestAcked : Nat}
    (hl : ackFrame.LargestAcked = some largestAcked) :
    (ackFrame.AckRanges.getD 0 default).Largest = largestAcked := by
  unfold AckFrame.LargestAcked at hl
  cases hr : ackFrame.AckRanges with
  | nil => simp [hr] at hl
  | cons r rs => simpa [hr] using hl

/-- The state of the iteration of `determineNewlyAckedPackets` at the elements `rest` still
to visit: the range index is in bounds, and the acked elements come before `rest` in the
list. -/
def AckedIter (H : sentPacketHistory) (ackFrame : AckFrame) (rest : List Nat)
    (st : Nat × List Nat) : Prop :=
  st.1 ≤ ackFrame.AckRanges.length - 1 ∧ (st.2 ++ rest).Sublist H.packetList

theorem ackedCallback_post {H : sentPacketHistory} {ackFrame : AckFrame}
    {lowestAcked largestAcked : Nat} (hl : ackFrame.LargestAcked = some largestAcked)
    (el : Nat) (rest : List Nat) (st : Nat × List Nat) (hst : AckedIter H ackFrame (el :: rest) st) :
    Except.Post NotBug (fun r => AckedIter H ackFrame rest r.2)
      (ackedCallback ackFrame lowestAcked largestAcked st el (H.elements el)) := by
  obtain ⟨i, acked⟩ := st
  obtain ⟨hi, hsub⟩ := hst
  have hskip : (acked ++ rest).Sublist H.packetList :=
    ((List.sublist_cons_self el rest).append_left acked).trans hsub
  have htake : ((acked ++ [el]) ++ rest).Sublist H.packetList := by simpa using hsub
  unfold ackedCallback
  dsimp only
  split_ifs with hlow hhigh hmissing hsmall hlarge
  · exact ⟨hi, hskip⟩
  · exact ⟨hi, hskip⟩
  · obtain ⟨-, hcase⟩ := advanceRange_spec ackFrame.AckRanges (H.elements el).PacketNumber i hi
    rcases hcase with hle | hlast
    · exact absurd hle (not_le.mpr hlarge)
    · rw [hlast, Nat.sub_self, getD_zero_Largest hl] at hlarge
      exact absurd hlarge (not_lt.mpr (not_lt.mp hhigh))
  · exact ⟨(advanceRange_spec _ _ i hi).1, htake⟩
  · exact ⟨(advanceRange_spec _ _ i hi).1, hskip⟩
  · exact ⟨hi, htake⟩

theorem determineNewlyAckedPackets_post {h : sentPacketHandler} {E : EncryptionLevel}
    {s : packetNumberSpace} (hg : h.getPacketNumberSpace E = .ok s) (ackFrame : AckFrame) :
    Except.Post NotBug (fun acked => acked.Sublist s.history.packetList)
      (h.determineNewlyAckedPackets ackFrame E) := by
  unfold determineNewlyAckedPackets
  rw [hg]
  refine Except.Post.bind (P := fun s' => s' = s) rfl fun s' hs => ?_
  subst s'
  split
  · next lowestAcked _ =>
    split
    · next largestAcked hl =>
      refine Except.Post.bind (Iterate_go_post s.history (AckedIter s.history ackFrame)
        (fun el rest st hst => ackedCallback_post hl el rest st hst) _ (0, [])
        ⟨Nat.zero_le _, List.Sublist.refl _⟩) fun ⟨_, acked⟩ ⟨rest, _, hsub⟩ => ?_
      exact List.sublist_append_left acked rest |>.trans hsub
    · exact Except.Post.of_throw (notBug_panic _)
  · exact Except.Post.of_throw (notBug_panic _)

/-! ### Stopping the retransmissions of an acknowledged packet -/

/-- The history `H'` differs from `H` at most in the flags of its elements. -/
structure MarkedFrom (H H' : sentPacketHistory) : Prop where
  wf : H'.WF
  list : H'.packetList = H.packetList
  map : H'.packetMap = H.packetMap
  forget : ∀ x, (H'.elements x).forgetCanBe = (H.elements x).forgetCanBe

namespace MarkedFrom

variable {H H₁ H₂ H₃ : sentPacketHistory}

theorem refl (hw : H.WF) : MarkedFrom H H :=
  ⟨hw, rfl, rfl, fun _ => rfl⟩

theorem trans (h₁₂ : MarkedFrom H₁ H₂) (h₂₃ : MarkedFrom H₂ H₃) : MarkedFrom H₁ H₃ :=
  ⟨h₂₃.wf, h₂₃.list.trans h₁₂.list, h₂₃.map.trans h₁₂.map,
    fun x => (h₂₃.forget x).trans (h₁₂.forget x)⟩

theorem mark (hw : H.WF) {el : Nat} (hel : el ∈ H.packetList) :
    MarkedFrom H (markedHistory H el) :=
  ⟨markedHistory_wf hw hel, rfl, rfl, markedHistory_forgetCanBe H el⟩

theorem packetNumber (hm : MarkedFrom H₁ H₂) (x : Nat) :
    (H₂.elements x).PacketNumber = (H₁.elements x).PacketNumber :=
  (Packet.fields_eq_of_forgetCanBe_eq (hm.forget x)).1

theorem retransmittedAs (hm : MarkedFrom H₁ H₂) (x : Nat) :
    (H₂.elements x).retransmittedAs = (H₁.elements x).retransmittedAs :=
  (Packet.fields_eq_of_forgetCanBe_eq (hm.forget x)).2.2.2.1

theorem view {lvl : EncryptionLevel} (hm : MarkedFrom H₁ H₂) (hv : ViewInv lvl H₁.view) :
    ViewInv lvl H₂.view := by
  unfold sentPacketHistory.view
  rw [hm.list]
  exact hv.of_same (SameUpToCanBe.map_of_forget _ fun x _ => (hm.forget x).symm)

end MarkedFrom

/-- The measure of the recursion of `stopRetransmissionsFor`: the number of listed packets
numbered `pn` or higher. -/
def numAtLeast (H : sentPacketHistory) (pn : Nat) : Nat :=
  H.packetList.countP fun y => decide (pn ≤ (H.elements y).PacketNumber)

theorem numAtLeast_congr {H H' : sentPacketHistory} (hm : MarkedFrom H H') (pn : Nat) :
    numAtLeast H' pn = numAtLeast H pn := by
  unfold numAtLeast
  rw [hm.list]
  exact List.countP_congr fun y _ => by rw [hm.packetNumber y]

theorem numAtLeast_lt {H : sentPacketHistory} {el : Nat} (hel : el ∈ H.packetList) {r : Nat}
    (hr : (H.elements el).PacketNumber < r) :
    numAtLeast H r < numAtLeast H (H.elements el).PacketNumber :=
  List.countP_lt_countP_of_mem (fun y _ hy => by simp only [decide_eq_true_eq] at hy ⊢; omega)
    hel (by simp) (by simpa using hr)

theorem numAtLeast_le_Len {H : sentPacketHistory} (hw : H.WF) (pn : Nat) :
    numAtLeast H pn ≤ H.Len :=
  List.countP_le_length.trans hw.length_le_Len

/-- With fuel above the measure, `stopRetransmissionsFor` on a listed packet finds every
retransmission it follows, returns no error and only clears flags. -/
theorem stopRetransmissionsFor_spec {lvl : EncryptionLevel} (fuel : Nat) :
    ∀ (H : sentPacketHistory) (el : Nat), H.WF → ViewInv lvl H.view → el ∈ H.packetList →
      numAtLeast H (H.elements el).PacketNumber < fuel →
      ∃ H', stopRetransmissionsFor fuel H (H.elements el).PacketNumber
        (H.elements el).retransmittedAs = (H', [], none) ∧ MarkedFrom H H' := by
  induction fuel with
  | zero => intro _ _ _ _ _ hlt; omega
  | succ fuel ih =>
    intro H el hw hv hel hlt
    have hstep : ∀ Hc r, MarkedFrom H Hc → r ∈ (H.elements el).retransmittedAs →
        ∃ H', stopRetransmissionsStep (stopRetransmissionsFor fuel) (H.elements el).PacketNumber
          (Hc, [], none) r = (H', [], none) ∧ MarkedFrom H H' := by
      intro Hc r hm hr
      obtain ⟨R, hR, hRpn, hlt', -⟩ := hv.links _ (List.mem_map_of_mem hel) r hr
      obtain ⟨b, hb, rfl⟩ := List.mem_map.mp hR
      have hlook : Hc.GetPacket r = some b := by
        rw [GetPacket, hm.map, ← hRpn]
        exact hw.lookup_of_mem hb
      have hmeasure : numAtLeast Hc (Hc.elements b).PacketNumber < fuel := by
        rw [numAtLeast_congr hm, hm.packetNumber b]
        have := numAtLeast_lt hel (hRpn ▸ hlt')
        omega
      obtain ⟨H', hcall, hm'⟩ := ih Hc b hm.wf (hm.view hv) (hm.list ▸ hb) hmeasure
      refine ⟨H', ?_, hm.trans hm'⟩
      simp [stopRetransmissionsStep, hlook, hcall]
    have hfold : ∀ rs : List Nat, (∀ r ∈ rs, r ∈ (H.elements el).retransmittedAs) →
        ∀ Hc, MarkedFrom H Hc →
        ∃ H', rs.foldl (stopRetransmissionsStep (stopRetransmissionsFor fuel)
          (H.elements el).PacketNumber) (Hc, [], none) = (H', [], none) ∧ MarkedFrom H H' := by
      intro rs
      induction rs with
      | nil => intro _ Hc hm; exact ⟨Hc, rfl, hm⟩
      | cons r rs ihrs =>
        intro hrs Hc hm
        obtain ⟨H', hr, hm'⟩ := hstep Hc r hm (hrs r List.mem_cons_self)
        rw [List.foldl_cons, hr]
        exact ihrs (fun r' hr' => hrs r' (List.mem_cons_of_mem r hr')) H' hm'
    simp only [stopRetransmissionsFor, MarkCannotBeRetransmitted_eq hw (hw.lookup_of_mem hel)]
    exact hfold _ (fun _ h => h) _ (MarkedFrom.mark hw hel)

/-! ### Unlinking an acknowledged retransmission -/

section Unlink

variable {H : sentPacketHistory} {p : Packet}

@[simp] theorem unlinkFromParent_packetList : (unlinkFromParent H p).packetList = H.packetList := by
  unfold unlinkFromParent
  split <;> (try split) <;> rfl

@[simp] theorem unlinkFromParent_packetMap : (unlinkFromParent H p).packetMap = H.packetMap := by
  unfold unlinkFromParent
  split <;> (try split) <;> rfl

theorem unlinkFromParent_elements (y : Nat) : ∃ ra,
    (unlinkFromParent H p).elements y = { H.elements y with retransmittedAs := ra } := by
  unfold unlinkFromParent
  split
  · split
    · exact ⟨_, rfl⟩
    · next parent _ =>
      by_cases hy : y = parent
      · subst hy
        exact ⟨_, by simp; rfl⟩
      · exact ⟨_, by simp [Function.update_of_ne hy]; rfl⟩
  · exact ⟨_, rfl⟩

theorem unlinkFromParent_packetNumber (y : Nat) :
    ((unlinkFromParent H p).elements y).PacketNumber = (H.elements y).PacketNumber := by
  obtain ⟨ra, hra⟩ := unlinkFromParent_elements (H := H) (p := p) y
  rw [hra]

theorem unlinkFromParent_wf (hw : H.WF) : (unlinkFromParent H p).WF := by
  unfold unlinkFromParent
  split
  · split
    · exact hw
    · exact hw.setElement_of_keep (fun _ => rfl) (fun _ => rfl)
  · exact hw

theorem unlinkFromParent_view {lvl : EncryptionLevel} (hw : H.WF) (hv : ViewInv lvl H.view) :
    ViewInv lvl (unlinkFromParent H p).view := by
  unfold unlinkFromParent
  split
  · split
    · exact hv
    · next parent hl =>
      rw [hw.view_setElement ((hw.map _ _).1 hl).1]
      refine hv.shrink_retransmittedAs _
        (fun v => if v.retransmittedAs.length = 1 then [] else
          v.retransmittedAs.filter (· ≠ p.PacketNumber)) fun q => ?_
      split
      · exact List.nil_subset _
      · exact List.filter_subset_self _
  · exact hv

theorem eq_of_mem_view (hw : H.WF) {x : Nat} (hx : x ∈ H.packetList) {R : Packet}
    (hR : R ∈ H.view) (hpn : R.PacketNumber = (H.elements x).PacketNumber) : R = H.elements x := by
  obtain ⟨b, hb, rfl⟩ := List.mem_map.mp hR
  rw [hw.eq_of_pn_eq hb hx hpn]

/-- After the write, no packet lists the acknowledged one among its retransmissions: a packet
that did is its original, found through `retransmissionOf`. -/
theorem unlinkFromParent_unlinked {lvl : EncryptionLevel} (hw : H.WF) (hv : ViewInv lvl H.view)
    {x : Nat} (hx : x ∈ H.packetList) :
    ∀ q ∈ (unlinkFromParent H (H.elements x)).view,
      (H.elements x).PacketNumber ∉ q.retransmittedAs := by
  have horig : ∀ q ∈ H.view, (H.elements x).PacketNumber ∈ q.retransmittedAs →
      (H.elements x).isRetransmission = true ∧
        (H.elements x).retransmissionOf = q.PacketNumber := by
    intro q hq hmem
    obtain ⟨R, hR, hRpn, -, hretr, hof⟩ := hv.links q hq _ hmem
    rw [← eq_of_mem_view hw hx hR hRpn]
    exact ⟨hretr, hof⟩
  unfold unlinkFromParent
  split
  · split
    · next hnone =>
      intro q hq hmem
      obtain ⟨-, hof⟩ := horig q hq hmem
      obtain ⟨y, hy, rfl⟩ := List.mem_map.mp hq
      rw [GetPacket, hof, hw.lookup_of_mem hy] at hnone
      exact absurd hnone (Option.some_ne_none y)
    · next parent hl =>
      obtain ⟨hpar, hparpn⟩ := (hw.map _ _).1 hl
      rw [hw.view_setElement hpar]
      intro q hq hmem
      obtain ⟨q₀, hq₀, rfl⟩ := List.mem_map.mp hq
      by_cases hc : q₀.PacketNumber = (H.elements parent).PacketNumber
      · simp only [hc, if_true] at hmem
        split at hmem
        · simp at hmem
        · simp at hmem
      · simp only [hc, if_false] at hmem
        obtain ⟨-, hof⟩ := horig q₀ hq₀ hmem
        exact hc (hof ▸ hparpn).symm
  · next hretr =>
    intro q hq hmem
    exact hretr (horig q hq hmem).1

end Unlink

/-! ### One acknowledged packet -/

theorem onPacketAcked_post {h : sentPacketHandler} {E : EncryptionLevel} {s : packetNumberSpace}
    {x : Nat} (hi : Inv h) (hg : h.getPacketNumberSpace E = .ok s) (hx : x ∈ s.history.packetList) :
    Except.Post (fun _ => False) (fun h' => Inv h' ∧ ∃ s', h'.getPacketNumberSpace E = .ok s' ∧
      s'.history.packetList = s.history.packetList.erase x) (h.onPacketAcked E x) := by
  have hsi := hi.space hg
  have hne := getPacketNumberSpace_ne hg
  have hlvl : (s.history.elements x).EncryptionLevel = E :=
    hsi.view.level _ (List.mem_map_of_mem hx)
  have hl : s.history.packetMap.lookup (s.history.elements x).PacketNumber = some x :=
    hsi.wf.lookup_of_mem hx
  set H₁ := unlinkFromParent s.history (s.history.elements x) with hH₁
  have hw₁ : H₁.WF := unlinkFromParent_wf hsi.wf
  have hx₁ : x ∈ H₁.packetList := by simpa [H₁] using hx
  obtain ⟨H', hstop, hm⟩ := stopRetransmissionsFor_spec (H₁.Len + 1) H₁ x hw₁
    (unlinkFromParent_view hsi.wf hsi.view) hx₁ (Nat.lt_succ_of_le (numAtLeast_le_Len hw₁ _))
  rw [unlinkFromParent_packetNumber] at hstop
  have hl' : H'.packetMap.lookup (s.history.elements x).PacketNumber = some x := by
    rw [hm.map, hH₁, unlinkFromParent_packetMap]
    exact hl
  have hunlinked : ∀ q ∈ H'.view, (s.history.elements x).PacketNumber ∉ q.retransmittedAs := by
    intro q hq
    obtain ⟨y, hy, rfl⟩ := List.mem_map.mp hq
    rw [hm.retransmittedAs]
    exact unlinkFromParent_unlinked hsi.wf hsi.view hx _
      (List.mem_map_of_mem (hm.list ▸ hy))
  have hsi' : SpaceInv E { s with history := (H'.erasePacket x (s.history.elements x).PacketNumber).recount } := by
    obtain ⟨hw', hview⟩ := Remove_spec hm.wf hl'
    refine ⟨hw', ?_⟩
    rw [view_recount, hview]
    exact (hm.view (unlinkFromParent_view hsi.wf hsi.view)).filter_unlinked _ hunlinked
  unfold onPacketAcked
  rw [hg]
  refine Except.Post.bind (P := fun s' => s' = s) rfl fun s' hs => ?_
  subst s'
  dsimp only
  rw [hlvl, hg]
  refine Except.Post.bind (P := fun s' => s' = s) rfl fun s' hs => ?_
  subst s'
  refine Except.Post.ite (fun hnone => ?_) (fun _ => ?_)
  · rw [GetPacket, hl] at hnone
    exact absurd hnone (by simp)
  · refine Except.Post.bind (P := fun s' => s' = { s with history := H₁ }) ?_ fun s' hs => ?_
    · refine Except.Post.intro ?_ rfl
      split <;> exact getPacketNumberSpace_set_self (h := h) (s := { s with history := H₁ }) hne
    · subst s'
      dsimp only
      rw [hstop]
      dsimp only
      rw [Remove_eq hm.wf hl']
      refine Except.Post.bind (P := fun H => H = (H'.erasePacket x (s.history.elements x).PacketNumber).recount) rfl
        fun H hH => ?_
      subst H
      refine Except.Post.of_pure ⟨hi.of_frame ?_ (getPacketNumberSpace_set_self hne) hsi', _,
        getPacketNumberSpace_set_self hne, by simp [hm.list, hH₁]⟩
      set X := h.setPacketNumberSpace E { s with history := H₁ }
      set G := if (s.history.elements x).includedInBytesInFlight = true then
        { X with bytesInFlight := X.bytesInFlight - (s.history.elements x).Length } else X
      have hfG : Frame E h G := (Frame.set E h _).trans (Frame.ite (Frame.of_spaces rfl rfl rfl rfl))
      have hfF : Frame E h { G.setPacketNumberSpace E { s with history := H' } with
          droppedErrors := G.droppedErrors ++ [] } :=
        (hfG.trans (Frame.set E G _)).trans (Frame.of_spaces rfl rfl rfl (by simp))
      exact hfF.trans (Frame.set E _ _)

/-! ### Receiving an acknowledgement -/

/-- The invariant of the loop of `ReceivedAck` over the acknowledged elements `rest` still to
handle: they are distinct and still listed in the space. -/
def AckLoop (E : EncryptionLevel) (rest : List Nat) (h : sentPacketHandler) : Prop :=
  Inv h ∧ rest.Nodup ∧ ∃ s, h.getPacketNumberSpace E = .ok s ∧ ∀ y ∈ rest, y ∈ s.history.packetList

theorem AckLoop.step {E : EncryptionLevel} (x : Nat) (rest : List Nat) (h : sentPacketHandler)
    (hl : AckLoop E (x :: rest) h) :
    Except.Post NotBug (AckLoop E rest) (do
      let p := (← h.getPacketNumberSpace E).history.elements x
      let h := if p.largestAcked ≠ 0 ∧ E = .Encryption1RTT then
          { h with lowestNotConfirmedAcked := max h.lowestNotConfirmedAcked (p.largestAcked + 1) }
        else h
      h.onPacketAcked E x) := by
  obtain ⟨hi, hnd, s, hg, hmem⟩ := hl
  rw [hg]
  refine Except.Post.bind (P := fun s' => s' = s) rfl fun s' hs => ?_
  subst s'
  have hsp : ∀ h' : sentPacketHandler, h'.initialPackets = h.initialPackets →
      h'.handshakePackets = h.handshakePackets → h'.oneRTTPackets = h.oneRTTPackets →
      h'.droppedErrors = h.droppedErrors →
      Except.Post NotBug (AckLoop E rest) (h'.onPacketAcked E x) := by
    intro h' hi₁ hh₁ ho₁ hd₁
    have hg' : h'.getPacketNumberSpace E = .ok s := by
      rw [getPacketNumberSpace_of_spaces hi₁ hh₁ ho₁]
      exact hg
    have hi' : Inv h' := hi.of_histories (by simp [histories, hi₁, hh₁, ho₁]) hd₁
    refine (onPacketAcked_post hi' hg' (hmem x List.mem_cons_self)).imp (fun _ hf => hf.elim)
      fun h'' hpost => ?_
    obtain ⟨hi'', s'', hg'', hlist''⟩ := hpost
    refine ⟨hi'', (List.nodup_cons.mp hnd).2, s'', hg'', fun y hy => ?_⟩
    rw [hlist'']
    have hyx : y ≠ x := fun hyx => (List.nodup_cons.mp hnd).1 (hyx ▸ hy)
    exact (List.mem_erase_of_ne hyx).mpr (hmem y (List.mem_cons_of_mem x hy))
  dsimp only
  split
  · exact hsp _ rfl rfl rfl rfl
  · exact hsp h rfl rfl rfl rfl

theorem ReceivedAck_post {h : sentPacketHandler} (hi : Inv h) (ackFrame : AckFrame)
    (withPacketNumber : Nat) (E : EncryptionLevel) (rcvTime delayUntilLost : Int) :
    Except.Post NotBug Inv (h.ReceivedAck ackFrame withPacketNumber E rcvTime delayUntilLost) := by
  unfold ReceivedAck
  refine Except.Post.bind (getPacketNumberSpace_post h E) fun s hs => ?_
  split
  · next largestAcked _ =>
    set s₁ := { s with largestAcked := max s.largestAcked largestAcked }
    have hi₁ : Inv (h.setPacketNumberSpace E s₁) := hi.of_histories (histories_set hs rfl) (by simp)
    have hg₁ : (h.setPacketNumberSpace E s₁).getPacketNumberSpace E = .ok s₁ :=
      getPacketNumberSpace_set_self (getPacketNumberSpace_ne hs)
    dsimp only
    refine Except.Post.ite (fun _ => Except.Post.throw_bind (notBug_invalidAckData _)) fun _ => ?_
    split
    · refine Except.Post.ite (fun _ => Except.Post.throw_bind (notBug_invalidAckData _))
        fun _ => ?_
      refine Except.Post.bind (determineNewlyAckedPackets_post hg₁ ackFrame) fun acked hacked => ?_
      refine Except.Post.ite (fun _ => Except.Post.of_pure hi₁) fun _ => ?_
      have hw := (hi₁.space hg₁).wf
      refine Except.Post.bind (Except.Post.foldlM (AckLoop E) acked _
        ⟨hi₁, hw.nodup.sublist hacked, s₁, hg₁, fun y hy => hacked.subset hy⟩
        fun x rest h' hl => AckLoop.step x rest h' hl) fun h' hl => ?_
      exact detectLostPackets_post hl.1 rcvTime E delayUntilLost
    · exact Except.Post.of_throw (notBug_panic _)
  · exact Except.Post.of_throw (notBug_panic _)

end sentPacketHandler

end QuicGo.Ackhandler
