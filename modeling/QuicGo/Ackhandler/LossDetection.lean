import QuicGo.Ackhandler.HandlerInv

/-! Loss detection keeps the invariant. `detectLostPackets` collects the packets up to the largest
acknowledged one that were sent longer than the loss delay ago, and `onPacketLost` queues and
removes them one after the other. -/
namespace QuicGo.Ackhandler
namespace sentPacketHandler
open QuicGo.Protocol QuicGo.Lib sentPacketHistory

/-- Whether `detectLostPackets` declares a packet lost. -/
def IsLost (now : Int) (largestAcked : Nat) (delayUntilLost : Int) (p : Packet) : Bool :=
  decide (p.PacketNumber ≤ largestAcked) && decide (now - p.SendTime > delayUntilLost)

section Collect

variable (now : Int) (E : EncryptionLevel) (largestAcked : Nat) (delayUntilLost : Int)

/-- The iteration stops at the first packet above the largest acknowledged one; as the list is
sorted, it collects exactly the lost packets. -/
theorem iterateAll_lostCallback {H : sentPacketHistory} (hw : H.WF) (lossTime : Option Int) :
    (iterateAll H (lostCallback now E largestAcked delayUntilLost) ([], lossTime)).1 =
      H.packetList.filter fun x => IsLost now largestAcked delayUntilLost (H.elements x) := by
  set c : Packet → Bool := fun p => decide (p.PacketNumber ≤ largestAcked)
  set f := fun s el p => (lostCallback now E largestAcked delayUntilLost s el p).2
  have hcb : ∀ s el, (.ok (lostCallback now E largestAcked delayUntilLost s el (H.elements el)) :
      Except Empty _) = .ok (c (H.elements el),
        if c (H.elements el) then f s el (H.elements el) else s) := by
    rintro ⟨lost, lossTime⟩ el
    by_cases hle : (H.elements el).PacketNumber ≤ largestAcked
    · simp only [f, c, lostCallback, hle, decide_true, if_true, not_lt.mpr hle, if_false]
      split <;> (try split) <;> rfl
    · simp [f, c, lostCallback, hle, lt_of_not_ge hle]
  have hgo : Iterate.go H (fun s el p =>
      (.ok (lostCallback now E largestAcked delayUntilLost s el p) : Except Empty _))
      H.packetList ([], lossTime) =
      .ok ((H.packetList.takeWhile fun el => c (H.elements el)).foldl
        (fun s el => f s el (H.elements el)) ([], lossTime)) :=
    Iterate_go_eq_foldl H c f hcb _ _
  have htw : H.packetList.takeWhile (fun el => c (H.elements el)) =
      H.packetList.filter fun el => c (H.elements el) :=
    List.takeWhile_eq_filter_of_pairwise
      (fun a b hab hb => by simp only [c, decide_eq_true_eq] at hb ⊢; omega)
      hw.sorted
  have hf : ∀ s x, (f s x (H.elements x)).1 =
      if IsLost now largestAcked delayUntilLost (H.elements x) then s.1 ++ [x] else s.1 := by
    rintro ⟨lost, lossTime⟩ x
    simp only [f, lostCallback, IsLost]
    by_cases hle : (H.elements x).PacketNumber ≤ largestAcked
    · simp only [not_lt.mpr hle, if_false, hle, decide_true, Bool.true_and]
      split
      · simp_all
      · split <;> simp_all
    · simp [lt_of_not_ge hle, hle]
  simp only [iterateAll, Iterate, hgo, htw]
  rw [List.foldl_append_filter Prod.fst _ _ hf, List.nil_append, List.filter_filter]
  refine List.filter_congr fun x _ => ?_
  simp only [IsLost, c]
  cases decide ((H.elements x).PacketNumber ≤ largestAcked) <;> simp

end Collect

/-- The original of a lost retransmission is lost: it is numbered lower and was sent no
later. -/
theorem IsLost.of_link {lvl : EncryptionLevel} {V : List Packet} (hV : ViewInv lvl V)
    {now : Int} {largestAcked : Nat} {delayUntilLost : Int} {P R : Packet} (hP : P ∈ V)
    (hR : R ∈ V) (hlink : R.PacketNumber ∈ P.retransmittedAs)
    (hlost : IsLost now largestAcked delayUntilLost R = true) :
    IsLost now largestAcked delayUntilLost P = true := by
  obtain ⟨-, -, -, hlt, -⟩ := hV.links P hP _ hlink
  have hst := hV.sendTimes P hP R hR hlt
  simp only [IsLost, Bool.and_eq_true, decide_eq_true_eq] at hlost ⊢
  omega

/-! ### The loop over the lost packets -/

/-- The elements a history still lists while the loop is at `rest`: those that are not lost
and the lost ones still to come. -/
def stillListed (lost rest : List Nat) (x : Nat) : Bool :=
  decide (x ∉ lost ∨ x ∈ rest)

theorem erase_filter_stillListed {l lost rest : List Nat} {x : Nat} (hl : l.Nodup)
    (hx : x ∈ lost) (hxr : x ∉ rest) :
    (l.filter (stillListed lost (x :: rest))).erase x = l.filter (stillListed lost rest) := by
  rw [(hl.filter _).erase_eq_filter, List.filter_filter]
  refine List.filter_congr fun y _ => ?_
  by_cases hy : y = x
  · subst hy
    simp [stillListed, hx, hxr]
  · simp [stillListed, hy]

section Loop

variable {E : EncryptionLevel} {H₀ : sentPacketHistory} {now : Int} {largestAcked : Nat}
  {delayUntilLost : Int}

/-- At every step of the loop the original of a removed retransmission is removed too: it is
lost, and being numbered lower it precedes the retransmission among the lost packets. -/
theorem stillListed_closed (hw₀ : H₀.WF) (hv₀ : ViewInv E H₀.view) {rest : List Nat}
    (hsuf : rest <:+ H₀.packetList.filter fun x =>
      IsLost now largestAcked delayUntilLost (H₀.elements x))
    (a : Nat) (ha : a ∈ H₀.packetList) (b : Nat) (hb : b ∈ H₀.packetList)
    (hab : (H₀.elements b).PacketNumber ∈ (H₀.elements a).retransmittedAs)
    (hka : stillListed (H₀.packetList.filter fun x =>
      IsLost now largestAcked delayUntilLost (H₀.elements x)) rest a = true) :
    stillListed (H₀.packetList.filter fun x =>
      IsLost now largestAcked delayUntilLost (H₀.elements x)) rest b = true := by
  set lost := H₀.packetList.filter fun x => IsLost now largestAcked delayUntilLost (H₀.elements x)
  have haV := List.mem_map_of_mem (f := H₀.elements) ha
  have hbV := List.mem_map_of_mem (f := H₀.elements) hb
  by_contra hkb
  simp only [stillListed, decide_eq_true_eq, not_or, not_not] at hka hkb
  obtain ⟨hbl, hbr⟩ := hkb
  have hal : a ∈ lost :=
    List.mem_filter.mpr ⟨ha, IsLost.of_link hv₀ haV hbV hab (List.mem_filter.mp hbl).2⟩
  have har : a ∈ rest := hka.resolve_left (not_not.mpr hal)
  obtain ⟨done, hdone⟩ := hsuf
  have hbd : b ∈ done := (List.mem_append.mp (hdone ▸ hbl)).resolve_right hbr
  have hsorted : (done ++ rest).Pairwise fun a b =>
      (H₀.elements a).PacketNumber < (H₀.elements b).PacketNumber :=
    hdone ▸ hw₀.sorted.filter _
  have hba := (List.pairwise_append.mp hsorted).2.2 b hbd a har
  obtain ⟨-, -, -, hlt, -⟩ := hv₀.links _ haV _ hab
  omega

/-- The invariant of the loop of `detectLostPackets` at the lost elements `rest` still to
handle: only the space changed, and it lists the elements `stillListed` keeps, with the values
they had up to the flag. -/
def LostLoop (E : EncryptionLevel) (H₀ : sentPacketHistory) (lost : List Nat)
    (h₀ : sentPacketHandler) (rest : List Nat) (h : sentPacketHandler) : Prop :=
  Frame E h₀ h ∧ rest <:+ lost ∧ ∃ s, h.getPacketNumberSpace E = .ok s ∧ s.history.WF ∧
    s.history.packetList = H₀.packetList.filter (stillListed lost rest) ∧
    ∀ y, (s.history.elements y).forgetCanBe = (H₀.elements y).forgetCanBe

/-- One lost packet: its space loses the element, and the element values change at most in
the flag. -/
theorem onPacketLost_post {h : sentPacketHandler} {s : packetNumberSpace} {x : Nat}
    (hg : h.getPacketNumberSpace E = .ok s) (hw : s.history.WF) (hx : x ∈ s.history.packetList) :
    Except.Post (fun _ => False) (fun h' => Frame E h h' ∧ ∃ s',
      h'.getPacketNumberSpace E = .ok s' ∧ s'.history.WF ∧
      s'.history.packetList = s.history.packetList.erase x ∧
      ∀ y, (s'.history.elements y).forgetCanBe = (s.history.elements y).forgetCanBe)
      (h.onPacketLost E x) := by
  unfold onPacketLost
  rw [hg]
  refine Except.Post.bind (P := fun s' => s' = s) rfl fun s' hs => ?_
  subst s'
  dsimp only
  set p := s.history.elements x
  set h₁ := if p.includedInBytesInFlight = true then
    { h with bytesInFlight := h.bytesInFlight - p.Length } else h
  have hf₁ : Frame E h h₁ := by
    simp only [h₁]
    split <;> exact Frame.of_spaces rfl rfl rfl rfl
  have hg₁ : h₁.getPacketNumberSpace E = .ok s := by
    simp only [h₁]
    split <;> exact hg
  have hremove : ∀ h₂ s₂, Frame E h h₂ → h₂.getPacketNumberSpace E = .ok s₂ → s₂.history.WF →
      s₂.history.packetList = s.history.packetList →
      s₂.history.packetMap = s.history.packetMap →
      (∀ y, (s₂.history.elements y).forgetCanBe = (s.history.elements y).forgetCanBe) →
      Except.Post (fun _ => False) (fun h' => Frame E h h' ∧ ∃ s',
        h'.getPacketNumberSpace E = .ok s' ∧ s'.history.WF ∧
        s'.history.packetList = s.history.packetList.erase x ∧
        ∀ y, (s'.history.elements y).forgetCanBe = (s.history.elements y).forgetCanBe)
      (h₂.getPacketNumberSpace E >>= fun pnSpace => h₂.ignoreError
        ((pnSpace.history.Remove p.PacketNumber).map fun history =>
          h₂.setPacketNumberSpace E { pnSpace with history })) := by
    intro h₂ s₂ hf₂ hg₂ hw₂ hlist₂ hmap₂ helts₂
    rw [hg₂]
    refine Except.Post.bind (P := fun s' => s' = s₂) rfl fun s' hs => ?_
    subst s'
    have hl : s₂.history.packetMap.lookup p.PacketNumber = some x := hmap₂ ▸ hw.lookup_of_mem hx
    rw [Remove_eq hw₂ hl]
    refine ⟨hf₂.trans (Frame.set E h₂ _), _,
      getPacketNumberSpace_set_self (getPacketNumberSpace_ne hg₂), (Remove_spec hw₂ hl).1,
      by simp [hlist₂], fun y => ?_⟩
    simpa using helts₂ y
  refine Except.Post.ite (fun hcb => ?_) (fun _ => ?_)
  · obtain ⟨h₂, hq, hf, hg₂⟩ := queuePacketForRetransmission_frame hg₁ hw hx hcb
    rw [hq]
    exact hremove h₂ _ (hf₁.trans hf) hg₂ (markedHistory_wf hw hx) rfl rfl
      (markedHistory_forgetCanBe _ _)
  · exact hremove h₁ s hf₁ hg₁ hw rfl rfl fun _ => rfl

theorem LostLoop.step {lost : List Nat} (hw₀ : H₀.WF) (hlost : lost.Sublist H₀.packetList)
    {h₀ : sentPacketHandler} (x : Nat) (rest : List Nat) (h : sentPacketHandler)
    (hl : LostLoop E H₀ lost h₀ (x :: rest) h) :
    Except.Post NotBug (LostLoop E H₀ lost h₀ rest) (h.onPacketLost E x) := by
  obtain ⟨hf, hsuf, s, hg, hw, hlist, helts⟩ := hl
  have hnd : (x :: rest).Nodup := (hw₀.nodup.sublist hlost).sublist hsuf.sublist
  have hxl : x ∈ lost := hsuf.subset List.mem_cons_self
  have hx : x ∈ s.history.packetList := by
    rw [hlist]
    exact List.mem_filter.mpr ⟨hlost.subset hxl, by simp [stillListed]⟩
  refine (onPacketLost_post hg hw hx).imp (fun _ hfalse => hfalse.elim)
    fun h' ⟨hf', s', hg', hw', hlist', helts'⟩ => ⟨hf.trans hf', (List.suffix_cons x rest).trans hsuf,
      s', hg', hw', ?_, fun y => (helts' y).trans (helts y)⟩
  rw [hlist', hlist, erase_filter_stillListed hw₀.nodup hxl (List.nodup_cons.mp hnd).1]

/-- At the end of the loop the space lists the packets that are not lost, and they satisfy the
invariant because the lost ones hold the original of each lost retransmission. -/
theorem LostLoop.inv {h₀ h : sentPacketHandler} (hi₀ : Inv h₀) (hw₀ : H₀.WF)
    (hv₀ : ViewInv E H₀.view)
    (hl : LostLoop E H₀ (H₀.packetList.filter fun x =>
      IsLost now largestAcked delayUntilLost (H₀.elements x)) h₀ [] h) : Inv h := by
  obtain ⟨hf, -, s, hg, hw, hlist, helts⟩ := hl
  refine hi₀.of_frame hf hg ⟨hw, ?_⟩
  rw [view, hlist]
  exact (hv₀.filter_closed _ (stillListed_closed hw₀ hv₀ List.nil_suffix)).of_same
    (SameUpToCanBe.map_of_forget _ fun y _ => (helts y).symm)

end Loop

theorem detectLostPackets_post {h : sentPacketHandler} (hi : Inv h) (now : Int)
    (E : EncryptionLevel) (delayUntilLost : Int) :
    Except.Post NotBug Inv (h.detectLostPackets now E delayUntilLost) := by
  unfold detectLostPackets
  set h₁ := if E = .Encryption1RTT then { h with lossTime := none } else h
  have hi₁ : Inv h₁ := by
    simp only [h₁]
    split <;> exact hi.of_histories rfl rfl
  refine Except.Post.bind (getPacketNumberSpace_post h₁ E) fun s hs => ?_
  have hw := (hi₁.space hs).wf
  set lost := s.history.packetList.filter fun x =>
    IsLost now s.largestAcked delayUntilLost (s.history.elements x)
  obtain ⟨lossTime, hit⟩ : ∃ lossTime, iterateAll s.history
      (lostCallback now E s.largestAcked delayUntilLost) ([], h₁.lossTime) = (lost, lossTime) :=
    ⟨_, Prod.ext (iterateAll_lostCallback now E _ _ hw _) rfl⟩
  dsimp only
  rw [hit]
  set h₂ : sentPacketHandler := { h₁ with lossTime }
  have hs₂ : h₂.getPacketNumberSpace E = .ok s := by
    have hsp : h₂.getPacketNumberSpace = h₁.getPacketNumberSpace :=
      getPacketNumberSpace_of_spaces rfl rfl rfl
    rw [hsp]
    exact hs
  have hstart : s.history.packetList = s.history.packetList.filter (stillListed lost lost) := by
    refine (List.filter_eq_self.mpr fun y _ => ?_).symm
    by_cases hy : y ∈ lost <;> simp [stillListed, hy]
  exact (Except.Post.foldlM (LostLoop E s.history lost h₂) lost h₂
    ⟨Frame.refl E h₂, List.suffix_refl _, s, hs₂, hw, hstart, fun _ => rfl⟩
    fun x rest h' hl => LostLoop.step hw List.filter_sublist x rest h' hl).mono
    fun _ hl => hl.inv (hi₁.of_histories rfl rfl) hw (hi₁.space hs).view

end sentPacketHandler

end QuicGo.Ackhandler
