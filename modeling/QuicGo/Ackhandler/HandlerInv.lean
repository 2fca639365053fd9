import Mathlib.Data.List.TakeWhile
import QuicGo.Ackhandler.SentPacketHandler
import QuicGo.Ackhandler.HistoryView
import QuicGo.Ackhandler.LinkInvariant
import QuicGo.Lib.Except

/-! The invariant of the handler: each space's history is well formed and its packets satisfy
`ViewInv`, and no error has been dropped. The lemmas below state, for each operation of the
handler, that it keeps the invariant or fails with an error that is not a bug, in the form
`Except.Post NotBug P`. -/
namespace QuicGo.Ackhandler
namespace sentPacketHandler
open QuicGo.Protocol QuicGo.Wire QuicGo.Lib sentPacketHistory

/-- The errors the source does not mark as bugs. -/
def NotBug (e : AckhandlerError) : Prop :=
  ¬ e.IsBug

@[simp] theorem notBug_panic (msg : String) : NotBug (.panic msg) := fun h => h

@[simp] theorem notBug_invalidAckData (msg : String) : NotBug (.InvalidAckData msg) := fun h => h

@[simp] theorem notBug_noOutstandingPackets : NotBug .noOutstandingPackets := fun h => h

structure SpaceInv (lvl : EncryptionLevel) (s : packetNumberSpace) : Prop where
  wf : s.history.WF
  view : ViewInv lvl s.history.view

structure Inv (h : sentPacketHandler) : Prop where
  initial : SpaceInv .EncryptionInitial h.initialPackets
  handshake : SpaceInv .EncryptionHandshake h.handshakePackets
  oneRTT : SpaceInv .Encryption1RTT h.oneRTTPackets
  dropped : h.droppedErrors = []

/-- The histories of the three spaces. -/
def histories (h : sentPacketHandler) : sentPacketHistory × sentPacketHistory × sentPacketHistory :=
  (h.initialPackets.history, h.handshakePackets.history, h.oneRTTPackets.history)

section Spaces

variable {h : sentPacketHandler} {lvl : EncryptionLevel} {s : packetNumberSpace}

theorem getPacketNumberSpace_post (h : sentPacketHandler) (lvl : EncryptionLevel) :
    Except.Post NotBug (fun s => h.getPacketNumberSpace lvl = .ok s) (h.getPacketNumberSpace lvl) := by
  cases lvl <;> simp [getPacketNumberSpace, Except.Post]

theorem getPacketNumberSpace_ne (hg : h.getPacketNumberSpace lvl = .ok s) :
    lvl ≠ .EncryptionUnspecified := by
  rintro rfl
  simp [getPacketNumberSpace] at hg

theorem getPacketNumberSpace_of_spaces {h' : sentPacketHandler}
    (hi : h'.initialPackets = h.initialPackets) (hh : h'.handshakePackets = h.handshakePackets)
    (ho : h'.oneRTTPackets = h.oneRTTPackets) :
    h'.getPacketNumberSpace = h.getPacketNumberSpace := by
  funext lvl
  cases lvl <;> simp [getPacketNumberSpace, hi, hh, ho]

theorem getPacketNumberSpace_set_self (hlvl : lvl ≠ .EncryptionUnspecified) :
    (h.setPacketNumberSpace lvl s).getPacketNumberSpace lvl = .ok s := by
  cases lvl <;> first | exact absurd rfl hlvl | rfl

theorem getPacketNumberSpace_set_of_ne {lvl' : EncryptionLevel} (hne : lvl' ≠ lvl) :
    (h.setPacketNumberSpace lvl s).getPacketNumberSpace lvl' = h.getPacketNumberSpace lvl' := by
  cases lvl <;> cases lvl' <;> first | exact absurd rfl hne | rfl

@[simp] theorem setPacketNumberSpace_droppedErrors :
    (h.setPacketNumberSpace lvl s).droppedErrors = h.droppedErrors := by
  cases lvl <;> rfl

theorem histories_set {s₀ : packetNumberSpace} (hg : h.getPacketNumberSpace lvl = .ok s₀)
    (hs : s.history = s₀.history) : (h.setPacketNumberSpace lvl s).histories = h.histories := by
  cases lvl <;> simp_all [getPacketNumberSpace, setPacketNumberSpace, histories]

theorem getPacketNumberSpace_of_histories {h' : sentPacketHandler}
    (hh : h'.histories = h.histories) (hg : h.getPacketNumberSpace lvl = .ok s) :
    ∃ s', h'.getPacketNumberSpace lvl = .ok s' ∧ s'.history = s.history := by
  simp only [histories, Prod.mk.injEq] at hh
  cases lvl <;> simp_all [getPacketNumberSpace]

theorem Inv.space (hi : Inv h) (hg : h.getPacketNumberSpace lvl = .ok s) : SpaceInv lvl s := by
  cases lvl <;> simp only [getPacketNumberSpace, reduceCtorEq, Except.ok.injEq] at hg <;> subst hg
  · exact hi.initial
  · exact hi.handshake
  · exact hi.oneRTT

theorem Inv.set (hi : Inv h) (hs : SpaceInv lvl s) : Inv (h.setPacketNumberSpace lvl s) := by
  cases lvl
  · exact hi
  · exact { hi with initial := hs }
  · exact { hi with handshake := hs }
  · exact { hi with oneRTT := hs }

theorem Inv.of_histories {h' : sentPacketHandler} (hi : Inv h) (hh : h'.histories = h.histories)
    (hd : h'.droppedErrors = h.droppedErrors) : Inv h' := by
  simp only [histories, Prod.mk.injEq] at hh
  obtain ⟨hi₁, hh₁, ho₁⟩ := hh
  exact ⟨⟨hi₁ ▸ hi.initial.wf, hi₁ ▸ hi.initial.view⟩, ⟨hh₁ ▸ hi.handshake.wf, hh₁ ▸ hi.handshake.view⟩,
    ⟨ho₁ ▸ hi.oneRTT.wf, ho₁ ▸ hi.oneRTT.view⟩, hd ▸ hi.dropped⟩


theorem SpaceInv.of_history_eq {s s' : packetNumberSpace} (hs : SpaceInv lvl s)
    (heq : s'.history = s.history) : SpaceInv lvl s' :=
  ⟨heq ▸ hs.wf, heq ▸ hs.view⟩

theorem Inv.of_spaces (hs : ∀ lvl s, h.getPacketNumberSpace lvl = .ok s → SpaceInv lvl s)
    (hd : h.droppedErrors = []) : Inv h :=
  ⟨hs _ _ rfl, hs _ _ rfl, hs _ _ rfl, hd⟩

end Spaces

/-! ### Frames

`Frame E h h'`: `h'` changes only the space `E` and logs nothing, so its invariant follows
from that of the space. -/

/-- The change of a call that touches no history but that of `E` and logs no error. -/
def Frame (E : EncryptionLevel) (h h' : sentPacketHandler) : Prop :=
  h'.droppedErrors = h.droppedErrors ∧ ∀ lvl, lvl ≠ E →
    (h'.getPacketNumberSpace lvl).map (·.history) = (h.getPacketNumberSpace lvl).map (·.history)

namespace Frame

variable {E : EncryptionLevel} {h h₁ h₂ h₃ : sentPacketHandler}

theorem refl (E : EncryptionLevel) (h : sentPacketHandler) : Frame E h h :=
  ⟨rfl, fun _ _ => rfl⟩

theorem trans (h₁₂ : Frame E h₁ h₂) (h₂₃ : Frame E h₂ h₃) : Frame E h₁ h₃ :=
  ⟨h₂₃.1.trans h₁₂.1, fun lvl hl => (h₂₃.2 lvl hl).trans (h₁₂.2 lvl hl)⟩

theorem set (E : EncryptionLevel) (h : sentPacketHandler) (s : packetNumberSpace) :
    Frame E h (h.setPacketNumberSpace E s) :=
  ⟨setPacketNumberSpace_droppedErrors, fun _ hl => by rw [getPacketNumberSpace_set_of_ne hl]⟩

theorem of_spaces (hi : h₂.initialPackets = h₁.initialPackets)
    (hh : h₂.handshakePackets = h₁.handshakePackets) (ho : h₂.oneRTTPackets = h₁.oneRTTPackets)
    (hd : h₂.droppedErrors = h₁.droppedErrors) : Frame E h₁ h₂ :=
  ⟨hd, fun _ _ => by rw [getPacketNumberSpace_of_spaces hi hh ho]⟩

theorem ite {c : Prop} [Decidable c] (h₁₂ : Frame E h₁ h₂) : Frame E h₁ (if c then h₂ else h₁) := by
  split
  · exact h₁₂
  · exact refl E h₁

end Frame

theorem Inv.of_frame {h h' : sentPacketHandler} {E : EncryptionLevel} {s : packetNumberSpace}
    (hi : Inv h) (hf : Frame E h h') (hg : h'.getPacketNumberSpace E = .ok s)
    (hs : SpaceInv E s) : Inv h' := by
  refine Inv.of_spaces (fun lvl s' hg' => ?_) (hf.1.trans hi.dropped)
  by_cases hl : lvl = E
  · subst hl
    obtain rfl : s' = s := Except.ok.inj (hg'.symm.trans hg)
    exact hs
  · have hmap := hf.2 lvl hl
    rw [hg'] at hmap
    cases hg₀ : h.getPacketNumberSpace lvl with
    | error e => simp [hg₀, Except.map] at hmap
    | ok s₀ =>
      simp only [hg₀, Except.map, Except.ok.injEq] at hmap
      exact (hi.space hg₀).of_history_eq hmap

/-! ### Sending -/

/-- What `sentPacketImpl` returns: the histories and the log are unchanged, and the stored
packet keeps the fields the histories read. -/
structure ImplResult (h : sentPacketHandler) (packet : Packet)
    (r : sentPacketHandler × Packet × Bool) : Prop where
  histories : r.1.histories = h.histories
  dropped : r.1.droppedErrors = h.droppedErrors
  pn : r.2.1.PacketNumber = packet.PacketNumber
  level : r.2.1.EncryptionLevel = packet.EncryptionLevel
  sendTime : r.2.1.SendTime = packet.SendTime
  ra : r.2.1.retransmittedAs = packet.retransmittedAs
  canBe : r.2.2 = true → r.2.1.canBeRetransmitted = true

theorem sentPacketImpl_post (h : sentPacketHandler) (packet : Packet) :
    Except.Post NotBug (ImplResult h packet) (h.sentPacketImpl packet) := by
  unfold sentPacketImpl
  refine Except.Post.bind (getPacketNumberSpace_post h _) fun s hs => ?_
  have hhist := histories_set (s := { s with largestSent := packet.PacketNumber }) hs rfl
  refine Except.Post.bind (P := fun _ => True) ?_ fun la _ => ?_
  · unfold ackLargestAcked
    split
    · split
      · exact Except.Post.of_pure trivial
      · exact Except.Post.of_throw (notBug_panic _)
    · exact Except.Post.of_pure trivial
  · dsimp only
    split
    · exact Except.Post.of_pure ⟨hhist, by simp, rfl, rfl, rfl, rfl, fun _ => rfl⟩
    · exact Except.Post.of_pure ⟨hhist, by simp, rfl, rfl, rfl, rfl, fun h => by simp_all⟩

/-- What a sending call may store: a packet built without retransmission links, numbered above
and sent no earlier than every packet its space holds. -/
def SentAfter (h : sentPacketHandler) (packet : Packet) : Prop :=
  packet.retransmittedAs = [] ∧ ∀ s, h.getPacketNumberSpace packet.EncryptionLevel = .ok s →
    ∀ q ∈ s.history.view, q.PacketNumber < packet.PacketNumber ∧ q.SendTime ≤ packet.SendTime

instance (h : sentPacketHandler) (packet : Packet) : Decidable (SentAfter h packet) :=
  match hg : h.getPacketNumberSpace packet.EncryptionLevel with
  | .ok s => decidable_of_iff (packet.retransmittedAs = [] ∧ ∀ q ∈ s.history.view,
      q.PacketNumber < packet.PacketNumber ∧ q.SendTime ≤ packet.SendTime) (by simp [SentAfter, hg])
  | .error _ => decidable_of_iff (packet.retransmittedAs = []) (by simp [SentAfter, hg])

theorem SpaceInv.sentPacket {lvl : EncryptionLevel} {s : packetNumberSpace} {p : Packet}
    (hs : SpaceInv lvl s) (hp : p.canBeRetransmitted = true) (hlvl : p.EncryptionLevel = lvl)
    (hra : p.retransmittedAs = [])
    (hfresh : ∀ q ∈ s.history.view, q.PacketNumber < p.PacketNumber ∧ q.SendTime ≤ p.SendTime) :
    SpaceInv lvl { s with history := s.history.SentPacket p } := by
  obtain ⟨hw, hview⟩ := SentPacket_spec hs.wf hp fun q hq => (hfresh q hq).1
  refine ⟨hw, ?_⟩
  rw [hview]
  exact hs.view.append_fresh (by simpa using hlvl) (by simpa using hra) (List.pairwise_singleton _ _)
    (by simpa using hfresh)

theorem SentPacket_post {h : sentPacketHandler} {packet : Packet} (hi : Inv h)
    (hp : SentAfter h packet) : Except.Post NotBug Inv (h.SentPacket packet) := by
  unfold SentPacket
  refine Except.Post.bind (sentPacketImpl_post h packet) fun ⟨h₁, p₁, isR⟩ hr => ?_
  have hi₁ : Inv h₁ := hi.of_histories hr.histories hr.dropped
  dsimp only
  split
  · next hisR =>
    refine Except.Post.bind (getPacketNumberSpace_post h₁ _) fun s hs => ?_
    obtain ⟨s₀, hs₀, hhist⟩ := getPacketNumberSpace_of_histories hr.histories.symm hs
    rw [hr.level] at hs₀
    have hfresh := hp.2 s₀ hs₀
    rw [hhist] at hfresh
    refine Except.Post.of_pure (hi₁.set ((hi₁.space hs).sentPacket (hr.canBe hisR) rfl
      (hr.ra.trans hp.1) fun q hq => ?_))
    rw [hr.pn, hr.sendTime]
    exact hfresh q hq
  · exact Except.Post.of_pure hi₁

/-- What a retransmission may store: packets of one encryption level, each sendable on its own,
numbered upwards and sent in that order. -/
def BatchAfter (h : sentPacketHandler) (packets : List Packet) : Prop :=
  (∀ p ∈ packets, ∀ q ∈ packets, p.EncryptionLevel = q.EncryptionLevel) ∧
    packets.Pairwise (fun a b => a.PacketNumber < b.PacketNumber ∧ a.SendTime ≤ b.SendTime) ∧
    ∀ p ∈ packets, SentAfter h p

instance (h : sentPacketHandler) (packets : List Packet) : Decidable (BatchAfter h packets) :=
  inferInstanceAs (Decidable (_ ∧ _ ∧ _))

/-- A stored packet that stands for one of the packets of a batch. -/
def StoredFrom (packets : List Packet) (x : Packet) : Prop :=
  x.canBeRetransmitted = true ∧ ∃ y ∈ packets, x.PacketNumber = y.PacketNumber ∧
    x.EncryptionLevel = y.EncryptionLevel ∧ x.SendTime = y.SendTime ∧
    x.retransmittedAs = y.retransmittedAs

/-- The invariant of the loop of `SentPacketsAsRetransmission` over the packets still to
store: the histories are unchanged, and the packets collected so far are stored forms of the
batch, in order, and before the packets to come. -/
def BatchLoop (h : sentPacketHandler) (packets rest : List Packet)
    (st : sentPacketHandler × List Packet) : Prop :=
  Inv st.1 ∧ st.1.histories = h.histories ∧ (∀ x ∈ st.2, StoredFrom packets x) ∧
    st.2.Pairwise (fun a b => a.PacketNumber < b.PacketNumber ∧ a.SendTime ≤ b.SendTime) ∧
    (∀ x ∈ st.2, ∀ y ∈ rest, x.PacketNumber < y.PacketNumber ∧ x.SendTime ≤ y.SendTime) ∧
    rest <:+ packets

theorem BatchLoop.step {h : sentPacketHandler} {packets : List Packet} (hb : BatchAfter h packets)
    (y : Packet) (rest : List Packet) (st : sentPacketHandler × List Packet)
    (hst : BatchLoop h packets (y :: rest) st) :
    Except.Post NotBug (BatchLoop h packets rest) (do
      let (h, packet, isRetransmittable) ← st.1.sentPacketImpl y
      pure (h, if isRetransmittable then st.2 ++ [packet] else st.2)) := by
  obtain ⟨hi, hhist, hstored, hsorted, hbefore, hsuffix⟩ := hst
  have hy : y ∈ packets := hsuffix.subset List.mem_cons_self
  have hyrest := (List.pairwise_cons.mp (hb.2.1.sublist hsuffix.sublist)).1
  refine Except.Post.bind (sentPacketImpl_post st.1 y) fun ⟨h₁, p₁, isR⟩ hr => ?_
  refine Except.Post.of_pure ⟨hi.of_histories hr.histories hr.dropped, hr.histories.trans hhist,
    ?_, ?_, ?_, (List.suffix_cons y rest).trans hsuffix⟩
  · intro x hx
    split at hx
    · next hisR =>
      rcases List.mem_append.mp hx with hx | hx
      · exact hstored x hx
      · rw [List.mem_singleton.mp hx]
        exact ⟨hr.canBe hisR, y, hy, hr.pn, hr.level, hr.sendTime, hr.ra⟩
    · exact hstored x hx
  · split
    · refine List.pairwise_append.mpr ⟨hsorted, List.pairwise_singleton _ _, fun x hx z hz => ?_⟩
      rw [List.mem_singleton.mp hz, hr.pn, hr.sendTime]
      exact hbefore x hx y List.mem_cons_self
    · exact hsorted
  · intro x hx z hz
    split at hx
    · rcases List.mem_append.mp hx with hx | hx
      · exact hbefore x hx z (List.mem_cons_of_mem y hz)
      · rw [List.mem_singleton.mp hx, hr.pn, hr.sendTime]
        exact hyrest z hz
    · exact hbefore x hx z (List.mem_cons_of_mem y hz)

theorem SentPacketsAsRetransmission_post {h : sentPacketHandler} {packets : List Packet}
    {retransmissionOf : Nat} (hi : Inv h) (hb : BatchAfter h packets) :
    Except.Post NotBug Inv (h.SentPacketsAsRetransmission packets retransmissionOf) := by
  unfold SentPacketsAsRetransmission
  refine Except.Post.bind (Except.Post.foldlM (BatchLoop h packets) packets (h, [])
    ⟨hi, rfl, by simp, List.Pairwise.nil, by simp, List.suffix_refl _⟩
    fun y rest st hst => BatchLoop.step hb y rest st hst) fun ⟨h₁, p⟩ hloop => ?_
  obtain ⟨hi₁, hhist, hstored, hsorted, -, -⟩ := hloop
  dsimp only
  split
  · next first hfirst =>
    have hfirst_mem : first ∈ p := List.mem_of_mem_head? hfirst
    refine Except.Post.bind (getPacketNumberSpace_post h₁ _) fun s hs => ?_
    obtain ⟨s₀, hs₀, hs₀hist⟩ := getPacketNumberSpace_of_histories hhist.symm hs
    have hlevel : ∀ x ∈ p, x.EncryptionLevel = first.EncryptionLevel := by
      intro x hx
      obtain ⟨-, y, hy, -, hxy, -⟩ := hstored x hx
      obtain ⟨-, y', hy', -, hfy, -⟩ := hstored first hfirst_mem
      rw [hxy, hfy]
      exact hb.1 y hy y' hy'
    have hfresh : ∀ q ∈ s.history.view, ∀ x ∈ p,
        q.PacketNumber < x.PacketNumber ∧ q.SendTime ≤ x.SendTime := by
      intro q hq x hx
      obtain ⟨-, y, hy, hpn, hxy, hst, -⟩ := hstored x hx
      have hys : h.getPacketNumberSpace y.EncryptionLevel = .ok s₀ := by
        rw [← hxy, hlevel x hx]
        exact hs₀
      rw [hpn, hst]
      exact (hb.2.2 y hy).2 s₀ hys q (hs₀hist ▸ hq)
    have hra : ∀ x ∈ p, x.retransmittedAs = [] := by
      intro x hx
      obtain ⟨-, y, hy, -, -, -, hxra⟩ := hstored x hx
      exact hxra.trans (hb.2.2 y hy).1
    have hsi := hi₁.space hs
    have hff : s.history.FreshFor p :=
      ⟨fun x hx => (hstored x hx).1, hsorted.imp (·.1), fun q hq x hx => (hfresh q hq x hx).1⟩
    obtain ⟨hw, hview⟩ := SentPacketsAsRetransmission_spec hsi.wf hff retransmissionOf
    refine Except.Post.of_pure (hi₁.set ⟨hw, ?_⟩)
    rw [hview]
    split
    · exact hsi.view.append_fresh hlevel hra hsorted hfresh
    · next el hl =>
      obtain ⟨hel, hpn⟩ := (hsi.wf.map _ _).1 hl
      exact hsi.view.retransmit hlevel hra hsorted hfresh
        ⟨_, List.mem_map_of_mem hel, hpn⟩
  · exact Except.Post.of_throw (notBug_panic _)

/-! ### Queueing for retransmission -/

theorem iterateAll_eq_foldl {σ : Type} (H : sentPacketHistory) (cb : σ → Nat → Packet → Bool × σ)
    (hcb : ∀ s el p, (cb s el p).1 = true) (s : σ) :
    iterateAll H cb s = H.packetList.foldl (fun s el => (cb s el (H.elements el)).2) s := by
  have hgo : Iterate.go H (fun s el p => (.ok (cb s el p) : Except Empty (Bool × σ))) H.packetList s =
      .ok ((H.packetList.takeWhile fun _ => true).foldl
        (fun s el => (cb s el (H.elements el)).2) s) :=
    Iterate_go_eq_foldl H (fun _ => true) (fun s el p => (cb s el p).2)
      (fun s el => by simp only [if_true]; rw [← hcb s el (H.elements el)]) H.packetList s
  have hall : H.packetList.takeWhile (fun _ => true) = H.packetList :=
    List.takeWhile_eq_self_iff.mpr fun _ _ => rfl
  simp only [iterateAll, Iterate, hgo, hall]

theorem iterateAll_collectAll (H : sentPacketHistory) :
    iterateAll H collectAll [] = H.packetList := by
  rw [iterateAll_eq_foldl H _ (fun _ _ _ => rfl)]
  simpa using List.foldl_append_filter id (fun s el => (collectAll s el (H.elements el)).2)
    (fun _ => true) (fun s x => rfl) H.packetList []

theorem iterateAll_collectRetransmittable (H : sentPacketHistory) :
    iterateAll H collectRetransmittable [] = H.packetList.filter H.outstanding := by
  rw [iterateAll_eq_foldl H _ (fun _ _ _ => rfl)]
  simpa using List.foldl_append_filter id
    (fun s el => (collectRetransmittable s el (H.elements el)).2) H.outstanding
    (fun s x => rfl) H.packetList []

/-- The history after marking an element as no longer retransmittable. -/
def markedHistory (H : sentPacketHistory) (el : Nat) : sentPacketHistory :=
  (H.setElement el fun v => { v with canBeRetransmitted := false }).recount

theorem markedHistory_wf {H : sentPacketHistory} (hw : H.WF) {el : Nat}
    (hel : el ∈ H.packetList) : (markedHistory H el).WF :=
  (MarkCannotBeRetransmitted_spec hw (hw.lookup_of_mem hel)).1

theorem markedHistory_forgetCanBe (H : sentPacketHistory) (el y : Nat) :
    ((markedHistory H el).elements y).forgetCanBe = (H.elements y).forgetCanBe := by
  by_cases hy : y = el
  · subst hy
    simp [markedHistory, Packet.forgetCanBe]
  · simp [markedHistory, Function.update_of_ne hy]

theorem SpaceInv.mark {lvl : EncryptionLevel} {s : packetNumberSpace} (hs : SpaceInv lvl s)
    {el : Nat} (hel : el ∈ s.history.packetList) :
    SpaceInv lvl { s with history := markedHistory s.history el } := by
  obtain ⟨-, hview⟩ := MarkCannotBeRetransmitted_spec hs.wf (hs.wf.lookup_of_mem hel)
  refine ⟨markedHistory_wf hs.wf hel, ?_⟩
  simp only [markedHistory, view_recount, hview]
  exact hs.view.of_same (SameUpToCanBe.clear _ _)

theorem queuePacketForRetransmission_eq {h : sentPacketHandler} {E : EncryptionLevel}
    {s : packetNumberSpace} {el : Nat} (hg : h.getPacketNumberSpace E = .ok s) (hw : s.history.WF)
    (hel : el ∈ s.history.packetList) (hcb : (s.history.elements el).canBeRetransmitted = true) :
    h.queuePacketForRetransmission E el =
      .ok { h.setPacketNumberSpace E { s with history := markedHistory s.history el } with
        retransmissionQueue := h.retransmissionQueue ++ [(markedHistory s.history el).elements el] } := by
  have hmark := MarkCannotBeRetransmitted_eq hw (hw.lookup_of_mem hel)
  cases E <;> simp_all [queuePacketForRetransmission, getPacketNumberSpace, setPacketNumberSpace,
    markedHistory, bind, Except.bind, pure, Except.pure]

theorem queuePacketForRetransmission_frame {h : sentPacketHandler} {E : EncryptionLevel}
    {s : packetNumberSpace} {el : Nat} (hg : h.getPacketNumberSpace E = .ok s) (hw : s.history.WF)
    (hel : el ∈ s.history.packetList) (hcb : (s.history.elements el).canBeRetransmitted = true) :
    ∃ h', h.queuePacketForRetransmission E el = .ok h' ∧ Frame E h h' ∧
      h'.getPacketNumberSpace E = .ok { s with history := markedHistory s.history el } := by
  refine ⟨_, queuePacketForRetransmission_eq hg hw hel hcb,
    (Frame.set E h _).trans (Frame.of_spaces rfl rfl rfl rfl), ?_⟩
  cases E <;> first | rfl | simp [getPacketNumberSpace] at hg

theorem queuePacketForRetransmission_inv {h : sentPacketHandler} {E : EncryptionLevel}
    {s : packetNumberSpace} {el : Nat} (hi : Inv h) (hg : h.getPacketNumberSpace E = .ok s)
    (hel : el ∈ s.history.packetList) (hcb : (s.history.elements el).canBeRetransmitted = true) :
    ∃ h', h.queuePacketForRetransmission E el = .ok h' ∧ Inv h' ∧
      h'.getPacketNumberSpace E = .ok { s with history := markedHistory s.history el } := by
  have hs := hi.space hg
  obtain ⟨h', hq, hf, hg'⟩ := queuePacketForRetransmission_frame hg hs.wf hel hcb
  exact ⟨h', hq, hi.of_frame hf hg' (hs.mark hel), hg'⟩

/-- The loop of `queueAllPacketsForRetransmission` over the elements still to queue: the space
keeps its list, and the elements to come keep the values they had when they were collected. -/
def QueueLoop (E : EncryptionLevel) (H₀ : sentPacketHistory) (packets rest : List Nat)
    (h : sentPacketHandler) : Prop :=
  Inv h ∧ rest <:+ packets ∧ ∃ s, h.getPacketNumberSpace E = .ok s ∧
    s.history.packetList = H₀.packetList ∧ ∀ x ∈ rest, s.history.elements x = H₀.elements x

theorem QueueLoop.step {E : EncryptionLevel} {H₀ : sentPacketHistory} (hw : H₀.WF) (x : Nat)
    (rest : List Nat) (h : sentPacketHandler)
    (hl : QueueLoop E H₀ (H₀.packetList.filter H₀.outstanding) (x :: rest) h) :
    Except.Post NotBug (QueueLoop E H₀ (H₀.packetList.filter H₀.outstanding) rest)
      (h.queuePacketForRetransmission E x) := by
  obtain ⟨hi, hsuf, s, hg, hlist, helts⟩ := hl
  obtain ⟨hxl, hxo⟩ := List.mem_filter.mp (hsuf.subset List.mem_cons_self)
  have hnd : (x :: rest).Nodup := (hw.nodup.filter _).sublist hsuf.sublist
  have hcb : (s.history.elements x).canBeRetransmitted = true := by
    rw [helts x List.mem_cons_self]
    exact hxo
  obtain ⟨h', hq, hi', hg'⟩ := queuePacketForRetransmission_inv hi hg (hlist ▸ hxl) hcb
  rw [hq]
  refine ⟨hi', (List.suffix_cons x rest).trans hsuf, _, hg', hlist, fun y hy => ?_⟩
  have hyx : y ≠ x := fun hyx => (List.nodup_cons.mp hnd).1 (hyx ▸ hy)
  simp [markedHistory, Function.update_of_ne hyx, helts y (List.mem_cons_of_mem x hy)]

theorem queueAllPacketsForRetransmission_post {h : sentPacketHandler} (hi : Inv h)
    (E : EncryptionLevel) : Except.Post NotBug Inv (h.queueAllPacketsForRetransmission E) := by
  unfold queueAllPacketsForRetransmission
  refine Except.Post.bind (getPacketNumberSpace_post h E) fun s hs => ?_
  have hw := (hi.space hs).wf
  rw [iterateAll_collectRetransmittable]
  refine (Except.Post.foldlM (QueueLoop E s.history (s.history.packetList.filter s.history.outstanding))
    _ h ⟨hi, List.suffix_refl _, s, hs, rfl, fun _ _ => rfl⟩
    fun x rest h' hl => QueueLoop.step hw x rest h' hl).mono fun _ hl => hl.1

theorem queueCryptoPacketsForRetransmission_post {h : sentPacketHandler} (hi : Inv h) :
    Except.Post NotBug Inv h.queueCryptoPacketsForRetransmission :=
  Except.Post.bind (queueAllPacketsForRetransmission_post hi _) fun _ hi' =>
    queueAllPacketsForRetransmission_post hi' _

@[simp] theorem DequeuePacketForRetransmission_histories (h : sentPacketHandler) :
    h.DequeuePacketForRetransmission.2.histories = h.histories := by
  unfold DequeuePacketForRetransmission
  split <;> rfl

@[simp] theorem DequeuePacketForRetransmission_droppedErrors (h : sentPacketHandler) :
    h.DequeuePacketForRetransmission.2.droppedErrors = h.droppedErrors := by
  unfold DequeuePacketForRetransmission
  split <;> rfl

theorem DequeueProbePacket_post {h : sentPacketHandler} (hi : Inv h) :
    Except.Post NotBug (fun r => Inv r.2) h.DequeueProbePacket := by
  unfold DequeueProbePacket
  refine Except.Post.bind (getPacketNumberSpace_post h _) fun s hs => ?_
  have hdq : ∀ h', Inv h' →
      Except.Post NotBug (fun r => Inv r.2) (pure h'.DequeuePacketForRetransmission) :=
    fun h' hi' => Except.Post.of_pure (hi'.of_histories (by simp) (by simp))
  dsimp only
  split
  · split
    · exact Except.Post.bind (P := fun _ => False) (Except.Post.of_throw notBug_noOutstandingPackets)
        fun _ hf => hf.elim
    · next el hfo =>
      have hw := (hi.space hs).wf
      rw [FirstOutstanding, hw.first] at hfo
      obtain ⟨h', hq, hi', -⟩ := queuePacketForRetransmission_inv hi hs (List.mem_of_find?_eq_some hfo)
        (List.find?_some hfo :)
      rw [hq]
      exact hdq h' hi'
  · exact hdq h hi

end sentPacketHandler

end QuicGo.Ackhandler
