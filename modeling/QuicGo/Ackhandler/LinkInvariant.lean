import QuicGo.Ackhandler.Packet
import QuicGo.Lib.List

/-! What the handler keeps true of the packets of one packet number space, stated on the list of
packets a history holds: packet numbers strictly increase, all packets are of the space's encryption
level, a packet with a higher number was not sent earlier, and every packet number in a packet's
`retransmittedAs` is a later packet of the list that names it as its original. -/
namespace QuicGo.Ackhandler
open QuicGo.Protocol QuicGo.Lib

/-- The packet with its `canBeRetransmitted` flag forgotten. -/
def Packet.forgetCanBe (q : Packet) : Packet :=
  { q with canBeRetransmitted := false }

theorem Packet.fields_eq_of_forgetCanBe_eq {a b : Packet} (h : a.forgetCanBe = b.forgetCanBe) :
    a.PacketNumber = b.PacketNumber ∧ a.EncryptionLevel = b.EncryptionLevel ∧
      a.SendTime = b.SendTime ∧ a.retransmittedAs = b.retransmittedAs ∧
      a.isRetransmission = b.isRetransmission ∧ a.retransmissionOf = b.retransmissionOf := by
  have hpn := congrArg Packet.PacketNumber h
  have hlvl := congrArg Packet.EncryptionLevel h
  have hst := congrArg Packet.SendTime h
  have hra := congrArg Packet.retransmittedAs h
  have hretr := congrArg Packet.isRetransmission h
  have hof := congrArg Packet.retransmissionOf h
  exact ⟨hpn, hlvl, hst, hra, hretr, hof⟩

/-- Two lists of packets that differ at most in `canBeRetransmitted`. -/
def SameUpToCanBe (V W : List Packet) : Prop :=
  V.map Packet.forgetCanBe = W.map Packet.forgetCanBe

structure ViewInv (lvl : EncryptionLevel) (V : List Packet) : Prop where
  sorted : V.Pairwise (·.PacketNumber < ·.PacketNumber)
  level : ∀ q ∈ V, q.EncryptionLevel = lvl
  sendTimes : ∀ a ∈ V, ∀ b ∈ V, a.PacketNumber < b.PacketNumber → a.SendTime ≤ b.SendTime
  links : ∀ P ∈ V, ∀ r ∈ P.retransmittedAs, ∃ R ∈ V, R.PacketNumber = r ∧
    P.PacketNumber < r ∧ R.isRetransmission = true ∧ R.retransmissionOf = P.PacketNumber

namespace SameUpToCanBe

theorem refl (V : List Packet) : SameUpToCanBe V V := rfl

theorem trans {U V W : List Packet} (h₁ : SameUpToCanBe U V) (h₂ : SameUpToCanBe V W) :
    SameUpToCanBe U W :=
  Eq.trans h₁ h₂

theorem symm {V W : List Packet} (h : SameUpToCanBe V W) : SameUpToCanBe W V :=
  Eq.symm h

/-- Each packet of one list has a counterpart in the other that differs at most in
`canBeRetransmitted`. -/
theorem exists_mem {V W : List Packet} (h : SameUpToCanBe V W) {q : Packet} (hq : q ∈ W) :
    ∃ q' ∈ V, q'.forgetCanBe = q.forgetCanBe := by
  have : q.forgetCanBe ∈ V.map Packet.forgetCanBe := h ▸ List.mem_map_of_mem hq
  simpa using this

theorem map_packetNumber {V W : List Packet} (h : SameUpToCanBe V W) :
    V.map (·.PacketNumber) = W.map (·.PacketNumber) := by
  have := congrArg (List.map (·.PacketNumber)) h
  simpa [List.map_map, Function.comp_def, Packet.forgetCanBe] using this

theorem clear (V : List Packet) (pn : Nat) :
    SameUpToCanBe V (V.map fun q =>
      if q.PacketNumber = pn then { q with canBeRetransmitted := false } else q) := by
  unfold SameUpToCanBe
  rw [List.map_map]
  refine List.map_congr_left fun q _ => ?_
  simp only [Function.comp_apply]
  split <;> rfl

/-- The packets read through the same identities from values that differ at most in the
flag. -/
theorem map_of_forget {ι : Type} (l : List ι) {e₁ e₂ : ι → Packet}
    (h : ∀ x ∈ l, (e₁ x).forgetCanBe = (e₂ x).forgetCanBe) :
    SameUpToCanBe (l.map e₁) (l.map e₂) := by
  unfold SameUpToCanBe
  simp only [List.map_map]
  exact List.map_congr_left h

end SameUpToCanBe

namespace ViewInv

variable {lvl : EncryptionLevel}

theorem nil : ViewInv lvl [] :=
  ⟨List.Pairwise.nil, by simp, by simp, by simp⟩

theorem of_same {V W : List Packet} (hV : ViewInv lvl V) (h : SameUpToCanBe V W) :
    ViewInv lvl W := by
  refine ⟨?_, fun q hq => ?_, fun a ha b hb hab => ?_, fun P hP r hr => ?_⟩
  · have hs := hV.sorted
    rw [← List.pairwise_map (R := (· < ·))] at hs ⊢
    rwa [← h.map_packetNumber]
  · obtain ⟨q', hq', hf⟩ := h.exists_mem hq
    obtain ⟨-, hlvl, -⟩ := Packet.fields_eq_of_forgetCanBe_eq hf
    exact hlvl ▸ hV.level q' hq'
  · obtain ⟨a', ha', hfa⟩ := h.exists_mem ha
    obtain ⟨b', hb', hfb⟩ := h.exists_mem hb
    obtain ⟨hapn, -, hast, -⟩ := Packet.fields_eq_of_forgetCanBe_eq hfa
    obtain ⟨hbpn, -, hbst, -⟩ := Packet.fields_eq_of_forgetCanBe_eq hfb
    rw [← hast, ← hbst]
    exact hV.sendTimes a' ha' b' hb' (hapn ▸ hbpn ▸ hab)
  · obtain ⟨P', hP', hfP⟩ := h.exists_mem hP
    obtain ⟨hPpn, -, -, hPra, -⟩ := Packet.fields_eq_of_forgetCanBe_eq hfP
    obtain ⟨R', hR', hRpn, hlt, hRretr, hRof⟩ := hV.links P' hP' r (hPra ▸ hr)
    obtain ⟨R, hR, hfR⟩ := h.symm.exists_mem hR'
    obtain ⟨hRpn', -, -, -, hRretr', hRof'⟩ := Packet.fields_eq_of_forgetCanBe_eq hfR
    exact ⟨R, hR, hRpn' ▸ hRpn, hPpn ▸ hlt, hRretr' ▸ hRretr, hRof' ▸ hPpn ▸ hRof⟩

/-- Appending packets without retransmissions, numbered above and sent no earlier than every
packet of the list and than the packets before them. -/
theorem append_fresh {V ps : List Packet} (hV : ViewInv lvl V)
    (hlvl : ∀ p ∈ ps, p.EncryptionLevel = lvl) (hra : ∀ p ∈ ps, p.retransmittedAs = [])
    (hps : ps.Pairwise fun a b => a.PacketNumber < b.PacketNumber ∧ a.SendTime ≤ b.SendTime)
    (hfresh : ∀ q ∈ V, ∀ p ∈ ps, q.PacketNumber < p.PacketNumber ∧ q.SendTime ≤ p.SendTime) :
    ViewInv lvl (V ++ ps) := by
  refine ⟨?_, fun q hq => ?_, fun a ha b hb hab => ?_, fun P hP r hr => ?_⟩
  · exact List.pairwise_append.mpr ⟨hV.sorted, hps.imp (·.1), fun q hq p hp => (hfresh q hq p hp).1⟩
  · rcases List.mem_append.mp hq with hq | hq
    · exact hV.level q hq
    · exact hlvl q hq
  · rcases List.mem_append.mp ha with ha | ha <;> rcases List.mem_append.mp hb with hb | hb
    · exact hV.sendTimes a ha b hb hab
    · exact (hfresh a ha b hb).2
    · exact absurd hab (Nat.lt_asymm (hfresh b hb a ha).1)
    · rcases hps.eq_or_rel_of_mem ha hb with rfl | hle | hge
      · exact le_rfl
      · exact hle.2
      · exact absurd hab (Nat.lt_asymm hge.1)
  · rcases List.mem_append.mp hP with hP | hP
    · obtain ⟨R, hR, hlink⟩ := hV.links P hP r hr
      exact ⟨R, List.mem_append_left _ hR, hlink⟩
    · simp [hra P hP] at hr

/-- Rewriting `retransmittedAs` of the packets with property `c` to lists whose packets are
present later retransmissions of them. -/
theorem modify_retransmittedAs {V : List Packet} (hV : ViewInv lvl V) (c : Packet → Prop)
    [DecidablePred c] (g : Packet → List Nat)
    (hg : ∀ q ∈ V, c q → ∀ r ∈ g q, ∃ R ∈ V, R.PacketNumber = r ∧ q.PacketNumber < r ∧
      R.isRetransmission = true ∧ R.retransmissionOf = q.PacketNumber) :
    ViewInv lvl (V.map fun q => if c q then { q with retransmittedAs := g q } else q) := by
  set f := fun q => if c q then { q with retransmittedAs := g q } else q
  have hf : ∀ q, (f q).PacketNumber = q.PacketNumber ∧ (f q).EncryptionLevel = q.EncryptionLevel ∧
      (f q).SendTime = q.SendTime ∧ (f q).isRetransmission = q.isRetransmission ∧
      (f q).retransmissionOf = q.retransmissionOf := by
    intro q
    simp only [f]
    split <;> simp
  refine ⟨?_, fun q hq => ?_, fun a ha b hb hab => ?_, fun P hP r hr => ?_⟩
  · exact List.pairwise_map.mpr (hV.sorted.imp fun {a b} hab => by rwa [(hf a).1, (hf b).1])
  · obtain ⟨q', hq', rfl⟩ := List.mem_map.mp hq
    rw [(hf q').2.1]
    exact hV.level q' hq'
  · obtain ⟨a', ha', rfl⟩ := List.mem_map.mp ha
    obtain ⟨b', hb', rfl⟩ := List.mem_map.mp hb
    rw [(hf a').2.2.1, (hf b').2.2.1]
    rw [(hf a').1, (hf b').1] at hab
    exact hV.sendTimes a' ha' b' hb' hab
  · obtain ⟨q, hq, rfl⟩ := List.mem_map.mp hP
    have hlink : ∃ R ∈ V, R.PacketNumber = r ∧ q.PacketNumber < r ∧
        R.isRetransmission = true ∧ R.retransmissionOf = q.PacketNumber := by
      by_cases hc : c q
      · simp only [f, if_pos hc] at hr
        exact hg q hq hc r hr
      · simp only [f, if_neg hc] at hr
        exact hV.links q hq r hr
    obtain ⟨R, hR, hRpn, hlt, hRretr, hRof⟩ := hlink
    obtain ⟨hpn, -, -, hretr, hof⟩ := hf R
    exact ⟨f R, List.mem_map_of_mem hR, hpn ▸ hRpn, (hf q).1 ▸ hlt, hretr ▸ hRretr,
      (hf q).1 ▸ hof ▸ hRof⟩

theorem shrink_retransmittedAs {V : List Packet} (hV : ViewInv lvl V) (c : Packet → Prop)
    [DecidablePred c] (g : Packet → List Nat) (hg : ∀ q, g q ⊆ q.retransmittedAs) :
    ViewInv lvl (V.map fun q => if c q then { q with retransmittedAs := g q } else q) :=
  hV.modify_retransmittedAs c g fun q hq _ r hr => hV.links q hq r (hg q hr)

/-- Keeping, of packets read through identities, those whose identity `keep` keeps, when it
keeps every retransmission of a kept packet. -/
theorem filter_closed {ι : Type} {l : List ι} {e : ι → Packet} (hV : ViewInv lvl (l.map e))
    (keep : ι → Bool)
    (hclosed : ∀ a ∈ l, ∀ b ∈ l, (e b).PacketNumber ∈ (e a).retransmittedAs →
      keep a = true → keep b = true) :
    ViewInv lvl ((l.filter keep).map e) := by
  have hsub : ∀ q ∈ (l.filter keep).map e, q ∈ l.map e := by
    intro q hq
    obtain ⟨a, ha, rfl⟩ := List.mem_map.mp hq
    exact List.mem_map_of_mem (List.mem_of_mem_filter ha)
  refine ⟨hV.sorted.sublist (List.filter_sublist.map e), fun q hq => hV.level q (hsub q hq),
    fun a ha b hb hab => hV.sendTimes a (hsub a ha) b (hsub b hb) hab, fun P hP r hr => ?_⟩
  obtain ⟨a, ha, rfl⟩ := List.mem_map.mp hP
  obtain ⟨hal, hkeep⟩ := List.mem_filter.mp ha
  obtain ⟨R, hR, hRpn, hlink⟩ := hV.links (e a) (List.mem_map_of_mem hal) r hr
  obtain ⟨b, hbl, rfl⟩ := List.mem_map.mp hR
  exact ⟨e b, List.mem_map_of_mem (List.mem_filter.mpr ⟨hbl, hclosed a hal b hbl (hRpn ▸ hr) hkeep⟩),
    hRpn, hlink⟩

theorem filter_unlinked {V : List Packet} (hV : ViewInv lvl V) (pn : Nat)
    (hpn : ∀ q ∈ V, pn ∉ q.retransmittedAs) :
    ViewInv lvl (V.filter fun q => q.PacketNumber ≠ pn) := by
  have hV' : ViewInv lvl (V.map id) := by rwa [List.map_id]
  have hf := hV'.filter_closed (fun q => decide (q.PacketNumber ≠ pn)) fun a ha b _ hab _ => by
    have hne : b.PacketNumber ≠ pn := fun heq => hpn a ha (heq ▸ hab)
    simpa using hne
  rwa [List.map_id] at hf

/-- Removing the lowest packets: their retransmissions are higher, so none is removed while
its original stays. -/
theorem of_append_right {done rest : List Packet} (hV : ViewInv lvl (done ++ rest)) :
    ViewInv lvl rest := by
  have hsub : ∀ q ∈ rest, q ∈ done ++ rest := fun q hq => List.mem_append_right done hq
  refine ⟨(List.pairwise_append.mp hV.sorted).2.1, fun q hq => hV.level q (hsub q hq),
    fun a ha b hb hab => hV.sendTimes a (hsub a ha) b (hsub b hb) hab, fun P hP r hr => ?_⟩
  obtain ⟨R, hR, hRpn, hlt, hlink⟩ := hV.links P (hsub P hP) r hr
  rcases List.mem_append.mp hR with hRd | hRr
  · have hRP := (List.pairwise_append.mp hV.sorted).2.2 R hRd P hP
    omega
  · exact ⟨R, hRr, hRpn, hlt, hlink⟩

theorem retransmit {V ps : List Packet} (hV : ViewInv lvl V)
    (hlvl : ∀ p ∈ ps, p.EncryptionLevel = lvl) (hra : ∀ p ∈ ps, p.retransmittedAs = [])
    (hps : ps.Pairwise fun a b => a.PacketNumber < b.PacketNumber ∧ a.SendTime ≤ b.SendTime)
    (hfresh : ∀ q ∈ V, ∀ p ∈ ps, q.PacketNumber < p.PacketNumber ∧ q.SendTime ≤ p.SendTime)
    {r : Nat} (hr : ∃ q ∈ V, q.PacketNumber = r) :
    ViewInv lvl ((V.map fun q => if q.PacketNumber = r then
        { q with retransmittedAs := ps.map (·.PacketNumber) } else q) ++
      ps.map fun p => { p with isRetransmission := true, retransmissionOf := r }) := by
  set mark := fun p : Packet => { p with isRetransmission := true, retransmissionOf := r }
  have happ : ViewInv lvl (V ++ ps.map mark) :=
    hV.append_fresh (by simpa [mark] using hlvl) (by simpa [mark] using hra)
      (List.pairwise_map.mpr hps) (by simpa [mark] using hfresh)
  obtain ⟨q₀, hq₀, rfl⟩ := hr
  have hlink := happ.modify_retransmittedAs (fun q => q.PacketNumber = q₀.PacketNumber)
    (fun _ => ps.map (·.PacketNumber)) fun q hq hqr r' hr' => ?_
  · rw [List.map_append] at hlink
    convert hlink using 2
    symm
    refine (List.map_congr_left fun x hx => ?_).trans (List.map_id _)
    obtain ⟨p', hp', rfl⟩ := List.mem_map.mp hx
    have hne : p'.PacketNumber ≠ q₀.PacketNumber := (Nat.ne_of_lt (hfresh q₀ hq₀ p' hp').1).symm
    simp [mark, hne]
  · obtain ⟨p, hp, rfl⟩ := List.mem_map.mp hr'
    have hqV : q ∈ V := by
      rcases List.mem_append.mp hq with hq | hq
      · exact hq
      · obtain ⟨p', hp', rfl⟩ := List.mem_map.mp hq
        exact absurd hqr (Nat.ne_of_lt (hfresh q₀ hq₀ p' hp').1).symm
    exact ⟨mark p, List.mem_append_right _ (List.mem_map_of_mem hp), rfl,
      (hfresh q hqV p hp).1, rfl, hqr.symm⟩

end ViewInv

end QuicGo.Ackhandler
