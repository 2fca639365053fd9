import Mathlib.Data.List.GetD
import QuicGo.Ackhandler.AckedPackets
import QuicGo.Ackhandler.ReceivedPacketHistory
import QuicGo.Lib.Reachable
import QuicGo.Lib.Search

/-! The packets an ACK frame acknowledges. A frame that passes `validateAckRanges` stands for the
packet numbers of its ranges, `Acks`. -/
namespace QuicGo.Wire
namespace AckFrame

/-- The packet numbers a frame acknowledges. -/
def Acks (f : AckFrame) (pn : Nat) : Prop :=
  ∃ r ∈ f.AckRanges, r.Smallest ≤ pn ∧ pn ≤ r.Largest

instance (f : AckFrame) (pn : Nat) : Decidable (f.Acks pn) :=
  inferInstanceAs (Decidable (∃ r ∈ f.AckRanges, r.Smallest ≤ pn ∧ pn ≤ r.Largest))

/-- `r₁` lies above `r₂` with at least one packet number between them. -/
def Above (r₁ r₂ : AckRange) : Prop :=
  r₂.Smallest < r₁.Smallest ∧ r₂.Largest + 1 < r₁.Smallest

instance : Trans Above Above Above where
  trans h₁₂ h₂₃ := ⟨by unfold Above at *; omega, by unfold Above at *; omega⟩

/-- What `validateAckRanges` checks, with the order stated for any two ranges and not only for
neighbours. -/
structure Valid (f : AckFrame) : Prop where
  ne : f.AckRanges ≠ []
  wf : ∀ r ∈ f.AckRanges, r.Smallest ≤ r.Largest
  desc : f.AckRanges.Pairwise Above

theorem Valid.of_validateAckRanges {f : AckFrame} (hv : f.validateAckRanges = true) : Valid f := by
  simp only [validateAckRanges, Bool.and_eq_true, Bool.not_eq_true', List.isEmpty_eq_false_iff,
    List.all_eq_true, decide_eq_true_eq] at hv
  obtain ⟨⟨hne, hwf⟩, hsep⟩ := hv
  refine ⟨hne, hwf, ?_⟩
  rw [Ackhandler.receivedPacketHistory.rangesSeparated_iff] at hsep
  exact List.isChain_iff_pairwise.mp hsep

theorem LargestAcked_eq {f : AckFrame} (hv : Valid f) :
    f.LargestAcked = some (f.AckRanges.head hv.ne).Largest := by
  simp [LargestAcked, List.head?_eq_some_head hv.ne]

theorem LowestAcked_eq {f : AckFrame} (hv : Valid f) :
    f.LowestAcked = some (f.AckRanges.getLast hv.ne).Smallest := by
  simp [LowestAcked, List.getLast?_eq_some_getLast hv.ne]

theorem Valid.bounds {f : AckFrame} (hv : Valid f) {r : AckRange} (hr : r ∈ f.AckRanges) :
    (f.AckRanges.getLast hv.ne).Smallest ≤ r.Smallest ∧
      r.Largest ≤ (f.AckRanges.head hv.ne).Largest := by
  constructor
  · have hsplit := List.dropLast_append_getLast hv.ne
    have hdesc := hv.desc
    rw [← hsplit, List.pairwise_append] at hdesc
    rw [← hsplit, List.mem_append, List.mem_singleton] at hr
    rcases hr with hr | rfl
    · exact (hdesc.2.2 r hr _ (List.mem_singleton_self _)).1.le
    · exact le_rfl
  · obtain ⟨r₀, rs, hcons⟩ := List.exists_cons_of_ne_nil hv.ne
    have hdesc := hv.desc
    have hwf := hv.wf
    simp only [hcons, List.head_cons] at hdesc hwf hr ⊢
    rcases List.mem_cons.mp hr with rfl | hr
    · exact le_rfl
    · have habove := (List.pairwise_cons.mp hdesc).1 r hr
      have hwf₀ := hwf r₀ List.mem_cons_self
      unfold Above at habove
      omega

theorem not_acks_of_outside {f : AckFrame} (hv : Valid f) (pn : Nat)
    (hout : pn < (f.AckRanges.getLast hv.ne).Smallest ∨ (f.AckRanges.head hv.ne).Largest < pn) :
    ¬ f.Acks pn := by
  rintro ⟨r, hr, hs, hl⟩
  have := hv.bounds hr
  omega

/-- The search of `AcksPacket` stops at the first range, the highest first, that starts at or
below `p`; on descending ranges, `p` is acknowledged exactly when that range holds it. -/
theorem le_searchRanges_Largest_iff {p : Nat} {l : List AckRange} (hdesc : l.Pairwise Above)
    (hex : ∃ r ∈ l, r.Smallest ≤ p) :
    p ≤ (l.getD (searchRanges p l) default).Largest ↔ ∃ r ∈ l, r.Smallest ≤ p ∧ p ≤ r.Largest := by
  induction l with
  | nil => simp at hex
  | cons r rs ih =>
    obtain ⟨hr, hrs⟩ := List.pairwise_cons.mp hdesc
    by_cases hstart : r.Smallest ≤ p
    · simp only [searchRanges, ge_iff_le, if_pos hstart, List.getD_cons_zero]
      constructor
      · intro hp
        exact ⟨r, List.mem_cons_self, hstart, hp⟩
      · rintro ⟨r', hr', -, hp'⟩
        rcases List.mem_cons.mp hr' with rfl | hr'
        · exact hp'
        · have := (hr r' hr').2
          omega
    · have hex' : ∃ r ∈ rs, r.Smallest ≤ p := by
        obtain ⟨r', hr', hs'⟩ := hex
        rcases List.mem_cons.mp hr' with rfl | hr'
        · exact absurd hs' hstart
        · exact ⟨r', hr', hs'⟩
      simp only [searchRanges, ge_iff_le, if_neg hstart, List.getD_cons_succ]
      rw [ih hrs hex']
      constructor
      · rintro ⟨r', hr', h⟩
        exact ⟨r', List.mem_cons_of_mem _ hr', h⟩
      · rintro ⟨r', hr', hs', hp'⟩
        rcases List.mem_cons.mp hr' with rfl | hr'
        · exact absurd hs' hstart
        · exact ⟨r', hr', hs', hp'⟩

theorem AcksPacket_eq {f : AckFrame} (hv : Valid f) (p : Nat) :
    f.AcksPacket p = some (decide (f.Acks p)) := by
  simp only [AcksPacket, LowestAcked_eq hv, LargestAcked_eq hv, Option.bind_eq_bind,
    Option.bind_some]
  split
  · rename_i hout
    rw [decide_eq_false (not_acks_of_outside hv p (by omega))]
    rfl
  · rename_i hin
    have hex : ∃ r ∈ f.AckRanges, r.Smallest ≤ p := ⟨_, List.getLast_mem hv.ne, by omega⟩
    simp only [Option.pure_def, Option.some.injEq, decide_eq_decide]
    exact le_searchRanges_Largest_iff hv.desc hex

/-! ### The binary search of `AcksPacket`

On descending ranges the predicate of `sort.Search` is monotone, so the binary search returns
the index that `searchRanges` computes. -/

/-- The predicate of the `sort.Search` call in `AcksPacket`. -/
def startsAtOrBelow (p : Nat) (l : List AckRange) (i : Nat) : Bool :=
  decide (p ≥ (l.getD i default).Smallest)

theorem searchRanges_isFirst (p : Nat) (l : List AckRange) :
    Lib.IsFirst (startsAtOrBelow p l) l.length (searchRanges p l) := by
  induction l with
  | nil => exact ⟨le_rfl, fun _ hk => absurd hk (Nat.not_lt_zero _), fun h => absurd h (by simp)⟩
  | cons r rs ih =>
    by_cases hstart : p ≥ r.Smallest
    · rw [searchRanges, if_pos hstart]
      exact ⟨Nat.zero_le _, fun _ hk => absurd hk (Nat.not_lt_zero _),
        fun _ => by simpa [startsAtOrBelow] using hstart⟩
    · rw [searchRanges, if_neg hstart]
      refine ⟨by simpa using ih.le, fun k hk => ?_, fun hlt => ?_⟩
      · cases k with
        | zero => simpa [startsAtOrBelow] using hstart
        | succ k => simpa [startsAtOrBelow] using ih.below k (by omega)
      · simpa [startsAtOrBelow] using ih.at_ (by simpa using hlt)

/-- On descending ranges the predicate holds from the first range that starts at or below `p`
on. -/
theorem startsAtOrBelow_monotoneOn {l : List AckRange} (hdesc : l.Pairwise Above) (p : Nat) :
    Lib.MonotoneOn (startsAtOrBelow p l) l.length := by
  intro a b hab hb ha
  simp only [startsAtOrBelow, ge_iff_le, decide_eq_true_eq,
    List.getD_eq_getElem _ _ (show a < l.length by omega),
    List.getD_eq_getElem _ _ hb] at ha ⊢
  rcases Nat.lt_or_eq_of_le hab with hlt | rfl
  · have := (List.pairwise_iff_getElem.mp hdesc a b (by omega) hb hlt).1
    omega
  · exact ha

/-- On a frame that passes `validateAckRanges`, the binary search of `AcksPacket` finds the index
that `searchRanges` computes, which is a range of the frame once `p` is at least the lowest
acknowledged packet, and `AcksPacket p` is true exactly when some range holds `p`. -/
theorem AcksPacket_iff_exists_range {f : AckFrame} (hv : f.validateAckRanges = true) (p : Nat) :
    searchRanges p f.AckRanges = Lib.search f.AckRanges.length (startsAtOrBelow p f.AckRanges) ∧
      (∀ lowest, f.LowestAcked = some lowest → lowest ≤ p →
        Lib.search f.AckRanges.length (startsAtOrBelow p f.AckRanges) < f.AckRanges.length) ∧
      ∃ b, f.AcksPacket p = some b ∧
        (b = true ↔ ∃ i, ∃ h : i < f.AckRanges.length,
          f.AckRanges[i].Smallest ≤ p ∧ p ≤ f.AckRanges[i].Largest) := by
  have hV := Valid.of_validateAckRanges hv
  have hsearch : Lib.search f.AckRanges.length (startsAtOrBelow p f.AckRanges) =
      searchRanges p f.AckRanges :=
    Lib.search_eq_of_first (startsAtOrBelow_monotoneOn hV.desc p) (searchRanges_isFirst p _)
  refine ⟨hsearch.symm, fun lowest hlow hp => ?_, _, AcksPacket_eq hV p, ?_⟩
  · rw [hsearch]
    rw [LowestAcked_eq hV, Option.some.injEq] at hlow
    have hlast : f.AckRanges.length - 1 < f.AckRanges.length :=
      Nat.sub_lt (List.length_pos_of_ne_nil hV.ne) Nat.one_pos
    by_contra hge
    have hfirst := searchRanges_isFirst p f.AckRanges
    have hfails := hfirst.below _ (by omega : f.AckRanges.length - 1 < searchRanges p f.AckRanges)
    simp only [startsAtOrBelow, List.getD_eq_getElem _ _ hlast, ← List.getLast_eq_getElem hV.ne,
      hlow, decide_eq_false_iff_not] at hfails
    exact hfails hp
  · rw [decide_eq_true_iff, Acks]
    simp only [List.mem_iff_getElem]
    constructor
    · rintro ⟨r, ⟨i, hi, rfl⟩, hr⟩
      exact ⟨i, hi, hr⟩
    · rintro ⟨i, hi, hr⟩
      exact ⟨_, ⟨i, hi, rfl⟩, hr⟩

/-- Packet 2 of the ranges `[4, 4]` and `[1, 2]`: the binary search stops at the second range. -/
theorem AcksPacket_iff_exists_range_gap :
    validateAckRanges ⟨[⟨4, 4⟩, ⟨1, 2⟩], 0⟩ = true ∧
      searchRanges 2 [⟨4, 4⟩, ⟨1, 2⟩] = Lib.search 2 (startsAtOrBelow 2 [⟨4, 4⟩, ⟨1, 2⟩]) :=
  ⟨by decide, (AcksPacket_iff_exists_range (f := ⟨[⟨4, 4⟩, ⟨1, 2⟩], 0⟩) (by decide) 2).1⟩

end AckFrame
end QuicGo.Wire

namespace QuicGo.Ackhandler
namespace sentPacketHandler
open QuicGo.Protocol QuicGo.Wire QuicGo.Lib sentPacketHistory

/-- The range that the index of the walk of `determineNewlyAckedPackets` points at: index 0 is
the lowest range. -/
def rangeAt (ranges : List AckRange) (i : Nat) : AckRange :=
  ranges.getD (ranges.length - 1 - i) default

theorem rangeAt_mem {ranges : List AckRange} (hne : ranges ≠ []) (i : Nat) :
    rangeAt ranges i ∈ ranges := by
  have hlen : ranges.length - 1 - i < ranges.length := by
    have := List.length_pos_of_ne_nil hne
    omega
  rw [rangeAt, List.getD_eq_getElem _ _ hlen]
  exact List.getElem_mem hlen

theorem rangeAt_above {ranges : List AckRange} (hdesc : ranges.Pairwise AckFrame.Above)
    {j k : Nat} (hjk : j < k) (hk : k ≤ ranges.length - 1) :
    AckFrame.Above (rangeAt ranges k) (rangeAt ranges j) := by
  have hlen : 0 < ranges.length := by omega
  simp only [rangeAt, List.getD_eq_getElem _ _ (show ranges.length - 1 - k < ranges.length by omega),
    List.getD_eq_getElem _ _ (show ranges.length - 1 - j < ranges.length by omega)]
  exact List.pairwise_iff_getElem.mp hdesc _ _ _ _ (by omega)

theorem rangeAt_last {ranges : List AckRange} (hne : ranges ≠ []) :
    rangeAt ranges (ranges.length - 1) = ranges.head hne := by
  obtain ⟨r, rs, rfl⟩ := List.exists_cons_of_ne_nil hne
  simp [rangeAt]

/-- With every range below index `k` ending before `pn`, and `pn` not above range `k`, the
frame acknowledges `pn` exactly when range `k` starts at or below it. -/
theorem acks_iff_rangeAt {f : AckFrame} (hv : f.Valid) {k pn : Nat}
    (hbelow : ∀ j < k, (rangeAt f.AckRanges j).Largest < pn)
    (hle : pn ≤ (rangeAt f.AckRanges k).Largest) :
    f.Acks pn ↔ (rangeAt f.AckRanges k).Smallest ≤ pn := by
  constructor
  · rintro ⟨r, hr, hs, hl⟩
    obtain ⟨m, hm, rfl⟩ := List.mem_iff_getElem.mp hr
    have hidx : f.AckRanges.length - 1 - (f.AckRanges.length - 1 - m) = m := by omega
    have hj : f.AckRanges[m] = rangeAt f.AckRanges (f.AckRanges.length - 1 - m) := by
      rw [rangeAt, hidx, List.getD_eq_getElem _ _ hm]
    rw [hj] at hs hl
    rcases Nat.lt_trichotomy (f.AckRanges.length - 1 - m) k with hlt | heq | hgt
    · have := hbelow _ hlt
      omega
    · rw [heq] at hs
      exact hs
    · have := rangeAt_above hv.desc hgt (by omega)
      unfold AckFrame.Above at this
      omega
  · intro hs
    exact ⟨_, rangeAt_mem hv.ne k, hs, hle⟩

theorem advanceRange_below (ranges : List AckRange) (pn : Nat) (i : Nat)
    (hbelow : ∀ j < i, (rangeAt ranges j).Largest < pn) :
    ∀ j < advanceRange ranges pn i, (rangeAt ranges j).Largest < pn := by
  fun_induction advanceRange ranges pn i with
  | case1 i hcond ih =>
    apply ih
    intro j hj
    rcases Nat.lt_succ_iff_lt_or_eq.mp hj with hj | rfl
    · exact hbelow j hj
    · exact hcond.1
  | case2 i _ => exact hbelow

section Walk

variable {ackFrame : AckFrame} (hv : ackFrame.Valid) {lowestAcked largestAcked : Nat}
  (hlo : ackFrame.LowestAcked = some lowestAcked) (hla : ackFrame.LargestAcked = some largestAcked)
include hv hlo hla

/-- One step of the walk: the packet is taken exactly when the frame acknowledges it, the walk
goes on exactly while the packet is not above the largest acknowledged one, and the ranges
below the new index end before the packet. -/
theorem ackedCallback_eq {i : Nat} (hi : i ≤ ackFrame.AckRanges.length - 1) {p : Packet}
    (hbelow : ∀ j < i, (rangeAt ackFrame.AckRanges j).Largest < p.PacketNumber)
    (acked : List Nat) (el : Nat) :
    ∃ i', i' ≤ ackFrame.AckRanges.length - 1 ∧
      (∀ j < i', (rangeAt ackFrame.AckRanges j).Largest < p.PacketNumber) ∧
      ackedCallback ackFrame lowestAcked largestAcked (i, acked) el p =
        .ok (decide (p.PacketNumber ≤ largestAcked),
          (i', if ackFrame.Acks p.PacketNumber then acked ++ [el] else acked)) := by
  have hlow : lowestAcked = (ackFrame.AckRanges.getLast hv.ne).Smallest := by
    rw [AckFrame.LowestAcked_eq hv] at hlo
    exact (Option.some.inj hlo).symm
  have hlarge : largestAcked = (ackFrame.AckRanges.head hv.ne).Largest := by
    rw [AckFrame.LargestAcked_eq hv] at hla
    exact (Option.some.inj hla).symm
  have hlowLarge : lowestAcked ≤ largestAcked := by
    have := hv.bounds (List.getLast_mem hv.ne)
    have := hv.wf _ (List.getLast_mem hv.ne)
    omega
  dsimp only [ackedCallback]
  by_cases hbelowLowest : p.PacketNumber < lowestAcked
  · have hnot := AckFrame.not_acks_of_outside hv p.PacketNumber (.inl (by omega))
    refine ⟨i, hi, hbelow, ?_⟩
    rw [if_pos hbelowLowest, if_neg hnot, decide_eq_true (by omega)]
  rw [if_neg hbelowLowest]
  by_cases habove : p.PacketNumber > largestAcked
  · have hnot := AckFrame.not_acks_of_outside hv p.PacketNumber (.inr (by omega))
    refine ⟨i, hi, hbelow, ?_⟩
    rw [if_pos habove, if_neg hnot, decide_eq_false (by omega)]
  rw [if_neg habove, decide_eq_true (by omega)]
  split
  · rename_i hmissing
    obtain ⟨hk, hcase⟩ := advanceRange_spec ackFrame.AckRanges p.PacketNumber i hi
    have hbelow' := advanceRange_below ackFrame.AckRanges p.PacketNumber i hbelow
    set k := advanceRange ackFrame.AckRanges p.PacketNumber i
    have hle : p.PacketNumber ≤ (rangeAt ackFrame.AckRanges k).Largest := by
      rcases hcase with hle | hlast
      · exact hle
      · rw [hlast, rangeAt_last hv.ne]
        omega
    have hiff := acks_iff_rangeAt hv hbelow' hle
    refine ⟨k, hk, hbelow', ?_⟩
    have hat : ackFrame.AckRanges.getD (ackFrame.AckRanges.length - 1 - k) default =
        rangeAt ackFrame.AckRanges k := rfl
    rw [hat]
    by_cases hstart : (rangeAt ackFrame.AckRanges k).Smallest ≤ p.PacketNumber
    · have hnotAbove : ¬ p.PacketNumber > (rangeAt ackFrame.AckRanges k).Largest := by omega
      rw [if_pos (show p.PacketNumber ≥ _ from hstart), if_neg hnotAbove,
        if_pos (hiff.mpr hstart)]
    · rw [if_neg (show ¬ p.PacketNumber ≥ _ from hstart), if_neg (mt hiff.mp hstart)]
  · rename_i hsingle
    have hone : ackFrame.AckRanges.length = 1 := by
      have := List.length_pos_of_ne_nil hv.ne
      simp only [AckFrame.HasMissingRanges, decide_eq_true_eq, not_lt] at hsingle
      omega
    obtain ⟨r, hr⟩ := List.length_eq_one_iff.mp hone
    have hacks : ackFrame.Acks p.PacketNumber := by
      refine ⟨r, by simp [hr], ?_, ?_⟩
      · simp only [hr, List.getLast_singleton] at hlow
        omega
      · simp only [hr, List.head_cons] at hlarge
        omega
    refine ⟨i, hi, hbelow, ?_⟩
    rw [if_pos hacks]

/-- The walk over the packets still to visit, in ascending order, from a range index below
which every range ends before them: it adds the acknowledged ones to those already taken. -/
theorem ackedWalk_eq (H : sentPacketHistory) :
    ∀ (rest : List Nat) (i : Nat) (acked : List Nat),
      (rest.map fun el => (H.elements el).PacketNumber).Pairwise (· < ·) →
      i ≤ ackFrame.AckRanges.length - 1 →
      (∀ el ∈ rest, ∀ j < i,
        (rangeAt ackFrame.AckRanges j).Largest < (H.elements el).PacketNumber) →
      ∃ i', Iterate.go H (ackedCallback ackFrame lowestAcked largestAcked) rest (i, acked) =
        .ok (i', acked ++ rest.filter fun el => decide (ackFrame.Acks (H.elements el).PacketNumber)) := by
  intro rest
  induction rest with
  | nil => exact fun i acked _ _ _ => ⟨i, by simp [Iterate.go]⟩
  | cons el rest ih =>
    intro i acked hasc hi hbelow
    rw [List.map_cons, List.pairwise_cons] at hasc
    obtain ⟨i', hi', hbelow', hcb⟩ := ackedCallback_eq hv hlo hla hi
      (hbelow el List.mem_cons_self) acked el
    have hrest : ∀ el' ∈ rest, ∀ j < i',
        (rangeAt ackFrame.AckRanges j).Largest < (H.elements el').PacketNumber := by
      intro el' hel' j hj
      have := hasc.1 _ (List.mem_map_of_mem hel')
      have := hbelow' j hj
      omega
    simp only [Iterate.go, hcb, bind, Except.bind]
    by_cases hcont : (H.elements el).PacketNumber ≤ largestAcked
    · rw [decide_eq_true hcont, if_pos rfl]
      obtain ⟨i'', hgo⟩ := ih i' _ hasc.2 hi' hrest
      refine ⟨i'', ?_⟩
      rw [hgo, List.filter_cons]
      by_cases hacks : ackFrame.Acks (H.elements el).PacketNumber
      · simp [hacks]
      · simp [hacks]
    · rw [decide_eq_false hcont]
      have hnone : ∀ el' ∈ el :: rest, ¬ ackFrame.Acks (H.elements el').PacketNumber := by
        intro el' hel'
        have hlarge : largestAcked = (ackFrame.AckRanges.head hv.ne).Largest := by
          rw [AckFrame.LargestAcked_eq hv] at hla
          exact (Option.some.inj hla).symm
        apply AckFrame.not_acks_of_outside hv
        right
        rcases List.mem_cons.mp hel' with rfl | hel'
        · omega
        · have := hasc.1 _ (List.mem_map_of_mem hel')
          omega
      refine ⟨i', ?_⟩
      rw [List.filter_eq_nil_iff.mpr fun el' hel' => by simpa using hnone el' hel',
        if_neg (hnone el List.mem_cons_self)]
      simp

end Walk

/-- On a history whose packet numbers ascend, `determineNewlyAckedPackets` returns the packets
that a valid frame acknowledges, in the order of the history. -/
theorem determineNewlyAckedPackets_eq {h : sentPacketHandler} {E : EncryptionLevel}
    {s : packetNumberSpace} (hg : h.getPacketNumberSpace E = .ok s) {ackFrame : AckFrame}
    (hv : ackFrame.Valid)
    (hasc : (s.history.packetList.map fun el => (s.history.elements el).PacketNumber).Pairwise
      (· < ·)) :
    h.determineNewlyAckedPackets ackFrame E =
      .ok (s.history.packetList.filter fun el =>
        decide (ackFrame.Acks (s.history.elements el).PacketNumber)) := by
  have hlo := AckFrame.LowestAcked_eq hv
  have hla := AckFrame.LargestAcked_eq hv
  obtain ⟨i', hgo⟩ := ackedWalk_eq hv hlo hla s.history s.history.packetList 0 [] hasc
    (Nat.zero_le _) (fun _ _ _ hj => absurd hj (Nat.not_lt_zero _))
  simp only [determineNewlyAckedPackets, hg, hlo, hla, Iterate, Except.ok_bind, hgo,
    List.nil_append]
  rfl

end sentPacketHandler
end QuicGo.Ackhandler

namespace QuicGo.Ackhandler
namespace sentPacketHandler
open QuicGo.Protocol QuicGo.Wire QuicGo.Lib

/-- For a frame that passes `validateAckRanges` and a history whose packet numbers ascend,
`determineNewlyAckedPackets` returns no error and exactly the packets that `AcksPacket`
acknowledges, in ascending order of packet number. -/
theorem determineNewlyAckedPackets_eq_AcksPacket {h : sentPacketHandler} {E : EncryptionLevel}
    {s : packetNumberSpace} (hg : h.getPacketNumberSpace E = .ok s) {ackFrame : AckFrame}
    (hv : ackFrame.validateAckRanges = true)
    (hasc : (s.history.packetList.map fun el => (s.history.elements el).PacketNumber).Pairwise
      (· < ·)) :
    ∃ acked, h.determineNewlyAckedPackets ackFrame E = .ok acked ∧
      acked = s.history.packetList.filter
        (fun el => ackFrame.AcksPacket (s.history.elements el).PacketNumber = some true) ∧
      (acked.map fun el => (s.history.elements el).PacketNumber).Pairwise (· < ·) := by
  have hvalid := AckFrame.Valid.of_validateAckRanges hv
  have hfilter : (s.history.packetList.filter fun el =>
        decide (ackFrame.Acks (s.history.elements el).PacketNumber)) =
      s.history.packetList.filter
        (fun el => ackFrame.AcksPacket (s.history.elements el).PacketNumber = some true) := by
    apply List.filter_congr
    intro el _
    simp [AckFrame.AcksPacket_eq hvalid]
  refine ⟨_, determineNewlyAckedPackets_eq hg hvalid hasc, hfilter, ?_⟩
  exact hasc.sublist (List.filter_sublist.map _)

/-- An Initial packet of 100 bytes carrying a PING frame, numbered `pn`. -/
def initialPingNumbered (pn : Nat) : Packet where
  PacketNumber := pn
  PacketType := .PacketTypeInitial
  Frames := [.ping]
  Length := 100
  EncryptionLevel := .EncryptionInitial
  SendTime := 0

/-- Initial packets 0, 1, 2 and 4, and a frame acknowledging `[4, 4]` and `[1, 2]`. -/
theorem acked_by_two_ranges :
    ∃ h s, run step (fun _ _ => True) (NewSentPacketHandler 0 0 0 0)
        [.sentPacket (initialPingNumbered 0), .sentPacket (initialPingNumbered 1),
          .sentPacket (initialPingNumbered 2), .sentPacket (initialPingNumbered 4)] = some h ∧
      h.getPacketNumberSpace .EncryptionInitial = .ok s ∧
      ∃ acked, h.determineNewlyAckedPackets ⟨[⟨4, 4⟩, ⟨1, 2⟩], 0⟩ .EncryptionInitial = .ok acked ∧
        acked = s.history.packetList.filter (fun el =>
          AckFrame.AcksPacket ⟨[⟨4, 4⟩, ⟨1, 2⟩], 0⟩ (s.history.elements el).PacketNumber =
            some true) ∧
        (acked.map fun el => (s.history.elements el).PacketNumber).Pairwise (· < ·) := by
  have hrun : run step (fun _ _ => True) (NewSentPacketHandler 0 0 0 0)
      [.sentPacket (initialPingNumbered 0), .sentPacket (initialPingNumbered 1),
        .sentPacket (initialPingNumbered 2), .sentPacket (initialPingNumbered 4)] = some _ := rfl
  exact ⟨_, _, hrun, rfl, determineNewlyAckedPackets_eq_AcksPacket rfl (by decide) (by decide)⟩

end sentPacketHandler
end QuicGo.Ackhandler
