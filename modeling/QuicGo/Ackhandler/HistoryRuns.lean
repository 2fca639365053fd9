import QuicGo.Ackhandler.HistoryView
import QuicGo.Lib.Reachable

/-! Whole runs of a `sentPacketHistory`. Each operation updates the history's four views of its
packets (the list, the map, the outstanding count and the first-outstanding pointer) separately. -/
namespace QuicGo.Ackhandler
namespace sentPacketHistory
open QuicGo.Lib

/-- The calls a history takes. -/
inductive Event where
  | sentPacket (p : Packet)
  | sentPacketsAsRetransmission (packets : List Packet) (retransmissionOf : Nat)
  | markCannotBeRetransmitted (pn : Nat)
  | remove (p : Nat)

/-- One call; an error or a panic ends the run. -/
def step (h : sentPacketHistory) : Event → Option sentPacketHistory
  | .sentPacket p => some (h.SentPacket p)
  | .sentPacketsAsRetransmission packets retransmissionOf =>
    some (h.SentPacketsAsRetransmission packets retransmissionOf)
  | .markCannotBeRetransmitted pn => (h.MarkCannotBeRetransmitted pn).toOption
  | .remove p => (h.Remove p).toOption

/-- The packets a caller stores are retransmittable, with packet numbers above those in the
history and increasing within a batch. Marking and removing take any packet number: an
unknown one is an error, which ends the run. -/
def Admissible (h : sentPacketHistory) : Event → Prop
  | .sentPacket p => FreshFor h [p]
  | .sentPacketsAsRetransmission packets _ => FreshFor h packets
  | .markCannotBeRetransmitted _ | .remove _ => True

/-- The histories that a run of admissible calls leads to from an empty one. -/
def Reachable (h : sentPacketHistory) : Prop :=
  Lib.Reachable step Admissible newSentPacketHistory h

/-! ### The accessors under `WF` -/

section Accessors

variable {h : sentPacketHistory} (hw : WF h)
include hw

theorem WF.FirstOutstanding_eq :
    h.FirstOutstanding.map h.elements = h.view.find? (·.canBeRetransmitted) := by
  rw [FirstOutstanding, hw.first, view, List.find?_map]
  rfl

theorem WF.numOutstandingPackets_eq :
    h.numOutstandingPackets = h.view.countP (·.canBeRetransmitted) := by
  rw [hw.count, view, List.countP_map]
  rfl

theorem WF.HasOutstandingPackets_iff :
    h.HasOutstandingPackets = true ↔ ∃ q ∈ h.view, q.canBeRetransmitted = true := by
  rw [HasOutstandingPackets, decide_eq_true_iff, hw.numOutstandingPackets_eq, gt_iff_lt,
    Int.natCast_pos, List.countP_pos_iff]

/-- On a listed packet, `MarkCannotBeRetransmitted` and `Remove` succeed: the count never
goes negative, so their panic is unreachable. -/
theorem WF.ok_of_lookup {pn el : Nat} (hl : h.packetMap.lookup pn = some el) :
    (∃ h', h.MarkCannotBeRetransmitted pn = .ok h') ∧ ∃ h', h.Remove pn = .ok h' :=
  ⟨⟨_, MarkCannotBeRetransmitted_eq hw hl⟩, ⟨_, Remove_eq hw hl⟩⟩

end Accessors

/-! ### Runs -/

theorem WF.of_step {h h' : sentPacketHistory} {e : Event} (hw : WF h) (he : Admissible h e)
    (hs : step h e = some h') : WF h' := by
  cases e with
  | sentPacket p =>
    obtain ⟨hcb, -, hfresh⟩ := he
    cases Option.some.inj hs
    exact (SentPacket_spec hw (hcb p (List.mem_singleton_self p))
      fun q hq => hfresh q hq p (List.mem_singleton_self p)).1
  | sentPacketsAsRetransmission packets retransmissionOf =>
    cases Option.some.inj hs
    exact (SentPacketsAsRetransmission_spec hw he retransmissionOf).1
  | markCannotBeRetransmitted pn =>
    rw [step, Except.toOption_eq_some_iff] at hs
    cases hl : h.packetMap.lookup pn with
    | none => simp [MarkCannotBeRetransmitted, hl] at hs
    | some el =>
      rw [MarkCannotBeRetransmitted_eq hw hl, Except.ok.injEq] at hs
      exact hs ▸ (MarkCannotBeRetransmitted_spec hw hl).1
  | remove p =>
    rw [step, Except.toOption_eq_some_iff] at hs
    cases hl : h.packetMap.lookup p with
    | none => simp [Remove, hl] at hs
    | some el =>
      rw [Remove_eq hw hl, Except.ok.injEq] at hs
      exact hs ▸ (Remove_spec hw hl).1

theorem Reachable.WF {h : sentPacketHistory} (hr : Reachable h) : WF h :=
  Lib.Reachable.invariant WF.newSentPacketHistory (fun _ _ _ hw he hs => hw.of_step he hs) hr

/-- On every reachable history the list is sorted by packet number, the map indexes exactly
the listed packets by their numbers, the count and the pointer agree with the list, and so
`FirstOutstanding` and `HasOutstandingPackets` are accurate. -/
theorem Reachable.views_agree {h : sentPacketHistory} (hr : Reachable h) :
    h.view.Pairwise (·.PacketNumber < ·.PacketNumber) ∧
      (∀ pn el, h.packetMap.lookup pn = some el ↔
        el ∈ h.packetList ∧ (h.elements el).PacketNumber = pn) ∧
      h.numOutstandingPackets = h.view.countP (·.canBeRetransmitted) ∧
      h.firstOutstanding = h.packetList.find? (fun el => (h.elements el).canBeRetransmitted) ∧
      h.FirstOutstanding.map h.elements = h.view.find? (·.canBeRetransmitted) ∧
      (h.HasOutstandingPackets = true ↔ ∃ q ∈ h.view, q.canBeRetransmitted = true) := by
  have hw := hr.WF
  exact ⟨List.pairwise_map.mpr hw.sorted, hw.map, hw.numOutstandingPackets_eq, hw.first,
    hw.FirstOutstanding_eq, hw.HasOutstandingPackets_iff⟩

instance (h : sentPacketHistory) (ps : List Packet) : Decidable (FreshFor h ps) :=
  inferInstanceAs (Decidable (_ ∧ _ ∧ _))

instance : (h : sentPacketHistory) → (e : Event) → Decidable (Admissible h e)
  | h, .sentPacket p => inferInstanceAs (Decidable (FreshFor h [p]))
  | h, .sentPacketsAsRetransmission packets _ => inferInstanceAs (Decidable (FreshFor h packets))
  | _, .markCannotBeRetransmitted _ => inferInstanceAs (Decidable True)
  | _, .remove _ => inferInstanceAs (Decidable True)

/-- A retransmittable packet with packet number `pn`. -/
def retransmittablePacket (pn : Nat) : Packet :=
  { (default : Packet) with PacketNumber := pn, canBeRetransmitted := true }

/-- Packets 1 and 2 are sent, packet 1 is declared lost and retransmitted as packet 3, and
packet 2 is acknowledged. -/
def lossAndAck : List Event :=
  [.sentPacket (retransmittablePacket 1), .sentPacket (retransmittablePacket 2),
    .markCannotBeRetransmitted 1, .sentPacketsAsRetransmission [retransmittablePacket 3] 1,
    .remove 2]

/-- After `lossAndAck` the history lists packets 1 and 3, of which only the retransmission is
outstanding. -/
theorem views_agree_lossAndAck :
    ∃ h, run step Admissible newSentPacketHistory lossAndAck = some h ∧
      h.view.map (fun q => (q.PacketNumber, q.canBeRetransmitted)) = [(1, false), (3, true)] ∧
      h.HasOutstandingPackets = true := by
  have hview : (run step Admissible newSentPacketHistory lossAndAck).map
      (fun h => h.view.map fun q => (q.PacketNumber, q.canBeRetransmitted)) =
        some [(1, false), (3, true)] := by
    decide
  obtain ⟨h, hr, hv⟩ := Option.map_eq_some_iff.mp hview
  have hreach : Reachable h := reachable_of_run .init hr
  obtain ⟨q, hq, hq3⟩ := List.mem_map.mp (hv ▸ List.mem_cons_of_mem _ (List.mem_singleton_self _) :
    ((3, true) : Nat × Bool) ∈ h.view.map fun q => (q.PacketNumber, q.canBeRetransmitted))
  exact ⟨h, hr, hv, (Reachable.views_agree hreach).2.2.2.2.2.mpr
    ⟨q, hq, (Prod.mk.inj hq3).2⟩⟩

end sentPacketHistory
end QuicGo.Ackhandler
