import Mathlib.Data.List.Find
import QuicGo.Ackhandler.SentPacketHistory
import QuicGo.Lib.List
import QuicGo.Lib.Except

/-! The history as the list of packets it holds. `WF` is what the handler keeps of a history:
element identities below `nextElement`, packet numbers strictly increasing along the list,
`packetMap` indexing exactly the listed elements, and the first-outstanding pointer and the
outstanding count agreeing with the list. -/
namespace QuicGo.Ackhandler
namespace sentPacketHistory
open QuicGo.Lib

/-- The packets of the history, front to back. -/
def view (h : sentPacketHistory) : List Packet :=
  h.packetList.map h.elements

/-- Whether an element still counts as outstanding. -/
def outstanding (h : sentPacketHistory) (el : Nat) : Bool :=
  (h.elements el).canBeRetransmitted

/-- The history with the first-outstanding pointer and the outstanding count recomputed from
its list. -/
def recount (h : sentPacketHistory) : sentPacketHistory :=
  { h with
    firstOutstanding := h.packetList.find? h.outstanding
    numOutstandingPackets := h.packetList.countP h.outstanding }

/-- The list, map and elements after `sentPacketImpl`, before the pointer and the count. -/
def pushBack (h : sentPacketHistory) (p : Packet) : sentPacketHistory :=
  { h with
    packetList := h.packetList ++ [h.nextElement]
    packetMap := h.packetMap.insert p.PacketNumber h.nextElement
    elements := Function.update h.elements h.nextElement p
    nextElement := h.nextElement + 1 }

/-- The list and map after `Remove`, before the pointer and the count. -/
def erasePacket (h : sentPacketHistory) (el p : Nat) : sentPacketHistory :=
  { h with
    packetList := h.packetList.erase el
    packetMap := h.packetMap.erase p }

section FieldLemmas

variable (h : sentPacketHistory)

@[simp] theorem recount_packetList : h.recount.packetList = h.packetList := rfl
@[simp] theorem recount_packetMap : h.recount.packetMap = h.packetMap := rfl
@[simp] theorem recount_elements : h.recount.elements = h.elements := rfl
@[simp] theorem recount_nextElement : h.recount.nextElement = h.nextElement := rfl
@[simp] theorem setElement_packetList (el f) : (h.setElement el f).packetList = h.packetList := rfl
@[simp] theorem setElement_packetMap (el f) : (h.setElement el f).packetMap = h.packetMap := rfl
@[simp] theorem setElement_nextElement (el f) :
    (h.setElement el f).nextElement = h.nextElement := rfl
@[simp] theorem setElement_elements (el f) :
    (h.setElement el f).elements = Function.update h.elements el (f (h.elements el)) := rfl
@[simp] theorem erasePacket_elements (el p) : (h.erasePacket el p).elements = h.elements := rfl
@[simp] theorem erasePacket_packetList (el p) :
    (h.erasePacket el p).packetList = h.packetList.erase el := rfl
@[simp] theorem view_recount : h.recount.view = h.view := rfl

end FieldLemmas

/-- The part of `WF` about the list, the map and the element values. -/
structure Shape (h : sentPacketHistory) : Prop where
  lt_next : ∀ el ∈ h.packetList, el < h.nextElement
  sorted : h.packetList.Pairwise fun a b =>
    (h.elements a).PacketNumber < (h.elements b).PacketNumber
  map : ∀ pn el, h.packetMap.lookup pn = some el ↔
    el ∈ h.packetList ∧ (h.elements el).PacketNumber = pn

structure WF (h : sentPacketHistory) : Prop extends Shape h where
  first : h.firstOutstanding = h.packetList.find? h.outstanding
  count : h.numOutstandingPackets = h.packetList.countP h.outstanding

theorem WF.newSentPacketHistory : WF newSentPacketHistory where
  lt_next := by simp [sentPacketHistory.newSentPacketHistory]
  sorted := by simp [sentPacketHistory.newSentPacketHistory]
  map := by simp [sentPacketHistory.newSentPacketHistory, AList.lookup_empty]
  first := rfl
  count := rfl

theorem WF.of_shape {h : sentPacketHistory} (hs : Shape h) : WF h.recount :=
  { hs with first := rfl, count := rfl }

theorem WF.recount_eq {h : sentPacketHistory} (hw : WF h) : h.recount = h := by
  ext1 <;> simp [recount, hw.first, hw.count]

namespace Shape

variable {h : sentPacketHistory} (hs : Shape h)
include hs

theorem nodup : h.packetList.Nodup :=
  hs.sorted.imp fun hlt heq => by subst heq; exact lt_irrefl _ hlt

theorem lookup_of_mem {el : Nat} (hel : el ∈ h.packetList) :
    h.packetMap.lookup (h.elements el).PacketNumber = some el :=
  (hs.map _ _).2 ⟨hel, rfl⟩

theorem eq_of_pn_eq {a b : Nat} (ha : a ∈ h.packetList) (hb : b ∈ h.packetList)
    (hab : (h.elements a).PacketNumber = (h.elements b).PacketNumber) : a = b := by
  have hla := hs.lookup_of_mem ha
  rw [hab, hs.lookup_of_mem hb] at hla
  exact (Option.some.inj hla).symm

theorem lookup_eq_none_iff {pn : Nat} :
    h.packetMap.lookup pn = none ↔ ∀ q ∈ h.view, q.PacketNumber ≠ pn := by
  constructor
  · rintro hl q hq rfl
    obtain ⟨el, hel, rfl⟩ := List.mem_map.mp hq
    simp [hs.lookup_of_mem hel] at hl
  · intro hq
    cases hl : h.packetMap.lookup pn with
    | none => rfl
    | some el =>
      obtain ⟨hel, rfl⟩ := (hs.map _ _).1 hl
      exact absurd rfl (hq _ (List.mem_map_of_mem hel))

theorem elements_pushBack_of_mem {p : Packet} {el : Nat} (hel : el ∈ h.packetList) :
    (h.pushBack p).elements el = h.elements el :=
  Function.update_of_ne (Nat.ne_of_lt (hs.lt_next el hel)) _ _

theorem view_pushBack (p : Packet) : (h.pushBack p).view = h.view ++ [p] := by
  simp only [view, pushBack, List.map_append, List.map_cons, List.map_nil,
    Function.update_self]
  congr 1
  exact List.map_congr_left fun el hel => hs.elements_pushBack_of_mem hel

theorem pushBack {p : Packet} (hfresh : ∀ q ∈ h.view, q.PacketNumber < p.PacketNumber) :
    Shape (h.pushBack p) where
  lt_next el hel := by
    rcases List.mem_append.mp hel with hel | hel
    · exact Nat.lt_succ_of_lt (hs.lt_next el hel)
    · simp_all [sentPacketHistory.pushBack]
  sorted := by
    refine List.pairwise_append.mpr ⟨?_, List.pairwise_singleton _ _, ?_⟩
    · refine hs.sorted.imp_of_mem fun ha hb hab => ?_
      rwa [hs.elements_pushBack_of_mem ha, hs.elements_pushBack_of_mem hb]
    · intro a ha b hb
      rw [List.mem_singleton.mp hb, hs.elements_pushBack_of_mem ha]
      simpa [sentPacketHistory.pushBack] using hfresh _ (List.mem_map_of_mem ha)
  map pn el := by
    have hne : ∀ a ∈ h.packetList, (h.elements a).PacketNumber ≠ p.PacketNumber :=
      fun a ha => Nat.ne_of_lt (hfresh _ (List.mem_map_of_mem ha))
    by_cases hpn : pn = p.PacketNumber
    · subst hpn
      simp only [sentPacketHistory.pushBack, AList.lookup_insert, Option.some.injEq,
        List.mem_append, List.mem_singleton]
      constructor
      · rintro rfl
        simp
      · rintro ⟨hel | rfl, hpn⟩
        · rw [Function.update_of_ne (Nat.ne_of_lt (hs.lt_next el hel))] at hpn
          exact absurd hpn (hne el hel)
        · rfl
    · simp only [sentPacketHistory.pushBack, AList.lookup_insert_ne hpn, hs.map,
        List.mem_append, List.mem_singleton]
      constructor
      · rintro ⟨hel, rfl⟩
        exact ⟨.inl hel, hs.elements_pushBack_of_mem hel ▸ rfl⟩
      · rintro ⟨hel | rfl, rfl⟩
        · exact ⟨hel, (hs.elements_pushBack_of_mem hel).symm ▸ rfl⟩
        · simp at hpn

theorem setElement {el : Nat} {f : Packet → Packet}
    (hf : ∀ v, (f v).PacketNumber = v.PacketNumber) : Shape (h.setElement el f) := by
  have hpn : ∀ x, ((h.setElement el f).elements x).PacketNumber = (h.elements x).PacketNumber := by
    intro x
    rcases eq_or_ne x el with rfl | hx
    · simp [hf]
    · simp [Function.update_of_ne hx]
  exact ⟨hs.lt_next, by simpa only [hpn, setElement_packetList] using hs.sorted,
    by simpa only [hpn, setElement_packetList, setElement_packetMap] using hs.map⟩

theorem view_setElement {el : Nat} (hel : el ∈ h.packetList) (f : Packet → Packet) :
    (h.setElement el f).view = h.view.map fun q =>
      if q.PacketNumber = (h.elements el).PacketNumber then f q else q := by
  simp only [view, List.map_map]
  refine List.map_congr_left fun x hx => ?_
  rcases eq_or_ne x el with rfl | hne
  · simp
  · have hpn : (h.elements x).PacketNumber ≠ (h.elements el).PacketNumber :=
      fun heq => hne (hs.eq_of_pn_eq hx hel heq)
    simp [Function.update_of_ne hne, hpn]

theorem erasePacket {el p : Nat} (hl : h.packetMap.lookup p = some el) :
    Shape (h.erasePacket el p) where
  lt_next x hx := hs.lt_next x (List.mem_of_mem_erase hx)
  sorted := hs.sorted.sublist List.erase_sublist
  map pn x := by
    obtain ⟨hel, hpel⟩ := (hs.map _ _).1 hl
    simp only [sentPacketHistory.erasePacket, hs.nodup.mem_erase_iff]
    by_cases hpn : pn = p
    · subst hpn
      simp only [AList.lookup_erase, reduceCtorEq, false_iff, not_and]
      rintro ⟨hne, hx⟩ hpx
      exact hne (hs.eq_of_pn_eq hx hel (hpx.trans hpel.symm))
    · rw [AList.lookup_erase_ne hpn, hs.map]
      constructor
      · rintro ⟨hx, rfl⟩
        exact ⟨⟨fun heq => hpn (heq ▸ hpel), hx⟩, rfl⟩
      · rintro ⟨⟨-, hx⟩, rfl⟩
        exact ⟨hx, rfl⟩

theorem view_erasePacket {el p : Nat} (hl : h.packetMap.lookup p = some el) :
    (h.erasePacket el p).view = h.view.filter fun q => q.PacketNumber ≠ p := by
  obtain ⟨hel, hpel⟩ := (hs.map _ _).1 hl
  simp only [view, erasePacket_elements, erasePacket_packetList, hs.nodup.erase_eq_filter,
    List.filter_map]
  congr 1
  refine List.filter_congr fun x hx => ?_
  rcases eq_or_ne x el with rfl | hne
  · simp [hpel]
  · have hpx : (h.elements x).PacketNumber ≠ p :=
      fun hpx => hne (hs.eq_of_pn_eq hx hel (hpx.trans hpel.symm))
    simp [hne, hpx]

end Shape

theorem setElement_recount (h : sentPacketHistory) (el : Nat) {f : Packet → Packet}
    (hf : ∀ v, (f v).canBeRetransmitted = v.canBeRetransmitted) :
    h.recount.setElement el f = (h.setElement el f).recount := by
  have hout : (h.setElement el f).outstanding = h.outstanding := by
    funext x
    rcases eq_or_ne x el with rfl | hx
    · simp [outstanding, hf]
    · simp [outstanding, Function.update_of_ne hx]
  simp only [recount, hout]
  rfl

theorem WF.setElement_of_keep {h : sentPacketHistory} (hw : WF h) {el : Nat} {f : Packet → Packet}
    (hpn : ∀ v, (f v).PacketNumber = v.PacketNumber)
    (hcb : ∀ v, (f v).canBeRetransmitted = v.canBeRetransmitted) : WF (h.setElement el f) := by
  have hw' : WF (h.setElement el f).recount := WF.of_shape (hw.toShape.setElement hpn)
  rwa [← setElement_recount h el hcb, hw.recount_eq] at hw'

theorem Shape.length_le_Len {h : sentPacketHistory} (hs : Shape h) : h.packetList.length ≤ h.Len := by
  have hnd : (h.packetList.map fun x => (h.elements x).PacketNumber).Nodup :=
    (List.pairwise_map.mpr hs.sorted).imp Nat.ne_of_lt
  have hsub : (h.packetList.map fun x => (h.elements x).PacketNumber) ⊆ h.packetMap.keys := by
    intro k hk
    obtain ⟨x, hx, rfl⟩ := List.mem_map.mp hk
    rw [← AList.mem_keys, ← AList.lookup_isSome, hs.lookup_of_mem hx]
    rfl
  calc h.packetList.length = (h.packetList.map fun x => (h.elements x).PacketNumber).length :=
        (List.length_map _).symm
    _ ≤ h.packetMap.keys.length := (hnd.subperm hsub).length_le

theorem setElement_pushBack (h : sentPacketHistory) (p : Packet) {f : Packet → Packet}
    (hf : (f p).PacketNumber = p.PacketNumber) :
    (h.pushBack p).setElement h.nextElement f = h.pushBack (f p) := by
  simp [setElement, pushBack, hf]

/-! ### The operations under `WF` -/

/-- The element found by `find?` splits the list into a prefix where the predicate fails and
the elements that follow it. -/
theorem split_nextElements {p : Nat → Bool} {l : List Nat} {a : Nat}
    (hfind : l.find? p = some a) :
    ∃ as, l = as ++ a :: nextElements a l ∧ a ∉ as ∧ ∀ x ∈ as, p x = false := by
  obtain ⟨hpa, as, bs, rfl, has⟩ := List.find?_eq_some_iff_append.mp hfind
  have hfalse : ∀ x ∈ as, p x = false := fun x hx => by simpa using has x hx
  have hnot : a ∉ as := fun ha => by simp [hfalse a ha] at hpa
  have hnext : nextElements a (as ++ a :: bs) = bs := by
    clear hfind has hfalse
    induction as with
    | nil => simp [nextElements]
    | cons x xs ih =>
      have hx : x ≠ a := fun h => hnot (h ▸ List.mem_cons_self)
      simp only [List.cons_append, nextElements, if_neg hx]
      exact ih (fun h => hnot (List.mem_cons_of_mem x h))
  exact ⟨as, by rw [hnext], hnot, hfalse⟩

theorem find?_erase_eq_nextElements {p : Nat → Bool} {l : List Nat} {a : Nat}
    (hfind : l.find? p = some a) :
    (l.erase a).find? p = (nextElements a l).find? p := by
  obtain ⟨as, hl, hnot, hfalse⟩ := split_nextElements hfind
  have hnone : as.find? p = none := List.find?_eq_none.mpr fun x hx => by simp [hfalse x hx]
  rw [hl, List.erase_append_right _ hnot, List.erase_cons_head, List.find?_append, hnone,
    Option.none_or, ← hl]

theorem find?_clear_eq_nextElements {p q : Nat → Bool} {l : List Nat} {a : Nat}
    (hfind : l.find? p = some a) (hq : ∀ x ∈ l, x ≠ a → q x = p x) (hqa : q a = false) :
    l.find? q = (nextElements a l).find? q := by
  obtain ⟨as, hl, hnot, hfalse⟩ := split_nextElements hfind
  have hnone : as.find? q = none := List.find?_eq_none.mpr fun x hx => by
    have hxl : x ∈ l := hl ▸ List.mem_append_left _ hx
    simp [hq x hxl (fun h => hnot (h ▸ hx)), hfalse x hx]
  conv_lhs => rw [hl]
  rw [List.find?_append, hnone, Option.none_or, List.find?_cons_of_neg (by simp [hqa])]

theorem find?_clear_of_ne {p q : Nat → Bool} {l : List Nat} {a : Nat}
    (hne : l.find? p ≠ some a) (hq : ∀ x ∈ l, x ≠ a → q x = p x) (hqa : q a = false) :
    l.find? q = l.find? p := by
  refine List.find?_eq_of_imp (fun y hy hqy => ?_) (fun x hx => ?_)
  · rcases eq_or_ne y a with rfl | hya
    · simp [hqa] at hqy
    · rwa [← hq y hy hya]
  · have hxa : x ≠ a := fun h => hne (h ▸ hx)
    rw [hq x (List.mem_of_find?_eq_some hx) hxa]
    exact List.find?_some hx

theorem readjustFirstOutstanding_of_eq {X : sentPacketHistory} {fo : Nat}
    (hfo : X.firstOutstanding = some fo) :
    X.readjustFirstOutstanding =
      { X with firstOutstanding := (nextElements fo X.packetList).find? X.outstanding } := by
  unfold readjustFirstOutstanding
  rw [hfo]
  rfl

/-- Readjusting the pointer when it pointed at `el` recounts a history whose count is right
and whose other elements keep their outstanding state. -/
theorem ite_readjust_eq_recount {X : sentPacketHistory} {el : Nat}
    (hcount : X.numOutstandingPackets = X.packetList.countP X.outstanding)
    (hnext : X.firstOutstanding = some el →
      (nextElements el X.packetList).find? X.outstanding = X.packetList.find? X.outstanding)
    (hsame : X.firstOutstanding ≠ some el →
      X.firstOutstanding = X.packetList.find? X.outstanding) :
    (if X.firstOutstanding = some el then X.readjustFirstOutstanding else X) = X.recount := by
  split
  · next hfo =>
    rw [readjustFirstOutstanding_of_eq hfo, hnext hfo]
    ext1 <;> simp [recount, hcount]
  · next hfo =>
    ext1 <;> simp [recount, hcount, hsame hfo]

section Operations

variable {h : sentPacketHistory} (hw : WF h)
include hw

theorem sentPacketImpl_eq {p : Packet} (hp : p.canBeRetransmitted = true) :
    h.sentPacketImpl p = ((h.pushBack p).recount, h.nextElement) := by
  have hout : ∀ x ∈ h.packetList, (h.pushBack p).outstanding x = h.outstanding x :=
    fun x hx => by simp [outstanding, hw.elements_pushBack_of_mem hx]
  have hfind : h.packetList.find? (h.pushBack p).outstanding = h.firstOutstanding := by
    rw [hw.first]
    exact List.find?_congr hout
  have hcount : h.packetList.countP (h.pushBack p).outstanding = h.numOutstandingPackets := by
    rw [hw.count]
    congr 1
    exact List.countP_congr fun x hx => by rw [hout x hx]
  have hlast : (h.pushBack p).outstanding h.nextElement = true := by
    simp [outstanding, pushBack, hp]
  simp only [sentPacketImpl, recount, pushBack, Prod.mk.injEq, and_true]
  ext1
  · rfl
  · rfl
  · simp only [List.countP_append]
    simp only [pushBack] at hcount hlast
    simp [hcount, hlast, hp]
  · simp only [List.find?_append]
    simp only [pushBack] at hfind hlast
    simp [hfind, hlast]
  · rfl
  · rfl

theorem SentPacket_spec {p : Packet} (hp : p.canBeRetransmitted = true)
    (hfresh : ∀ q ∈ h.view, q.PacketNumber < p.PacketNumber) :
    WF (h.SentPacket p) ∧ (h.SentPacket p).view = h.view ++ [p] := by
  rw [sentPacketHistory.SentPacket, sentPacketImpl_eq hw hp]
  exact ⟨WF.of_shape (hw.pushBack hfresh), hw.view_pushBack p⟩

theorem MarkCannotBeRetransmitted_eq {pn el : Nat} (hl : h.packetMap.lookup pn = some el) :
    h.MarkCannotBeRetransmitted pn =
      .ok (h.setElement el fun v => { v with canBeRetransmitted := false }).recount := by
  obtain ⟨hel, -⟩ := (hw.map _ _).1 hl
  set h' := h.setElement el fun v => { v with canBeRetransmitted := false }
  have hq : ∀ x ∈ h.packetList, x ≠ el → h'.outstanding x = h.outstanding x :=
    fun x _ hx => by simp [h', outstanding, Function.update_of_ne hx]
  have hqel : h'.outstanding el = false := by simp [h', outstanding]
  have hcount := List.countP_update_add hw.nodup hel hq hqel
  have hnum := hw.count
  have hdec : h.decrementOutstanding (h.elements el) =
      .ok (h.packetList.countP h'.outstanding) := by
    unfold decrementOutstanding
    by_cases hcb : (h.elements el).canBeRetransmitted = true
    · simp only [outstanding, hcb, if_true] at hcount
      rw [if_pos hcb, if_neg (by omega)]
      congr 1
      omega
    · simp only [outstanding, hcb, Bool.false_eq_true, if_false] at hcount
      rw [if_neg hcb]
      congr 1
      omega
  simp only [MarkCannotBeRetransmitted, hl, hdec, bind, Except.bind, pure, Except.pure]
  congr 1
  refine ite_readjust_eq_recount
    (X := { h' with numOutstandingPackets := h.packetList.countP h'.outstanding }) rfl
    (fun hfo => ?_) (fun hfo => ?_)
  · exact (find?_clear_eq_nextElements (hw.first ▸ hfo) hq hqel).symm
  · change h.firstOutstanding ≠ some el at hfo
    change h.firstOutstanding = h.packetList.find? h'.outstanding
    rw [hw.first] at hfo ⊢
    exact (find?_clear_of_ne hfo hq hqel).symm

theorem Remove_eq {p el : Nat} (hl : h.packetMap.lookup p = some el) :
    h.Remove p = .ok (h.erasePacket el p).recount := by
  obtain ⟨hel, -⟩ := (hw.map _ _).1 hl
  have hcount := List.countP_erase_add (p := h.outstanding) hw.nodup hel
  have hnum := hw.count
  simp only [Remove, hl]
  have h₁ : (if h.firstOutstanding = some el then h.readjustFirstOutstanding else h) =
      { h with firstOutstanding := (h.packetList.erase el).find? h.outstanding } := by
    split
    · next hfo =>
      rw [readjustFirstOutstanding_of_eq hfo, find?_erase_eq_nextElements (hw.first ▸ hfo)]
    · next hfo =>
      rw [hw.first] at hfo
      rw [List.find?_erase_of_ne hfo, ← hw.first]
  have hdec : ∀ fo, ({ h with firstOutstanding := fo } : sentPacketHistory).decrementOutstanding
      (h.elements el) = .ok ((h.packetList.erase el).countP h.outstanding) := by
    intro fo
    unfold decrementOutstanding
    dsimp only
    by_cases hcb : (h.elements el).canBeRetransmitted = true
    · simp only [outstanding, hcb, if_true] at hcount
      rw [if_pos hcb, if_neg (by omega)]
      congr 1
      omega
    · simp only [outstanding, hcb, Bool.false_eq_true, if_false] at hcount
      rw [if_neg hcb]
      congr 1
      omega
  rw [h₁]
  simp only [hdec, bind, Except.bind, pure, Except.pure]
  rfl

theorem Remove_spec {p el : Nat} (hl : h.packetMap.lookup p = some el) :
    WF (h.erasePacket el p).recount ∧
      (h.erasePacket el p).view = h.view.filter fun q => q.PacketNumber ≠ p :=
  ⟨WF.of_shape (hw.erasePacket hl), hw.view_erasePacket hl⟩

theorem MarkCannotBeRetransmitted_spec {pn el : Nat} (hl : h.packetMap.lookup pn = some el) :
    WF (h.setElement el fun v => { v with canBeRetransmitted := false }).recount ∧
      (h.setElement el fun v => { v with canBeRetransmitted := false }).view =
        h.view.map fun q =>
          if q.PacketNumber = pn then { q with canBeRetransmitted := false } else q := by
  obtain ⟨hel, rfl⟩ := (hw.map _ _).1 hl
  exact ⟨WF.of_shape (hw.setElement fun _ => rfl), hw.view_setElement hel _⟩

end Operations

/-! ### Storing batches of packets -/

/-- Packets with fresh, increasing packet numbers. -/
def FreshFor (h : sentPacketHistory) (ps : List Packet) : Prop :=
  (∀ p ∈ ps, p.canBeRetransmitted = true) ∧ ps.Pairwise (·.PacketNumber < ·.PacketNumber) ∧
    ∀ q ∈ h.view, ∀ p ∈ ps, q.PacketNumber < p.PacketNumber

theorem FreshFor.cons {h : sentPacketHistory} {p : Packet} {ps : List Packet}
    (hf : FreshFor h (p :: ps)) :
    p.canBeRetransmitted = true ∧ (∀ q ∈ h.view, q.PacketNumber < p.PacketNumber) ∧
      FreshFor h ps ∧
      ∀ p' ∈ ps, p.PacketNumber < p'.PacketNumber := by
  obtain ⟨hcb, hsorted, hfresh⟩ := hf
  obtain ⟨hp, hps⟩ := List.pairwise_cons.mp hsorted
  exact ⟨hcb p List.mem_cons_self, fun q hq => hfresh q hq p List.mem_cons_self,
    ⟨fun p' hp' => hcb p' (List.mem_cons_of_mem _ hp'), hps,
      fun q hq p' hp' => hfresh q hq p' (List.mem_cons_of_mem _ hp')⟩, hp⟩

theorem foldl_SentPacket_spec {ps : List Packet} :
    ∀ {h : sentPacketHistory}, WF h → FreshFor h ps →
      WF (ps.foldl (fun h p => h.SentPacket p) h) ∧
        (ps.foldl (fun h p => h.SentPacket p) h).view = h.view ++ ps := by
  induction ps with
  | nil => intro h hw _; exact ⟨hw, by simp⟩
  | cons p ps ih =>
    intro h hw hf
    obtain ⟨hp, hpfresh, ⟨hcb, hsorted, hfresh⟩, hlt⟩ := hf.cons
    obtain ⟨hw', hview⟩ := SentPacket_spec hw hp hpfresh
    have hf' : FreshFor (h.SentPacket p) ps := by
      refine ⟨hcb, hsorted, fun q hq p' hp' => ?_⟩
      rw [hview] at hq
      rcases List.mem_append.mp hq with hq | hq
      · exact hfresh q hq p' hp'
      · rw [List.mem_singleton.mp hq]
        exact hlt p' hp'
    obtain ⟨hw'', hview'⟩ := ih hw' hf'
    refine ⟨hw'', ?_⟩
    rw [List.foldl_cons, hview', hview, List.append_assoc, List.singleton_append]

theorem sentPacketImpl_setElement {h : sentPacketHistory} (hw : WF h) {p : Packet}
    {f : Packet → Packet} (hp : p.canBeRetransmitted = true)
    (hfpn : ∀ v, (f v).PacketNumber = v.PacketNumber)
    (hfcb : ∀ v, (f v).canBeRetransmitted = v.canBeRetransmitted) :
    (h.sentPacketImpl p).1.setElement (h.sentPacketImpl p).2 f = h.SentPacket (f p) := by
  have hfp : (f p).canBeRetransmitted = true := (hfcb p).trans hp
  rw [sentPacketHistory.SentPacket, sentPacketImpl_eq hw hp, sentPacketImpl_eq hw hfp]
  dsimp only
  rw [setElement_recount _ _ hfcb, setElement_pushBack _ _ (hfpn p)]

theorem foldl_retransmission_eq {ps : List Packet} {f : Packet → Packet}
    (hfpn : ∀ v, (f v).PacketNumber = v.PacketNumber)
    (hfcb : ∀ v, (f v).canBeRetransmitted = v.canBeRetransmitted) :
    ∀ {h : sentPacketHistory}, WF h → FreshFor h ps →
      ps.foldl (fun h packet =>
        let (h, el) := h.sentPacketImpl packet
        h.setElement el f) h = (ps.map f).foldl (fun h p => h.SentPacket p) h := by
  induction ps with
  | nil => intro h _ _; rfl
  | cons p ps ih =>
    intro h hw hf
    obtain ⟨hp, hpfresh, ⟨hcb, hsorted, hfresh⟩, hlt⟩ := hf.cons
    have hstep := sentPacketImpl_setElement hw hp hfpn hfcb
    obtain ⟨hw', hview⟩ := SentPacket_spec hw ((hfcb p).trans hp)
      (fun q hq => (hfpn p).symm ▸ hpfresh q hq)
    have hf' : FreshFor (h.SentPacket (f p)) ps := by
      refine ⟨hcb, hsorted, fun q hq p' hp' => ?_⟩
      rw [hview] at hq
      rcases List.mem_append.mp hq with hq | hq
      · exact hfresh q hq p' hp'
      · rw [List.mem_singleton.mp hq, hfpn]
        exact hlt p' hp'
    simp only [List.foldl_cons, List.map_cons]
    rw [← ih hw' hf', ← hstep]

/-- The retransmissions of a packet still in the history are linked to it both ways; those of
a packet no longer there are stored as ordinary packets. -/
theorem SentPacketsAsRetransmission_spec {h : sentPacketHistory} (hw : WF h) {ps : List Packet}
    (hf : FreshFor h ps) (r : Nat) :
    WF (h.SentPacketsAsRetransmission ps r) ∧
      (h.SentPacketsAsRetransmission ps r).view =
        match h.packetMap.lookup r with
        | none => h.view ++ ps
        | some _ =>
          (h.view.map fun q => if q.PacketNumber = r then
              { q with retransmittedAs := ps.map (·.PacketNumber) } else q) ++
            ps.map fun p => { p with isRetransmission := true, retransmissionOf := r } := by
  unfold SentPacketsAsRetransmission
  cases hl : h.packetMap.lookup r with
  | none => exact foldl_SentPacket_spec hw hf
  | some el =>
    dsimp only
    obtain ⟨hel, hpn⟩ := (hw.map _ _).1 hl
    set g := h.setElement el fun v => { v with retransmittedAs := ps.map (·.PacketNumber) }
    have hg : g = (h.setElement el fun v =>
        { v with retransmittedAs := ps.map (·.PacketNumber) }).recount := by
      rw [← setElement_recount h el (f := fun v =>
        { v with retransmittedAs := ps.map (·.PacketNumber) }) (fun _ => rfl), hw.recount_eq]
    have hgw : WF g := hg ▸ WF.of_shape (hw.setElement fun _ => rfl)
    have hgview : g.view = h.view.map fun q => if q.PacketNumber = r then
        { q with retransmittedAs := ps.map (·.PacketNumber) } else q := by
      rw [hw.view_setElement hel, hpn]
    have hgf : FreshFor g ps := by
      refine ⟨hf.1, hf.2.1, fun q hq p hp => ?_⟩
      rw [hgview] at hq
      obtain ⟨q', hq', rfl⟩ := List.mem_map.mp hq
      split <;> exact hf.2.2 q' hq' p hp
    have hmap : FreshFor g (ps.map fun p => { p with isRetransmission := true, retransmissionOf := r }) := by
      refine ⟨fun p hp => ?_, ?_, fun q hq p hp => ?_⟩
      · obtain ⟨p', hp', rfl⟩ := List.mem_map.mp hp
        exact hf.1 p' hp'
      · exact List.pairwise_map.mpr hf.2.1
      · obtain ⟨p', hp', rfl⟩ := List.mem_map.mp hp
        exact hgf.2.2 q hq p' hp'
    rw [foldl_retransmission_eq (f := fun p => { p with isRetransmission := true, retransmissionOf := r })
      (fun _ => rfl) (fun _ => rfl) hgw hgf]
    obtain ⟨hw', hview⟩ := foldl_SentPacket_spec hgw hmap
    exact ⟨hw', hview.trans (by rw [hgview])⟩

/-! ### Iteration -/

/-- An iteration whose callback never fails and goes on while `c` holds is a left fold over
the longest prefix on which `c` holds. -/
theorem Iterate_go_eq_foldl {σ ε : Type} (h : sentPacketHistory)
    {cb : σ → Nat → Packet → Except ε (Bool × σ)} (c : Packet → Bool) (f : σ → Nat → Packet → σ)
    (hcb : ∀ s el, cb s el (h.elements el) =
      .ok (c (h.elements el), if c (h.elements el) then f s el (h.elements el) else s)) :
    ∀ l s, Iterate.go h cb l s =
      .ok ((l.takeWhile fun el => c (h.elements el)).foldl (fun s el => f s el (h.elements el)) s) := by
  intro l
  induction l with
  | nil => intro s; rfl
  | cons el rest ih =>
    intro s
    simp only [Iterate.go, hcb, bind, Except.bind]
    cases hc : c (h.elements el) with
    | true => simp [hc, ih]
    | false => simp [hc]

/-- The rule for an iteration: an invariant indexed by the elements still to visit, which each
call of the callback takes to the rest, holds of the result for some rest. -/
theorem Iterate_go_post {σ ε : Type} (h : sentPacketHistory)
    {cb : σ → Nat → Packet → Except ε (Bool × σ)} {E : ε → Prop} (I : List Nat → σ → Prop)
    (hcb : ∀ el rest s, I (el :: rest) s →
      Except.Post E (fun r => I rest r.2) (cb s el (h.elements el))) :
    ∀ l s, I l s → Except.Post E (fun s => ∃ rest, I rest s) (Iterate.go h cb l s) := by
  intro l
  induction l with
  | nil => intro s hs; exact ⟨[], hs⟩
  | cons el rest ih =>
    intro s hs
    refine Except.Post.bind (hcb el rest s hs) fun ⟨cont, s'⟩ hI => ?_
    cases cont with
    | true => exact ih s' hI
    | false => exact ⟨rest, hI⟩

end sentPacketHistory

end QuicGo.Ackhandler
