import Mathlib.Data.List.Chain
import QuicGo.Wire.Frames
import QuicGo.Lib.Except

/-! `receivedPacketHistory`: the packet numbers received in one packet number space, as a list of
intervals. `utils.PacketIntervalList` is a doubly linked list of intervals from the lowest to the
highest; the model keeps it as a list in that order. -/
namespace QuicGo.Ackhandler
open QuicGo.Protocol QuicGo.Wire QuicGo.Lib

/-- `utils.PacketInterval`: the packet numbers `Start ..= End`. -/
structure PacketInterval where
  Start : Nat
  End : Nat
  deriving DecidableEq, Repr, Inhabited

/-- `protocol.MaxTrackedReceivedAckRanges` -/
def MaxTrackedReceivedAckRanges : Nat := 1000

/-- The errors of the receiving side of loss recovery. -/
inductive receivedPacketError where
  /-- `qerr.Error(qerr.TooManyOutstandingReceivedPackets, ErrorMessage)` -/
  | TooManyOutstandingReceivedPackets (ErrorMessage : String)
  /-- "received packet with unknown encryption level: %s" -/
  | unknownEncryptionLevel (encLevel : EncryptionLevel)
  /-- a runtime panic, such as an index out of range -/
  | panic (msg : String)
  deriving DecidableEq, Repr

def errTooManyOutstandingReceivedAckRanges : receivedPacketError :=
  .TooManyOutstandingReceivedPackets "Too many outstanding received ACK ranges"

structure receivedPacketHistory where
  ranges : List PacketInterval
  lowestInReceivedPacketNumbers : Nat
  deriving DecidableEq, Repr

namespace receivedPacketHistory

def newReceivedPacketHistory : receivedPacketHistory := ⟨[], 0⟩

/-- After a range was extended: merge it into the range before it when the two touch. `rpre`
holds the ranges before it, the nearest first. -/
def mergePrev (rpre : List PacketInterval) (el : PacketInterval) (post : List PacketInterval) :
    List PacketInterval :=
  match rpre with
  | prev :: rpre' =>
    if prev.End + 1 = el.Start then rpre'.reverse ++ { prev with End := el.End } :: post
    else rpre.reverse ++ el :: post
  | [] => el :: post

/-- The loop of `ReceivedPacket` from the back of the list: `rpre` holds the ranges still to
visit, the nearest first, and `post` those visited. -/
def insertFrom (p : Nat) : List PacketInterval → List PacketInterval → List PacketInterval
  -- create a new range at the beginning
  | [], post => ⟨p, p⟩ :: post
  | el :: rpre, post =>
    if p ≥ el.Start ∧ p ≤ el.End then rpre.reverse ++ el :: post
    else if el.End + 1 = p then mergePrev rpre { el with End := p } post
    else if el.Start = p + 1 then mergePrev rpre { el with Start := p } post
    -- create a new range at the end
    else if p > el.End then rpre.reverse ++ el :: ⟨p, p⟩ :: post
    else insertFrom p rpre (el :: post)

def ReceivedPacket (h : receivedPacketHistory) (p : Nat) :
    Except receivedPacketError receivedPacketHistory :=
  if h.ranges.length ≥ MaxTrackedReceivedAckRanges then throw errTooManyOutstandingReceivedAckRanges
  else if h.ranges = [] then pure { h with ranges := [⟨p, p⟩] }
  else pure { h with ranges := insertFrom p h.ranges.reverse [] }

/-- The loop of `DeleteBelow` from the front of the list. -/
def deleteBelowFrom (p : Nat) : List PacketInterval → List PacketInterval
  | [] => []
  | el :: rest =>
    if p > el.Start ∧ p ≤ el.End then { el with Start := p } :: deleteBelowFrom p rest
    -- delete a whole range
    else if el.End < p then deleteBelowFrom p rest
    -- no ranges affected
    else el :: rest

def DeleteBelow (h : receivedPacketHistory) (p : Nat) : receivedPacketHistory :=
  if p ≤ h.lowestInReceivedPacketNumbers then h
  else { ranges := deleteBelowFrom p h.ranges, lowestInReceivedPacketNumbers := p }

/-- The ranges from the highest to the lowest. -/
def GetAckRanges (h : receivedPacketHistory) : List AckRange :=
  h.ranges.reverse.map fun r => ⟨r.Start, r.End⟩

def GetHighestAckRange (h : receivedPacketHistory) : AckRange :=
  match h.ranges.getLast? with
  | some r => ⟨r.Start, r.End⟩
  | none => ⟨0, 0⟩

end receivedPacketHistory

/-! ### Sorted interval lists and the numbers they cover -/

namespace PacketInterval

/-- The interval holds `n`. -/
def Contains (r : PacketInterval) (n : Nat) : Prop :=
  r.Start ≤ n ∧ n ≤ r.End

instance (r : PacketInterval) (n : Nat) : Decidable (r.Contains n) :=
  inferInstanceAs (Decidable (_ ∧ _))

/-- `a` ends at least two numbers before `b` starts, so that a number between them is
missing. -/
def Before (a b : PacketInterval) : Prop :=
  a.End + 1 < b.Start

end PacketInterval

open PacketInterval

/-- The shape of the interval lists of a history. -/
structure Sorted (l : List PacketInterval) : Prop where
  wf : ∀ r ∈ l, r.Start ≤ r.End
  pairwise : l.Pairwise Before

/-- The packet numbers that a list of intervals stands for. -/
def Covers (l : List PacketInterval) (n : Nat) : Prop :=
  ∃ r ∈ l, r.Contains n

instance (l : List PacketInterval) (n : Nat) : Decidable (Covers l n) :=
  inferInstanceAs (Decidable (∃ r ∈ l, r.Contains n))

@[simp] theorem covers_nil (n : Nat) : ¬ Covers [] n := by
  simp [Covers]

@[simp] theorem covers_cons {r : PacketInterval} {l : List PacketInterval} {n : Nat} :
    Covers (r :: l) n ↔ r.Contains n ∨ Covers l n := by
  simp [Covers]

@[simp] theorem covers_append {l₁ l₂ : List PacketInterval} {n : Nat} :
    Covers (l₁ ++ l₂) n ↔ Covers l₁ n ∨ Covers l₂ n := by
  simp [Covers, or_and_right, exists_or]

@[simp] theorem covers_reverse {l : List PacketInterval} {n : Nat} :
    Covers l.reverse n ↔ Covers l n := by
  simp [Covers]

namespace Sorted

theorem nil : Sorted [] := ⟨by simp, .nil⟩

theorem singleton (p : Nat) : Sorted [⟨p, p⟩] := ⟨by simp, by simp⟩

theorem of_append_cons {L R : List PacketInterval} {x : PacketInterval}
    (h : Sorted (L ++ x :: R)) :
    Sorted (L ++ R) ∧ x.Start ≤ x.End ∧ (∀ a ∈ L, a.Before x) ∧ ∀ b ∈ R, x.Before b := by
  obtain ⟨hwf, hpw⟩ := h
  rw [List.pairwise_append, List.pairwise_cons] at hpw
  obtain ⟨hL, ⟨hxR, hR⟩, hLR⟩ := hpw
  refine ⟨⟨fun r hr => hwf r (by simp at hr ⊢; tauto), ?_⟩, hwf x (by simp),
    fun a ha => hLR a ha x (by simp), hxR⟩
  exact List.pairwise_append.mpr ⟨hL, hR, fun a ha b hb => hLR a ha b (by simp [hb])⟩

theorem insert {L R : List PacketInterval} {x : PacketInterval} (h : Sorted (L ++ R))
    (hx : x.Start ≤ x.End) (hL : ∀ a ∈ L, a.Before x) (hR : ∀ b ∈ R, x.Before b) :
    Sorted (L ++ x :: R) := by
  obtain ⟨hwf, hpw⟩ := h
  rw [List.pairwise_append] at hpw
  obtain ⟨hpL, hpR, hLR⟩ := hpw
  refine ⟨fun r hr => ?_, List.pairwise_append.mpr ⟨hpL, List.pairwise_cons.mpr ⟨hR, hpR⟩, ?_⟩⟩
  · simp only [List.mem_append, List.mem_cons] at hr
    rcases hr with hr | rfl | hr
    · exact hwf r (by simp [hr])
    · exact hx
    · exact hwf r (by simp [hr])
  · intro a ha b hb
    rcases List.mem_cons.mp hb with rfl | hb
    · exact hL a ha
    · exact hLR a ha b hb

theorem replace {L R : List PacketInterval} {x y : PacketInterval} (h : Sorted (L ++ x :: R))
    (hy : y.Start ≤ y.End) (hL : ∀ a ∈ L, a.Before y) (hR : ∀ b ∈ R, y.Before b) :
    Sorted (L ++ y :: R) :=
  h.of_append_cons.1.insert hy hL hR

theorem cons_iff {r : PacketInterval} {l : List PacketInterval} :
    Sorted (r :: l) ↔ r.Start ≤ r.End ∧ (∀ b ∈ l, r.Before b) ∧ Sorted l := by
  constructor
  · intro h
    obtain ⟨hl, hr, -, hb⟩ := of_append_cons (L := []) h
    exact ⟨hr, hb, hl⟩
  · rintro ⟨hr, hb, hl⟩
    exact insert (L := []) hl hr (by simp) hb

end Sorted

namespace PacketInterval

theorem Before.trans {a b c : PacketInterval} (hab : a.Before b) (hb : b.Start ≤ b.End)
    (hbc : b.Before c) : a.Before c := by
  unfold Before at *
  omega

@[simp] theorem contains_point {p n : Nat} : (⟨p, p⟩ : PacketInterval).Contains n ↔ n = p := by
  simp only [Contains]
  omega

theorem contains_extendEnd {el : PacketInterval} {p n : Nat} (hwf : el.Start ≤ el.End)
    (hp : el.End + 1 = p) : ({ el with End := p } : PacketInterval).Contains n ↔
      el.Contains n ∨ n = p := by
  simp only [Contains]
  omega

theorem contains_extendStart {el : PacketInterval} {p n : Nat} (hwf : el.Start ≤ el.End)
    (hp : el.Start = p + 1) : ({ el with Start := p } : PacketInterval).Contains n ↔
      el.Contains n ∨ n = p := by
  simp only [Contains]
  omega

theorem contains_merge {prev el : PacketInterval} {n : Nat} (hprev : prev.Start ≤ prev.End)
    (hel : el.Start ≤ el.End) (htouch : prev.End + 1 = el.Start) :
    ({ prev with End := el.End } : PacketInterval).Contains n ↔
      prev.Contains n ∨ el.Contains n := by
  simp only [Contains]
  omega

end PacketInterval

namespace receivedPacketHistory

/-! ### `ReceivedPacket` -/

/-- Merging after an extension keeps the list sorted and the numbers it covers, given that the
extended range `el` starts after the range before it ends. -/
theorem mergePrev_spec {rpre post : List PacketInterval} {el : PacketInterval}
    (hs : Sorted (rpre.reverse ++ post)) (hel : el.Start ≤ el.End)
    (hprev : ∀ a ∈ rpre.head?, a.End + 1 ≤ el.Start) (hpost : ∀ b ∈ post, el.Before b) :
    Sorted (mergePrev rpre el post) ∧
      ∀ n, Covers (mergePrev rpre el post) n ↔ Covers (rpre.reverse ++ el :: post) n := by
  cases rpre with
  | nil => exact ⟨Sorted.insert (L := []) hs hel (by simp) hpost, fun _ => Iff.rfl⟩
  | cons prev rpre' =>
    have hs' : Sorted (rpre'.reverse ++ prev :: post) := by simpa using hs
    obtain ⟨-, hprevwf, hbefore, -⟩ := hs'.of_append_cons
    have hprevEl : prev.End + 1 ≤ el.Start := hprev prev rfl
    have hlist : (prev :: rpre').reverse ++ el :: post = rpre'.reverse ++ prev :: el :: post := by
      simp
    simp only [mergePrev]
    rw [hlist]
    split
    · rename_i htouch
      refine ⟨hs'.replace (y := { prev with End := el.End }) (by dsimp only; omega) hbefore hpost,
        fun n => ?_⟩
      simp only [covers_append, covers_cons, contains_merge hprevwf hel htouch, or_assoc]
    · rename_i hgap
      have hprevBefore : prev.Before el := by unfold Before; omega
      have hs'' : Sorted ((rpre'.reverse ++ [prev]) ++ post) := by simpa using hs'
      have hins := hs''.insert hel (fun a ha => ?_) hpost
      · exact ⟨by simpa using hins, fun _ => Iff.rfl⟩
      rcases List.mem_append.mp ha with ha | ha
      · exact (hbefore a ha).trans hprevwf hprevBefore
      · rw [List.mem_singleton.mp ha]
        exact hprevBefore

/-- The loop of `ReceivedPacket` keeps the list sorted and adds `p` to the numbers it covers,
while every range already visited starts more than one number above `p`. -/
theorem insertFrom_spec (p : Nat) :
    ∀ (rpre post : List PacketInterval), Sorted (rpre.reverse ++ post) →
      (∀ b ∈ post, p + 1 < b.Start) →
      Sorted (insertFrom p rpre post) ∧
        ∀ n, Covers (insertFrom p rpre post) n ↔ Covers (rpre.reverse ++ post) n ∨ n = p := by
  intro rpre
  induction rpre with
  | nil =>
    intro post hs hpost
    refine ⟨Sorted.insert (L := []) hs le_rfl (by simp) hpost, fun n => ?_⟩
    simp only [insertFrom, covers_cons, contains_point, List.reverse_nil, List.nil_append]
    exact or_comm
  | cons el rpre ih =>
    intro post hs hpost
    have hs' : Sorted (rpre.reverse ++ el :: post) := by simpa using hs
    have hlist : (el :: rpre).reverse ++ post = rpre.reverse ++ el :: post := by simp
    obtain ⟨hrest, helwf, hbefore, hafter⟩ := hs'.of_append_cons
    have hprev : ∀ a ∈ rpre.head?, a.End + 1 < el.Start := fun a ha =>
      hbefore a (List.mem_reverse.mpr (List.mem_of_mem_head? ha))
    unfold insertFrom
    rw [hlist]
    split
    · rename_i hin
      refine ⟨hs', fun n => (or_iff_left_of_imp ?_).symm⟩
      rintro rfl
      exact covers_append.mpr (.inr (covers_cons.mpr (.inl ⟨hin.1, hin.2⟩)))
    split
    · rename_i _ hend
      obtain ⟨hsm, hcov⟩ := @mergePrev_spec rpre post { el with End := p } hrest
        (by dsimp only; omega) (fun a ha => (hprev a ha).le) hpost
      refine ⟨hsm, fun n => ?_⟩
      rw [hcov]
      simp only [covers_append, covers_cons, contains_extendEnd helwf hend]
      tauto
    split
    · rename_i _ _ hstart
      obtain ⟨hsm, hcov⟩ := @mergePrev_spec rpre post { el with Start := p } hrest
        (by dsimp only; omega) (fun a ha => by have := hprev a ha; dsimp only; omega) hafter
      refine ⟨hsm, fun n => ?_⟩
      rw [hcov]
      simp only [covers_append, covers_cons, contains_extendStart helwf hstart]
      tauto
    split
    · rename_i _ hend _ habove
      have helBefore : el.Before ⟨p, p⟩ := show el.End + 1 < p by omega
      have hs'' : Sorted ((rpre.reverse ++ [el]) ++ post) := by simpa using hs'
      have hins := hs''.insert (x := ⟨p, p⟩) le_rfl (fun a ha => ?_) hpost
      · refine ⟨by simpa using hins, fun n => ?_⟩
        simp only [covers_append, covers_cons, contains_point]
        tauto
      rcases List.mem_append.mp ha with ha | ha
      · exact (hbefore a ha).trans helwf helBefore
      · rw [List.mem_singleton.mp ha]
        exact helBefore
    · rename_i hin hend hstart habove
      have hgap : p + 1 < el.Start := by omega
      exact ih (el :: post) hs' fun b hb => by
        rcases List.mem_cons.mp hb with rfl | hb
        · exact hgap
        · exact hpost b hb

theorem mergePrev_length_le (rpre : List PacketInterval) (el : PacketInterval)
    (post : List PacketInterval) :
    (mergePrev rpre el post).length ≤ rpre.length + post.length + 1 := by
  cases rpre with
  | nil => simp [mergePrev]
  | cons prev rpre' =>
    simp only [mergePrev]
    split <;> simp <;> omega

theorem insertFrom_length_le (p : Nat) :
    ∀ (rpre post : List PacketInterval),
      (insertFrom p rpre post).length ≤ rpre.length + post.length + 1 := by
  intro rpre
  induction rpre with
  | nil => simp [insertFrom]
  | cons el rpre ih =>
    intro post
    have hmerge : ∀ el', (mergePrev rpre el' post).length ≤ (el :: rpre).length + post.length :=
      fun el' => (mergePrev_length_le rpre el' post).trans (by simp only [List.length_cons]; omega)
    unfold insertFrom
    split
    · simp; omega
    split
    · exact (hmerge _).trans (Nat.le_succ _)
    split
    · exact (hmerge _).trans (Nat.le_succ _)
    split
    · simp; omega
    · have := ih (el :: post)
      simp only [List.length_cons] at this ⊢
      omega

theorem ReceivedPacket_spec {h : receivedPacketHistory} (hs : Sorted h.ranges) (p : Nat) :
    Except.Post
      (fun e => e = errTooManyOutstandingReceivedAckRanges ∧
        MaxTrackedReceivedAckRanges ≤ h.ranges.length)
      (fun h' => Sorted h'.ranges ∧ (∀ n, Covers h'.ranges n ↔ Covers h.ranges n ∨ n = p) ∧
        h'.lowestInReceivedPacketNumbers = h.lowestInReceivedPacketNumbers ∧
        h'.ranges.length ≤ MaxTrackedReceivedAckRanges)
      (h.ReceivedPacket p) := by
  unfold ReceivedPacket
  refine Except.Post.ite (fun hfull => ⟨rfl, hfull⟩) fun hroom => ?_
  refine Except.Post.ite (fun hnil => ⟨Sorted.singleton p, fun n => ?_, rfl, by simp [MaxTrackedReceivedAckRanges]⟩)
    fun _ => ?_
  · simp [hnil]
  · have hspec := insertFrom_spec p h.ranges.reverse [] (by simpa using hs) (by simp)
    have hlen := insertFrom_length_le p h.ranges.reverse []
    simp only [List.length_reverse, List.length_nil, Nat.add_zero] at hlen
    exact ⟨hspec.1, fun n => by simpa using hspec.2 n, rfl, by dsimp only; omega⟩

/-! ### `DeleteBelow` -/

theorem covers_gt {x : PacketInterval} {l : List PacketInterval} (hl : ∀ b ∈ l, x.Before b)
    {n : Nat} (hn : Covers l n) : x.End + 1 < n := by
  obtain ⟨b, hb, hbn⟩ := hn
  have := hl b hb
  unfold Before at this
  unfold Contains at hbn
  omega

theorem deleteBelowFrom_of_le {p : Nat} {el : PacketInterval} {rest : List PacketInterval}
    (hp : p ≤ el.Start) (hwf : el.Start ≤ el.End) :
    deleteBelowFrom p (el :: rest) = el :: rest := by
  simp only [deleteBelowFrom]
  rw [if_neg (by omega), if_neg (by omega)]

/-- The loop of `DeleteBelow` keeps the list sorted and removes the numbers below `p` from the
ones it covers. -/
theorem deleteBelowFrom_spec (p : Nat) :
    ∀ l, Sorted l → Sorted (deleteBelowFrom p l) ∧
      ∀ n, Covers (deleteBelowFrom p l) n ↔ Covers l n ∧ p ≤ n := by
  intro l
  induction l with
  | nil => exact fun _ => ⟨Sorted.nil, by simp [deleteBelowFrom]⟩
  | cons el rest ih =>
    intro hs
    obtain ⟨helwf, hafter, hrest⟩ := Sorted.cons_iff.mp hs
    unfold deleteBelowFrom
    split
    · rename_i hin
      have hrest_eq : deleteBelowFrom p rest = rest := by
        cases rest with
        | nil => rfl
        | cons b rest' =>
          have hb := hafter b List.mem_cons_self
          unfold Before at hb
          exact deleteBelowFrom_of_le (by omega) (hrest.wf b List.mem_cons_self)
      rw [hrest_eq]
      refine ⟨Sorted.cons_iff.mpr ⟨by dsimp only; omega, hafter, hrest⟩, fun n => ?_⟩
      have hgt := fun h => covers_gt hafter (n := n) h
      by_cases hn : Covers rest n
      · have := hgt hn
        simp only [covers_cons, hn, or_true, true_and, true_iff]
        omega
      · simp only [covers_cons, hn, or_false, Contains]
        omega
    split
    · rename_i _ hbelow
      obtain ⟨hs', hcov⟩ := ih hrest
      refine ⟨hs', fun n => ?_⟩
      rw [hcov, covers_cons]
      unfold Contains
      constructor
      · rintro ⟨h, hn⟩
        exact ⟨.inr h, hn⟩
      · rintro ⟨h | h, hn⟩
        · omega
        · exact ⟨h, hn⟩
    · rename_i hin hbelow
      refine ⟨hs, fun n => ⟨fun hn => ⟨hn, ?_⟩, fun hn => hn.1⟩⟩
      rcases covers_cons.mp hn with hn | hn
      · unfold Contains at hn
        omega
      · have := covers_gt hafter hn
        omega

theorem DeleteBelow_spec {h : receivedPacketHistory} (hs : Sorted h.ranges) (p : Nat) :
    Sorted (h.DeleteBelow p).ranges ∧
      ((h.DeleteBelow p).lowestInReceivedPacketNumbers = max h.lowestInReceivedPacketNumbers p) ∧
      (p ≤ h.lowestInReceivedPacketNumbers → h.DeleteBelow p = h) ∧
      (h.lowestInReceivedPacketNumbers < p →
        ∀ n, Covers (h.DeleteBelow p).ranges n ↔ Covers h.ranges n ∧ p ≤ n) := by
  unfold DeleteBelow
  split
  · rename_i hle
    exact ⟨hs, by omega, fun _ => rfl, fun hlt => absurd hle (by omega)⟩
  · rename_i hlt
    obtain ⟨hs', hcov⟩ := deleteBelowFrom_spec p h.ranges hs
    exact ⟨hs', by dsimp only; omega, fun hle => absurd hle hlt, fun _ => hcov⟩

theorem deleteBelowFrom_length_le (p : Nat) (l : List PacketInterval) :
    (deleteBelowFrom p l).length ≤ l.length := by
  induction l with
  | nil => simp [deleteBelowFrom]
  | cons el rest ih =>
    unfold deleteBelowFrom
    split
    · simpa using ih
    split
    · exact ih.trans (Nat.le_succ _)
    · exact le_rfl

theorem DeleteBelow_length_le (h : receivedPacketHistory) (p : Nat) :
    (h.DeleteBelow p).ranges.length ≤ h.ranges.length := by
  unfold DeleteBelow
  split
  · exact le_rfl
  · exact deleteBelowFrom_length_le p h.ranges

/-! ### `GetAckRanges` -/

theorem rangesSeparated_iff (l : List AckRange) :
    AckFrame.rangesSeparated l = true ↔
      l.IsChain fun r₁ r₂ => r₂.Smallest < r₁.Smallest ∧ r₂.Largest + 1 < r₁.Smallest := by
  induction l using AckFrame.rangesSeparated.induct with
  | case1 => simp [AckFrame.rangesSeparated]
  | case2 r => simp [AckFrame.rangesSeparated]
  | case3 r₁ r₂ rs ih => simp [AckFrame.rangesSeparated, ih, and_assoc]

theorem validateAckRanges_GetAckRanges {h : receivedPacketHistory} (hs : Sorted h.ranges)
    (DelayTime : Int) :
    AckFrame.validateAckRanges ⟨h.GetAckRanges, DelayTime⟩ = true ↔ h.ranges ≠ [] := by
  have hpw : h.ranges.Pairwise fun a b => a.Start < b.Start ∧ a.End + 1 < b.Start :=
    hs.pairwise.imp_of_mem fun ha _ hab => by
      have := hs.wf _ ha
      unfold Before at hab
      omega
  have hsep : AckFrame.rangesSeparated h.GetAckRanges = true := by
    rw [rangesSeparated_iff, GetAckRanges, List.isChain_map, List.isChain_reverse]
    exact hpw.isChain
  simp only [AckFrame.validateAckRanges, hsep, Bool.and_true, Bool.and_eq_true,
    Bool.not_eq_eq_eq_not, Bool.not_true, List.isEmpty_eq_false_iff, List.all_eq_true,
    decide_eq_true_eq]
  constructor
  · rintro ⟨hne, -⟩
    simpa [GetAckRanges] using hne
  · intro hne
    refine ⟨by simpa [GetAckRanges] using hne, fun r hr => ?_⟩
    simp only [GetAckRanges, List.mem_map, List.mem_reverse] at hr
    obtain ⟨a, ha, rfl⟩ := hr
    exact hs.wf a ha

end receivedPacketHistory

end QuicGo.Ackhandler
