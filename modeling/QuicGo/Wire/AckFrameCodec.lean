import Mathlib.Algebra.Order.BigOperators.Group.List
import QuicGo.Ackhandler.NewlyAcked
import QuicGo.Utils.VarInt

/-! The wire format of the ACK frame (`internal/wire/ack_frame.go`). `Write` encodes the largest
acknowledged packet, the delay, the number of further ranges and the length of the first range, then
a gap and a length for each further range, as many as `numEncodableAckRanges` lets into
`MaxAckFrameSize` bytes. -/
namespace QuicGo.Wire
open QuicGo.Utils QuicGo.Lib QuicGo.Protocol

/-- `protocol.MaxAckFrameSize` -/
def MaxAckFrameSize : UInt64 := 1000

/-- `protocol.AckDelayExponent` -/
def AckDelayExponent : Nat := 3

/-- `uint64` subtraction of packet numbers, which wraps below zero. -/
def wrapSub (a b : Nat) : Nat := (a + 2 ^ 64 - b % 2 ^ 64) % 2 ^ 64

/-- A conversion to `int64` (`time.Duration`), two's complement. -/
def toInt64 (n : Int) : Int := (n + 2 ^ 63) % 2 ^ 64 - 2 ^ 63

theorem toInt64_of_mem {x : Int} (hlo : -2 ^ 63 ≤ x) (hhi : x < 2 ^ 63) : toInt64 x = x := by
  unfold toInt64
  omega

/-- `encodeAckDelay`: the delay in units of `2^AckDelayExponent` microseconds, truncated as Go's
integer division and converted to `uint64`. -/
def encodeAckDelay (delay : Int) : Nat :=
  (delay.tdiv (1000 * 2 ^ AckDelayExponent) % 2 ^ 64).toNat

/-- A panic of the Go code when an `Option` of the model is `none`. -/
def orPanic {α : Type} (msg : String) : Option α → StateT (List UInt8) (Except Utils.Error) α
  | some a => pure a
  | none => throw (.panic msg)

namespace AckFrame

/-- `encodeAckRange`: for `i = 0` the length of the first range, for `i > 0` the gap below range
`i - 1` and the length of range `i`. The source indexes the ranges; every call has `i` within
them. -/
def encodeAckRange (f : AckFrame) (i : Nat) : Nat × Nat :=
  if i = 0 then
    (0, wrapSub (f.AckRanges.getD 0 default).Largest (f.AckRanges.getD 0 default).Smallest)
  else
    (wrapSub (wrapSub (f.AckRanges.getD (i - 1) default).Smallest
        (f.AckRanges.getD i default).Largest) 2,
      wrapSub (f.AckRanges.getD i default).Largest (f.AckRanges.getD i default).Smallest)

/-- The loop of `numEncodableAckRanges` from range `i`, with the frame's `length` so far. -/
def numEncodableAckRangesFrom (f : AckFrame) (length : UInt64) (i : Nat) : Option Nat :=
  if i < f.AckRanges.length then do
    let (gap, len) := f.encodeAckRange i
    let rangeLen := (← VarIntLen gap) + (← VarIntLen len)
    if length + rangeLen > MaxAckFrameSize then
      -- writing range i would exceed the MaxAckFrameSize, so encode one range less than that
      return i - 1
    numEncodableAckRangesFrom f (length + rangeLen) (i + 1)
  else return f.AckRanges.length
termination_by f.AckRanges.length - i

/-- `numEncodableAckRanges`: the number of ranges that fit into `MaxAckFrameSize` bytes, assuming
that their number takes two bytes. -/
def numEncodableAckRanges (f : AckFrame) : Option Nat := do
  let length := 1 + (← VarIntLen (← f.LargestAcked)) + (← VarIntLen (encodeAckDelay f.DelayTime))
  numEncodableAckRangesFrom f (length + 2) 1

/-- One further range as `Write` writes it. -/
def writeAckRange (f : AckFrame) (i : Nat) : Writer := do
  let (gap, len) := f.encodeAckRange i
  WriteVarInt gap
  WriteVarInt len

/-- `AckFrame.Write`. `numRanges - 1` is an `int` converted to `uint64`. -/
def Write (f : AckFrame) : Writer := do
  WriteByte 0x2
  WriteVarInt (← orPanic "index out of range" f.LargestAcked)
  WriteVarInt (encodeAckDelay f.DelayTime)
  let numRanges ← orPanic "index out of range" f.numEncodableAckRanges
  WriteVarInt ((numRanges - 1 : Int) % 2 ^ 64).toNat
  -- write the first range
  let (_, firstRange) := f.encodeAckRange 0
  WriteVarInt firstRange
  -- write all the other ranges
  (List.range' 1 (numRanges - 1)).forM f.writeAckRange

/-- One further range as `Length` counts it. -/
def lengthAckRange (f : AckFrame) (length : UInt64) (i : Nat) : Option UInt64 := do
  let (gap, len) := f.encodeAckRange i
  let length := length + (← VarIntLen gap)
  pure (length + (← VarIntLen len))

/-- `AckFrame.Length`; its panics are `none`. -/
def Length (f : AckFrame) : Option UInt64 := do
  let first ← f.AckRanges.head?
  let largestAcked := first.Largest
  let numRanges ← f.numEncodableAckRanges
  let length := 1 + (← VarIntLen largestAcked) + (← VarIntLen (encodeAckDelay f.DelayTime))
  let length := length + (← VarIntLen ((numRanges - 1 : Int) % 2 ^ 64).toNat)
  let lowestInFirstRange := first.Smallest
  let length := length + (← VarIntLen (wrapSub largestAcked lowestInFirstRange))
  (List.range' 1 (numRanges - 1)).foldlM f.lengthAckRange length

end AckFrame

/-- The loop of `parseAckFrame` over the `numBlocks` further ranges, from the lowest packet
number `smallest` of the range above. -/
def parseAckRanges : Nat → Nat → List AckRange → Reader (List AckRange)
  | 0, _, ranges => pure ranges
  | numBlocks + 1, smallest, ranges => do
    let gap ← ReadVarInt
    if smallest < gap + 2 then throw .invalidAckRanges
    let largest := smallest - gap - 2
    let ackBlock ← ReadVarInt
    if ackBlock > largest then throw .invalidAckRanges
    let smallest := largest - ackBlock
    parseAckRanges numBlocks smallest (ranges ++ [⟨smallest, largest⟩])

/-- `parseAckFrame`. The delay is read in units of `2^ackDelayExponent` microseconds; the three
ECN counts of an ACK_ECN frame are read and dropped. -/
def parseAckFrame (ackDelayExponent : Nat) : Reader AckFrame := do
  let typeByte ← ReadByte
  let ecn := typeByte &&& 0x1 > 0
  let largestAcked ← ReadVarInt
  let delay ← ReadVarInt
  let DelayTime := toInt64 (toInt64 ((delay <<< ackDelayExponent) % 2 ^ 64) * 1000)
  let numBlocks ← ReadVarInt
  -- read the first ACK range
  let ackBlock ← ReadVarInt
  if ackBlock > largestAcked then throw .invalidFirstAckRange
  let smallest := largestAcked - ackBlock
  -- read all the other ACK ranges
  let AckRanges ← parseAckRanges numBlocks smallest [⟨smallest, largestAcked⟩]
  let frame : AckFrame := ⟨AckRanges, DelayTime⟩
  if !frame.validateAckRanges then throw .invalidAckRanges
  -- parse (and skip) the ECN section
  if ecn then
    let _ ← ReadVarInt
    let _ ← ReadVarInt
    let _ ← ReadVarInt
  pure frame

/-! ### Valid frames -/

theorem sum_range'_succ (g : Nat → Nat) (s m : Nat) :
    ((List.range' s (m + 1)).map g).sum = ((List.range' s m).map g).sum + g (s + m) := by
  rw [List.range'_concat, List.map_append, List.sum_append, List.map_singleton, List.sum_singleton,
    Nat.one_mul]

theorem wrapSub_eq {a b : Nat} (hba : b ≤ a) (ha : a < 2 ^ 64) : wrapSub a b = a - b := by
  unfold wrapSub
  omega

namespace AckFrame

section Valid

variable {f : AckFrame} (hv : f.Valid) (hpn : ∀ r ∈ f.AckRanges, r.Largest < 2 ^ 62)
include hv hpn

theorem encodeAckRange_zero (h0 : 0 < f.AckRanges.length) :
    f.encodeAckRange 0 = (0, f.AckRanges[0].Largest - f.AckRanges[0].Smallest) := by
  have hwf := hv.wf _ (List.getElem_mem h0)
  have hlt := hpn _ (List.getElem_mem h0)
  simp only [encodeAckRange, if_pos, List.getD_eq_getElem _ _ h0]
  rw [wrapSub_eq hwf (by omega)]

/-- Range `i + 1` of a valid frame, as `Write` encodes it: the gap below range `i`, less two,
and its length. -/
theorem encodeAckRange_succ {i : Nat} (hi : i + 1 < f.AckRanges.length) :
    f.encodeAckRange (i + 1) =
      (f.AckRanges[i].Smallest - f.AckRanges[i + 1].Largest - 2,
        f.AckRanges[i + 1].Largest - f.AckRanges[i + 1].Smallest) := by
  have habove : Above f.AckRanges[i] f.AckRanges[i + 1] :=
    List.pairwise_iff_getElem.mp hv.desc _ _ _ _ (Nat.lt_succ_self i)
  have hwf := hv.wf _ (List.getElem_mem hi)
  have hlt := hpn _ (List.getElem_mem (show i < f.AckRanges.length by omega))
  have hwf' := hv.wf _ (List.getElem_mem (show i < f.AckRanges.length by omega))
  unfold Above at habove
  simp only [encodeAckRange, Nat.add_one_ne_zero, if_false, Nat.add_sub_cancel,
    List.getD_eq_getElem _ _ hi, List.getD_eq_getElem _ _ (show i < f.AckRanges.length by omega)]
  have hgap : wrapSub f.AckRanges[i].Smallest f.AckRanges[i + 1].Largest =
      f.AckRanges[i].Smallest - f.AckRanges[i + 1].Largest := wrapSub_eq (by omega) (by omega)
  rw [hgap, wrapSub_eq (show 2 ≤ f.AckRanges[i].Smallest - f.AckRanges[i + 1].Largest by omega)
    (by omega), wrapSub_eq hwf (by omega)]

theorem encodeAckRange_succ_le {i : Nat} (hi : i + 1 < f.AckRanges.length) :
    (f.encodeAckRange (i + 1)).1 ≤ maxVarInt8 ∧ (f.encodeAckRange (i + 1)).2 ≤ maxVarInt8 := by
  have hlt := hpn _ (List.getElem_mem (show i < f.AckRanges.length by omega))
  have hwf := hv.wf _ (List.getElem_mem (show i < f.AckRanges.length by omega))
  have hlt' := hpn _ (List.getElem_mem hi)
  rw [encodeAckRange_succ hv hpn hi]
  unfold maxVarInt8
  constructor <;> omega

end Valid

/-- The bytes that `Write` spends on range `t`: those of its gap and of its length. -/
def rangeBytes (f : AckFrame) (t : Nat) : Nat :=
  ((VarIntLen (f.encodeAckRange t).1).getD 0).toNat + ((VarIntLen (f.encodeAckRange t).2).getD 0).toNat

theorem Valid.validateAckRanges_eq_true {f : AckFrame} (hv : f.Valid) :
    f.validateAckRanges = true := by
  simp only [validateAckRanges, Bool.and_eq_true, Bool.not_eq_true', List.isEmpty_eq_false_iff,
    List.all_eq_true, decide_eq_true_eq]
  refine ⟨⟨hv.ne, hv.wf⟩, ?_⟩
  rw [Ackhandler.receivedPacketHistory.rangesSeparated_iff]
  exact hv.desc.isChain

theorem Valid.take {f : AckFrame} (hv : f.Valid) {n : Nat} (hn : 1 ≤ n) (D : Int) :
    Valid ⟨f.AckRanges.take n, D⟩ where
  ne := by
    rw [ne_eq, List.take_eq_nil_iff, not_or]
    exact ⟨by omega, hv.ne⟩
  wf r hr := hv.wf r (List.mem_of_mem_take hr)
  desc := hv.desc.sublist (List.take_sublist _ _)

theorem rangeBytes_le (f : AckFrame) (t : Nat) : f.rangeBytes t ≤ 16 := by
  have hle : ∀ i, ((VarIntLen i).getD 0).toNat ≤ 8 := by
    intro i
    cases hi : VarIntLen i with
    | none => exact Nat.zero_le 8
    | some L => exact VarIntLen_le hi
  have h₁ := hle (f.encodeAckRange t).1
  have h₂ := hle (f.encodeAckRange t).2
  unfold rangeBytes
  omega

section Valid

variable {f : AckFrame} (hv : f.Valid) (hpn : ∀ r ∈ f.AckRanges, r.Largest < 2 ^ 62)
include hv hpn

theorem varIntLens_succ {i : Nat} (hi : i + 1 < f.AckRanges.length) :
    ∃ Lg Ll, VarIntLen (f.encodeAckRange (i + 1)).1 = some Lg ∧
      VarIntLen (f.encodeAckRange (i + 1)).2 = some Ll ∧
      f.rangeBytes (i + 1) = Lg.toNat + Ll.toNat := by
  obtain ⟨hg, hl⟩ := encodeAckRange_succ_le hv hpn hi
  obtain ⟨Lg, hLg, -⟩ := ReadVarInt_roundTrip hg
  obtain ⟨Ll, hLl, -⟩ := ReadVarInt_roundTrip hl
  refine ⟨Lg, Ll, hLg, hLl, ?_⟩
  rw [rangeBytes, hLg, hLl]
  rfl

/-- The further ranges from `i + 1` on, `k` of them: `parseAckRanges`, started below range `i`,
reads back what `Write` writes for them. -/
theorem writeAckRanges_roundTrip (k : Nat) :
    ∀ (i : Nat) (acc : List AckRange) (h : i + 1 + k ≤ f.AckRanges.length),
      RoundTrip ((List.range' (i + 1) k).forM f.writeAckRange)
        (parseAckRanges k f.AckRanges[i].Smallest acc) (acc ++ (f.AckRanges.drop (i + 1)).take k)
        ((List.range' (i + 1) k).map f.rangeBytes).sum := by
  induction k with
  | zero =>
    intro i acc _
    simp only [List.range'_zero, List.forM, parseAckRanges, List.take_zero, List.append_nil,
      List.map_nil, List.sum_nil]
    exact RoundTrip.pure acc
  | succ k ih =>
    intro i acc h
    have hi : i + 1 < f.AckRanges.length := by omega
    have habove : Above f.AckRanges[i] f.AckRanges[i + 1] :=
      List.pairwise_iff_getElem.mp hv.desc _ _ _ _ (Nat.lt_succ_self i)
    have hwf := hv.wf _ (List.getElem_mem hi)
    unfold Above at habove
    obtain ⟨hg, hl⟩ := encodeAckRange_succ_le hv hpn hi
    rw [encodeAckRange_succ hv hpn hi] at hg hl
    obtain ⟨Lg, hLg, hrg⟩ := ReadVarInt_roundTrip hg
    obtain ⟨Ll, hLl, hrl⟩ := ReadVarInt_roundTrip hl
    have hrest := ih (i + 1) (acc ++ [f.AckRanges[i + 1]]) (by omega)
    simp only [List.range'_succ, List.forM, writeAckRange, encodeAckRange_succ hv hpn hi,
      bind_assoc, parseAckRanges]
    have hsum : (((i + 1) :: List.range' (i + 1 + 1) k).map f.rangeBytes).sum =
        Lg.toNat + (Ll.toNat + ((List.range' (i + 1 + 1) k).map f.rangeBytes).sum) := by
      rw [List.map_cons, List.sum_cons, rangeBytes, encodeAckRange_succ hv hpn hi, hLg, hLl,
        Option.getD_some, Option.getD_some, Nat.add_assoc]
    have hres : acc ++ (f.AckRanges.drop (i + 1)).take (k + 1) =
        acc ++ [f.AckRanges[i + 1]] ++ (f.AckRanges.drop (i + 1 + 1)).take k := by
      rw [List.drop_eq_getElem_cons hi, List.take_succ_cons, List.append_assoc,
        List.singleton_append]
    rw [hsum, hres]
    refine hrg.bind ?_
    dsimp only
    rw [if_neg (by omega)]
    refine hrl.bind ?_
    dsimp only
    rw [if_neg (by omega)]
    have hlargest : f.AckRanges[i].Smallest - (f.AckRanges[i].Smallest -
        f.AckRanges[i + 1].Largest - 2) - 2 = f.AckRanges[i + 1].Largest := by omega
    have hsmallest : f.AckRanges[i + 1].Largest - (f.AckRanges[i + 1].Largest -
        f.AckRanges[i + 1].Smallest) = f.AckRanges[i + 1].Smallest := by omega
    rw [hlargest, hsmallest]
    exact hrest

theorem foldlM_lengthAckRange (k : Nat) :
    ∀ (i : Nat) (length : UInt64), i + 1 + k ≤ f.AckRanges.length →
      (List.range' (i + 1) k).foldlM f.lengthAckRange length =
        some (length + UInt64.ofNat ((List.range' (i + 1) k).map f.rangeBytes).sum) := by
  induction k with
  | zero =>
    intro i length _
    simp only [List.range'_zero, List.foldlM_nil, List.map_nil, List.sum_nil]
    rw [show UInt64.ofNat 0 = 0 from rfl, UInt64.add_zero]
    rfl
  | succ k ih =>
    intro i length h
    obtain ⟨Lg, Ll, hLg, hLl, hrb⟩ := varIntLens_succ hv hpn (show i + 1 < f.AckRanges.length by omega)
    have hstep : f.lengthAckRange length (i + 1) = some (length + Lg + Ll) := by
      simp only [lengthAckRange, hLg, hLl]
      rfl
    rw [List.range'_succ, List.foldlM_cons, hstep, Option.bind_eq_bind, Option.bind_some,
      ih (i + 1) _ (by omega), List.map_cons, List.sum_cons, hrb]
    refine congrArg some (UInt64.toNat_inj.mp ?_)
    simp only [UInt64.toNat_add, UInt64.toNat_ofNat']
    omega

/-- One round of the loop of `numEncodableAckRanges` at a further range `i`: it stops at `i - 1`
ranges if range `i` does not fit, and goes on with its bytes counted otherwise. -/
theorem numEncodableAckRangesFrom_step {i : Nat} (hi1 : 1 ≤ i) (hi : i < f.AckRanges.length)
    {length : UInt64} (hlen : length.toNat ≤ 1000) :
    f.numEncodableAckRangesFrom length i =
      if 1000 < length.toNat + f.rangeBytes i then some (i - 1)
      else f.numEncodableAckRangesFrom (length + UInt64.ofNat (f.rangeBytes i)) (i + 1) := by
  obtain ⟨j, rfl⟩ : ∃ j, i = j + 1 := ⟨i - 1, by omega⟩
  obtain ⟨Lg, Ll, hLg, hLl, hrb⟩ := varIntLens_succ hv hpn hi
  have hLg8 := VarIntLen_le hLg
  have hLl8 := VarIntLen_le hLl
  have hsum : length + (Lg + Ll) = length + UInt64.ofNat (f.rangeBytes (j + 1)) := by
    apply UInt64.toNat_inj.mp
    simp only [UInt64.toNat_add, UInt64.toNat_ofNat', hrb]
  have hover : length + (Lg + Ll) > MaxAckFrameSize ↔
      1000 < length.toNat + f.rangeBytes (j + 1) := by
    rw [gt_iff_lt, UInt64.lt_iff_toNat_lt, hsum, UInt64.toNat_add, UInt64.toNat_ofNat']
    change 1000 < _ ↔ _
    omega
  obtain ⟨g, l, hp⟩ : ∃ g l, f.encodeAckRange (j + 1) = (g, l) := ⟨_, _, rfl⟩
  rw [hp] at hLg hLl
  rw [numEncodableAckRangesFrom, if_pos hi]
  simp only [hp, hLg, hLl, Option.bind_eq_bind, Option.bind_some]
  by_cases h : 1000 < length.toNat + f.rangeBytes (j + 1)
  · rw [if_pos (hover.mpr h), if_pos h]
    rfl
  · rw [if_neg (mt hover.mp h), if_neg h, hsum]

/-- The loop of `numEncodableAckRanges` from range `i`, where `length` counts the header `S`
and the ranges before `i`: it stops at a number of ranges whose header and further ranges fit
into `MaxAckFrameSize` bytes. -/
theorem numEncodableAckRangesFrom_spec (d : Nat) :
    ∀ (i : Nat) (length : UInt64) (S : Nat), f.AckRanges.length - i = d → 1 ≤ i →
      i ≤ f.AckRanges.length → length.toNat ≤ 1000 →
      length.toNat = S + ((List.range' 1 (i - 1)).map f.rangeBytes).sum →
      ∃ n, f.numEncodableAckRangesFrom length i = some n ∧ i - 1 ≤ n ∧
        n ≤ f.AckRanges.length ∧ S + ((List.range' 1 (n - 1)).map f.rangeBytes).sum ≤ 1000 ∧
        (n = i - 1 → 1000 < length.toNat + f.rangeBytes i) := by
  induction d with
  | zero =>
    intro i length S hd _ hi hlen hS
    have hieq : i = f.AckRanges.length := by omega
    refine ⟨f.AckRanges.length, ?_, by omega, le_rfl, ?_, by omega⟩
    · rw [numEncodableAckRangesFrom, if_neg (by omega)]
      rfl
    · rw [← hieq]
      omega
  | succ d ih =>
    intro i length S hd hi1 hi hlen hS
    obtain ⟨j, rfl⟩ : ∃ j, i = j + 1 := ⟨i - 1, by omega⟩
    have hj : j + 1 < f.AckRanges.length := by omega
    have h16 := rangeBytes_le f (j + 1)
    have hsum := sum_range'_succ f.rangeBytes 1 j
    rw [Nat.add_comm 1 j] at hsum
    rw [numEncodableAckRangesFrom_step hv hpn hi1 hj hlen]
    by_cases hover : 1000 < length.toNat + f.rangeBytes (j + 1)
    · rw [if_pos hover]
      refine ⟨j, rfl, by omega, by omega, ?_, fun _ => hover⟩
      rcases j with _ | j
      · simp only [Nat.zero_sub, List.range'_zero, List.map_nil, List.sum_nil]
        omega
      · have hsum' := sum_range'_succ f.rangeBytes 1 j
        simp only [Nat.add_sub_cancel] at hS ⊢
        omega
    · rw [if_neg hover]
      have hnew : (length + UInt64.ofNat (f.rangeBytes (j + 1))).toNat =
          length.toNat + f.rangeBytes (j + 1) := by
        rw [UInt64.toNat_add, UInt64.toNat_ofNat']
        omega
      obtain ⟨n, hn, h1, h2, h3, -⟩ := ih (j + 1 + 1)
        (length + UInt64.ofNat (f.rangeBytes (j + 1))) S (by omega) (by omega) (by omega)
        (by omega) (by simp only [Nat.add_sub_cancel] at hS ⊢; omega)
      exact ⟨n, hn, by omega, h2, h3, by omega⟩

theorem two_le_rangeBytes {t : Nat} (ht : 1 ≤ t) (htl : t < f.AckRanges.length) :
    2 ≤ f.rangeBytes t := by
  obtain ⟨j, rfl⟩ : ∃ j, t = j + 1 := ⟨t - 1, by omega⟩
  obtain ⟨Lg, Ll, hLg, hLl, hrb⟩ := varIntLens_succ hv hpn htl
  have hg1 := VarIntLen_pos hLg
  have hl1 := VarIntLen_pos hLl
  omega

theorem numRanges_le {n : Nat} (hn : n ≤ f.AckRanges.length)
    (hS : ((List.range' 1 (n - 1)).map f.rangeBytes).sum ≤ 1000) : n - 1 ≤ 500 := by
  have hmin := List.card_nsmul_le_sum ((List.range' 1 (n - 1)).map f.rangeBytes) 2 (by
    intro x hx
    obtain ⟨t, ht, rfl⟩ := List.mem_map.mp hx
    rw [List.mem_range'_1] at ht
    exact two_le_rangeBytes hv hpn (by omega) (by omega))
  rw [List.length_map, List.length_range'] at hmin
  change (n - 1) * 2 ≤ _ at hmin
  omega

omit hv hpn in
/-- `numEncodableAckRanges` runs its loop from the first further range, with the bytes of the
header, whose fields take `La` and `Ld` bytes, and two for the number of ranges. -/
theorem numEncodableAckRanges_eq (h0 : 0 < f.AckRanges.length) {La Ld : UInt64}
    (hLa : VarIntLen f.AckRanges[0].Largest = some La)
    (hLd : VarIntLen (encodeAckDelay f.DelayTime) = some Ld) :
    f.numEncodableAckRanges = f.numEncodableAckRangesFrom (1 + La + Ld + 2) 1 ∧
      (1 + La + Ld + 2 : UInt64).toNat = 3 + La.toNat + Ld.toNat := by
  have hLa8 := VarIntLen_le hLa
  have hLd8 := VarIntLen_le hLd
  have hla : f.LargestAcked = some f.AckRanges[0].Largest := by
    rw [LargestAcked, List.head?_eq_getElem?, List.getElem?_eq_getElem h0, Option.map_some]
  refine ⟨?_, ?_⟩
  · simp only [numEncodableAckRanges, hla, hLa, hLd, Option.bind_eq_bind, Option.bind_some]
  · simp only [UInt64.toNat_add, UInt64.reduceToNat]
    omega

/-- `numEncodableAckRanges` keeps the first range and as many further ones as fit behind the
header, whose fields take `La` and `Ld` bytes. -/
theorem numEncodableAckRanges_spec (h0 : 0 < f.AckRanges.length) {La Ld : UInt64}
    (hLa : VarIntLen f.AckRanges[0].Largest = some La)
    (hLd : VarIntLen (encodeAckDelay f.DelayTime) = some Ld) :
    ∃ n, f.numEncodableAckRanges = some n ∧ 1 ≤ n ∧ n ≤ f.AckRanges.length ∧
      3 + La.toNat + Ld.toNat + ((List.range' 1 (n - 1)).map f.rangeBytes).sum ≤ 1000 := by
  have hLa8 := VarIntLen_le hLa
  have hLd8 := VarIntLen_le hLd
  obtain ⟨heq, hlen⟩ := numEncodableAckRanges_eq h0 hLa hLd
  obtain ⟨n, hn, -, h2, h3, h4⟩ := numEncodableAckRangesFrom_spec hv hpn (f.AckRanges.length - 1)
    1 (1 + La + Ld + 2) (3 + La.toNat + Ld.toNat) (by omega) le_rfl h0 (by omega)
    (by rw [hlen, Nat.sub_self, List.range'_zero, List.map_nil, List.sum_nil, Nat.add_zero])
  refine ⟨n, heq.trans hn, ?_, h2, h3⟩
  · have h16 := rangeBytes_le f 1
    by_contra hlt
    have := h4 (by omega)
    omega

theorem numEncodableAckRangesFrom_of_fits (d : Nat) :
    ∀ (i : Nat) (length : UInt64), f.AckRanges.length - i = d → 1 ≤ i →
      i ≤ f.AckRanges.length →
      length.toNat + ((List.range' i d).map f.rangeBytes).sum ≤ 1000 →
      f.numEncodableAckRangesFrom length i = some f.AckRanges.length := by
  induction d with
  | zero =>
    intro i length hd _ hi _
    rw [numEncodableAckRangesFrom, if_neg (by omega)]
    rfl
  | succ d ih =>
    intro i length hd hi1 hi hfit
    rw [List.range'_succ, List.map_cons, List.sum_cons] at hfit
    have h16 := rangeBytes_le f i
    rw [numEncodableAckRangesFrom_step hv hpn hi1 (by omega) (by omega), if_neg (by omega)]
    apply ih (i + 1) _ (by omega) (by omega) (by omega)
    rw [UInt64.toNat_add, UInt64.toNat_ofNat']
    omega

/-- A frame whose header, with two bytes for the number of ranges, and further ranges all fit
into `MaxAckFrameSize` bytes has every range encoded. -/
theorem numEncodableAckRanges_of_fits (h0 : 0 < f.AckRanges.length) {La Ld : UInt64}
    (hLa : VarIntLen f.AckRanges[0].Largest = some La)
    (hLd : VarIntLen (encodeAckDelay f.DelayTime) = some Ld)
    (hfit : 3 + La.toNat + Ld.toNat +
      ((List.range' 1 (f.AckRanges.length - 1)).map f.rangeBytes).sum ≤ 1000) :
    f.numEncodableAckRanges = some f.AckRanges.length := by
  obtain ⟨heq, hlen⟩ := numEncodableAckRanges_eq h0 hLa hLd
  rw [heq]
  exact numEncodableAckRangesFrom_of_fits hv hpn _ 1 _ rfl le_rfl h0 (by omega)

theorem Length_eq (h0 : 0 < f.AckRanges.length) {n : Nat} {La Ld Ln Lf : UInt64}
    (hn : f.numEncodableAckRanges = some n) (hn1 : 1 ≤ n) (hnl : n ≤ f.AckRanges.length)
    (hn500 : n - 1 ≤ 500) (hLa : VarIntLen f.AckRanges[0].Largest = some La)
    (hLd : VarIntLen (encodeAckDelay f.DelayTime) = some Ld) (hLn : VarIntLen (n - 1) = some Ln)
    (hLf : VarIntLen (f.AckRanges[0].Largest - f.AckRanges[0].Smallest) = some Lf) :
    f.Length = some (1 + La + Ld + Ln + Lf +
      UInt64.ofNat ((List.range' 1 (n - 1)).map f.rangeBytes).sum) := by
  have hhead : f.AckRanges.head? = some f.AckRanges[0] := by
    rw [List.head?_eq_getElem?, List.getElem?_eq_getElem h0]
  have hcast : (((n : Int) - 1) % 2 ^ 64).toNat = n - 1 := by omega
  have hfirst : wrapSub f.AckRanges[0].Largest f.AckRanges[0].Smallest =
      f.AckRanges[0].Largest - f.AckRanges[0].Smallest :=
    wrapSub_eq (hv.wf _ (List.getElem_mem h0)) (by have := hpn _ (List.getElem_mem h0); omega)
  have hfold := foldlM_lengthAckRange hv hpn (n - 1) 0 (1 + La + Ld + Ln + Lf) (by omega)
  rw [Nat.zero_add] at hfold
  rw [Length, hhead]
  simp only [Option.bind_eq_bind, Option.bind_some]
  rw [hn, Option.bind_some, hLa, Option.bind_some, hLd, Option.bind_some, hcast, hLn,
    Option.bind_some, hfirst, hLf, Option.bind_some]
  exact hfold

/-- A frame of which `n` ranges are encoded is read back by `parseAckFrame` from what `Write`
writes, field by field, given that each varint of the header is read back from its encoding. -/
theorem Write_roundTrip (h0 : 0 < f.AckRanges.length) {n nLa nLd nLn nLf : Nat}
    (hn : f.numEncodableAckRanges = some n) (hn1 : 1 ≤ n) (hnl : n ≤ f.AckRanges.length)
    (hn500 : n - 1 ≤ 500)
    (hLa : RoundTrip (WriteVarInt f.AckRanges[0].Largest) ReadVarInt f.AckRanges[0].Largest nLa)
    (hLd : RoundTrip (WriteVarInt (encodeAckDelay f.DelayTime)) ReadVarInt
      (encodeAckDelay f.DelayTime) nLd)
    (hLn : RoundTrip (WriteVarInt (n - 1)) ReadVarInt (n - 1) nLn)
    (hLf : RoundTrip (WriteVarInt (f.AckRanges[0].Largest - f.AckRanges[0].Smallest)) ReadVarInt
      (f.AckRanges[0].Largest - f.AckRanges[0].Smallest) nLf) :
    RoundTrip f.Write (parseAckFrame AckDelayExponent)
      ⟨f.AckRanges.take n,
        toInt64 (toInt64 ((encodeAckDelay f.DelayTime <<< AckDelayExponent) % 2 ^ 64) * 1000)⟩
      (1 + (nLa + (nLd + (nLn + (nLf + ((List.range' 1 (n - 1)).map f.rangeBytes).sum))))) := by
  have hla : f.LargestAcked = some f.AckRanges[0].Largest := by
    rw [LargestAcked, List.head?_eq_getElem?, List.getElem?_eq_getElem h0, Option.map_some]
  have hcast : (((n : Int) - 1) % 2 ^ 64).toNat = n - 1 := by omega
  rw [Write, hla, hn, encodeAckRange_zero hv hpn h0, parseAckFrame]
  simp only [orPanic, pure_bind]
  rw [hcast]
  refine (WriteByte_roundTrip 2).bind ?_
  refine hLa.bind ?_
  refine hLd.bind ?_
  refine hLn.bind ?_
  refine hLf.bind ?_
  have hwf := hv.wf _ (List.getElem_mem h0)
  have hsmallest : f.AckRanges[0].Largest - (f.AckRanges[0].Largest - f.AckRanges[0].Smallest) =
      f.AckRanges[0].Smallest := by omega
  rw [if_neg (by omega), hsmallest]
  refine (writeAckRanges_roundTrip hv hpn (n - 1) 0 [⟨f.AckRanges[0].Smallest,
    f.AckRanges[0].Largest⟩] (by omega)).bind_nil ?_
  have htake : [⟨f.AckRanges[0].Smallest, f.AckRanges[0].Largest⟩] ++
      (f.AckRanges.drop (0 + 1)).take (n - 1) = f.AckRanges.take n := by
    obtain ⟨k, rfl⟩ : ∃ k, n = k + 1 := ⟨n - 1, by omega⟩
    rw [Nat.add_sub_cancel, List.singleton_append, ← List.take_succ_cons, List.getElem_cons_drop,
      List.drop_zero]
  rw [htake]
  have hvalid := (hv.take hn1 (toInt64 (toInt64 ((encodeAckDelay f.DelayTime <<< AckDelayExponent) %
    2 ^ 64) * 1000))).validateAckRanges_eq_true
  rw [hvalid, Bool.not_true, if_neg Bool.false_ne_true, if_neg (by decide)]
  exact Decodes.pure _

end Valid

/-- The delay that `parseAckFrame` reads back from what `Write` encodes for a delay of the
`int64` range: the delay rounded down to the unit of `2^AckDelayExponent` microseconds. -/
theorem decodeAckDelay_encodeAckDelay {D : Int} (hd : 0 ≤ D) (hd' : D < 2 ^ 63) :
    toInt64 (toInt64 ((encodeAckDelay D <<< AckDelayExponent) % 2 ^ 64) * 1000) =
      (encodeAckDelay D * 2 ^ AckDelayExponent * 1000 : Nat) := by
  have henc : encodeAckDelay D = (D / 8000).toNat := by
    unfold encodeAckDelay AckDelayExponent
    rw [Int.tdiv_eq_ediv_of_nonneg hd]
    omega
  rw [Nat.shiftLeft_eq, henc]
  unfold toInt64 AckDelayExponent
  push_cast
  omega

end AckFrame

open AckFrame in
/-- An ACK frame that passes `validateAckRanges`, with packet numbers below `2^62` and a delay
in the range of `time.Duration` that is not negative: `Write` writes as many bytes as `Length`
says, and `parseAckFrame` reads exactly those back, as the ranges that `numEncodableAckRanges`
lets into the frame and the delay in whole units of `2^AckDelayExponent` microseconds. -/
theorem parseAckFrame_Write {f : AckFrame} (hv : f.validateAckRanges = true)
    (hpn : ∀ r ∈ f.AckRanges, r.Largest < 2 ^ 62) (hd : 0 ≤ f.DelayTime)
    (hd' : f.DelayTime < 2 ^ 63) :
    ∃ n L bytes, f.numEncodableAckRanges = some n ∧ f.Length = some L ∧ Emits f.Write bytes ∧
      bytes.length = L.toNat ∧
      Decodes (parseAckFrame AckDelayExponent) bytes
        ⟨f.AckRanges.take n, (encodeAckDelay f.DelayTime * 2 ^ AckDelayExponent * 1000 : Nat)⟩ := by
  have hvalid := Valid.of_validateAckRanges hv
  have h0 : 0 < f.AckRanges.length := List.length_pos_of_ne_nil hvalid.ne
  have hlt := hpn _ (List.getElem_mem h0)
  have hwf := hvalid.wf _ (List.getElem_mem h0)
  have hdelay : encodeAckDelay f.DelayTime ≤ maxVarInt8 := by
    unfold encodeAckDelay AckDelayExponent maxVarInt8
    rw [Int.tdiv_eq_ediv_of_nonneg hd]
    omega
  obtain ⟨La, hLa, hrLa⟩ :=
    ReadVarInt_roundTrip (show f.AckRanges[0].Largest ≤ maxVarInt8 by unfold maxVarInt8; omega)
  obtain ⟨Ld, hLd, hrLd⟩ := ReadVarInt_roundTrip hdelay
  obtain ⟨n, hn, hn1, hnl, hsum⟩ := numEncodableAckRanges_spec hvalid hpn h0 hLa hLd
  have hn500 := numRanges_le hvalid hpn hnl (by omega)
  obtain ⟨Ln, hLn, hrLn⟩ := ReadVarInt_roundTrip (show n - 1 ≤ maxVarInt8 by unfold maxVarInt8; omega)
  obtain ⟨Lf, hLf, hrLf⟩ := ReadVarInt_roundTrip
    (show f.AckRanges[0].Largest - f.AckRanges[0].Smallest ≤ maxVarInt8 by unfold maxVarInt8; omega)
  obtain ⟨bytes, hemit, hlen, hdec⟩ :=
    Write_roundTrip hvalid hpn h0 hn hn1 hnl hn500 hrLa hrLd hrLn hrLf
  refine ⟨n, _, bytes, hn, Length_eq hvalid hpn h0 hn hn1 hnl hn500 hLa hLd hLn hLf, hemit, ?_, ?_⟩
  · have := VarIntLen_le hLa
    have := VarIntLen_le hLd
    have := VarIntLen_le hLn
    have := VarIntLen_le hLf
    rw [hlen]
    simp only [UInt64.toNat_add, UInt64.toNat_ofNat', UInt64.reduceToNat]
    omega
  · rw [← decodeAckDelay_encodeAckDelay hd hd']
    exact hdec

theorem parseAckFrame_Write_two_ranges :
    AckFrame.validateAckRanges ⟨[⟨10, 12⟩, ⟨3, 5⟩], 20000⟩ = true ∧
      (∀ r ∈ [(⟨10, 12⟩ : AckRange), ⟨3, 5⟩], r.Largest < 2 ^ 62) ∧ (0 : Int) ≤ 20000 ∧
      (20000 : Int) < 2 ^ 63 ∧
      ∃ n L bytes, AckFrame.numEncodableAckRanges ⟨[⟨10, 12⟩, ⟨3, 5⟩], 20000⟩ = some n ∧
        AckFrame.Length ⟨[⟨10, 12⟩, ⟨3, 5⟩], 20000⟩ = some L ∧
        Emits (AckFrame.Write ⟨[⟨10, 12⟩, ⟨3, 5⟩], 20000⟩) bytes ∧ bytes.length = L.toNat ∧
        Decodes (parseAckFrame AckDelayExponent) bytes
          ⟨[⟨10, 12⟩, ⟨3, 5⟩].take n, (encodeAckDelay 20000 * 2 ^ AckDelayExponent * 1000 : Nat)⟩ :=
  ⟨by decide, by decide, by decide, by decide,
    parseAckFrame_Write (f := ⟨[⟨10, 12⟩, ⟨3, 5⟩], 20000⟩) (by decide) (by decide) (by decide)
      (by decide)⟩

open AckFrame in
/-- On every frame of `parseAckFrame_Write`, at least one range is encoded, and the frame is
longer than `MaxAckFrameSize` by eight bytes at most: the count of ranges is assumed to take two
bytes, and the length of the first range is not counted. -/
theorem Length_le_MaxAckFrameSize_add {f : AckFrame} (hv : f.validateAckRanges = true)
    (hpn : ∀ r ∈ f.AckRanges, r.Largest < 2 ^ 62) (hd : 0 ≤ f.DelayTime)
    (hd' : f.DelayTime < 2 ^ 63) :
    ∃ n L, f.numEncodableAckRanges = some n ∧ 1 ≤ n ∧ f.Length = some L ∧
      L.toNat ≤ MaxAckFrameSize.toNat + 8 := by
  have hvalid := Valid.of_validateAckRanges hv
  have h0 : 0 < f.AckRanges.length := List.length_pos_of_ne_nil hvalid.ne
  have hlt := hpn _ (List.getElem_mem h0)
  have hdelay : encodeAckDelay f.DelayTime ≤ maxVarInt8 := by
    unfold encodeAckDelay AckDelayExponent maxVarInt8
    rw [Int.tdiv_eq_ediv_of_nonneg hd]
    omega
  obtain ⟨La, hLa, -⟩ :=
    ReadVarInt_roundTrip (show f.AckRanges[0].Largest ≤ maxVarInt8 by unfold maxVarInt8; omega)
  obtain ⟨Ld, hLd, -⟩ := ReadVarInt_roundTrip hdelay
  obtain ⟨n, hn, hn1, hnl, hsum⟩ := numEncodableAckRanges_spec hvalid hpn h0 hLa hLd
  have hn500 := numRanges_le hvalid hpn hnl (by omega)
  obtain ⟨Ln, hLn, -, hLn2⟩ :=
    VarIntLen_le_two (show n - 1 ≤ maxVarInt2 by unfold maxVarInt2; omega)
  obtain ⟨Lf, hLf, -⟩ := ReadVarInt_roundTrip
    (show f.AckRanges[0].Largest - f.AckRanges[0].Smallest ≤ maxVarInt8 by unfold maxVarInt8; omega)
  have hLf8 := VarIntLen_le hLf
  refine ⟨n, _, hn, hn1, Length_eq hvalid hpn h0 hn hn1 hnl hn500 hLa hLd hLn hLf, ?_⟩
  have := VarIntLen_le hLa
  have := VarIntLen_le hLd
  simp only [UInt64.toNat_add, UInt64.toNat_ofNat', UInt64.reduceToNat]
  change _ ≤ 1000 + 8
  omega

open AckFrame in
theorem Length_exceeds_MaxAckFrameSize :
    let f : AckFrame := ⟨(List.range 83).map fun k =>
      ⟨2 ^ 40 - k * (2 ^ 30 + 2 ^ 20 + 2) - 2 ^ 30, 2 ^ 40 - k * (2 ^ 30 + 2 ^ 20 + 2)⟩, 0⟩
    f.validateAckRanges = true ∧ (∀ r ∈ f.AckRanges, r.Largest < 2 ^ 62) ∧ 0 ≤ f.DelayTime ∧
      f.DelayTime < 2 ^ 63 ∧ f.numEncodableAckRanges = some 83 ∧ f.Length = some 1004 ∧
      MaxAckFrameSize < 1004 := by
  intro f
  have hv : f.validateAckRanges = true := by decide +kernel
  have hpn : ∀ r ∈ f.AckRanges, r.Largest < 2 ^ 62 := by decide +kernel
  have hLa : VarIntLen f.AckRanges[0].Largest = some 8 := by decide +kernel
  have hLd : VarIntLen (encodeAckDelay f.DelayTime) = some 1 := by decide +kernel
  have hLf : VarIntLen (f.AckRanges[0].Largest - f.AckRanges[0].Smallest) = some 8 := by
    decide +kernel
  have hsum : ((List.range' 1 82).map f.rangeBytes).sum = 984 := by decide +kernel
  have hvalid := Valid.of_validateAckRanges hv
  have h0 : 0 < f.AckRanges.length := by decide
  have hn : f.numEncodableAckRanges = some 83 := by
    refine numEncodableAckRanges_of_fits hvalid hpn h0 hLa hLd ?_
    rw [show f.AckRanges.length - 1 = 82 from rfl, hsum]
    decide
  have hlen := Length_eq hvalid hpn h0 hn (by decide) le_rfl (by decide) hLa hLd
    (show VarIntLen (83 - 1) = some 2 by decide) hLf
  refine ⟨hv, hpn, by decide, by decide, hn, ?_, by decide⟩
  rw [hlen, hsum]
  rfl

end QuicGo.Wire
