import Mathlib.Data.List.Chain
import QuicGo.Ackhandler.Packet
import QuicGo.Lib.List

/-! Runs of the packet number generator. `popRun` calls `Pop` once for each random number and
returns the packet numbers handed out, the packet numbers skipped on the way (each appended to
`history` as it is skipped) and the generator after the run. -/
namespace QuicGo.Ackhandler
namespace packetNumberGenerator
open QuicGo.Wire QuicGo.Lib

/-- The packet number that `Pop` skips and appends to `history`: the one after the number it
hands out, when that is the number to skip. -/
def skippedBy (p : packetNumberGenerator) : List Nat :=
  if p.next + 1 = p.nextToSkip then [p.next + 1] else []

/-- A run of `Pop` calls, one for each random number: the packet numbers handed out, the packet
numbers skipped on the way, and the generator after the run. -/
def popRun (p : packetNumberGenerator) :
    List UInt16 → List Nat × List Nat × packetNumberGenerator
  | [] => ([], [], p)
  | num :: nums =>
    let r := popRun (p.Pop num).2 nums
    ((p.Pop num).1 :: r.1, p.skippedBy ++ r.2.1, r.2.2)

/-! ### One call of `Pop` -/

section Pop

variable (p : packetNumberGenerator) (num : UInt16)

theorem Pop_of_ne (h : p.next + 1 ≠ p.nextToSkip) :
    p.Pop num = (p.next, { p with next := p.next + 1 }) := by
  simp [Pop, h]

/-- A skip: the number after the one handed out is recorded, and the next skip is drawn from
the number after it. -/
theorem Pop_of_eq (h : p.next + 1 = p.nextToSkip) :
    p.Pop num = (p.next,
      { p with
        next := p.next + 2
        nextToSkip := p.next + 2 + 2 + num.toNat * (p.averagePeriod - 1) / (65535 / 2)
        history := (if p.history.length + 1 > MaxTrackedSkippedPackets then p.history.tail
          else p.history) ++ [p.next + 1] }) := by
  simp [Pop, h, generateNewSkip]

theorem mem_skippedBy {s : Nat} :
    s ∈ p.skippedBy ↔ s = p.next + 1 ∧ p.next + 1 = p.nextToSkip := by
  unfold skippedBy
  split <;> simp [*]

theorem Pop_next : (p.Pop num).2.next = p.next + 1 + p.skippedBy.length := by
  unfold skippedBy
  by_cases h : p.next + 1 = p.nextToSkip
  · rw [Pop_of_eq p num h, if_pos h]
    rfl
  · rw [Pop_of_ne p num h, if_neg h]
    rfl

theorem Pop_next_of_mem {s : Nat} (hs : s ∈ p.skippedBy) : (p.Pop num).2.next = s + 1 := by
  obtain ⟨rfl, hskip⟩ := (mem_skippedBy p).1 hs
  rw [Pop_next, skippedBy, if_pos hskip, List.length_singleton]

theorem mem_skippedBy_of_lt {n : Nat} (h₁ : p.next < n) (h₂ : n < (p.Pop num).2.next) :
    n ∈ p.skippedBy := by
  have hq := Pop_next p num
  by_cases hskip : p.next + 1 = p.nextToSkip
  · simp only [skippedBy, if_pos hskip, List.length_singleton] at hq
    exact (mem_skippedBy p).2 ⟨by omega, hskip⟩
  · simp only [skippedBy, if_neg hskip, List.length_nil] at hq
    omega

/-- The next skip stays ahead of the next packet number, never moves back, and lies two numbers
past a number just skipped. -/
theorem Pop_nextToSkip (hp : p.next < p.nextToSkip) :
    (p.Pop num).2.next < (p.Pop num).2.nextToSkip ∧ p.nextToSkip ≤ (p.Pop num).2.nextToSkip ∧
      ∀ s ∈ p.skippedBy, s + 1 < (p.Pop num).2.nextToSkip := by
  by_cases h : p.next + 1 = p.nextToSkip
  · rw [Pop_of_eq p num h]
    refine ⟨by dsimp only; omega, by dsimp only; omega, fun s hs => ?_⟩
    obtain ⟨rfl, -⟩ := (mem_skippedBy p).1 hs
    dsimp only
    omega
  · rw [Pop_of_ne p num h]
    refine ⟨by dsimp only; omega, le_rfl, fun s hs => ?_⟩
    exact absurd ((mem_skippedBy p).1 hs).2 h

theorem Pop_history {S : List Nat} (hS : p.history = S.rtake MaxTrackedSkippedPackets) :
    (p.Pop num).2.history = (S ++ p.skippedBy).rtake MaxTrackedSkippedPackets := by
  unfold skippedBy
  by_cases h : p.next + 1 = p.nextToSkip
  · rw [Pop_of_eq p num h, if_pos h]
    dsimp only
    rw [hS, MaxTrackedSkippedPackets, List.rtake_succ_trim S 9, List.rtake_concat_succ]
  · rw [Pop_of_ne p num h, if_neg h, List.append_nil]
    exact hS

end Pop

/-! ### Runs -/

section Run

variable (p : packetNumberGenerator) (num : UInt16) (nums : List UInt16)

@[simp] theorem popRun_nil : popRun p [] = ([], [], p) := rfl

@[simp] theorem popRun_cons_fst :
    (popRun p (num :: nums)).1 = p.next :: (popRun (p.Pop num).2 nums).1 := by
  rw [popRun, Pop_fst]
  rfl

@[simp] theorem popRun_cons_skipped :
    (popRun p (num :: nums)).2.1 = p.skippedBy ++ (popRun (p.Pop num).2 nums).2.1 := rfl

@[simp] theorem popRun_cons_gen : (popRun p (num :: nums)).2.2 = (popRun (p.Pop num).2 nums).2.2 :=
  rfl

theorem popRun_length : (popRun p nums).1.length = nums.length := by
  induction nums generalizing p with
  | nil => rfl
  | cons num nums ih => simp [ih]

theorem popRun_next :
    (popRun p nums).2.2.next = p.next + (popRun p nums).1.length + (popRun p nums).2.1.length := by
  induction nums generalizing p with
  | nil => rfl
  | cons num nums ih =>
    simp only [popRun_cons_fst, popRun_cons_skipped, popRun_cons_gen, ih, Pop_next,
      List.length_cons, List.length_append]
    omega

theorem popRun_append (nums' : List UInt16) :
    popRun p (nums ++ nums') =
      ((popRun p nums).1 ++ (popRun (popRun p nums).2.2 nums').1,
        (popRun p nums).2.1 ++ (popRun (popRun p nums).2.2 nums').2.1,
        (popRun (popRun p nums).2.2 nums').2.2) := by
  induction nums generalizing p with
  | nil => rfl
  | cons num nums ih =>
    rw [List.cons_append, popRun, popRun, ih]
    simp only [List.cons_append, List.append_assoc]

theorem popRun_bounds :
    ∀ n ∈ (popRun p nums).1 ++ (popRun p nums).2.1,
      p.next ≤ n ∧ n < (popRun p nums).2.2.next := by
  induction nums generalizing p with
  | nil => simp
  | cons num nums ih =>
    intro n hn
    have hnext := popRun_next (p.Pop num).2 nums
    have hq := Pop_next p num
    simp only [popRun_cons_fst, popRun_cons_skipped, popRun_cons_gen, List.cons_append,
      List.mem_cons, List.mem_append] at hn ⊢
    rcases hn with rfl | hn | hn | hn
    · omega
    · have := ih (p.Pop num).2 n (List.mem_append_left _ hn)
      omega
    · have := Pop_next_of_mem p num hn
      omega
    · have := ih (p.Pop num).2 n (List.mem_append_right _ hn)
      omega

theorem popRun_cover :
    ∀ n, p.next ≤ n → n < (popRun p nums).2.2.next →
      n ∈ (popRun p nums).1 ∨ n ∈ (popRun p nums).2.1 := by
  induction nums generalizing p with
  | nil => intro n h₁ h₂; simp at h₂; omega
  | cons num nums ih =>
    intro n h₁ h₂
    simp only [popRun_cons_fst, popRun_cons_skipped, popRun_cons_gen, List.mem_cons,
      List.mem_append] at h₂ ⊢
    by_cases hfirst : n = p.next
    · exact .inl (.inl hfirst)
    by_cases hrest : (p.Pop num).2.next ≤ n
    · rcases ih (p.Pop num).2 n hrest h₂ with h | h
      · exact .inl (.inr h)
      · exact .inr (.inr h)
    · exact .inr (.inl (mem_skippedBy_of_lt p num (by omega) (by omega)))

theorem popRun_disjoint : ∀ n ∈ (popRun p nums).1, n ∉ (popRun p nums).2.1 := by
  induction nums generalizing p with
  | nil => simp
  | cons num nums ih =>
    intro n hn hs
    have hq := Pop_next p num
    have hbounds := popRun_bounds (p.Pop num).2 nums
    simp only [popRun_cons_fst, popRun_cons_skipped, List.mem_cons, List.mem_append] at hn hs
    rcases hn with hn | hn <;> rcases hs with hs | hs
    · exact absurd ((mem_skippedBy p).1 hs).1 (by omega)
    · have := hbounds n (List.mem_append_right _ hs)
      omega
    · have := Pop_next_of_mem p num hs
      have := hbounds n (List.mem_append_left _ hn)
      omega
    · exact ih (p.Pop num).2 n hn hs

theorem popRun_isChain :
    (popRun p nums).1.IsChain fun a b => ∀ n, a < n → n < b → n ∈ (popRun p nums).2.1 := by
  induction nums generalizing p with
  | nil => exact .nil
  | cons num nums ih =>
    simp only [popRun_cons_fst, popRun_cons_skipped]
    refine List.IsChain.cons ((ih (p.Pop num).2).imp fun a b hab n h₁ h₂ =>
      List.mem_append_right _ (hab n h₁ h₂)) fun b hb n h₁ h₂ => ?_
    cases nums with
    | nil => simp at hb
    | cons num' nums' =>
      rw [popRun_cons_fst, List.head?_cons, Option.mem_some_iff] at hb
      exact List.mem_append_left _ (mem_skippedBy_of_lt p num h₁ (hb ▸ h₂))

theorem popRun_sorted : (popRun p nums).1.Pairwise (· < ·) := by
  induction nums generalizing p with
  | nil => exact .nil
  | cons num nums ih =>
    rw [popRun_cons_fst]
    refine List.Pairwise.cons (fun b hb => ?_) (ih (p.Pop num).2)
    have := popRun_bounds (p.Pop num).2 nums b (List.mem_append_left _ hb)
    have := Pop_next p num
    omega

theorem popRun_skipped (hp : p.next < p.nextToSkip) :
    (popRun p nums).2.1.Pairwise (fun a b => a + 1 < b) ∧
      ∀ s ∈ (popRun p nums).2.1, p.nextToSkip ≤ s := by
  induction nums generalizing p with
  | nil => simp
  | cons num nums ih =>
    obtain ⟨hq, hle, hpast⟩ := Pop_nextToSkip p num hp
    obtain ⟨hsorted, hafter⟩ := ih (p.Pop num).2 hq
    have hone : p.skippedBy.Pairwise (fun a b => a + 1 < b) := by
      unfold skippedBy
      split <;> simp
    simp only [popRun_cons_skipped, List.pairwise_append, List.mem_append]
    refine ⟨⟨hone, hsorted, fun a ha b hb => ?_⟩, fun s hs => ?_⟩
    · exact lt_of_lt_of_le (hpast a ha) (hafter b hb)
    · rcases hs with hs | hs
      · obtain ⟨rfl, hskip⟩ := (mem_skippedBy p).1 hs
        omega
      · exact le_trans hle (hafter s hs)

theorem popRun_history {H : List Nat} (hH : p.history = H.rtake MaxTrackedSkippedPackets) :
    (popRun p nums).2.2.history = (H ++ (popRun p nums).2.1).rtake MaxTrackedSkippedPackets := by
  induction nums generalizing p H with
  | nil => simpa using hH
  | cons num nums ih =>
    rw [popRun_cons_gen, popRun_cons_skipped, ih (p.Pop num).2 (Pop_history p num hH),
      List.append_assoc]

theorem popRun_getElem_eq_Peek (i : Nat) (hi : i < (popRun p nums).1.length) :
    (popRun p nums).1[i] = (popRun p (nums.take i)).2.2.Peek := by
  have hlen := popRun_length p nums
  obtain ⟨num, rest, hdrop⟩ : ∃ num rest, nums.drop i = num :: rest :=
    List.exists_cons_of_ne_nil (by simp; omega)
  have hsplit : (popRun p nums).1 =
      (popRun p (nums.take i)).1 ++ (popRun p (nums.take i)).2.2.next ::
        (popRun ((popRun p (nums.take i)).2.2.Pop num).2 rest).1 := by
    conv_lhs => rw [← List.take_append_drop i nums, popRun_append, hdrop]
    rw [popRun_cons_fst]
  have htake : (popRun p (nums.take i)).1.length = i := by
    rw [popRun_length, List.length_take]
    omega
  rw [List.getElem_of_eq hsplit, List.getElem_append_right (by omega)]
  simp [htake, Peek]

end Run

/-! ### `Validate` -/

theorem AcksPacket_isSome {ack : AckFrame} (hne : ack.AckRanges ≠ []) (pn : Nat) :
    ∃ b, ack.AcksPacket pn = some b := by
  simp only [AckFrame.AcksPacket, AckFrame.LowestAcked, AckFrame.LargestAcked,
    List.getLast?_eq_some_getLast hne, List.head?_eq_some_head hne, Option.map_some,
    Option.bind_eq_bind, Option.bind_some]
  split <;> exact ⟨_, rfl⟩

/-- `Validate` accepts a frame with ranges exactly when it acknowledges no tracked skipped
number. -/
theorem Validate_eq_some (p : packetNumberGenerator) {ack : AckFrame} (hne : ack.AckRanges ≠ []) :
    p.Validate ack = some (p.history.all fun pn => ack.AcksPacket pn != some true) := by
  unfold Validate
  induction p.history with
  | nil => rfl
  | cons pn rest ih =>
    obtain ⟨b, hb⟩ := AcksPacket_isSome hne pn
    cases b <;> simp [hb, ih]

/-! ### Runs of a new generator -/

/-- What a run of `Pop` calls from `g₀` with the random numbers `nums` guarantees: the numbers
handed out increase, each is the number `Peek` showed before its call, none is ever skipped,
every number between two consecutive ones was skipped, no two skipped numbers are adjacent,
`history` holds the last `MaxTrackedSkippedPackets` skipped numbers in increasing order, and
`Validate` rejects exactly the frames with ranges that acknowledge one of those. -/
structure RunSpec (g₀ : packetNumberGenerator) (nums : List UInt16) : Prop where
  increasing : (popRun g₀ nums).1.Pairwise (· < ·)
  peek : ∀ i (hi : i < (popRun g₀ nums).1.length),
    (popRun g₀ nums).1[i] = (popRun g₀ (nums.take i)).2.2.Peek
  not_skipped : ∀ n ∈ (popRun g₀ nums).1, n ∉ (popRun g₀ nums).2.1
  gaps_skipped :
    (popRun g₀ nums).1.IsChain fun a b => ∀ n, a < n → n < b → n ∈ (popRun g₀ nums).2.1
  not_adjacent : ∀ s ∈ (popRun g₀ nums).2.1, s + 1 ∉ (popRun g₀ nums).2.1
  skipped_increasing : (popRun g₀ nums).2.1.Pairwise (· < ·)
  history : (popRun g₀ nums).2.2.history = (popRun g₀ nums).2.1.rtake MaxTrackedSkippedPackets
  validate : ∀ ack : AckFrame, ack.AckRanges ≠ [] →
    ∃ b, (popRun g₀ nums).2.2.Validate ack = some b ∧
      (b = false ↔ ∃ pn ∈ (popRun g₀ nums).2.1.rtake MaxTrackedSkippedPackets,
        ack.AcksPacket pn = some true)

/-- Every run of a new generator, for every initial packet number, average period and sequence
of random numbers, meets `RunSpec`. -/
theorem popRun_newPacketNumberGenerator (initial averagePeriod : Nat) (num₀ : UInt16)
    (nums : List UInt16) :
    RunSpec (newPacketNumberGenerator initial averagePeriod num₀) nums := by
  set g₀ := newPacketNumberGenerator initial averagePeriod num₀ with hg₀
  have hp : g₀.next < g₀.nextToSkip := by
    simp only [hg₀, newPacketNumberGenerator, generateNewSkip]
    omega
  have hhist : g₀.history = ([] : List Nat).rtake MaxTrackedSkippedPackets := rfl
  obtain ⟨hgaps, -⟩ := popRun_skipped g₀ nums hp
  have hg : (popRun g₀ nums).2.2.history =
      (popRun g₀ nums).2.1.rtake MaxTrackedSkippedPackets := by
    simpa using popRun_history g₀ nums hhist
  refine ⟨popRun_sorted g₀ nums, popRun_getElem_eq_Peek g₀ nums, popRun_disjoint g₀ nums,
    popRun_isChain g₀ nums, fun s hs hs1 => ?_, hgaps.imp (by omega), hg, fun ack hne => ?_⟩
  · rcases hgaps.eq_or_rel_of_mem hs hs1 with h | h | h <;> omega
  · refine ⟨_, Validate_eq_some _ hne, ?_⟩
    rw [← hg]
    simp

end packetNumberGenerator
end QuicGo.Ackhandler
