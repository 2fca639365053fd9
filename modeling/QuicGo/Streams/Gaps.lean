import QuicGo.Streams.FrameSorter

/-! Positions of a stream and the gap list of `frameSorter`. A gap holds the positions from its
`Start` up to but not including its `End`; a position is missing while some gap of the list holds
it. -/
namespace QuicGo.Streams
open QuicGo.Protocol

/-! ### Positions -/

/-- The gap `g` holds position `p`. -/
def InGap (g : ByteInterval) (p : Nat) : Prop :=
  g.Start.toNat ≤ p ∧ p < g.End.toNat

/-- Some gap of the list holds `p`: no frame pushed so far carried the byte at `p`. -/
def Missing (gaps : List ByteInterval) (p : Nat) : Prop :=
  ∃ g ∈ gaps, InGap g p

/-- The queued frame `e` holds position `p`. -/
def Holds (e : UInt64 × List UInt8) (p : Nat) : Prop :=
  e.1.toNat ≤ p ∧ p < e.1.toNat + e.2.length

/-- `data` is the stream `S` from position `offset` on. -/
def Slice (S : Nat → UInt8) (offset : Nat) (data : List UInt8) : Prop :=
  ∀ i (hi : i < data.length), data[i] = S (offset + i)

@[simp] theorem missing_nil (p : Nat) : ¬ Missing [] p := by
  simp [Missing]

@[simp] theorem missing_cons {g : ByteInterval} {gs : List ByteInterval} {p : Nat} :
    Missing (g :: gs) p ↔ InGap g p ∨ Missing gs p := by
  simp [Missing]

@[simp] theorem missing_append {gs gs' : List ByteInterval} {p : Nat} :
    Missing (gs ++ gs') p ↔ Missing gs p ∨ Missing gs' p := by
  simp [Missing, or_and_right, exists_or]

theorem Slice.drop {S : Nat → UInt8} {o : Nat} {data : List UInt8} (h : Slice S o data)
    (k : Nat) : Slice S (o + k) (data.drop k) := by
  intro i hi
  rw [List.getElem_drop, h, Nat.add_assoc]

theorem Slice.take {S : Nat → UInt8} {o : Nat} {data : List UInt8} (h : Slice S o data)
    (k : Nat) : Slice S o (data.take k) := by
  intro i hi
  rw [List.getElem_take, h]

/-- The `n` bytes of the stream `S` from position `r` on. -/
def streamSlice (S : Nat → UInt8) (r n : Nat) : List UInt8 :=
  (List.range n).map fun i => S (r + i)

@[simp] theorem streamSlice_zero (S : Nat → UInt8) (r : Nat) : streamSlice S r 0 = [] :=
  rfl

@[simp] theorem length_streamSlice (S : Nat → UInt8) (r n : Nat) :
    (streamSlice S r n).length = n := by
  simp [streamSlice]

theorem streamSlice_add (S : Nat → UInt8) (r m n : Nat) :
    streamSlice S r (m + n) = streamSlice S r m ++ streamSlice S (r + m) n := by
  simp [streamSlice, List.range_add, Nat.add_assoc]

theorem Slice.eq_streamSlice {S : Nat → UInt8} {o : Nat} {data : List UInt8}
    (h : Slice S o data) : data = streamSlice S o data.length := by
  apply List.ext_getElem (by simp)
  intro i h₁ _
  simp [streamSlice, h i h₁]

theorem slice_of_eq_map {S : Nat → UInt8} {o : Nat} {data : List UInt8}
    (h : data = (List.range data.length).map fun i => S (o + i)) : Slice S o data := by
  intro i hi
  rw [List.getElem_of_eq h hi]
  simp

/-! ### The gap list -/

/-- The shape of the gap list of a sorter that has read up to `r`: gaps are not empty, lie at or
above `r` and below `MaxByteCount`, and come in order with a received byte between neighbours. -/
structure GapsWF (r : Nat) (gaps : List ByteInterval) : Prop where
  wf : ∀ g ∈ gaps, g.Start.toNat < g.End.toNat
  bounded : ∀ g ∈ gaps, g.End.toNat ≤ MaxByteCount.toNat
  above : ∀ g ∈ gaps, r ≤ g.Start.toNat
  sorted : gaps.Pairwise fun g g' => g.End.toNat < g'.Start.toNat

theorem GapsWF.sublist {r : Nat} {l l' : List ByteInterval} (h : GapsWF r l) (hs : l'.Sublist l) :
    GapsWF r l' :=
  ⟨fun g hg => h.wf g (hs.subset hg), fun g hg => h.bounded g (hs.subset hg),
    fun g hg => h.above g (hs.subset hg), h.sorted.sublist hs⟩

theorem GapsWF.end_le_getLast {r : Nat} {xs : List ByteInterval} (h : GapsWF r xs)
    {eg g : ByteInterval} (hlast : xs.getLast? = some eg) (hg : g ∈ xs) :
    g.End.toNat ≤ eg.End.toNat := by
  obtain ⟨t, rfl⟩ := List.getLast?_eq_some_iff.mp hlast
  rcases List.mem_append.mp hg with hg | hg
  · have := List.pairwise_append.mp h.sorted |>.2.2 g hg eg (by simp)
    have := h.wf eg (by simp)
    omega
  · rw [List.mem_singleton.mp hg]

theorem GapsWF.head_start_le {r : Nat} {xs : List ByteInterval} (h : GapsWF r xs)
    {g₀ g : ByteInterval} (hhead : xs.head? = some g₀) (hg : g ∈ xs) :
    g₀.Start.toNat ≤ g.Start.toNat := by
  obtain ⟨t, rfl⟩ := List.head?_eq_some_iff.mp hhead
  rcases List.mem_cons.mp hg with rfl | hg
  · exact le_rfl
  · have := (List.pairwise_cons.mp h.sorted).1 g hg
    have := h.wf g₀ (by simp)
    omega

/-- The gaps of a stretch of the list lie between the start of its first gap and the end of its
last. -/
theorem GapsWF.seg_bounds {r : Nat} {pre seg rest : List ByteInterval} {g₀ eg : ByteInterval}
    (h : GapsWF r (pre ++ seg ++ rest)) (hhead : seg.head? = some g₀)
    (hlast : seg.getLast? = some eg) :
    ∀ g ∈ seg, g₀.Start.toNat ≤ g.Start.toNat ∧ g.End.toNat ≤ eg.End.toNat := by
  have hseg : GapsWF r seg := h.sublist ((List.sublist_append_right pre seg).trans
    (List.sublist_append_left _ rest) |>.trans (by simp))
  exact fun g hg => ⟨hseg.head_start_le hhead hg, hseg.end_le_getLast hlast hg⟩

theorem GapsWF.not_missing_of_between {r : Nat} {xs ys : List ByteInterval}
    (h : GapsWF r (xs ++ ys)) {p : Nat} (hx : ∀ g ∈ xs.getLast?, g.End.toNat ≤ p)
    (hy : ∀ g ∈ ys.head?, p < g.Start.toNat) : ¬ Missing (xs ++ ys) p := by
  rintro ⟨g, hg, hin⟩
  unfold InGap at hin
  rcases List.mem_append.mp hg with hg | hg
  · have hlast := List.getLast?_eq_some_getLast (List.ne_nil_of_mem hg)
    have := (h.sublist (List.sublist_append_left xs ys)).end_le_getLast hlast hg
    have := hx _ hlast
    omega
  · have hhead := List.head?_eq_some_head (List.ne_nil_of_mem hg)
    have := (h.sublist (List.sublist_append_right xs ys)).head_start_le hhead hg
    have := hy _ hhead
    omega

/-- What is left of the gaps from `g₀` to `eg` once the bytes `[a, b)` arrived: the start of
`g₀` below `a` and the end of `eg` from `b` on, each where it is not empty. -/
def remnants (g₀ eg : ByteInterval) (a b : UInt64) : List ByteInterval :=
  (if g₀.Start < a then [⟨g₀.Start, a⟩] else []) ++ (if b < eg.End then [⟨b, eg.End⟩] else [])

theorem missing_remnants {g₀ eg : ByteInterval} {a b : UInt64} {p : Nat} :
    Missing (remnants g₀ eg a b) p ↔
      (g₀.Start.toNat ≤ p ∧ p < a.toNat) ∨ (b.toNat ≤ p ∧ p < eg.End.toNat) := by
  unfold remnants
  rw [missing_append]
  apply or_congr
  · split_ifs with h
    · simp [InGap]
    · simp only [missing_nil, false_iff, not_and, not_lt]
      rw [UInt64.not_lt, UInt64.le_iff_toNat_le] at h
      omega
  · split_ifs with h
    · simp [InGap]
    · simp only [missing_nil, false_iff, not_and, not_lt]
      rw [UInt64.not_lt, UInt64.le_iff_toNat_le] at h
      omega

/-- Replacing the gaps from `g₀` to `eg` by what is left of them once `[a, b)` arrived keeps the
shape of the list, and takes exactly `[a, b)` off the missing positions. -/
theorem GapsWF.replace {r : Nat} {pre seg rest : List ByteInterval} {g₀ eg : ByteInterval}
    {a b : UInt64} (h : GapsWF r (pre ++ seg ++ rest)) (hhead : seg.head? = some g₀)
    (hlast : seg.getLast? = some eg) (ha : g₀.Start.toNat ≤ a.toNat)
    (ha' : a.toNat ≤ g₀.End.toNat) (hb : eg.Start.toNat ≤ b.toNat)
    (hb' : b.toNat ≤ eg.End.toNat) (hab : a.toNat < b.toNat) :
    GapsWF r (pre ++ remnants g₀ eg a b ++ rest) ∧
      ∀ p, Missing (pre ++ remnants g₀ eg a b ++ rest) p ↔
        Missing (pre ++ seg ++ rest) p ∧ ¬(a.toNat ≤ p ∧ p < b.toNat) := by
  have hbounds := h.seg_bounds hhead hlast
  have hg₀ : g₀ ∈ seg := List.mem_of_mem_head? hhead
  have heg : eg ∈ seg := List.mem_of_mem_getLast? hlast
  obtain ⟨hpreSeg, hsegRest⟩ : (∀ x ∈ pre, ∀ y ∈ seg ++ rest, x.End.toNat < y.Start.toNat) ∧
      ∀ x ∈ seg, ∀ y ∈ rest, x.End.toNat < y.Start.toNat := by
    have hs := h.sorted
    rw [List.append_assoc, List.pairwise_append, List.pairwise_append] at hs
    exact ⟨hs.2.2, hs.2.1.2.2⟩
  have hpre : ∀ x ∈ pre, x.End.toNat < g₀.Start.toNat := fun x hx =>
    hpreSeg x hx g₀ (List.mem_append_left _ hg₀)
  have hrest : ∀ y ∈ rest, eg.End.toNat < y.Start.toNat := fun y hy => hsegRest eg heg y hy
  have hwfg₀ := h.wf g₀ (by simp [hg₀])
  have hwfeg := h.wf eg (by simp [heg])
  have hg₀E := (hbounds g₀ hg₀).2
  have hrem : ∀ z ∈ remnants g₀ eg a b, g₀.Start.toNat ≤ z.Start.toNat ∧
      z.End.toNat ≤ eg.End.toNat ∧ z.Start.toNat < z.End.toNat := by
    intro z hz
    unfold remnants at hz
    rcases List.mem_append.mp hz with hz | hz
    · split_ifs at hz with h1
      · rw [List.mem_singleton.mp hz]
        rw [UInt64.lt_iff_toNat_lt] at h1
        exact ⟨le_rfl, by dsimp only; omega, h1⟩
      · cases hz
    · split_ifs at hz with h2
      · rw [List.mem_singleton.mp hz]
        rw [UInt64.lt_iff_toNat_lt] at h2
        exact ⟨by dsimp only; omega, le_rfl, h2⟩
      · cases hz
  have hremSorted : (remnants g₀ eg a b).Pairwise fun g g' => g.End.toNat < g'.Start.toNat := by
    unfold remnants
    split_ifs <;> simp [hab]
  have hsub : ∀ {l : List ByteInterval}, l.Sublist (pre ++ seg ++ rest) → GapsWF r l :=
    fun hl => h.sublist hl
  have hpreW : GapsWF r pre := hsub (by simp)
  have hrestW : GapsWF r rest := hsub (by simp)
  refine ⟨⟨?_, ?_, ?_, ?_⟩, ?_⟩
  · intro g hg
    simp only [List.mem_append] at hg
    rcases hg with (hg | hg) | hg
    · exact hpreW.wf g hg
    · exact (hrem g hg).2.2
    · exact hrestW.wf g hg
  · intro g hg
    simp only [List.mem_append] at hg
    rcases hg with (hg | hg) | hg
    · exact hpreW.bounded g hg
    · exact (hrem g hg).2.1.trans (h.bounded eg (by simp [heg]))
    · exact hrestW.bounded g hg
  · intro g hg
    simp only [List.mem_append] at hg
    rcases hg with (hg | hg) | hg
    · exact hpreW.above g hg
    · exact (h.above g₀ (by simp [hg₀])).trans (hrem g hg).1
    · exact hrestW.above g hg
  · rw [List.pairwise_append, List.pairwise_append]
    refine ⟨⟨hpreW.sorted, hremSorted, fun x hx z hz => ?_⟩, hrestW.sorted, fun z hz y hy => ?_⟩
    · exact Nat.lt_of_lt_of_le (hpre x hx) (hrem z hz).1
    · rcases List.mem_append.mp hz with hz | hz
      · exact hpreSeg z hz y (List.mem_append_right _ hy)
      · have := (hrem z hz).2.1
        have := hrest y hy
        omega
  · intro p
    simp only [missing_append, missing_remnants]
    constructor
    · rintro ((⟨x, hx, hpx⟩ | hrm) | ⟨y, hy, hpy⟩)
      · have := hpre x hx
        exact ⟨.inl (.inl ⟨x, hx, hpx⟩), by unfold InGap at hpx; omega⟩
      · refine ⟨.inl (.inr ?_), by omega⟩
        rcases hrm with hrm | hrm
        · exact ⟨g₀, hg₀, by unfold InGap; omega⟩
        · exact ⟨eg, heg, by unfold InGap; omega⟩
      · have := hrest y hy
        exact ⟨.inr ⟨y, hy, hpy⟩, by unfold InGap at hpy; omega⟩
    · rintro ⟨(hpm | ⟨g, hg, hpg⟩) | hrm, hnot⟩
      · exact .inl (.inl hpm)
      · have := hbounds g hg
        unfold InGap at hpg
        exact .inl (.inr (by omega))
      · exact .inr hrm

/-! ### Received positions between gaps -/

theorem GapsWF.not_missing_end {r : Nat} {gaps : List ByteInterval} (h : GapsWF r gaps)
    {g : ByteInterval} (hg : g ∈ gaps) : ¬ Missing gaps g.End.toNat := by
  obtain ⟨l₁, l₂, rfl⟩ := List.append_of_mem hg
  have h' : GapsWF r ((l₁ ++ [g]) ++ l₂) := by simpa using h
  have hnm := h'.not_missing_of_between (p := g.End.toNat) (by simp) fun g' hg' =>
    (List.pairwise_append.mp h'.sorted).2.2 g (by simp) g' (List.mem_of_mem_head? hg')
  simpa using hnm

theorem GapsWF.not_missing_between {r : Nat} {skipped post : List ByteInterval}
    {gap : ByteInterval} {o : UInt64} (h : GapsWF r (skipped ++ gap :: post))
    (hsk : ∀ g ∈ skipped, g.End < o) {p : Nat} (hp : o.toNat ≤ p) (hp' : p < gap.Start.toNat) :
    ¬ Missing (skipped ++ gap :: post) p := by
  refine h.not_missing_of_between (fun g hg => ?_) (by simpa using hp')
  have := UInt64.lt_iff_toNat_lt.mp (hsk g (List.mem_of_mem_getLast? hg))
  omega

theorem GapsWF.not_missing_after {r : Nat} {xs rest : List ByteInterval} {eg next : ByteInterval}
    (h : GapsWF r (xs ++ next :: rest)) (hlast : xs.getLast? = some eg) {p : Nat}
    (hp : eg.End.toNat ≤ p) (hp' : p < next.Start.toNat) : ¬ Missing (xs ++ next :: rest) p := by
  refine h.not_missing_of_between (fun g hg => ?_) (fun g hg => ?_)
  · rw [Option.mem_def, hlast, Option.some_inj] at hg
    exact hg ▸ hp
  · rw [List.head?_cons, Option.mem_def, Option.some_inj] at hg
    exact hg ▸ hp'

end QuicGo.Streams
