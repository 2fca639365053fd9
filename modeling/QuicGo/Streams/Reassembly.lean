import QuicGo.Streams.Gaps
import Mathlib.Data.List.Pairwise

/-! The reassembly invariant of `frameSorter`. A sorter fed with bytes of one stream `S` keeps `Inv
S`: its gap list has the shape `GapsWF`, its queue maps distinct offsets to nonempty slices of `S`
that hold no missing position, and some of the queued frames tile, without overlapping, exactly the
positions received and not read. -/
namespace QuicGo.Streams
open QuicGo.Protocol QuicGo.Lib

namespace frameSorter

/-! ### The queue as a map -/

theorem mem_of_queueGet {q : List (UInt64 × List UInt8)} {k : UInt64} {d : List UInt8}
    (h : queueGet q k = some d) : (k, d) ∈ q := by
  obtain ⟨l₁, l₂, rfl, -⟩ := List.lookup_eq_some_iff.mp h
  simp

theorem queueGet_of_mem {q : List (UInt64 × List UInt8)} (hnd : (q.map Prod.fst).Nodup)
    {k : UInt64} {d : List UInt8} (h : (k, d) ∈ q) : queueGet q k = some d := by
  induction q with
  | nil => cases h
  | cons e q ih =>
    obtain ⟨hk, hnd'⟩ := List.nodup_cons.mp hnd
    rcases List.mem_cons.mp h with rfl | h
    · simp [queueGet]
    · have hne : k ≠ e.1 := fun he => hk (he ▸ List.mem_map_of_mem h)
      have := ih hnd' h
      unfold queueGet at this ⊢
      rw [List.lookup_cons, beq_eq_false_iff_ne.mpr hne]
      exact this

theorem mem_queueDelete {q : List (UInt64 × List UInt8)} {k : UInt64} {e : UInt64 × List UInt8} :
    e ∈ queueDelete q k ↔ e ∈ q ∧ e.1 ≠ k := by
  simp [queueDelete]

theorem queueDelete_sublist (q : List (UInt64 × List UInt8)) (k : UInt64) :
    (queueDelete q k).Sublist q :=
  List.filter_sublist

theorem nodup_keys_of_sublist {q q' : List (UInt64 × List UInt8)} (hs : q'.Sublist q)
    (hnd : (q.map Prod.fst).Nodup) : (q'.map Prod.fst).Nodup :=
  hnd.sublist (hs.map _)

theorem mem_queueSet {q : List (UInt64 × List UInt8)} {k : UInt64} {d : List UInt8}
    {e : UInt64 × List UInt8} : e ∈ queueSet q k d ↔ e = (k, d) ∨ (e ∈ q ∧ e.1 ≠ k) := by
  simp [queueSet, mem_queueDelete]

theorem nodup_queueSet {q : List (UInt64 × List UInt8)} (hnd : (q.map Prod.fst).Nodup)
    (k : UInt64) (d : List UInt8) : ((queueSet q k d).map Prod.fst).Nodup := by
  unfold queueSet
  rw [List.map_cons, List.nodup_cons]
  refine ⟨fun hk => ?_, nodup_keys_of_sublist (queueDelete_sublist q k) hnd⟩
  obtain ⟨e, he, rfl⟩ := List.mem_map.mp hk
  exact (mem_queueDelete.mp he).2 rfl

theorem mem_of_delete_then {q q' : List (UInt64 × List UInt8)} {k : UInt64} {K : List UInt64}
    (hsub : q'.Sublist (queueDelete q k))
    (hmem : ∀ e ∈ queueDelete q k, e ∈ q' ↔ e.1 ∉ K) :
    ∀ e ∈ q, e ∈ q' ↔ e.1 ∉ k :: K := by
  intro e he
  by_cases hk : e.1 = k
  · have hout : e ∉ q' := fun he' => (mem_queueDelete.mp (hsub.subset he')).2 hk
    simp [hk, hout]
  · rw [hmem e (mem_queueDelete.mpr ⟨he, hk⟩)]
    simp [hk]

/-! ### The loops of `push` -/

/-- The gaps the frame `[start, end_)` skips all end before it, and it reaches into the gap the
loop stops at. -/
theorem findGap_ok {start end_ : UInt64} : ∀ {pre gs pre' post : List ByteInterval}
    {gap : ByteInterval}, findGap start end_ pre gs = .ok (pre', gap, post) →
    ∃ skipped, pre' = pre ++ skipped ∧ gs = skipped ++ gap :: post ∧
      (∀ g ∈ skipped, g.End < start) ∧ gap.Start < end_ ∧ start ≤ gap.End := by
  intro pre gs
  induction gs generalizing pre with
  | nil => intro _ _ _ h; cases h
  | cons g gs ih =>
    intro pre' post gap h
    unfold findGap at h
    by_cases hdup : end_ ≤ g.Start
    · rw [if_pos hdup] at h
      cases h
    rw [if_neg hdup] at h
    by_cases hhit : end_ > g.Start ∧ start ≤ g.End
    · rw [if_pos hhit] at h
      cases h
      exact ⟨[], by simp, rfl, by simp, hhit.1, hhit.2⟩
    rw [if_neg hhit] at h
    obtain ⟨skipped, rfl, rfl, hsk, hs, he⟩ := ih h
    have hgEnd : g.End < start := by
      rw [UInt64.not_le] at hdup
      simp only [not_and, UInt64.not_le] at hhit
      exact hhit hdup
    refine ⟨g :: skipped, by simp, rfl, ?_, hs, he⟩
    simp only [List.mem_cons, forall_eq_or_imp]
    exact ⟨hgEnd, hsk⟩

theorem findGap_dup {start end_ : UInt64} : ∀ {pre gs : List ByteInterval},
    findGap start end_ pre gs = .error .errDuplicateStreamData →
    ∃ skipped gap post, gs = skipped ++ gap :: post ∧ (∀ g ∈ skipped, g.End < start) ∧
      end_ ≤ gap.Start := by
  intro pre gs
  induction gs generalizing pre with
  | nil => intro h; cases h
  | cons g gs ih =>
    intro h
    unfold findGap at h
    by_cases hdup : end_ ≤ g.Start
    · exact ⟨[], g, gs, rfl, by simp, hdup⟩
    rw [if_neg hdup] at h
    by_cases hhit : end_ > g.Start ∧ start ≤ g.End
    · rw [if_pos hhit] at h
      cases h
    rw [if_neg hhit] at h
    obtain ⟨skipped, gap, post, rfl, hsk, he⟩ := ih h
    have hgEnd : g.End < start := by
      rw [UInt64.not_le] at hdup
      simp only [not_and, UInt64.not_le] at hhit
      exact hhit hdup
    refine ⟨g :: skipped, gap, post, rfl, ?_, he⟩
    simp only [List.mem_cons, forall_eq_or_imp]
    exact ⟨hgEnd, hsk⟩

/-- The end gap loop once it has left `gap`: the gaps it passed end at or before `end_` and lose
the queued frames at their ends, and it stops either inside a gap, which stays in the list, or
after one, which it removed, before the next gap starts. -/
theorem endGapLoop_false_ok {end_ : UInt64} : ∀ {endGap : ByteInterval}
    {after : List ByteInterval} {queue : List (UInt64 × List UInt8)} {where_ : EndGap}
    {eg : ByteInterval} {post' : List ByteInterval} {queue' : List (UInt64 × List UInt8)},
    endGap.Start < end_ →
    endGapLoop end_ false endGap after queue = .ok (where_, eg, post', queue') →
    ∃ passed rest, endGap :: after = passed ++ eg :: rest ∧ (∀ g ∈ passed, g.End ≤ end_) ∧
      eg.Start < end_ ∧
      queue'.Sublist queue ∧ (∀ e ∈ queue, e ∈ queue' ↔ e.1 ∉ passed.map ByteInterval.End) ∧
      ((end_ < eg.End ∧ where_ = .inList ∧ post' = eg :: rest) ∨
        (eg.End ≤ end_ ∧ (∃ next rest', rest = next :: rest' ∧ end_ ≤ next.Start) ∧
          where_ = .removed eg ∧ post' = rest)) := by
  intro endGap after
  induction after generalizing endGap with
  | nil =>
    intro queue where_ eg post' queue' hs h
    unfold endGapLoop at h
    by_cases hend : end_ ≥ endGap.End
    · rw [if_pos hend] at h
      cases h
    rw [if_neg hend, if_neg Bool.false_ne_true] at h
    cases h
    exact ⟨[], [], rfl, by simp, hs, List.Sublist.refl _, by simp,
      .inl ⟨UInt64.not_le.mp hend, rfl, rfl⟩⟩
  | cons next after ih =>
    intro queue where_ eg post' queue' hs h
    unfold endGapLoop at h
    by_cases hend : end_ ≥ endGap.End
    · rw [if_pos hend] at h
      dsimp only at h
      by_cases hstop : end_ ≤ next.Start
      · rw [if_pos hstop, if_neg Bool.false_ne_true] at h
        cases h
        exact ⟨[], next :: after, rfl, by simp, hs, List.Sublist.refl _, by simp,
          .inr ⟨hend, ⟨next, after, rfl, hstop⟩, rfl, rfl⟩⟩
      rw [if_neg hstop] at h
      obtain ⟨passed, rest, hsplit, hpassed, hstart, hsub, hmem, hcases⟩ :=
        ih (UInt64.not_le.mp hstop) h
      refine ⟨endGap :: passed, rest, by rw [hsplit]; rfl, ?_, hstart,
        hsub.trans (queueDelete_sublist _ _), mem_of_delete_then hsub hmem, hcases⟩
      simp only [List.mem_cons, forall_eq_or_imp]
      exact ⟨hend, hpassed⟩
    rw [if_neg hend, if_neg Bool.false_ne_true] at h
    cases h
    exact ⟨[], next :: after, rfl, by simp, hs, List.Sublist.refl _, by simp,
      .inl ⟨UInt64.not_le.mp hend, rfl, rfl⟩⟩

/-- The end gap loop from `gap`: either it stays at `gap`, the frame ending inside `gap` or before
the next gap starts, or it leaves `gap` for the gaps after it as above. -/
theorem endGapLoop_true_ok {end_ : UInt64} {gap : ByteInterval} {post : List ByteInterval}
    {queue : List (UInt64 × List UInt8)} {where_ : EndGap} {eg : ByteInterval}
    {post' : List ByteInterval} {queue' : List (UInt64 × List UInt8)}
    (h : endGapLoop end_ true gap post queue = .ok (where_, eg, post', queue')) :
    (where_ = .isGap ∧ eg = gap ∧ post' = post ∧ queue' = queue ∧
      (end_ < gap.End ∨ (gap.End ≤ end_ ∧ ∃ next rest', post = next :: rest' ∧
        end_ ≤ next.Start))) ∨
    (gap.End ≤ end_ ∧ ∃ passed rest, post = passed ++ eg :: rest ∧
      (∀ g ∈ passed, g.End ≤ end_) ∧ eg.Start < end_ ∧ queue'.Sublist queue ∧
      (∀ e ∈ queue, e ∈ queue' ↔ e.1 ∉ (gap :: passed).map ByteInterval.End) ∧
      ((end_ < eg.End ∧ where_ = .inList ∧ post' = eg :: rest) ∨
        (eg.End ≤ end_ ∧ (∃ next rest', rest = next :: rest' ∧ end_ ≤ next.Start) ∧
          where_ = .removed eg ∧ post' = rest))) := by
  unfold endGapLoop at h
  by_cases hend : end_ ≥ gap.End
  · rw [if_pos hend] at h
    cases post with
    | nil => cases h
    | cons next after =>
      dsimp only at h
      by_cases hstop : end_ ≤ next.Start
      · rw [if_pos hstop, if_pos rfl] at h
        cases h
        exact .inl ⟨rfl, rfl, rfl, rfl, .inr ⟨hend, next, after, rfl, hstop⟩⟩
      rw [if_neg hstop] at h
      obtain ⟨passed, rest, hsplit, hpassed, hstart, hsub, hmem, hcases⟩ :=
        endGapLoop_false_ok (UInt64.not_le.mp hstop) h
      exact .inr ⟨hend, passed, rest, hsplit, hpassed, hstart,
        hsub.trans (queueDelete_sublist _ _), mem_of_delete_then hsub hmem, hcases⟩
  · rw [if_neg hend, if_pos rfl] at h
    cases h
    exact .inl ⟨rfl, rfl, rfl, rfl, .inl (UInt64.not_le.mp hend)⟩

/-! ### The invariant -/

/-- Two queued frames hold no position in common. -/
def Apart (e e' : UInt64 × List UInt8) : Prop :=
  ∀ p, Holds e p → ¬ Holds e' p

/-- `L` lists queued frames that hold, without overlapping, exactly the bytes received and not
read yet: the positions from `readPos` on, below `MaxByteCount`, that no gap holds. Other frames
may stay queued beside them, inside what they hold. -/
structure Tiles (s : frameSorter) (L : List (UInt64 × List UInt8)) : Prop where
  sub : ∀ e ∈ L, e ∈ s.queue
  apart : L.Pairwise Apart
  cover : ∀ p, (∃ e ∈ L, Holds e p) ↔
    s.readPos.toNat ≤ p ∧ p < MaxByteCount.toNat ∧ ¬ Missing s.gaps p

/-- The invariant of a sorter fed with bytes of the stream `S`: the gap list keeps its shape, the
queue is a map whose frames are not empty, hold bytes of `S` and no missing position, and some of
them tile what was received and not read. -/
structure Inv (S : Nat → UInt8) (s : frameSorter) : Prop where
  gaps : GapsWF s.readPos.toNat s.gaps
  readPos_le : s.readPos.toNat ≤ MaxByteCount.toNat
  keys : (s.queue.map Prod.fst).Nodup
  entry : ∀ e ∈ s.queue, e.2 ≠ [] ∧ e.1.toNat + e.2.length ≤ MaxByteCount.toNat ∧
    Slice S e.1.toNat e.2 ∧ ∀ p, Holds e p → ¬ Missing s.gaps p
  tiles : ∃ L, Tiles s L

theorem Inv.init (S : Nat → UInt8) : Inv S newFrameSorter where
  gaps := ⟨by simp [newFrameSorter, MaxByteCount_toNat], by simp [newFrameSorter],
    by simp [newFrameSorter], by simp [newFrameSorter]⟩
  readPos_le := by simp [newFrameSorter]
  keys := by simp [newFrameSorter]
  entry := by simp [newFrameSorter]
  tiles := ⟨[], by simp, by simp, fun p => by
    simp only [List.not_mem_nil, false_and, exists_false, false_iff, not_and, not_not]
    intro _ hp
    exact missing_cons.mpr (.inl ⟨by simp, hp⟩)⟩

theorem Tiles.start_eq {s : frameSorter} {L : List (UInt64 × List UInt8)} (ht : Tiles s L)
    {e : UInt64 × List UInt8} (he : e ∈ L) {p : Nat} (hp : Holds e p)
    (hprev : p = s.readPos.toNat ∨ (0 < p ∧ Missing s.gaps (p - 1))) : e.1.toNat = p := by
  unfold Holds at hp
  by_contra hne
  have hin := (ht.cover (p - 1)).mp ⟨e, he, by unfold Holds; omega⟩
  rcases hprev with rfl | ⟨_, hm⟩
  · omega
  · exact hin.2.2 hm

/-! ### `push` -/

theorem toNat_add_length {a : UInt64} {n : Nat} (h : a.toNat + n ≤ MaxByteCount.toNat) :
    (a + n.toUInt64).toNat = a.toNat + n := by
  rw [MaxByteCount_toNat] at h
  rw [UInt64.toNat_add, Nat.toUInt64_eq, UInt64.toNat_ofNat', Nat.mod_eq_of_lt (by omega),
    Nat.mod_eq_of_lt (by omega)]

/-- What is left of the frame `[offset, offset + len)` once a front already received is cut
off: a slice of the stream at `o` that ends where the frame ends. -/
structure Trimmed (S : Nat → UInt8) (gaps : List ByteInterval) (offset len o : Nat)
    (data : List UInt8) : Prop where
  slice : Slice S o data
  ne : data ≠ []
  end_eq : o + data.length = offset + len
  le : offset ≤ o
  received : ∀ p, offset ≤ p → p < o → ¬ Missing gaps p

/-- A frame at an offset where nothing is queued is left whole, and its offset is the end of no
gap: the end of a gap below `MaxByteCount` is where a tiling frame starts. -/
theorem cut0_none {S : Nat → UInt8} {s : frameSorter} {data : List UInt8} {offset : UInt64}
    (hinv : Inv S s) (hslice : Slice S offset.toNat data) (hne : data ≠ [])
    (hmax : offset.toNat + data.length ≤ MaxByteCount.toNat)
    (hq : queueGet s.queue offset = none) :
    Trimmed S s.gaps offset.toNat data.length offset.toNat data ∧
      ∀ g ∈ s.gaps, g.End.toNat ≠ offset.toNat := by
  refine ⟨⟨hslice, hne, rfl, le_rfl, fun p h1 h2 => by omega⟩, fun g hg hend => ?_⟩
  obtain ⟨L, ht⟩ := hinv.tiles
  have hlen : 0 < data.length := List.length_pos_iff.mpr hne
  have hg := hinv.gaps.wf g hg
  have hab := hinv.gaps.above g ‹g ∈ s.gaps›
  obtain ⟨e, he, hholds⟩ := (ht.cover offset.toNat).mpr
    ⟨by omega, by omega, hend ▸ hinv.gaps.not_missing_end ‹g ∈ s.gaps›⟩
  have hstart := ht.start_eq he hholds
    (.inr ⟨by omega, ⟨g, ‹g ∈ s.gaps›, by unfold InGap; omega⟩⟩)
  have hmem := ht.sub e he
  have hkey : e.1 = offset := UInt64.toNat_inj.mp hstart
  rw [queueGet_of_mem hinv.keys (show (offset, e.2) ∈ s.queue from hkey ▸ hmem)] at hq
  cases hq

/-- A frame longer than the one queued at its offset keeps what goes beyond it, which ends no
gap either: the byte before it is received. -/
theorem cut0_some {S : Nat → UInt8} {s : frameSorter} {data old : List UInt8} {offset : UInt64}
    (hinv : Inv S s) (hslice : Slice S offset.toNat data)
    (hq : queueGet s.queue offset = some old) (hlt : ¬ data.length ≤ old.length) :
    Trimmed S s.gaps offset.toNat data.length (offset + old.length.toUInt64).toNat
        (data.drop old.length) ∧
      ∀ g ∈ s.gaps, g.End.toNat ≠ (offset + old.length.toUInt64).toNat := by
  have hmem := mem_of_queueGet hq
  obtain ⟨hold, hbound, -, hnm⟩ := hinv.entry _ hmem
  have hpos : 0 < old.length := List.length_pos_iff.mpr hold
  have hsum := toNat_add_length hbound
  dsimp only at hsum
  rw [hsum]
  refine ⟨⟨hslice.drop _, ?_, by simp; omega, by omega, fun p h1 h2 => hnm p ⟨h1, h2⟩⟩,
    fun g hg hend => ?_⟩
  · rw [ne_eq, List.drop_eq_nil_iff]
    omega
  · have := hinv.gaps.wf g hg
    exact hnm (g.End.toNat - 1) ⟨by simp; omega, by simp; omega⟩ ⟨g, hg, by unfold InGap; omega⟩


/-- The front of the frame that is queued already is cut off, and what is left starts at the end
of no gap. -/
theorem cut0_spec {S : Nat → UInt8} {s : frameSorter} {data data0 : List UInt8}
    {offset o : UInt64} (hinv : Inv S s) (hslice : Slice S offset.toNat data) (hne : data ≠ [])
    (hmax : offset.toNat + data.length ≤ MaxByteCount.toNat)
    (hcut : (match queueGet s.queue offset with
      | some oldData =>
        if data.length ≤ oldData.length then (none, offset)
        else (some (data.drop oldData.length), offset + oldData.length.toUInt64)
      | none => (some data, offset)) = (some data0, o)) :
    Trimmed S s.gaps offset.toNat data.length o.toNat data0 ∧
      ∀ g ∈ s.gaps, g.End.toNat ≠ o.toNat := by
  split at hcut
  · rename_i old hq
    split at hcut
    · cases hcut
    · rename_i hle
      cases hcut
      exact cut0_some hinv hslice hq hle
  · rename_i hq
    cases hcut
    exact cut0_none hinv hslice hne hmax hq

/-- The front of the frame below the gap it reaches was received and is cut off: what is left
starts at the later of its offset and the start of the gap. -/
theorem cut1_spec {S : Nat → UInt8} {r off len : Nat} {skipped post : List ByteInterval}
    {gap : ByteInterval} {o o1 s1 : UInt64} {data0 d1 : List UInt8}
    (hw : GapsWF r (skipped ++ gap :: post))
    (ht : Trimmed S (skipped ++ gap :: post) off len o.toNat data0)
    (hsk : ∀ g ∈ skipped, g.End < o) (hlt : gap.Start.toNat < o.toNat + data0.length)
    (hcut1 : (if o < gap.Start then
        (data0.drop (gap.Start - o).toNat, o + (gap.Start - o), o + (gap.Start - o))
      else (data0, o, o)) = (d1, o1, s1)) :
    Trimmed S (skipped ++ gap :: post) off len s1.toNat d1 ∧ o1 = s1 ∧
      s1.toNat = max o.toNat gap.Start.toNat := by
  by_cases hos : o < gap.Start
  · rw [if_pos hos, add_sub_cancel o gap.Start, Prod.mk.injEq, Prod.mk.injEq] at hcut1
    obtain ⟨rfl, rfl, rfl⟩ := hcut1
    have hos' := UInt64.lt_iff_toNat_lt.mp hos
    have hk := UInt64.toNat_sub_of_le _ _ (UInt64.le_of_lt hos)
    have hslice := ht.slice.drop (gap.Start - o).toNat
    rw [hk, show o.toNat + (gap.Start.toNat - o.toNat) = gap.Start.toNat by omega] at hslice
    rw [hk]
    refine ⟨⟨hslice, ?_, ?_, by have := ht.le; omega, fun p h1 h2 => ?_⟩, rfl, by omega⟩
    · rw [ne_eq, List.drop_eq_nil_iff]
      omega
    · rw [List.length_drop, ← ht.end_eq]
      omega
    · by_cases hpo : p < o.toNat
      · exact ht.received p h1 hpo
      · exact hw.not_missing_between hsk (by omega) h2
  · rw [if_neg hos, Prod.mk.injEq, Prod.mk.injEq] at hcut1
    obtain ⟨rfl, rfl, rfl⟩ := hcut1
    have := UInt64.not_lt.mp hos
    exact ⟨ht, rfl, by rw [UInt64.le_iff_toNat_le] at this; omega⟩

/-- The end of the frame beyond the last gap it reaches was received and is cut off: what is left
ends at the earlier of the frame's end and the end of that gap. -/
theorem cut2_spec {S : Nat → UInt8} {eg : ByteInterval} {s1 E e2 : UInt64} {d1 d2 : List UInt8}
    (hslice : Slice S s1.toNat d1) (hE : E.toNat = s1.toNat + d1.length)
    (hs1 : s1.toNat ≤ eg.End.toNat)
    (hcut2 : (if E > eg.End then (d1.take (d1.length - (E - eg.End).toNat), E - (E - eg.End))
      else (d1, E)) = (d2, e2)) :
    Slice S s1.toNat d2 ∧ s1.toNat + d2.length = e2.toNat ∧ e2.toNat ≤ E.toNat ∧
      e2.toNat ≤ eg.End.toNat ∧ (e2.toNat = E.toNat ∨ e2.toNat = eg.End.toNat) := by
  by_cases hcut : E > eg.End
  · rw [if_pos hcut, sub_sub_cancel, Prod.mk.injEq] at hcut2
    obtain ⟨rfl, rfl⟩ := hcut2
    have hgt := UInt64.lt_iff_toNat_lt.mp hcut
    have hk := UInt64.toNat_sub_of_le _ _ (UInt64.le_of_lt hcut)
    refine ⟨hslice.take _, ?_, by omega, by omega, by omega⟩
    rw [List.length_take, hk]
    omega
  · rw [if_neg hcut, Prod.mk.injEq] at hcut2
    obtain ⟨rfl, rfl⟩ := hcut2
    have := UInt64.le_iff_toNat_le.mp (UInt64.not_lt.mp hcut)
    exact ⟨hslice, by omega, by omega, by omega, by omega⟩

/-- Writing `[a, b)` at `a`, where the bytes at `a` and at `b - 1` were missing, keeps a tiling:
the new frame joins the tiling frames that start outside `[a, b)`. -/
theorem Tiles.write {s s' : frameSorter} {L : List (UInt64 × List UInt8)} {a b : UInt64}
    {d : List UInt8} (ht : Tiles s L) (hread : s'.readPos = s.readPos)
    (hmiss : ∀ p, Missing s'.gaps p ↔ Missing s.gaps p ∧ ¬(a.toNat ≤ p ∧ p < b.toNat))
    (hlen : a.toNat + d.length = b.toNat) (ha : Missing s.gaps a.toNat)
    (hb : Missing s.gaps (b.toNat - 1)) (hra : s.readPos.toNat ≤ a.toNat) (hbmax : b.toNat ≤ MaxByteCount.toNat)
    (hq : (a, d) ∈ s'.queue)
    (hkeep : ∀ e ∈ s.queue, (e.1.toNat < a.toNat ∨ b.toNat ≤ e.1.toNat) → e ∈ s'.queue) :
    Tiles s' ((a, d) :: L.filter fun e => decide (e.1.toNat < a.toNat ∨ b.toNat ≤ e.1.toNat)) := by
  have hheld : ∀ e ∈ L, ∀ p, Holds e p → ¬ Missing s.gaps p := fun e he p hp =>
    ((ht.cover p).mp ⟨e, he, hp⟩).2.2
  refine ⟨fun e he => ?_, ?_, fun p => ?_⟩
  · rcases List.mem_cons.mp he with rfl | he
    · exact hq
    · obtain ⟨he, hout⟩ := List.mem_filter.mp he
      exact hkeep e (ht.sub e he) (of_decide_eq_true hout)
  · refine List.pairwise_cons.mpr ⟨fun e he p hp hp' => ?_, ht.apart.filter _⟩
    obtain ⟨he, hout⟩ := List.mem_filter.mp he
    have hout := of_decide_eq_true hout
    unfold Holds at hp hp'
    exact hheld e he a.toNat (by unfold Holds; dsimp only at hp; omega) ha
  · constructor
    · rintro ⟨e, he, hp⟩
      rcases List.mem_cons.mp he with rfl | he
      · unfold Holds at hp
        dsimp only at hp
        refine ⟨by rw [hread]; omega, by omega, fun hm => ((hmiss p).mp hm).2 ⟨hp.1, by omega⟩⟩
      · have := (ht.cover p).mp ⟨e, (List.mem_filter.mp he).1, hp⟩
        exact ⟨hread ▸ this.1, this.2.1, fun hm => this.2.2 ((hmiss p).mp hm).1⟩
    · rintro ⟨hr, hmax, hnm⟩
      by_cases hin : a.toNat ≤ p ∧ p < b.toNat
      · exact ⟨(a, d), List.mem_cons_self, by unfold Holds; dsimp only; omega⟩
      have hnm' : ¬ Missing s.gaps p := fun hm => hnm ((hmiss p).mpr ⟨hm, hin⟩)
      obtain ⟨e, he, hp⟩ := (ht.cover p).mpr ⟨hread ▸ hr, hmax, hnm'⟩
      by_cases hout : e.1.toNat < a.toNat ∨ b.toNat ≤ e.1.toNat
      · exact ⟨e, List.mem_cons_of_mem _ (List.mem_filter.mpr ⟨he, decide_eq_true hout⟩), hp⟩
      · unfold Holds at hp
        exact absurd hb (hheld e he (b.toNat - 1) (by unfold Holds; omega))

/-- A push that writes `d` at `a` up to `b` over the gaps from `g₀` to `eg`, where the rest of
the frame `[off, off + len)` was received, and drops from the queue only frames starting inside
`[a, b)`, keeps the invariant and takes the frame off the missing positions. -/
theorem push_result {S : Nat → UInt8} {s : frameSorter} {pre seg rest : List ByteInterval}
    {g₀ eg : ByteInterval} {a b : UInt64} {d : List UInt8} {queue' : List (UInt64 × List UInt8)}
    {off len : Nat} {G : List ByteInterval} (hinv : Inv S s) (hsplit : s.gaps = pre ++ seg ++ rest)
    (hhead : seg.head? = some g₀) (hlast : seg.getLast? = some eg)
    (ha : g₀.Start.toNat ≤ a.toNat) (ha' : a.toNat < g₀.End.toNat)
    (hb : eg.Start.toNat < b.toNat) (hb' : b.toNat ≤ eg.End.toNat) (hab : a.toNat < b.toNat)
    (hd : Slice S a.toNat d) (hlen : a.toNat + d.length = b.toNat)
    (hoff : off ≤ a.toNat) (hend : b.toNat ≤ off + len)
    (hbefore : ∀ p, off ≤ p → p < a.toNat → ¬ Missing s.gaps p)
    (hafter : ∀ p, b.toNat ≤ p → p < off + len → ¬ Missing s.gaps p)
    (hsub : queue'.Sublist s.queue)
    (hkeep : ∀ e ∈ s.queue, (e.1.toNat < a.toNat ∨ b.toNat ≤ e.1.toNat) → e ∈ queue')
    (hG : G = pre ++ remnants g₀ eg a b ++ rest) :
    Inv S { queue := queueSet queue' a d, readPos := s.readPos, gaps := G } ∧
      s.readPos = s.readPos ∧
      ∀ p, Missing G p ↔ Missing s.gaps p ∧ ¬(off ≤ p ∧ p < off + len) := by
  subst hG
  have hw := hinv.gaps
  rw [hsplit] at hw
  obtain ⟨hw', hmiss⟩ := hw.replace hhead hlast ha ha'.le hb.le hb' hab
  rw [← hsplit] at hmiss
  have hg₀ : g₀ ∈ s.gaps := hsplit ▸ by simp [List.mem_of_mem_head? hhead]
  have heg : eg ∈ s.gaps := hsplit ▸ by simp [List.mem_of_mem_getLast? hlast]
  have hmissA : Missing s.gaps a.toNat := ⟨g₀, hg₀, ha, ha'⟩
  have hmissB : Missing s.gaps (b.toNat - 1) := ⟨eg, heg, by omega, by omega⟩
  have hmiss' : ∀ p, Missing (pre ++ remnants g₀ eg a b ++ rest) p ↔
      Missing s.gaps p ∧ ¬(off ≤ p ∧ p < off + len) := fun p => by
    rw [hmiss p]
    refine and_congr_right fun hm => not_congr ⟨fun h => ⟨by omega, by omega⟩, fun h => ?_⟩
    by_contra hout
    by_cases hpa : p < a.toNat
    · exact hbefore p h.1 hpa hm
    · exact hafter p (by omega) h.2 hm
  refine ⟨⟨hw', hinv.readPos_le, nodup_queueSet (nodup_keys_of_sublist hsub hinv.keys) _ _,
    fun e he => ?_, ?_⟩, rfl, hmiss'⟩
  · rcases mem_queueSet.mp he with rfl | ⟨he, -⟩
    · dsimp only
      have hbnd := hinv.gaps.bounded eg heg
      refine ⟨fun hnil => ?_, by omega, hd, fun p hp hm => ((hmiss p).mp hm).2 ⟨hp.1, ?_⟩⟩
      · rw [hnil, List.length_nil] at hlen
        omega
      · unfold Holds at hp
        dsimp only at hp
        omega
    · obtain ⟨hne, hbound, hslice, hheld⟩ := hinv.entry e (hsub.subset he)
      exact ⟨hne, hbound, hslice, fun p hp hm => hheld p hp ((hmiss p).mp hm).1⟩
  · obtain ⟨L, ht⟩ := hinv.tiles
    refine ⟨_, ht.write rfl hmiss hlen hmissA hmissB
      ((hinv.gaps.above g₀ hg₀).trans ha) (hb'.trans (hinv.gaps.bounded eg heg))
      (mem_queueSet.mpr (.inl rfl)) fun e he hout => mem_queueSet.mpr (.inr ⟨hkeep e he hout,
        fun hk => by rw [hk] at hout; omega⟩)⟩

theorem eq_of_gaps_check {gaps : List ByteInterval} {x y : frameSorter}
    (h : (if gaps.length > MaxStreamFrameSorterGaps then
      (throw frameSorterError.tooManyGaps >>= fun (_ : Unit) => pure x) else pure x :
        Except frameSorterError frameSorter) = .ok y) : x = y := by
  split at h
  · cases h
  · exact Except.ok.inj h

theorem push_spec {S : Nat → UInt8} {s s' : frameSorter} {data : List UInt8} {offset : UInt64}
    (hinv : Inv S s) (hslice : Slice S offset.toNat data)
    (hmax : offset.toNat + data.length ≤ MaxByteCount.toNat) (h : s.push data offset = .ok s') :
    Inv S s' ∧ s'.readPos = s.readPos ∧ ∀ p, Missing s'.gaps p ↔
      Missing s.gaps p ∧ ¬(offset.toNat ≤ p ∧ p < offset.toNat + data.length) := by
  unfold push at h
  by_cases hlen : data.length = 0
  · rw [if_pos hlen] at h
    cases h
    exact ⟨hinv, rfl, fun p => by simp [hlen]⟩
  rw [if_neg hlen] at h
  split at h
  rename_i d o hcut
  split at h
  case h_2 => cases h
  rename_i data0
  obtain ⟨⟨pre, gap, post⟩, hfind, h⟩ := Except.bind_eq_ok h
  split at h
  rename_i hx
  cases hx
  split at h
  rename_i d1 o1 s1 hcut1
  obtain ⟨⟨where_, eg, post', queue'⟩, hloop, h⟩ := Except.bind_eq_ok h
  split at h
  rename_i hx
  cases hx
  split at h
  rename_i d2 e2 hcut2
  obtain rfl := eq_of_gaps_check h
  obtain ⟨ht0, hnoEnd⟩ := cut0_spec hinv hslice (fun h => hlen (h ▸ rfl)) hmax hcut
  have hE : (o + data0.length.toUInt64).toNat = o.toNat + data0.length :=
    toNat_add_length (by rw [ht0.end_eq]; exact hmax)
  obtain ⟨skipped, hpre, hgaps, hsk, hgs, hoe⟩ := findGap_ok hfind
  rw [List.nil_append] at hpre
  subst hpre
  have hw := hinv.gaps
  rw [hgaps] at hw ht0 hnoEnd
  have hgap : gap ∈ pre ++ gap :: post := by simp
  have hgwf := hw.wf gap hgap
  have hgs' := UInt64.lt_iff_toNat_lt.mp hgs
  rw [hE] at hgs'
  have hog : o.toNat < gap.End.toNat :=
    lt_of_le_of_ne (UInt64.le_iff_toNat_le.mp hoe) (hnoEnd gap hgap).symm
  obtain ⟨ht1, ho1, hs1⟩ := cut1_spec hw ht0 hsk hgs' hcut1
  subst o1
  have hd1 := ht1.ne
  have hd1len := List.length_pos_iff.mpr hd1
  have hE1 : (o + data0.length.toUInt64).toNat = s1.toNat + d1.length := by
    rw [hE, ht0.end_eq, ht1.end_eq]
  generalize o + data0.length.toUInt64 = E at hloop hcut2 hE hgs hE1 ⊢
  have hEoff : E.toNat = offset.toNat + data.length := by rw [hE, ht0.end_eq]
  have hs1g : s1.toNat < gap.End.toNat := by omega
  have hgs1 : gap.Start.toNat ≤ s1.toNat := by omega
  have hbefore : ∀ p, offset.toNat ≤ p → p < s1.toNat → ¬ Missing s.gaps p :=
    hgaps ▸ ht1.received
  have hstart : s1 = gap.Start ∨ (s1 ≠ gap.Start ∧ gap.Start < s1) := by
    rw [ne_eq, UInt64.lt_iff_toNat_lt, ← UInt64.toNat_inj]
    omega
  rcases endGapLoop_true_ok hloop with
    ⟨rfl, heg, hpost, rfl, hA⟩ | ⟨hgE, passed, rest, rfl, hpassed, hegs, hsub, hmem, hB⟩
  · subst eg post'
    obtain ⟨hd2, hd2len, he2E, he2g, he2⟩ := cut2_spec ht1.slice hE1 hs1g.le hcut2
    have hsplit : s.gaps = pre ++ [gap] ++ post := by simpa using hgaps
    have hone : [gap].head? = some gap ∧ [gap].getLast? = some gap := ⟨rfl, rfl⟩
    refine push_result hinv hsplit hone.1 hone.2 hgs1 hs1g
      (by omega) (by omega) (by omega) hd2 hd2len ht1.le (by omega) hbefore ?_
      (List.Sublist.refl _) (fun e he _ => he) ?_
    · intro p hp hp'
      rcases hA with hlt | ⟨-, next, rest', rfl, hnext⟩
      · have := UInt64.lt_iff_toNat_lt.mp hlt
        omega
      · have := UInt64.le_iff_toNat_le.mp hnext
        rw [hgaps, ← List.singleton_append, ← List.append_assoc]
        have hlast : (pre ++ [gap]).getLast? = some gap := by simp
        exact GapsWF.not_missing_after (by simpa using hw) hlast (by omega) (by omega)
    · have hend : (e2 = gap.End ∧ ¬ e2 < gap.End) ∨ (e2 ≠ gap.End ∧ e2 < gap.End) := by
        rw [ne_eq, UInt64.lt_iff_toNat_lt, ← UInt64.toNat_inj]
        omega
      rcases hstart with hs | ⟨hs, hs'⟩ <;> rcases hend with ⟨he, he'⟩ | ⟨he, he'⟩
      · simp [hs, he, remnants]
      · simp [hs, he', remnants, setEndGapStart]
      · simp [hs, hs', he, remnants]
      · simp [hs, hs', he, he', remnants]
  · have hsplit : s.gaps = pre ++ (gap :: passed ++ [eg]) ++ rest := by simp [hgaps]
    have hseg : GapsWF s.readPos.toNat (gap :: passed ++ [eg]) :=
      (hsplit ▸ hinv.gaps).sublist (by simp)
    have hlast : (gap :: passed ++ [eg]).getLast? = some eg :=
      List.getLast?_eq_some_iff.mpr ⟨gap :: passed, by simp⟩
    have hegwf := hseg.wf eg (by simp)
    have hegs' := UInt64.lt_iff_toNat_lt.mp hegs
    have hends : ∀ g ∈ gap :: passed, s1.toNat < g.End.toNat ∧ g.End.toNat < eg.Start.toNat := by
      intro g hg
      refine ⟨?_, (List.pairwise_append.mp hseg.sorted).2.2 g hg eg (by simp)⟩
      rcases List.mem_cons.mp hg with rfl | hg
      · exact hs1g
      · have := (List.pairwise_cons.mp hseg.sorted).1 g (by simp [hg])
        have := hseg.wf g (by simp [hg])
        omega
    have hgeg := (hends gap (by simp)).2
    obtain ⟨hd2, hd2len, he2E, he2g, he2⟩ := cut2_spec ht1.slice hE1 (by omega) hcut2
    have hhead : (gap :: passed ++ [eg]).head? = some gap := rfl
    refine push_result hinv hsplit hhead hlast hgs1 hs1g
      (by omega) he2g (by omega) hd2 hd2len ht1.le (by omega) hbefore ?_ hsub ?_ ?_
    · intro p hp hp'
      rcases hB with ⟨hlt, -, -⟩ | ⟨-, ⟨next, rest', rfl, hnext⟩, -, -⟩
      · have := UInt64.lt_iff_toNat_lt.mp hlt
        omega
      · have := UInt64.le_iff_toNat_le.mp hnext
        rw [hsplit]
        exact GapsWF.not_missing_after (by simpa [hsplit] using hinv.gaps)
          (by rw [List.getLast?_append, hlast]; rfl) (by omega) (by omega)
    · intro e he hout
      refine (hmem e he).mpr fun hin => ?_
      obtain ⟨g, hg, hge⟩ := List.mem_map.mp hin
      have := hends g hg
      rw [hge] at this
      omega
    · have hgap2 : ¬ e2 < gap.End := by
        rw [UInt64.lt_iff_toNat_lt]
        omega
      rcases hB with ⟨hlt, rfl, rfl⟩ | ⟨hle, -, rfl, rfl⟩
      · have he : e2 ≠ eg.End ∧ e2 < eg.End := by
          have := UInt64.lt_iff_toNat_lt.mp hlt
          rw [ne_eq, UInt64.lt_iff_toNat_lt, ← UInt64.toNat_inj]
          omega
        rcases hstart with hs | ⟨hs, hs'⟩
        · simp [hs, he.2, hgap2, remnants, setEndGapStart]
        · simp [hs, hs', he.1, he.2, remnants, setEndGapStart]
      · have he : e2 = eg.End := by
          have := UInt64.le_iff_toNat_le.mp hle
          rw [← UInt64.toNat_inj]
          omega
        subst he
        rcases hstart with hs | ⟨hs, hs'⟩
        · simp [hs, hgap2, remnants]
        · simp [hs, hs', remnants]

theorem endGapLoop_error {end_ : UInt64} {e : frameSorterError} :
    ∀ {first : Bool} {endGap : ByteInterval} {after : List ByteInterval}
      {queue : List (UInt64 × List UInt8)},
    endGapLoop end_ first endGap after queue = .error e → e = .noEndGapFound := by
  intro first endGap after
  induction after generalizing first endGap with
  | nil =>
    intro queue h
    unfold endGapLoop at h
    by_cases hend : end_ ≥ endGap.End
    · rw [if_pos hend] at h
      exact (Except.error.inj h).symm
    · rw [if_neg hend] at h
      split at h <;> cases h
  | cons next after ih =>
    intro queue h
    unfold endGapLoop at h
    by_cases hend : end_ ≥ endGap.End
    · rw [if_pos hend] at h
      dsimp only at h
      split at h
      · cases h
      · exact ih h
    · rw [if_neg hend] at h
      split at h <;> cases h

theorem error_of_gaps_check {gaps : List ByteInterval} {x : frameSorter} {e : frameSorterError}
    (h : (if gaps.length > MaxStreamFrameSorterGaps then
      (throw frameSorterError.tooManyGaps >>= fun (_ : Unit) => pure x) else pure x :
        Except frameSorterError frameSorter) = .error e) : e = .tooManyGaps := by
  split at h
  · exact (Except.error.inj h).symm
  · cases h

theorem push_dup {S : Nat → UInt8} {s : frameSorter} {data : List UInt8} {offset : UInt64}
    (hinv : Inv S s) (hslice : Slice S offset.toNat data)
    (hmax : offset.toNat + data.length ≤ MaxByteCount.toNat)
    (h : s.push data offset = .error .errDuplicateStreamData) :
    ∀ p, offset.toNat ≤ p → p < offset.toNat + data.length → ¬ Missing s.gaps p := by
  unfold push at h
  by_cases hlen : data.length = 0
  · rw [if_pos hlen] at h
    cases h
  rw [if_neg hlen] at h
  split at h
  rename_i d o hcut
  split at h
  case h_2 hnone =>
    split at hcut
    · rename_i old hq
      split at hcut
      · rename_i hle
        obtain ⟨-, -, -, hheld⟩ := hinv.entry _ (mem_of_queueGet hq)
        exact fun p h1 h2 => hheld p ⟨h1, by dsimp only; omega⟩
      · cases hcut
        exact absurd rfl (hnone _)
    · cases hcut
      exact absurd rfl (hnone _)
  rename_i data0
  obtain ⟨ht0, -⟩ := cut0_spec hinv hslice (fun h => hlen (h ▸ rfl)) hmax hcut
  have hE : (o + data0.length.toUInt64).toNat = o.toNat + data0.length :=
    toNat_add_length (by rw [ht0.end_eq]; exact hmax)
  rcases Except.bind_eq_error h with hf | ⟨⟨pre, gap, post⟩, -, h⟩
  · obtain ⟨skipped, gap, post, hgaps, hsk, hle⟩ := findGap_dup hf
    have hle' := UInt64.le_iff_toNat_le.mp hle
    intro p h1 h2
    by_cases hpo : p < o.toNat
    · exact ht0.received p h1 hpo
    · rw [hgaps]
      exact (hgaps ▸ hinv.gaps).not_missing_between hsk (by omega)
        (by have := ht0.end_eq; omega)
  · split at h
    rcases Except.bind_eq_error h with hl | ⟨⟨where_, eg, post', queue'⟩, -, h⟩
    · cases endGapLoop_error hl
    · split at h
      cases error_of_gaps_check h

/-- A `Push` that succeeds keeps the invariant and takes the frame off the missing positions; a
duplicate leaves the sorter as it is. -/
theorem Push_spec {S : Nat → UInt8} {s s' : frameSorter} {data : List UInt8} {offset : UInt64}
    (hinv : Inv S s) (hslice : Slice S offset.toNat data)
    (hmax : offset.toNat + data.length ≤ MaxByteCount.toNat) (h : s.Push data offset = .ok s') :
    Inv S s' ∧ s'.readPos = s.readPos ∧ ∀ p, Missing s'.gaps p ↔
      Missing s.gaps p ∧ ¬(offset.toNat ≤ p ∧ p < offset.toNat + data.length) := by
  unfold Push at h
  split at h
  · rename_i hdup
    cases h
    have hrecv := push_dup hinv hslice hmax hdup
    exact ⟨hinv, rfl, fun p => ⟨fun hm => ⟨hm, fun hp => hrecv p hp.1 hp.2 hm⟩, And.left⟩⟩
  · exact push_spec hinv hslice hmax h

/-! ### `Pop` -/

theorem Tiles.eq_of_key {s : frameSorter} {L : List (UInt64 × List UInt8)} (ht : Tiles s L)
    (hkeys : (s.queue.map Prod.fst).Nodup) {e e' : UInt64 × List UInt8} (he : e ∈ L)
    (he' : e' ∈ s.queue) (hk : e'.1 = e.1) : e' = e := by
  have h₁ := queueGet_of_mem hkeys (ht.sub e he)
  have h₂ := queueGet_of_mem hkeys he'
  rw [hk, h₁, Option.some_inj] at h₂
  exact Prod.ext hk h₂.symm

theorem Inv.queueGet_readPos {S : Nat → UInt8} {s : frameSorter} (hinv : Inv S s)
    {data : List UInt8} (h : queueGet s.queue s.readPos = some data) :
    s.readPos.toNat < MaxByteCount.toNat ∧ ¬ Missing s.gaps s.readPos.toNat := by
  obtain ⟨hne, hbound, -, hheld⟩ := hinv.entry _ (mem_of_queueGet h)
  dsimp only at hne hbound
  have hpos := List.length_pos_iff.mpr hne
  exact ⟨by omega, hheld _ ⟨le_rfl, by dsimp only; omega⟩⟩

theorem Pop_of_missing {S : Nat → UInt8} {s : frameSorter} (hinv : Inv S s)
    (h : s.readPos.toNat = MaxByteCount.toNat ∨ Missing s.gaps s.readPos.toNat) :
    s.Pop = ((s.readPos, none), s) := by
  unfold Pop
  cases hq : queueGet s.queue s.readPos with
  | none => rfl
  | some data =>
    obtain ⟨hlt, hrecv⟩ := hinv.queueGet_readPos hq
    rcases h with h | h
    · omega
    · exact absurd h hrecv

instance : Std.Symm Apart :=
  ⟨fun _ _ h p hp hp' => h p hp' hp⟩

/-- `Pop` at a received position returns the tiling frame that starts there, a slice of the
stream, and moves the read position past it, keeping the invariant. -/
theorem Pop_of_received {S : Nat → UInt8} {s : frameSorter} (hinv : Inv S s)
    (hlt : s.readPos.toNat < MaxByteCount.toNat) (hrecv : ¬ Missing s.gaps s.readPos.toNat) :
    ∃ data, s.Pop = ((s.readPos, some data), { s with queue := queueDelete s.queue s.readPos,
                                                       readPos := s.readPos + data.length.toUInt64 }) ∧
      data ≠ [] ∧ Slice S s.readPos.toNat data ∧
      (s.readPos + data.length.toUInt64).toNat = s.readPos.toNat + data.length ∧
      Inv S { s with queue := queueDelete s.queue s.readPos,
                     readPos := s.readPos + data.length.toUInt64 } := by
  obtain ⟨L, ht⟩ := hinv.tiles
  obtain ⟨⟨k, data⟩, he, hholds⟩ := (ht.cover s.readPos.toNat).mpr ⟨le_rfl, hlt, hrecv⟩
  have hkey : k = s.readPos := UInt64.toNat_inj.mp (ht.start_eq he hholds (.inl rfl))
  subst hkey
  have hmem := ht.sub _ he
  have hq : queueGet s.queue s.readPos = some data := queueGet_of_mem hinv.keys hmem
  obtain ⟨hne, hbound, hslice, hheld⟩ := hinv.entry _ hmem
  dsimp only at hne hbound hslice
  have hsum := toNat_add_length hbound
  refine ⟨data, by simp [Pop, hq], hne, hslice, hsum, ⟨?_, by rw [hsum]; exact hbound,
    nodup_keys_of_sublist (queueDelete_sublist _ _) hinv.keys,
    fun e he' => hinv.entry e (mem_queueDelete.mp he').1, ?_⟩⟩
  · refine ⟨hinv.gaps.wf, hinv.gaps.bounded, fun g hg => ?_, hinv.gaps.sorted⟩
    dsimp only
    rw [hsum]
    by_contra hlow
    have := hinv.gaps.above g hg
    exact hheld g.Start.toNat ⟨by dsimp only; omega, by dsimp only; omega⟩
      ⟨g, hg, le_rfl, hinv.gaps.wf g hg⟩
  · refine ⟨L.filter fun e => decide (e.1 ≠ s.readPos), fun e he' => ?_, ht.apart.filter _,
      fun p => ?_⟩
    · obtain ⟨he', hk⟩ := List.mem_filter.mp he'
      exact mem_queueDelete.mpr ⟨ht.sub e he', of_decide_eq_true hk⟩
    · dsimp only
      rw [hsum]
      constructor
      · rintro ⟨e, he', hp⟩
        obtain ⟨he', hk⟩ := List.mem_filter.mp he'
        obtain ⟨hr, hM, hnm⟩ := (ht.cover p).mp ⟨e, he', hp⟩
        refine ⟨?_, hM, hnm⟩
        by_contra hlow
        have hne' : e ≠ (s.readPos, data) := fun h => of_decide_eq_true hk (by rw [h])
        exact ht.apart.forall he' he hne' p hp ⟨hr, by dsimp only; omega⟩
      · rintro ⟨hr, hM, hnm⟩
        obtain ⟨e, he', hp⟩ := (ht.cover p).mpr ⟨by omega, hM, hnm⟩
        refine ⟨e, List.mem_filter.mpr ⟨he', decide_eq_true fun hk => ?_⟩, hp⟩
        have := ht.eq_of_key hinv.keys he (ht.sub e he') hk
        subst this
        unfold Holds at hp
        dsimp only at hp
        omega

theorem Inv.readPos_cases {S : Nat → UInt8} {s : frameSorter} (hinv : Inv S s) :
    (s.readPos.toNat < MaxByteCount.toNat ∧ ¬ Missing s.gaps s.readPos.toNat) ∨
      (s.readPos.toNat = MaxByteCount.toNat ∨ Missing s.gaps s.readPos.toNat) := by
  by_cases hlt : s.readPos.toNat < MaxByteCount.toNat
  · by_cases hm : Missing s.gaps s.readPos.toNat
    · exact .inr (.inr hm)
    · exact .inl ⟨hlt, hm⟩
  · exact .inr (.inl (by have := hinv.readPos_le; omega))

/-- A `Pop` that returns data returns a nonempty slice of `S` at the read position, moves the read
position past it and keeps the invariant and the gap list. -/
theorem Pop_some_spec {S : Nat → UInt8} {s s' : frameSorter} {o : UInt64} {data : List UInt8}
    (hinv : Inv S s) (h : s.Pop = ((o, some data), s')) :
    data ≠ [] ∧ Slice S s.readPos.toNat data ∧
      s'.readPos.toNat = s.readPos.toNat + data.length ∧ s'.gaps = s.gaps ∧ Inv S s' := by
  rcases hinv.readPos_cases with ⟨hlt, hrecv⟩ | hnone
  · obtain ⟨d, hpop, hne, hslice, hsum, hinv'⟩ := Pop_of_received hinv hlt hrecv
    rw [hpop] at h
    simp only [Prod.mk.injEq, Option.some.injEq] at h
    obtain ⟨⟨-, rfl⟩, rfl⟩ := h
    exact ⟨hne, hslice, hsum, rfl, hinv'⟩
  · rw [Pop_of_missing hinv hnone] at h
    simp at h

/-- A `Pop` that returns nothing leaves the sorter as it is, at `MaxByteCount` or at a missing
byte. -/
theorem Pop_none_spec {S : Nat → UInt8} {s s' : frameSorter} {o : UInt64}
    (hinv : Inv S s) (h : s.Pop = ((o, none), s')) :
    s' = s ∧ (s.readPos.toNat = MaxByteCount.toNat ∨ Missing s.gaps s.readPos.toNat) := by
  rcases hinv.readPos_cases with ⟨hlt, hrecv⟩ | hnone
  · obtain ⟨d, hpop, -⟩ := Pop_of_received hinv hlt hrecv
    rw [hpop] at h
    simp at h
  · rw [Pop_of_missing hinv hnone] at h
    simp only [Prod.mk.injEq] at h
    exact ⟨h.2.symm, hnone⟩

/-! ### Runs -/

/-- Some push of the run carried the byte at `p`. -/
def Carried (es : List Event) (p : Nat) : Prop :=
  ∃ data offset, Event.push data offset ∈ es ∧ offset.toNat ≤ p ∧ p < offset.toNat + data.length

@[simp] theorem carried_nil (p : Nat) : ¬ Carried [] p := by
  simp [Carried]

theorem carried_append_push {es : List Event} {data : List UInt8} {offset : UInt64} {p : Nat} :
    Carried (es ++ [.push data offset]) p ↔
      Carried es p ∨ (offset.toNat ≤ p ∧ p < offset.toNat + data.length) := by
  simp only [Carried, List.mem_append, List.mem_singleton, Event.push.injEq]
  constructor
  · rintro ⟨d, o, hmem | ⟨rfl, rfl⟩, hp⟩
    · exact .inl ⟨d, o, hmem, hp⟩
    · exact .inr hp
  · rintro (⟨d, o, hmem, hp⟩ | hp)
    · exact ⟨d, o, .inl hmem, hp⟩
    · exact ⟨data, offset, .inr ⟨rfl, rfl⟩, hp⟩

theorem carried_append_pop {es : List Event} {p : Nat} :
    Carried (es ++ [.pop]) p ↔ Carried es p := by
  simp [Carried]

/-- What a sorter fed with the events `es` knows: the invariant, and the missing positions are
those below `MaxByteCount` that no push carried. -/
def Reassembles (S : Nat → UInt8) (es : List Event) (s : frameSorter) : Prop :=
  Inv S s ∧ ∀ p, Missing s.gaps p ↔ p < MaxByteCount.toNat ∧ ¬ Carried es p

theorem Inv.Pop {S : Nat → UInt8} {s : frameSorter} (hinv : Inv S s) :
    Inv S s.Pop.2 ∧ s.Pop.2.gaps = s.gaps := by
  rcases hpop : s.Pop with ⟨⟨o, _ | data⟩, s'⟩
  · obtain ⟨rfl, -⟩ := Pop_none_spec hinv hpop
    exact ⟨hinv, rfl⟩
  · obtain ⟨-, -, -, hgaps, hinv'⟩ := Pop_some_spec hinv hpop
    exact ⟨hinv', hgaps⟩

theorem Reassembles.step {S : Nat → UInt8} {es : List Event} {s s' : frameSorter} {e : Event}
    (hr : Reassembles S es s) (hc : Consistent S s e) (h : s.step e = some s') :
    Reassembles S (es ++ [e]) s' := by
  obtain ⟨hinv, hmiss⟩ := hr
  cases e with
  | push data offset =>
    obtain ⟨hmax, hdata⟩ := hc
    obtain ⟨hinv', -, hmiss'⟩ :=
      Push_spec hinv (slice_of_eq_map hdata) hmax (Except.toOption_eq_some_iff.mp h)
    refine ⟨hinv', fun p => ?_⟩
    rw [hmiss', hmiss, carried_append_push, not_or, and_assoc]
  | pop =>
    cases h
    obtain ⟨hinv', hgaps⟩ := hinv.Pop
    refine ⟨hinv', fun p => ?_⟩
    rw [hgaps, hmiss, carried_append_pop]

theorem Reassembles.init (S : Nat → UInt8) : Reassembles S [] newFrameSorter :=
  ⟨Inv.init S, fun p => by simp [newFrameSorter, InGap]⟩

/-- Every run of pushes of bytes of `S` and pops keeps the invariant, and the positions missing
are those below `MaxByteCount` that no push carried. -/
theorem run_reassembles {S : Nat → UInt8} {es : List Event} {s : frameSorter}
    (h : run step (Consistent S) newFrameSorter es = some s) : Reassembles S es s :=
  run_invariant_of_nil (fun _ _ _ _ hr hc hs => hr.step hc hs) (Reassembles.init S) h

set_option maxRecDepth 10000 in
theorem run_reassembles_out_of_order :
    ∃ s, run step (Consistent fun n => n.toUInt8) newFrameSorter
        [.push (streamBytes 10 10) 10, .push (streamBytes 0 5) 0, .pop] = some s ∧
      Reassembles (fun n => n.toUInt8)
        [.push (streamBytes 10 10) 10, .push (streamBytes 0 5) 0, .pop] s := by
  have hrun : run step (Consistent fun n => n.toUInt8) newFrameSorter
      [.push (streamBytes 10 10) 10, .push (streamBytes 0 5) 0, .pop] = some _ := rfl
  exact ⟨_, hrun, run_reassembles hrun⟩

/-- After every run of pushes of bytes of `S` and pops, `Pop` returns a nonempty slice of `S` at
the read position when some push carried the byte there, and nothing when none did. -/
theorem run_Pop {S : Nat → UInt8} {es : List Event} {s : frameSorter}
    (h : run step (Consistent S) newFrameSorter es = some s) :
    (∀ data, s.Pop.1.2 = some data → data ≠ [] ∧ Slice S s.readPos.toNat data) ∧
      (s.Pop.1.2 = none ↔
        s.readPos.toNat = MaxByteCount.toNat ∨ ¬ Carried es s.readPos.toNat) := by
  obtain ⟨hinv, hmiss⟩ := run_reassembles h
  rcases hinv.readPos_cases with ⟨hlt, hrecv⟩ | hnone
  · obtain ⟨data, hpop, hne, hslice, -⟩ := Pop_of_received hinv hlt hrecv
    have hcarried : Carried es s.readPos.toNat := by
      by_contra hc
      exact hrecv ((hmiss _).mpr ⟨hlt, hc⟩)
    rw [hpop]
    refine ⟨fun d hd => ?_, ?_⟩
    · cases hd
      exact ⟨hne, hslice⟩
    · simp only [reduceCtorEq, false_iff, not_or, not_not]
      exact ⟨by omega, hcarried⟩
  · rw [Pop_of_missing hinv hnone]
    refine ⟨fun d hd => (by cases hd), iff_of_true rfl ?_⟩
    rcases hnone with hmax | hm
    · exact .inl hmax
    · exact .inr ((hmiss _).mp hm).2

set_option maxRecDepth 10000 in
/-- After the frame at `[0, 5)` is read, the read position stands at `5`, which no push carried,
though the frame at `[10, 20)` is queued. -/
theorem run_Pop_out_of_order :
    ∃ s, run step (Consistent fun n => n.toUInt8) newFrameSorter
        [.push (streamBytes 10 10) 10, .push (streamBytes 0 5) 0, .pop] = some s ∧
      (∀ data, s.Pop.1.2 = some data → data ≠ [] ∧
        Slice (fun n => n.toUInt8) s.readPos.toNat data) ∧
      (s.Pop.1.2 = none ↔ s.readPos.toNat = MaxByteCount.toNat ∨
        ¬ Carried [.push (streamBytes 10 10) 10, .push (streamBytes 0 5) 0, .pop]
          s.readPos.toNat) := by
  have hrun : run step (Consistent fun n => n.toUInt8) newFrameSorter
      [.push (streamBytes 10 10) 10, .push (streamBytes 0 5) 0, .pop] = some _ := rfl
  exact ⟨_, hrun, run_Pop hrun⟩

end frameSorter
end QuicGo.Streams
