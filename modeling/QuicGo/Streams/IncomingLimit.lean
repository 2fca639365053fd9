import Mathlib.Data.List.Pairwise
import QuicGo.Lib.Except
import QuicGo.Lib.Reachable
import QuicGo.Streams.IncomingMap

/-! The stream limit of `incomingItemsMap`. Opened streams are counted against the limit `n`
through the identity `numIDs nextStreamToOpen maxStream + len(streams) = n`, which every
operation keeps once the limit names at least one stream, and the MAX_STREAMS values that
deleting streams queues grow by one each time. -/
namespace QuicGo.Streams
open QuicGo.Protocol QuicGo.Wire QuicGo.Lib

/-- The number of stream IDs of one class in `[a, b]`, for `a` and `b` of that class. -/
def numIDs (a b : Nat) : Nat :=
  if a ≤ b then (b - a) / 4 + 1 else 0

theorem numIDs_open {a b id first : Nat} (ha : a % 4 = first) (hid : id % 4 = first)
    (hb : b % 4 = first) (hai : a ≤ id) (hib : id ≤ b) :
    numIDs (id + 4) b + ((id - a) / 4 + 1) = numIDs a b := by
  unfold numIDs
  split_ifs <;> omega

theorem numIDs_raise {a b first : Nat} (ha : a % 4 = first) (hb : b % 4 = first)
    (hab : a ≤ b + 4) : a + 4 * numIDs a b = b + 4 := by
  unfold numIDs
  split_ifs <;> omega

namespace incomingItemsMap

variable {item : Type} (streamTypeGeneric : StreamType) (newStream : Nat → item)

section OpenStreams

variable {newStream}

theorem mem_openStreams {s : AList (fun _ : Nat => item)} {newID count x : Nat} :
    x ∈ openStreams newStream s newID count ↔
      x ∈ s ∨ (newID ≤ x ∧ x < newID + 4 * count ∧ x % 4 = newID % 4) := by
  induction count generalizing s newID with
  | zero =>
    simp only [openStreams, Nat.mul_zero, Nat.add_zero]
    constructor
    · exact .inl
    · rintro (h | ⟨h₁, h₂, -⟩)
      · exact h
      · omega
  | succ count ih =>
    simp only [openStreams, ih, AList.mem_insert]
    by_cases hx : x ∈ s
    · simp only [hx, or_true, true_or]
    · simp only [hx, or_false, false_or]
      omega

theorem length_openStreams {s : AList (fun _ : Nat => item)} {newID count : Nat}
    (hs : ∀ x ∈ s, x < newID) :
    (openStreams newStream s newID count).keys.length = s.keys.length + count := by
  induction count generalizing s newID with
  | zero => rfl
  | succ count ih =>
    have hnew : newID ∉ s := fun h => Nat.lt_irrefl _ (hs _ h)
    have hlt : ∀ x ∈ s.insert newID (newStream newID), x < newID + 4 := by
      intro x hx
      rcases (AList.mem_insert _).mp hx with rfl | hx
      · omega
      · have := hs x hx; omega
    rw [openStreams, ih hlt, AList.keys_insert, List.erase_of_not_mem (AList.mem_keys.not.mp hnew)]
    simp only [List.length_cons]
    omega

end OpenStreams

/-- The invariant behind the stream limit, for a map of stream class `first` and limit `n`. -/
structure LimitInv (first n : Nat) (m : incomingItemsMap item) : Prop where
  next_class : m.nextStreamToOpen % 4 = first
  accept_class : m.nextStreamToAccept % 4 = first
  max_class : m.maxStream % 4 = first
  accept_le_next : m.nextStreamToAccept ≤ m.nextStreamToOpen
  next_le_max : m.nextStreamToOpen ≤ m.maxStream + 4
  next_le : m.nextStreamToOpen ≤ 2 ^ 62 + 4
  keys : ∀ k ∈ m.streams, k % 4 = first ∧ k < m.nextStreamToOpen
  toDelete : ∀ k ∈ m.streamsToDelete, k ∈ m.streams ∧ m.nextStreamToAccept ≤ k
  count : numIDs m.nextStreamToOpen m.maxStream + m.streams.keys.length = n
  maxNum : m.maxNumStreams = n
  open_ : m.closeErr = none
  frames_sorted : (m.queuedFrames.map (·.MaxStreams)).Pairwise (· < ·)
  frames_le : ∀ f ∈ m.queuedFrames, f.MaxStreams ≤ StreamID.StreamNum m.maxStream

variable {streamTypeGeneric newStream} {first n : Nat}

theorem length_keys_erase {s : AList (fun _ : Nat => item)} {id : Nat} (h : id ∈ s) :
    (s.erase id).keys.length = s.keys.length - 1 := by
  rw [AList.keys_erase, List.length_erase_of_mem (AList.mem_keys.mp h)]

/-- A stream that is already accepted is removed, and the limit moves up by one stream: the new
`maxStream` is the old one plus 4, so its stream number is one larger than any queued before. -/
theorem LimitInv.of_deleteStream {m m' : incomingItemsMap item} {id : Nat}
    (hm : LimitInv first n m) (hn : n < 2 ^ 61)
    (h : deleteStream streamTypeGeneric m id = .ok m') : LimitInv first n m' := by
  unfold deleteStream at h
  by_cases hmem : id ∈ m.streams
  swap
  · simp [hmem] at h
  by_cases hacc : id ≥ m.nextStreamToAccept
  · by_cases hdel : id ∈ m.streamsToDelete
    · simp [hmem, hacc, hdel] at h
    simp only [hmem, not_true_eq_false, if_false, hacc, if_true, hdel] at h
    cases h
    refine { hm with toDelete := fun k hk => ?_ }
    rcases Finset.mem_insert.mp hk with rfl | hk
    · exact ⟨hmem, hacc⟩
    · exact hm.toDelete k hk
  simp only [hmem, not_true_eq_false, if_false, hacc] at h
  have hlen : (m.streams.erase id).keys.length = m.streams.keys.length - 1 :=
    length_keys_erase hmem
  have hpos : 0 < m.streams.keys.length := List.length_pos_of_mem (AList.mem_keys.mp hmem)
  have hcount := hm.count
  have hmaxNum := hm.maxNum
  have hgt : m.maxNumStreams > (m.streams.erase id).keys.length := by omega
  have hraise := numIDs_raise hm.next_class hm.max_class hm.next_le_max
  have hnum : numIDs m.nextStreamToOpen m.maxStream ≤ n := by omega
  have hnext := hm.next_le
  have hnew : (m.nextStreamToOpen + (m.maxNumStreams - (m.streams.erase id).keys.length - 1) * 4)
      % 2 ^ 64 = m.maxStream + 4 := by
    rw [Nat.mod_eq_of_lt (by omega)]
    omega
  rw [if_pos hgt, hnew] at h
  cases h
  have hmc := hm.max_class
  refine { hm with
    max_class := by simp only; omega
    next_le_max := by simp only; omega
    keys := fun k hk => hm.keys k (AList.mem_erase.mp hk).2
    toDelete := fun k hk => ?_
    count := ?_
    frames_sorted := ?_
    frames_le := ?_ }
  · obtain ⟨hks, hka⟩ := hm.toDelete k hk
    exact ⟨AList.mem_erase.mpr ⟨by omega, hks⟩, hka⟩
  · simp only
    rw [hlen]
    unfold numIDs at hcount ⊢
    split_ifs at hcount ⊢ <;> omega
  · rw [List.map_append, List.pairwise_append]
    refine ⟨hm.frames_sorted, List.pairwise_singleton _ _, ?_⟩
    intro a ha b hb
    obtain ⟨f, hf, rfl⟩ := List.mem_map.mp ha
    simp only [List.map_cons, List.map_nil, List.mem_singleton] at hb
    subst hb
    have := hm.frames_le f hf
    simp only [StreamID.StreamNum] at this ⊢
    omega
  · intro f hf
    rcases List.mem_append.mp hf with hf | hf
    · have := hm.frames_le f hf
      simp only [StreamID.StreamNum] at this ⊢
      omega
    · simp only [List.mem_singleton] at hf
      subst hf
      exact le_rfl

theorem LimitInv.of_GetOrOpenStream {m m' : incomingItemsMap item} {id : Nat} {r : Option item}
    (hm : LimitInv first n m) (hid : id % 4 = first) (hid' : id < 2 ^ 62)
    (h : GetOrOpenStream newStream m id = .ok (r, m')) : LimitInv first n m' := by
  unfold GetOrOpenStream at h
  by_cases hgt : id > m.maxStream
  · simp [hgt] at h
  by_cases hlt : id < m.nextStreamToOpen
  · simp only [hgt, hlt, if_false, if_true, Except.ok.injEq, Prod.mk.injEq] at h
    rw [← h.2]
    exact hm
  simp only [hgt, hlt, if_false, Except.ok.injEq, Prod.mk.injEq] at h
  rw [← h.2]
  have hnc := hm.next_class
  have hal := hm.accept_le_next
  have hend : m.nextStreamToOpen + 4 * ((id - m.nextStreamToOpen) / 4 + 1) = id + 4 := by omega
  refine { hm with
    next_class := by simp only; omega
    accept_le_next := by simp only; omega
    next_le_max := by simp only; omega
    next_le := by simp only; omega
    keys := fun k hk => ?_
    toDelete := fun k hk => ?_
    count := ?_ }
  · rcases mem_openStreams.mp hk with hk | ⟨h₁, h₂, h₃⟩
    · have := hm.keys k hk
      simp only
      omega
    · simp only
      omega
  · obtain ⟨hks, hka⟩ := hm.toDelete k hk
    exact ⟨mem_openStreams.mpr (.inl hks), hka⟩
  · simp only
    rw [length_openStreams (fun x hx => (hm.keys x hx).2), ← Nat.add_assoc, Nat.add_right_comm,
      numIDs_open hm.next_class hid hm.max_class (by omega) (by omega)]
    exact hm.count

/-- Accepting moves `nextStreamToAccept` past a stream that exists; a stream that was deleted
before it was accepted is removed as by `deleteStream`. -/
theorem LimitInv.of_AcceptStream {m m' : incomingItemsMap item} {str : item}
    (hm : LimitInv first n m) (hn : n < 2 ^ 61)
    (h : AcceptStream streamTypeGeneric m = some (.ok (str, m'))) : LimitInv first n m' := by
  unfold AcceptStream at h
  split at h
  · simp at h
  cases hl : m.streams.lookup m.nextStreamToAccept with
  | none => simp [hl] at h
  | some s =>
    simp only [hl] at h
    have hmem : m.nextStreamToAccept ∈ m.streams := by
      rw [← AList.lookup_isSome, hl]
      rfl
    obtain ⟨-, hlt⟩ := hm.keys _ hmem
    have hac := hm.accept_class
    have hnc := hm.next_class
    have hadv : ∀ D : Finset Nat, (∀ k ∈ D, k ∈ m.streamsToDelete ∧ k ≠ m.nextStreamToAccept) →
        LimitInv first n
          { m with
            nextStreamToAccept := m.nextStreamToAccept + 4
            streamsToDelete := D } := by
      intro D hD
      refine { hm with
        accept_class := by simp only; omega
        accept_le_next := by simp only; omega
        toDelete := fun k hk => ?_ }
      obtain ⟨hkd, hne⟩ := hD k hk
      obtain ⟨hks, hka⟩ := hm.toDelete k hkd
      have := (hm.keys k hks).1
      exact ⟨hks, by simp only; omega⟩
    by_cases hd : m.nextStreamToAccept ∈ m.streamsToDelete
    · simp only [hd, if_true, Option.some.injEq] at h
      cases hdel : incomingItemsMap.deleteStream streamTypeGeneric
          { m with
            nextStreamToAccept := m.nextStreamToAccept + 4
            streamsToDelete := m.streamsToDelete.erase m.nextStreamToAccept }
          m.nextStreamToAccept with
      | error e => simp [hdel, Except.map] at h
      | ok m₁ =>
        simp only [hdel, Except.map, Except.ok.injEq, Prod.mk.injEq] at h
        rw [← h.2]
        refine LimitInv.of_deleteStream (hadv _ fun k hk => ?_) hn hdel
        exact ⟨(Finset.mem_erase.mp hk).2, (Finset.mem_erase.mp hk).1⟩
    · simp only [hd, if_false, Option.some.injEq, Except.ok.injEq, Prod.mk.injEq] at h
      rw [← h.2]
      refine hadv _ fun k hk => ⟨hk, ?_⟩
      rintro rfl
      exact hd hk

theorem LimitInv.of_step {m m' : incomingItemsMap item} {e : Event}
    (hm : LimitInv first n m) (hn : n < 2 ^ 61) (he : admissible first m e)
    (h : step streamTypeGeneric newStream m e = some m') : LimitInv first n m' := by
  cases e with
  | getOrOpen id =>
    simp only [step, Option.map_eq_some_iff] at h
    obtain ⟨⟨r, m₁⟩, hr, rfl⟩ := h
    exact hm.of_GetOrOpenStream he.1 he.2 ((Except.toOption_eq_some_iff).mp hr)
  | accept =>
    simp only [step, Option.bind_eq_some_iff, Option.map_eq_some_iff] at h
    obtain ⟨r, hr, ⟨str, m₁⟩, hok, rfl⟩ := h
    rw [(Except.toOption_eq_some_iff).mp hok] at hr
    exact hm.of_AcceptStream hn hr
  | delete id =>
    exact hm.of_deleteStream hn ((Except.toOption_eq_some_iff).mp h)

theorem LimitInv.init (stype : StreamType) (pers : Perspective) (hn1 : 1 ≤ n) (hn : n < 2 ^ 61) :
    LimitInv (FirstStream stype pers) n
      (newIncomingItemsMap (FirstStream stype pers) (MaxStreamID stype n pers) n :
        incomingItemsMap item) := by
  obtain ⟨k, rfl⟩ : ∃ k, n = k + 1 := ⟨n - 1, by omega⟩
  have hmax := MaxStreamID_succ_of_lt stype k pers (by omega)
  have hf := FirstStream_lt_four stype pers
  refine
    { next_class := Nat.mod_eq_of_lt hf
      accept_class := Nat.mod_eq_of_lt hf
      max_class := ?_
      accept_le_next := le_rfl
      next_le_max := ?_
      next_le := ?_
      keys := fun k hk => absurd hk (AList.notMem_empty k)
      toDelete := fun k hk => absurd hk (Finset.notMem_empty k)
      count := ?_
      maxNum := rfl
      open_ := rfl
      frames_sorted := List.Pairwise.nil
      frames_le := fun f hf => absurd hf List.not_mem_nil }
  · simp only [newIncomingItemsMap, hmax]
    omega
  · simp only [newIncomingItemsMap, hmax]
    omega
  · simp only [newIncomingItemsMap]
    omega
  · simp only [newIncomingItemsMap, hmax, numIDs, AList.keys_empty, List.length_nil]
    split_ifs <;> omega

/-- The count of streams against the limit, for every run of a map whose limit names at least one
stream: the IDs still allowed plus the streams held always make up the limit, and the MAX_STREAMS
values queued are strictly increasing. -/
theorem count_eq_limit_of_reachable {stype : StreamType} {pers : Perspective}
    (hn1 : 1 ≤ n) (hn : n < 2 ^ 61) {m : incomingItemsMap item}
    (hm : Reachable (step streamTypeGeneric newStream) (admissible (FirstStream stype pers))
      (newIncomingItemsMap (FirstStream stype pers) (MaxStreamID stype n pers) n) m) :
    numIDs m.nextStreamToOpen m.maxStream + m.streams.keys.length = n ∧
      (m.queuedFrames.map (·.MaxStreams)).Pairwise (· < ·) := by
  have hinv : LimitInv (FirstStream stype pers) n m :=
    hm.invariant (LimitInv.init stype pers hn1 hn) fun _ _ _ hs he hst => hs.of_step hn he hst
  exact ⟨hinv.count, hinv.frames_sorted⟩

/-- The peer opens streams 1, 5 and 9 of a server's class, up to its limit of three, and the
application accepts and deletes stream 1: the limit moves on to stream 13. -/
theorem count_eq_limit_of_reachable_accept_delete :
    ∃ m, run (step StreamType.StreamTypeBidi id)
        (admissible (FirstStream .StreamTypeBidi .PerspectiveServer))
        (newIncomingItemsMap (FirstStream .StreamTypeBidi .PerspectiveServer)
          (MaxStreamID .StreamTypeBidi 3 .PerspectiveServer) 3 : incomingItemsMap Nat)
        [.getOrOpen 9, .accept, .delete 1] = some m ∧
      m.maxStream = 13 ∧ numIDs m.nextStreamToOpen m.maxStream + m.streams.keys.length = 3 ∧
      (m.queuedFrames.map (·.MaxStreams)).Pairwise (· < ·) := by
  have hrun : (run (step StreamType.StreamTypeBidi id)
        (admissible (FirstStream .StreamTypeBidi .PerspectiveServer))
      (newIncomingItemsMap (FirstStream .StreamTypeBidi .PerspectiveServer)
        (MaxStreamID .StreamTypeBidi 3 .PerspectiveServer) 3 : incomingItemsMap Nat)
      [.getOrOpen 9, .accept, .delete 1]).map (·.maxStream) = some 13 := by
    decide
  obtain ⟨m, hr, h13⟩ := Option.map_eq_some_iff.mp hrun
  exact ⟨m, hr, h13, count_eq_limit_of_reachable (by decide) (by decide) (reachable_of_run .init hr)⟩

end incomingItemsMap

end QuicGo.Streams
