import Mathlib.Data.List.Pairwise
import QuicGo.Lib.Except
import QuicGo.Lib.Reachable
import QuicGo.Streams.OutgoingMap

/-! The limit of `outgoingItemsMap` for limits of at least one stream. The limit the map enforces,
`limitOf`, is the largest limit received; streams are opened with consecutive IDs of the class
until their number reaches it, and the STREAMS_BLOCKED frames carry strictly increasing limits. -/
namespace QuicGo.Streams
open QuicGo.Protocol QuicGo.Wire QuicGo.Lib

namespace outgoingItemsMap

variable {item : Type} {streamTypeGeneric : StreamType} {newStream : Nat → item}

/-- The number of streams the map currently allows, as a STREAMS_BLOCKED frame reports it. -/
def limitOf (m : outgoingItemsMap item) : Nat :=
  if m.maxStreamSet then StreamID.StreamNum m.maxStream else 0

/-- The number of streams opened so far, for a map whose IDs start at `first`. -/
def numOpened (first : Nat) (m : outgoingItemsMap item) : Nat :=
  (m.nextStream - first) / 4

/-- The largest limit among the `setMaxStream` events of a run. -/
def maxLimit : List Event → Nat
  | [] => 0
  | .setMaxStream n :: es => max n (maxLimit es)
  | .openStream :: es => maxLimit es
  | .delete _ :: es => maxLimit es

/-- The invariant of an outgoing map of stream class `first`. -/
structure OutInv (first : Nat) (m : outgoingItemsMap item) : Prop where
  first_lt : first < 4
  next_class : m.nextStream % 4 = first
  first_le_next : first ≤ m.nextStream
  max_class : m.maxStreamSet → m.maxStream % 4 = first
  next_le : m.nextStream ≤ if m.maxStreamSet then m.maxStream + 4 else first
  keys : ∀ k ∈ m.streams, k % 4 = first ∧ k < m.nextStream
  open_ : m.closeErr = none
  frames_sorted : (m.queuedFrames.map (·.StreamLimit)).Pairwise (· < ·)
  frames_le : ∀ f ∈ m.queuedFrames, f.StreamLimit < limitOf m ∨
    (f.StreamLimit = limitOf m ∧ m.blockedSent)

theorem OutInv.init (stype : StreamType) (pers : Perspective) :
    OutInv (FirstStream stype pers)
      (newOutgoingItemsMap (FirstStream stype pers) : outgoingItemsMap item) := by
  have hf := FirstStream_lt_four stype pers
  exact
    { first_lt := hf
      next_class := Nat.mod_eq_of_lt hf
      first_le_next := le_rfl
      max_class := fun h => absurd h Bool.false_ne_true
      next_le := by simp [newOutgoingItemsMap]
      keys := fun k hk => absurd hk (AList.notMem_empty k)
      open_ := rfl
      frames_sorted := List.Pairwise.nil
      frames_le := fun f hf => absurd hf List.not_mem_nil }

variable {first : Nat}

theorem OutInv.numOpened_le {m : outgoingItemsMap item} (hm : OutInv first m) :
    numOpened first m ≤ limitOf m := by
  have hn := hm.next_le
  have hc := hm.next_class
  have hfl := hm.first_le_next
  unfold numOpened limitOf
  cases hset : m.maxStreamSet
  · simp only [hset, Bool.false_eq_true, if_false] at hn ⊢
    omega
  · have := hm.max_class hset
    simp only [hset, if_true, StreamID.StreamNum] at hn ⊢
    omega

theorem openStreamImpl_fails_iff_blocked {m : outgoingItemsMap item} (h : m.closeErr = none) :
    (openStreamImpl streamTypeGeneric newStream m).1 = .error errTooManyOpenStreams ↔
      (!m.maxStreamSet || decide (m.nextStream > m.maxStream)) = true := by
  unfold openStreamImpl
  rw [h]
  split_ifs with hb hs <;> simp_all

/-- An attempt to open fails with `errTooManyOpenStreams` exactly when the number of streams
opened has reached the limit. -/
theorem OutInv.openStreamImpl_fails_iff {m : outgoingItemsMap item} (hm : OutInv first m) :
    (openStreamImpl streamTypeGeneric newStream m).1 = .error errTooManyOpenStreams ↔
      numOpened first m = limitOf m := by
  rw [openStreamImpl_fails_iff_blocked hm.open_]
  have hle := hm.numOpened_le
  have hn := hm.next_le
  have hc := hm.next_class
  have hfl := hm.first_le_next
  unfold numOpened limitOf at hle ⊢
  cases hset : m.maxStreamSet
  · simp only [hset, if_false, Bool.false_eq_true] at hle hn ⊢
    simp only [Bool.not_false, Bool.true_or, true_iff]
    omega
  · have := hm.max_class hset
    simp only [hset, if_true, StreamID.StreamNum] at hle hn ⊢
    simp only [Bool.not_true, Bool.false_or, decide_eq_true_eq]
    omega

theorem OutInv.openStreamImpl_ok {m : outgoingItemsMap item} {s : item} (hm : OutInv first m)
    (h : (openStreamImpl streamTypeGeneric newStream m).1 = .ok s) :
    s = newStream (first + 4 * numOpened first m) ∧
      numOpened first (openStreamImpl streamTypeGeneric newStream m).2 = numOpened first m + 1 := by
  have hc := hm.next_class
  have hfl := hm.first_le_next
  unfold openStreamImpl at h ⊢
  rw [hm.open_] at h ⊢
  dsimp only at h ⊢
  by_cases hb : (!m.maxStreamSet || decide (m.nextStream > m.maxStream)) = true
  · rw [if_pos hb] at h
    split_ifs at h
  · rw [if_neg hb] at h ⊢
    simp only [Except.ok.injEq] at h
    subst h
    unfold numOpened
    constructor
    · congr 1
      omega
    · dsimp only
      omega

theorem OutInv.of_openStreamImpl {m : outgoingItemsMap item} (hm : OutInv first m) :
    OutInv first (openStreamImpl streamTypeGeneric newStream m).2 := by
  have hc := hm.next_class
  unfold openStreamImpl
  rw [hm.open_]
  dsimp only
  by_cases hb : (!m.maxStreamSet || decide (m.nextStream > m.maxStream)) = true
  · rw [if_pos hb]
    by_cases hs : (!m.blockedSent) = true
    · rw [if_pos hs]
      have hsent : m.blockedSent = false := by simpa using hs
      refine { hm with open_ := rfl, frames_sorted := ?_, frames_le := ?_ }
      · rw [List.map_append, List.pairwise_append]
        refine ⟨hm.frames_sorted, List.pairwise_singleton _ _, ?_⟩
        intro a ha b hb'
        obtain ⟨f, hf, rfl⟩ := List.mem_map.mp ha
        simp only [List.map_cons, List.map_nil, List.mem_singleton] at hb'
        subst hb'
        rcases hm.frames_le f hf with hlt | ⟨-, hbs⟩
        · exact hlt
        · simp [hsent] at hbs
      · intro f hf
        rcases List.mem_append.mp hf with hf | hf
        · rcases hm.frames_le f hf with hlt | ⟨heq, -⟩
          · exact .inl hlt
          · exact .inr ⟨heq, rfl⟩
        · simp only [List.mem_singleton] at hf
          subst hf
          exact .inr ⟨rfl, rfl⟩
    · rw [if_neg hs]
      exact hm
  · rw [if_neg hb]
    have hle : m.maxStreamSet = true ∧ m.nextStream ≤ m.maxStream := by simpa using hb
    have hn := hm.next_le
    simp only [hle.1, if_true] at hn
    refine { hm with
      open_ := rfl
      next_class := by dsimp only; omega
      first_le_next := by dsimp only; omega
      next_le := by dsimp only; simp only [hle.1, if_true]; omega
      keys := fun k hk => ?_ }
    rcases (AList.mem_insert _).mp hk with rfl | hk
    · exact ⟨hc, by dsimp only; omega⟩
    · have := hm.keys k hk
      exact ⟨this.1, by dsimp only; omega⟩

theorem limitOf_openStreamImpl (m : outgoingItemsMap item) :
    limitOf (openStreamImpl streamTypeGeneric newStream m).2 = limitOf m := by
  unfold openStreamImpl limitOf
  split
  · rfl
  split_ifs <;> rfl

theorem limitOf_DeleteStream {m m' : outgoingItemsMap item} {id : Nat}
    (h : DeleteStream m id = .ok m') : limitOf m' = limitOf m := by
  unfold DeleteStream at h
  split_ifs at h
  cases h
  rfl

section Limits

variable {stype : StreamType} {pers : Perspective} {n : Nat}

/-- A limit of `n ≥ 1` streams raises the map's limit to `n` when it is larger, and is ignored
otherwise. -/
theorem OutInv.limitOf_SetMaxStream {m : outgoingItemsMap item}
    (hm : OutInv (FirstStream stype pers) m) (hn1 : 1 ≤ n) (hn : n < 2 ^ 61) :
    limitOf (SetMaxStream m (MaxStreamID stype n pers)) = max (limitOf m) n := by
  obtain ⟨k, rfl⟩ : ∃ k, n = k + 1 := ⟨n - 1, by omega⟩
  rw [MaxStreamID_succ_of_lt stype k pers (by omega)]
  have hf := hm.first_lt
  unfold SetMaxStream limitOf
  cases hset : m.maxStreamSet
  · simp only [Bool.not_false, Bool.true_or, if_true, Bool.false_eq_true, if_false,
      StreamID.StreamNum]
    omega
  · have := hm.max_class hset
    simp only [Bool.not_true, Bool.false_or, decide_eq_true_eq]
    by_cases hgt : FirstStream stype pers + 4 * k > m.maxStream
    · rw [if_pos hgt]
      simp only [if_true, StreamID.StreamNum]
      omega
    · rw [if_neg hgt]
      simp only [hset, if_true, StreamID.StreamNum]
      omega

theorem OutInv.of_SetMaxStream {m : outgoingItemsMap item}
    (hm : OutInv (FirstStream stype pers) m) (hn1 : 1 ≤ n) (hn : n < 2 ^ 61) :
    OutInv (FirstStream stype pers) (SetMaxStream m (MaxStreamID stype n pers)) := by
  have hlim := hm.limitOf_SetMaxStream hn1 hn
  obtain ⟨k, rfl⟩ : ∃ k, n = k + 1 := ⟨n - 1, by omega⟩
  have hmax := MaxStreamID_succ_of_lt stype k pers (by omega)
  have hf := hm.first_lt
  have hn' := hm.next_le
  unfold SetMaxStream at hlim ⊢
  split_ifs at hlim ⊢ with hraise
  · have hlt : limitOf m < k + 1 := by
      unfold limitOf
      cases hset : m.maxStreamSet
      · simp
      · have := hm.max_class hset
        simp only [hset, Bool.not_true, Bool.false_or, decide_eq_true_eq, hmax] at hraise
        simp only [if_true, StreamID.StreamNum]
        omega
    refine { hm with
      max_class := fun _ => by simp only [hmax]; omega
      next_le := ?_
      frames_le := fun f hf => .inl ?_ }
    · simp only [if_true, hmax]
      cases hset : m.maxStreamSet
      · simp only [hset, Bool.false_eq_true, if_false] at hn'
        omega
      · simp only [hset, Bool.not_true, Bool.false_or, decide_eq_true_eq, hmax] at hraise
        simp only [hset, if_true] at hn'
        omega
    · rw [hlim]
      rcases hm.frames_le f hf with h | ⟨h, -⟩ <;> omega
  · exact hm

theorem OutInv.of_DeleteStream {m m' : outgoingItemsMap item} {id : Nat} (hm : OutInv first m)
    (h : DeleteStream m id = .ok m') : OutInv first m' := by
  unfold DeleteStream at h
  split_ifs at h
  cases h
  exact { hm with keys := fun k hk => hm.keys k (AList.mem_erase.mp hk).2 }

/-- What a run of calls with limits `n ≥ 1` leaves: the map's limit is the largest limit received
(starting from `L`), and the invariant holds. -/
theorem OutInv.of_run {L : Nat} {es : List Event}
    (hes : ∀ n, Event.setMaxStream n ∈ es → 1 ≤ n ∧ n < 2 ^ 61) :
    ∀ {m m' : outgoingItemsMap item}, OutInv (FirstStream stype pers) m → limitOf m = L →
      run (step streamTypeGeneric newStream stype pers) (fun _ _ => True) m es = some m' →
      OutInv (FirstStream stype pers) m' ∧ limitOf m' = max L (maxLimit es) := by
  induction es generalizing L with
  | nil =>
    intro m m' hm hL hr
    simp only [run, Option.some.injEq] at hr
    subst hr
    exact ⟨hm, by simp [maxLimit, hL]⟩
  | cons e es ih =>
    intro m m' hm hL hr
    simp only [run, if_true] at hr
    cases e with
    | setMaxStream n =>
      obtain ⟨hn1, hn⟩ := hes n (List.mem_cons_self ..)
      have hlim := hm.limitOf_SetMaxStream hn1 hn
      obtain ⟨hm', hL'⟩ := ih (fun n' hn' => hes n' (List.mem_cons_of_mem _ hn'))
        (hm.of_SetMaxStream hn1 hn) rfl hr
      refine ⟨hm', ?_⟩
      rw [hL', hlim, hL, maxLimit]
      omega
    | openStream =>
      have hstep : step streamTypeGeneric newStream stype pers m .openStream =
          some (openStreamImpl streamTypeGeneric newStream m).2 := rfl
      rw [hstep, Option.bind_some] at hr
      obtain ⟨hm', hL'⟩ := ih (fun n' hn' => hes n' (List.mem_cons_of_mem _ hn'))
        hm.of_openStreamImpl rfl hr
      refine ⟨hm', ?_⟩
      rw [hL', maxLimit, ← hL, limitOf_openStreamImpl]
    | delete id =>
      cases hd : DeleteStream m id with
      | error e => simp [step, hd, Except.toOption] at hr
      | ok m₁ =>
        have hstep : step streamTypeGeneric newStream stype pers m (.delete id) = some m₁ := by
          simp [step, hd, Except.toOption]
        rw [hstep, Option.bind_some] at hr
        have hm₁ := hm.of_DeleteStream hd
        obtain ⟨hm', hL'⟩ := ih (fun n' hn' => hes n' (List.mem_cons_of_mem _ hn')) hm₁ rfl hr
        refine ⟨hm', ?_⟩
        rw [hL', maxLimit, ← hL, limitOf_DeleteStream hd]

/-- For every run of calls in which the peer's limits are at least one stream: the streams opened
never outnumber the largest limit received, an attempt to open fails with
`errTooManyOpenStreams` exactly when that number is reached, and the STREAMS_BLOCKED frames carry
strictly increasing limits, so at most one is queued per limit. -/
theorem opened_le_maxLimit_of_run {es : List Event}
    (hes : ∀ n, Event.setMaxStream n ∈ es → 1 ≤ n ∧ n < 2 ^ 61) {m : outgoingItemsMap item}
    (hr : run (step streamTypeGeneric newStream stype pers) (fun _ _ => True)
      (newOutgoingItemsMap (FirstStream stype pers)) es = some m) :
    numOpened (FirstStream stype pers) m ≤ maxLimit es ∧
      ((openStreamImpl streamTypeGeneric newStream m).1 = .error errTooManyOpenStreams ↔
        numOpened (FirstStream stype pers) m = maxLimit es) ∧
      (m.queuedFrames.map (·.StreamLimit)).Pairwise (· < ·) := by
  obtain ⟨hm, hL⟩ := OutInv.of_run hes (OutInv.init stype pers) rfl hr
  have h0 : limitOf (newOutgoingItemsMap (FirstStream stype pers) : outgoingItemsMap item) = 0 :=
    rfl
  rw [h0, Nat.zero_max] at hL
  rw [← hL]
  exact ⟨hm.numOpened_le, hm.openStreamImpl_fails_iff, hm.frames_sorted⟩

/-- A client opening bidirectional streams under a limit of two opens streams 0 and 4, and its
third attempt fails with `errTooManyOpenStreams`. -/
theorem opened_le_maxLimit_of_run_two :
    ∃ m, run (step StreamType.StreamTypeBidi id .StreamTypeBidi .PerspectiveClient)
        (fun _ _ => True) (newOutgoingItemsMap (FirstStream .StreamTypeBidi .PerspectiveClient))
        [.setMaxStream 2, .openStream, .openStream, .openStream] = some m ∧
      numOpened (FirstStream .StreamTypeBidi .PerspectiveClient) m = 2 ∧
      (openStreamImpl StreamType.StreamTypeBidi id m).1 = .error errTooManyOpenStreams := by
  have hes : ∀ n, Event.setMaxStream n ∈
      [.setMaxStream 2, .openStream, .openStream, .openStream] → 1 ≤ n ∧ n < 2 ^ 61 := by
    simp
  have hrun : (run (step StreamType.StreamTypeBidi id .StreamTypeBidi .PerspectiveClient)
      (fun _ _ => True) (newOutgoingItemsMap (FirstStream .StreamTypeBidi .PerspectiveClient))
      [.setMaxStream 2, .openStream, .openStream, .openStream]).map
        (numOpened (FirstStream .StreamTypeBidi .PerspectiveClient)) = some 2 := by
    decide
  obtain ⟨m, hr, h2⟩ := Option.map_eq_some_iff.mp hrun
  obtain ⟨-, hfail, -⟩ := opened_le_maxLimit_of_run hes hr
  exact ⟨m, hr, h2, hfail.mpr h2⟩

end Limits

end outgoingItemsMap

end QuicGo.Streams
