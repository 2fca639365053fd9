import QuicGo.Streams.SendStream
import QuicGo.Wire.FrameParser

/-! The framer (`framer.go`): the queue of control frames, and the round robin queue of the streams
with data to send. `streamQueue` holds each active stream once (`QueueInv`), and
`AppendStreamFrames` puts the streams with more data back at the end, in the order it visited them.
-/
namespace QuicGo
open Protocol Wire Lib Streams Flowcontrol

/-- `protocol.MinStreamFrameSize`, the least room worth another STREAM frame -/
def MinStreamFrameSize : UInt64 := 128

/-- What the framer calls on the streams, whose state is `σ`: `GetOrOpenSendStream` of its
`streamGetter`, `false` for a nil stream or an error, and `popStreamFrame` of the stream it
returns, `none` for a panic. -/
structure streamGetter (σ : Type) where
  GetOrOpenSendStream : σ → Nat → Bool × σ
  popStreamFrame : σ → Nat → UInt64 → Option ((Option StreamFrame × Bool) × σ)

/-- `framerI`; `activeStreams` is the key set of its map. -/
structure framerI where
  activeStreams : Finset Nat
  streamQueue : List Nat
  controlFrames : List Frame
  deriving DecidableEq

def newFramer : framerI := ⟨∅, [], []⟩

namespace framerI

def QueueControlFrame (f : framerI) (frame : Frame) : framerI :=
  { f with controlFrames := f.controlFrames ++ [frame] }

/-- The loop of `AppendControlFrames`, over the queue of control frames reversed, its last frame
first: it appends frames while they fit, and returns those left. -/
def appendControlFramesLoop (maxLen : UInt64) :
    List Frame → List Frame → UInt64 → Option (List Frame × UInt64 × List Frame)
  | [], frames, length => some (frames, length, [])
  | frame :: rest, frames, length => do
    let frameLen ← frame.Length
    if length + frameLen > maxLen then some (frames, length, frame :: rest)
    else appendControlFramesLoop maxLen rest (frames ++ [frame]) (length + frameLen)

/-- `AppendControlFrames`; `none` is a panic of `Length`. -/
def AppendControlFrames (f : framerI) (frames : List Frame) (maxLen : UInt64) :
    Option ((List Frame × UInt64) × framerI) := do
  let (frames, length, rest) ← appendControlFramesLoop maxLen f.controlFrames.reverse frames 0
  pure ((frames, length), { f with controlFrames := rest.reverse })

def AddActiveStream (f : framerI) (id : Nat) : framerI :=
  if id ∉ f.activeStreams then
    { f with streamQueue := f.streamQueue ++ [id], activeStreams := insert id f.activeStreams }
  else f

variable {σ : Type}

/-- A round of the loop of `AppendStreamFrames`, on the frames and the length appended so far:
`none` is a panic, and the flag says whether the loop goes on, `false` for its `break`. -/
def appendStreamFrame (g : streamGetter σ) (maxLen : UInt64) (frames : List Frame)
    (length : UInt64) (f : framerI) (st : σ) :
    Option (Bool × List Frame × UInt64 × framerI × σ) :=
  -- stop when less than `MinStreamFrameSize` bytes are left
  if maxLen - length < MinStreamFrameSize then some (false, frames, length, f, st)
  else match f.streamQueue with
  -- indexing an empty queue panics
  | [] => none
  | id :: streamQueue =>
    let f := { f with streamQueue }
    let (ok, st) := g.GetOrOpenSendStream st id
    if !ok then
      -- the stream completed after it said it had data
      some (true, frames, length, { f with activeStreams := f.activeStreams.erase id }, st)
    else do
      let ((frame, hasMoreData), st) ← g.popStreamFrame st id (maxLen - length)
      -- a stream with more data goes back at the end of the queue
      let f := if hasMoreData then { f with streamQueue := f.streamQueue ++ [id] }
        else { f with activeStreams := f.activeStreams.erase id }
      match frame with
      | none => some (true, frames, length, f, st)
      | some frame => do
        let frameLen ← (Frame.stream frame).Length
        some (true, frames ++ [.stream frame], length + frameLen, f, st)

/-- The loop of `AppendStreamFrames` with `n` of its rounds left. -/
def appendStreamFramesLoop (g : streamGetter σ) (maxLen : UInt64) :
    Nat → List Frame → UInt64 → framerI → σ → Option (List Frame × framerI × σ)
  | 0, frames, _, f, st => some (frames, f, st)
  | n + 1, frames, length, f, st => do
    let (next, frames, length, f, st) ← appendStreamFrame g maxLen frames length f st
    if next then appendStreamFramesLoop g maxLen n frames length f st else some (frames, f, st)

/-- `AppendStreamFrames`: one round for each stream queued at the call. -/
def AppendStreamFrames (f : framerI) (g : streamGetter σ) (st : σ) (frames : List Frame)
    (maxLen : UInt64) : Option (List Frame × framerI × σ) :=
  appendStreamFramesLoop g maxLen f.streamQueue.length frames 0 f st

/-! ### The queue of control frames -/

/-- The loop takes frames off the front of the stack while they fit, adding up their lengths, and
leaves the rest; the first frame it leaves does not fit. -/
theorem appendControlFramesLoop_spec {maxLen : UInt64} :
    ∀ {stack frames : List Frame} {length : UInt64} {r : List Frame × UInt64 × List Frame},
      appendControlFramesLoop maxLen stack frames length = some r →
      ∃ taken Ls, stack = taken ++ r.2.2 ∧ r.1 = frames ++ taken ∧
        List.Forall₂ (fun frame L => frame.Length = some L) taken Ls ∧ r.2.1 = length + Ls.sum ∧
        ∀ frame rest L, r.2.2 = frame :: rest → frame.Length = some L → r.2.1 + L > maxLen
  | [], frames, length, r, h => by
    simp only [appendControlFramesLoop, Option.some.injEq] at h
    subst h
    exact ⟨[], [], rfl, by simp, .nil, by simp, fun _ _ _ h => by cases h⟩
  | frame :: rest, frames, length, r, h => by
    simp only [appendControlFramesLoop] at h
    cases hL : frame.Length with
    | none => simp [hL] at h
    | some L =>
      simp only [hL, Option.bind_eq_bind, Option.bind_some] at h
      split at h
      · rename_i hgt
        obtain rfl := Option.some.inj h
        refine ⟨[], [], rfl, by simp, .nil, by simp, fun frame' rest' L' hr hL' => ?_⟩
        obtain ⟨rfl, -⟩ := List.cons.inj hr
        rw [hL, Option.some.injEq] at hL'
        exact hL' ▸ hgt
      · obtain ⟨taken, Ls, hs, hr, hLs, hlen, hstop⟩ := appendControlFramesLoop_spec h
        refine ⟨frame :: taken, L :: Ls, by rw [hs]; rfl, by rw [hr]; simp, .cons hL hLs, ?_, hstop⟩
        rw [hlen, List.sum_cons, UInt64.add_assoc]

/-- The queue of control frames is a stack: `AppendControlFrames` takes the frames queued last
while they fit, appends them newest first and returns the sum of their lengths, and leaves the
older frames queued in their order; the newest frame it leaves does not fit. -/
theorem AppendControlFrames_newest_first {f : framerI} {frames : List Frame} {maxLen : UInt64}
    {r : (List Frame × UInt64) × framerI} (h : f.AppendControlFrames frames maxLen = some r) :
    ∃ taken Ls, f.controlFrames = r.2.controlFrames ++ taken ∧ r.1.1 = frames ++ taken.reverse ∧
      List.Forall₂ (fun frame L => frame.Length = some L) taken.reverse Ls ∧ r.1.2 = Ls.sum ∧
      ∀ frame L, r.2.controlFrames.getLast? = some frame → frame.Length = some L →
        r.1.2 + L > maxLen := by
  unfold AppendControlFrames at h
  rcases hl : appendControlFramesLoop maxLen f.controlFrames.reverse frames 0 with
    _ | ⟨frames', length, rest⟩
  · rw [hl] at h
    cases h
  rw [hl, Option.bind_eq_bind, Option.bind_some] at h
  obtain rfl := Option.some.inj h
  obtain ⟨taken, Ls, hs, hr, hLs, hlen, hstop⟩ := appendControlFramesLoop_spec hl
  refine ⟨taken.reverse, Ls, ?_, by simpa using hr, by simpa using hLs, by simpa using hlen, ?_⟩
  · rw [← List.reverse_reverse f.controlFrames, hs]
    simp
  · intro frame L hlast hL
    cases rest with
    | nil => simp at hlast
    | cons frame' rest' =>
      simp only [List.reverse_cons, List.getLast?_append, List.getLast?_singleton,
        Option.some_or, Option.some.injEq] at hlast
      exact hstop frame' rest' L rfl (hlast ▸ hL)

/-- With a PING queued before a MAX_DATA and room for two bytes, the MAX_DATA frame is taken and
the PING stays queued. -/
theorem AppendControlFrames_newest_first_ping_left :
    ({ newFramer with controlFrames := [.ping, .maxData 5] } : framerI).AppendControlFrames [] 2 =
      some (([.maxData 5], 2), { newFramer with controlFrames := [.ping] }) ∧
    ∃ taken Ls, [Frame.ping, .maxData 5] = [Frame.ping] ++ taken ∧
      [Frame.maxData 5] = [] ++ taken.reverse ∧
      List.Forall₂ (fun frame L => frame.Length = some L) taken.reverse Ls ∧ (2 : UInt64) = Ls.sum ∧
      ∀ frame L, [Frame.ping].getLast? = some frame → frame.Length = some L → (2 : UInt64) + L > 2 := by
  have h : ({ newFramer with controlFrames := [.ping, .maxData 5] } : framerI).AppendControlFrames [] 2 =
      some (([.maxData 5], 2), { newFramer with controlFrames := [.ping] }) := by decide
  exact ⟨h, AppendControlFrames_newest_first h⟩

/-! ### The queue of active streams -/

/-- The queue holds each active stream once. -/
structure QueueInv (f : framerI) : Prop where
  nodup : f.streamQueue.Nodup
  keys : f.streamQueue.toFinset = f.activeStreams

theorem QueueInv.newFramer : QueueInv newFramer :=
  ⟨List.nodup_nil, rfl⟩

theorem QueueInv.addActiveStream {f : framerI} (hi : QueueInv f) (id : Nat) :
    QueueInv (f.AddActiveStream id) := by
  unfold AddActiveStream
  split
  · rename_i hn
    have hq : id ∉ f.streamQueue := by
      rw [← List.mem_toFinset, hi.keys]
      exact hn
    refine ⟨(List.perm_append_singleton id f.streamQueue).nodup_iff.mpr
      (List.nodup_cons.mpr ⟨hq, hi.nodup⟩), ?_⟩
    rw [List.toFinset_eq_of_perm _ _ (List.perm_append_singleton id f.streamQueue),
      List.toFinset_cons, hi.keys]
  · exact hi

/-- What holds at each round of `AppendStreamFrames` on the queue `q`: `i` of its streams were
visited, the others are still at the front, and the visited streams kept are behind them, in the
order visited. -/
structure Visited (q : List Nat) (i : Nat) (f : framerI) : Prop where
  inv : QueueInv f
  le : i ≤ q.length
  queue : ∃ R, f.streamQueue = q.drop i ++ R ∧ R.Sublist (q.take i)

theorem Visited.start {f : framerI} (hi : QueueInv f) : Visited f.streamQueue 0 f :=
  ⟨hi, Nat.zero_le _, [], by simp, List.nil_sublist _⟩

/-- One round takes the next stream of `q` off the front, and either drops it from the active
streams or puts it back at the end. -/
theorem Visited.pop {q : List Nat} {i : Nat} {f : framerI} {id : Nat} {rest : List Nat}
    (h : Visited q i f) (hi : i < q.length) (hq : f.streamQueue = id :: rest) :
    Visited q (i + 1) { f with streamQueue := rest, activeStreams := f.activeStreams.erase id } ∧
      Visited q (i + 1) { f with streamQueue := rest ++ [id] } := by
  obtain ⟨R, hR, hsub⟩ := h.queue
  rw [hq, List.drop_eq_getElem_cons hi, List.cons_append, List.cons.injEq] at hR
  obtain ⟨rfl, rfl⟩ := hR
  have hnodup : (q[i] :: (q.drop (i + 1) ++ R)).Nodup := hq ▸ h.inv.nodup
  have hkeys : (q[i] :: (q.drop (i + 1) ++ R)).toFinset = f.activeStreams := hq ▸ h.inv.keys
  have hnot : q[i] ∉ (q.drop (i + 1) ++ R).toFinset := by
    rw [List.mem_toFinset]
    exact (List.nodup_cons.mp hnodup).1
  have htake : q.take (i + 1) = q.take i ++ [q[i]] := by
    rw [List.take_add_one, List.getElem?_eq_getElem hi, Option.toList_some]
  refine ⟨⟨⟨(List.nodup_cons.mp hnodup).2, ?_⟩, hi, R, rfl, ?_⟩,
    ⟨⟨(List.perm_append_singleton _ _).nodup_iff.mpr hnodup, ?_⟩, hi, R ++ [q[i]], ?_, ?_⟩⟩
  · rw [← hkeys, List.toFinset_cons, Finset.erase_insert hnot]
  · exact hsub.trans (List.take_sublist_take_left (Nat.le_succ i))
  · rw [List.toFinset_eq_of_perm _ _ (List.perm_append_singleton _ _), hkeys]
  · exact List.append_assoc _ _ _
  · rw [htake]
    exact hsub.append (List.Sublist.refl _)

/-- A round stops the loop and changes nothing, or takes the next stream `id` off the queue,
drops it from the active streams or puts it back at the end, and appends the frame its
`popStreamFrame` returned, if any, with that frame's length. -/
theorem appendStreamFrame_spec {g : streamGetter σ} {maxLen : UInt64} {frames : List Frame}
    {length : UInt64} {f : framerI} {st : σ} {next : Bool} {frames' : List Frame}
    {length' : UInt64} {f' : framerI} {st' : σ}
    (h : appendStreamFrame g maxLen frames length f st = some (next, frames', length', f', st')) :
    (frames' = frames ∧ length' = length ∧ f' = f) ∨
      ∃ id rest, f.streamQueue = id :: rest ∧
        (f' = { f with streamQueue := rest, activeStreams := f.activeStreams.erase id } ∨
          f' = { f with streamQueue := rest ++ [id] }) ∧
        (frames' = frames ∧ length' = length ∨
          ∃ sf more st₁ st₂ L,
            g.popStreamFrame st₁ id (maxLen - length) = some ((some sf, more), st₂) ∧
            sf.Length = some L ∧ frames' = frames ++ [.stream sf] ∧ length' = length + L) := by
  unfold appendStreamFrame at h
  split at h
  · simp only [Option.some.injEq, Prod.mk.injEq] at h
    obtain ⟨-, rfl, rfl, rfl, -⟩ := h
    exact .inl ⟨rfl, rfl, rfl⟩
  cases hq : f.streamQueue with
  | nil =>
    rw [hq] at h
    cases h
  | cons id rest =>
    rw [hq] at h
    dsimp only at h
    rcases hg : g.GetOrOpenSendStream st id with ⟨ok, st₁⟩
    simp only [hg] at h
    refine .inr ⟨id, rest, rfl, ?_⟩
    cases ok
    · rw [if_pos (show (!false) = true from rfl)] at h
      simp only [Option.some.injEq, Prod.mk.injEq] at h
      obtain ⟨-, rfl, rfl, rfl, -⟩ := h
      exact ⟨.inl rfl, .inl ⟨rfl, rfl⟩⟩
    rw [if_neg (by decide)] at h
    rcases hp : g.popStreamFrame st₁ id (maxLen - length) with _ | ⟨⟨frame, more⟩, st₂⟩
    · rw [hp] at h
      cases h
    rw [hp, Option.bind_eq_bind, Option.bind_some] at h
    dsimp only at h
    have hkept : ∀ f'' : framerI, f'' = (if more = true then { f with streamQueue := rest ++ [id] }
        else { f with streamQueue := rest, activeStreams := f.activeStreams.erase id }) →
        f'' = { f with streamQueue := rest, activeStreams := f.activeStreams.erase id } ∨
          f'' = { f with streamQueue := rest ++ [id] } := by
      intro f'' hf''
      split at hf''
      · exact .inr hf''
      · exact .inl hf''
    cases frame with
    | none =>
      simp only [Option.some.injEq, Prod.mk.injEq] at h
      obtain ⟨-, rfl, rfl, hf, -⟩ := h
      exact ⟨hkept _ hf.symm, .inl ⟨rfl, rfl⟩⟩
    | some sf =>
      dsimp only at h
      rcases hL : (Frame.stream sf).Length with _ | L
      · rw [hL] at h
        cases h
      rw [hL, Option.bind_eq_bind, Option.bind_some] at h
      simp only [Option.some.injEq, Prod.mk.injEq] at h
      obtain ⟨-, rfl, rfl, hf, -⟩ := h
      exact ⟨hkept _ hf.symm, .inr ⟨sf, more, st₁, st₂, L, hp, hL, rfl, rfl⟩⟩

theorem appendStreamFramesLoop_invariant (g : streamGetter σ) (maxLen : UInt64)
    {P : Nat → List Frame → UInt64 → framerI → Prop}
    (hround : ∀ n frames length f st next frames' length' f' st', P (n + 1) frames length f →
      appendStreamFrame g maxLen frames length f st = some (next, frames', length', f', st') →
      P n frames' length' f') :
    ∀ n frames length f st r, P n frames length f →
      appendStreamFramesLoop g maxLen n frames length f st = some r →
      ∃ m length', P m r.1 length' r.2.1 := by
  intro n
  induction n with
  | zero =>
    intro frames length f st r hP hr
    obtain rfl := Option.some.inj hr
    exact ⟨0, length, hP⟩
  | succ n ih =>
    intro frames length f st r hP hr
    unfold appendStreamFramesLoop at hr
    rcases ha : appendStreamFrame g maxLen frames length f st with
      _ | ⟨next, frames', length', f', st'⟩
    · rw [ha] at hr
      cases hr
    rw [ha, Option.bind_eq_bind, Option.bind_some] at hr
    have hP' := hround n frames length f st next frames' length' f' st' hP ha
    cases next
    · obtain rfl := Option.some.inj hr
      exact ⟨n, length', hP'⟩
    · exact ih frames' length' f' st' r hP' hr

theorem appendStreamFrame_visited {q : List Nat} {g : streamGetter σ} {maxLen : UInt64}
    {n : Nat} {frames : List Frame} {length : UInt64} {f : framerI} {st : σ} {next : Bool}
    {frames' : List Frame} {length' : UInt64} {f' : framerI} {st' : σ}
    (h : ∃ i, i + (n + 1) ≤ q.length ∧ Visited q i f)
    (hr : appendStreamFrame g maxLen frames length f st = some (next, frames', length', f', st')) :
    ∃ i, i + n ≤ q.length ∧ Visited q i f' := by
  obtain ⟨i, hi, hv⟩ := h
  rcases appendStreamFrame_spec hr with ⟨-, -, rfl⟩ | ⟨id, rest, hq, hf', -⟩
  · exact ⟨i, by omega, hv⟩
  · obtain ⟨hdrop, hback⟩ := hv.pop (by omega) hq
    refine ⟨i + 1, by omega, ?_⟩
    rcases hf' with rfl | rfl
    · exact hdrop
    · exact hback

/-! ### The length of the frames appended -/

/-- Every frame that `popStreamFrame` returns for a size up to `bound` fits into that size. -/
def Fits (g : streamGetter σ) (bound : UInt64) : Prop :=
  ∀ st id m sf more st', m ≤ bound → g.popStreamFrame st id m = some ((some sf, more), st') →
    ∃ L, sf.Length = some L ∧ L ≤ m

/-- The frames appended after `frames₀` are STREAM frames, of `length` bytes in all, and
`length` is at most `maxLen`. -/
structure Appended (frames₀ : List Frame) (maxLen : UInt64) (frames : List Frame)
    (length : UInt64) : Prop where
  news : ∃ news, frames = frames₀ ++ news ∧
    (∀ fr ∈ news, ∃ sf L, fr = .stream sf ∧ sf.Length = some L) ∧
    (news.map fun fr => (fr.Length.getD 0).toNat).sum = length.toNat
  le : length ≤ maxLen

theorem Appended.start (frames₀ : List Frame) (maxLen : UInt64) :
    Appended frames₀ maxLen frames₀ 0 :=
  ⟨⟨[], by simp, by simp, rfl⟩, UInt64.zero_le⟩

theorem appendStreamFrame_appended {g : streamGetter σ} {bound maxLen : UInt64}
    (hfit : Fits g bound) (hmax : maxLen ≤ bound) {frames₀ frames : List Frame} {length : UInt64}
    {f : framerI} {st : σ} {next : Bool} {frames' : List Frame} {length' : UInt64} {f' : framerI}
    {st' : σ} (h : Appended frames₀ maxLen frames length)
    (hr : appendStreamFrame g maxLen frames length f st = some (next, frames', length', f', st')) :
    Appended frames₀ maxLen frames' length' := by
  rcases appendStreamFrame_spec hr with ⟨rfl, rfl, -⟩ | ⟨_, _, _, _, hnew⟩
  · exact h
  rcases hnew with ⟨rfl, rfl⟩ | ⟨sf, more, st₁, st₂, L, hp, hL, rfl, rfl⟩
  · exact h
  obtain ⟨news, rfl, hstream, hsum⟩ := h.news
  have hleft : (maxLen - length).toNat = maxLen.toNat - length.toNat :=
    UInt64.toNat_sub_of_le _ _ h.le
  have hle : maxLen - length ≤ bound := by
    rw [UInt64.le_iff_toNat_le, hleft]
    exact le_trans (Nat.sub_le _ _) (UInt64.le_iff_toNat_le.mp hmax)
  obtain ⟨L', hL', hfits⟩ := hfit _ _ _ _ _ _ hle hp
  rw [hL] at hL'
  obtain rfl := Option.some.inj hL'
  have hfits' := UInt64.le_iff_toNat_le.mp hfits
  have hmaxle := UInt64.le_iff_toNat_le.mp h.le
  have hlen : (length + L).toNat = length.toNat + L.toNat := by
    rw [UInt64.toNat_add]
    have := maxLen.toNat_lt
    omega
  refine ⟨⟨news ++ [.stream sf], List.append_assoc _ _ _, ?_, ?_⟩, ?_⟩
  · intro fr hfr
    rcases List.mem_append.mp hfr with hfr | hfr
    · exact hstream fr hfr
    · rw [List.mem_singleton.mp hfr]
      exact ⟨sf, L, rfl, hL⟩
  · rw [List.map_append, List.sum_append, hsum, hlen]
    simp [Frame.Length, hL]
  · rw [UInt64.le_iff_toNat_le, hlen]
    omega

/-! ### Calls -/

theorem Visited.kept_iff {q : List Nat} {k : Nat} {f : framerI} {R : List Nat} (hq : q.Nodup)
    (h : Visited q k f) (hR : f.streamQueue = q.drop k ++ R) {id : Nat} (hid : id ∈ q.take k) :
    id ∈ R ↔ id ∈ f.activeStreams := by
  have hdrop : id ∉ q.drop k := List.disjoint_take_drop hq le_rfl hid
  rw [← h.inv.keys, List.mem_toFinset, hR, List.mem_append]
  exact ⟨.inr, fun h' => h'.resolve_left hdrop⟩

/-- `AppendStreamFrames` visits a prefix of the queue, each stream once, and keeps the queue
holding each active stream once. -/
theorem AppendStreamFrames_visited {g : streamGetter σ} {f : framerI} (hi : QueueInv f)
    {st : σ} {frames : List Frame} {maxLen : UInt64} {r : List Frame × framerI × σ}
    (h : f.AppendStreamFrames g st frames maxLen = some r) :
    ∃ k, Visited f.streamQueue k r.2.1 := by
  obtain ⟨_, _, i, -, hv⟩ := appendStreamFramesLoop_invariant g maxLen
    (P := fun n _ _ f' => ∃ i, i + n ≤ f.streamQueue.length ∧ Visited f.streamQueue i f')
    (fun _ _ _ _ _ _ _ _ _ _ hP hr => appendStreamFrame_visited hP hr)
    _ frames 0 f st r ⟨0, by omega, Visited.start hi⟩ h
  exact ⟨i, hv⟩

/-- When the streams' frames fit, the frames `AppendStreamFrames` appends are STREAM frames of
at most `maxLen` bytes in all. -/
theorem AppendStreamFrames_appended {g : streamGetter σ} {bound maxLen : UInt64}
    (hfit : Fits g bound) (hmax : maxLen ≤ bound) {f : framerI} {st : σ} {frames : List Frame}
    {r : List Frame × framerI × σ} (h : f.AppendStreamFrames g st frames maxLen = some r) :
    ∃ length, Appended frames maxLen r.1 length := by
  obtain ⟨_, length, hA⟩ := appendStreamFramesLoop_invariant g maxLen
    (P := fun _ frames' length _ => Appended frames maxLen frames' length)
    (fun _ _ _ _ _ _ _ _ _ _ hP hr => appendStreamFrame_appended hfit hmax hP hr)
    _ frames 0 f st r (Appended.start frames maxLen) h
  exact ⟨length, hA⟩

/-! ### Runs -/

/-- The calls on the framer; the streams' state at a call of `AppendStreamFrames` is the
caller's. -/
inductive framerEvent (σ : Type) where
  | queueControlFrame (frame : Frame)
  | appendControlFrames (frames : List Frame) (maxLen : UInt64)
  | addActiveStream (id : Nat)
  | appendStreamFrames (st : σ) (frames : List Frame) (maxLen : UInt64)

/-- One call; a panic ends the run. -/
def step (g : streamGetter σ) (f : framerI) : framerEvent σ → Option framerI
  | .queueControlFrame frame => some (f.QueueControlFrame frame)
  | .appendControlFrames frames maxLen => (f.AppendControlFrames frames maxLen).map (·.2)
  | .addActiveStream id => some (f.AddActiveStream id)
  | .appendStreamFrames st frames maxLen => (f.AppendStreamFrames g st frames maxLen).map (·.2.1)

theorem AppendControlFrames_streams {f : framerI} {frames : List Frame} {maxLen : UInt64}
    {r : (List Frame × UInt64) × framerI} (h : f.AppendControlFrames frames maxLen = some r) :
    r.2.streamQueue = f.streamQueue ∧ r.2.activeStreams = f.activeStreams := by
  unfold AppendControlFrames at h
  rcases hl : appendControlFramesLoop maxLen f.controlFrames.reverse frames 0 with
    _ | ⟨frames', length, rest⟩
  · rw [hl] at h
    cases h
  rw [hl, Option.bind_eq_bind, Option.bind_some] at h
  obtain rfl := Option.some.inj h
  exact ⟨rfl, rfl⟩

theorem QueueInv.of_streams {f f' : framerI} (hi : QueueInv f)
    (hq : f'.streamQueue = f.streamQueue) (ha : f'.activeStreams = f.activeStreams) :
    QueueInv f' :=
  ⟨hq ▸ hi.nodup, by rw [hq, ha]; exact hi.keys⟩

theorem QueueInv.step {g : streamGetter σ} {f f' : framerI} (hi : QueueInv f)
    {e : framerEvent σ} (h : step g f e = some f') : QueueInv f' := by
  cases e with
  | queueControlFrame frame =>
    obtain rfl := Option.some.inj h
    exact hi.of_streams rfl rfl
  | appendControlFrames frames maxLen =>
    obtain ⟨r, hr, rfl⟩ := Option.map_eq_some_iff.mp h
    obtain ⟨hq, ha⟩ := AppendControlFrames_streams hr
    exact hi.of_streams hq ha
  | addActiveStream id =>
    obtain rfl := Option.some.inj h
    exact hi.addActiveStream id
  | appendStreamFrames st frames maxLen =>
    obtain ⟨r, hr, rfl⟩ := Option.map_eq_some_iff.mp h
    obtain ⟨k, hv⟩ := AppendStreamFrames_visited hi hr
    exact hv.inv

/-- Over every run of calls, whatever the streams do, the queue holds each active stream once.
A call of `AppendStreamFrames` then visits a prefix of the queue, each stream once, and leaves
the others at the front, followed by the visited streams still active, in the order visited;
when the streams' frames fit the size asked for, it appends STREAM frames of at most `maxLen`
bytes in all. -/
theorem AppendStreamFrames_round_robin (g : streamGetter σ) {bound : UInt64} (hfit : Fits g bound)
    {es : List (framerEvent σ)} {f : framerI}
    (hr : run (step g) (fun _ _ => True) newFramer es = some f) :
    QueueInv f ∧ ∀ (st : σ) (frames : List Frame) (maxLen : UInt64) (r : List Frame × framerI × σ),
      maxLen ≤ bound → f.AppendStreamFrames g st frames maxLen = some r →
      QueueInv r.2.1 ∧
      (∃ k R, r.2.1.streamQueue = f.streamQueue.drop k ++ R ∧ R.Sublist (f.streamQueue.take k) ∧
        ∀ id ∈ f.streamQueue.take k, id ∈ R ↔ id ∈ r.2.1.activeStreams) ∧
      ∃ news, r.1 = frames ++ news ∧ (∀ fr ∈ news, ∃ sf L, fr = .stream sf ∧ sf.Length = some L) ∧
        (news.map fun fr => (fr.Length.getD 0).toNat).sum ≤ maxLen.toNat := by
  have hi : QueueInv f := run_preserves (fun _ _ _ hi _ h => hi.step h) QueueInv.newFramer hr
  refine ⟨hi, fun st frames maxLen r hmax h => ?_⟩
  obtain ⟨k, hv⟩ := AppendStreamFrames_visited hi h
  obtain ⟨R, hR, hsub⟩ := hv.queue
  obtain ⟨length, ⟨news, hnews, hstream, hsum⟩, hle⟩ := AppendStreamFrames_appended hfit hmax h
  refine ⟨hv.inv, ⟨k, R, hR, hsub, fun id hid => hv.kept_iff hi.nodup hR hid⟩, news, hnews,
    hstream, ?_⟩
  rw [hsum]
  exact UInt64.le_iff_toNat_le.mp hle

/-- The send streams of a connection as the framer's `streamGetter`: a stream that exists is
returned, and its `popStreamFrame` runs in the connection. Opening new streams is left out. -/
def sendStreams : streamGetter ((Nat → Option sendStream) × streamEnv) where
  GetOrOpenSendStream st id := ((st.1 id).isSome, st)
  popStreamFrame st id maxBytes := do
    let s ← st.1 id
    let ((frame, hasMoreData), s, env) ← s.popStreamFrame st.2 maxBytes
    pure ((frame, hasMoreData), (Function.update st.1 id (some s), env))

theorem sendStreams_fits : Fits sendStreams 16385 := by
  intro st id m sf more st' hm h
  simp only [sendStreams] at h
  cases hs : st.1 id with
  | none => simp [hs] at h
  | some s =>
    rcases hp : s.popStreamFrame st.2 m with _ | ⟨⟨frame, more'⟩, s', env'⟩
    · simp [hs, hp] at h
    · simp only [hs, hp, Option.bind_eq_bind, Option.bind_some, Option.pure_def,
        Option.some.injEq, Prod.mk.injEq] at h
      obtain ⟨⟨rfl, -⟩, -⟩ := h
      exact sendStream.popStreamFrame_fits hm hp

/-- Streams 4 and 0, with 2000 and 100 bytes to send, within both send windows. -/
def twoSendStreams : (Nat → Option sendStream) × streamEnv :=
  (fun id =>
    if id = 4 then some { sendStream.newSendStream 4
      (streamFlowController.NewStreamFlowController 4 0 0 20000) with
        dataForWriting := some (List.replicate 2000 0) }
    else if id = 0 then some { sendStream.newSendStream 0
      (streamFlowController.NewStreamFlowController 0 0 0 20000) with
        dataForWriting := some (List.replicate 100 0) }
    else none,
   ⟨(connectionFlowController.NewConnectionFlowController 0 0).UpdateSendWindow 20000, []⟩)

/-- Streams 4 and 0 are queued in that order. Asked for 1200 bytes, the framer fills them with a
frame of stream 4, which still has data and goes back behind stream 0. -/
theorem AppendStreamFrames_round_robin_sendStreams :
    ∃ f, run (step sendStreams) (fun _ _ => True) newFramer
        [.addActiveStream 4, .addActiveStream 0] = some f ∧
      ∃ r, f.AppendStreamFrames sendStreams twoSendStreams [] 1200 = some r ∧
        r.2.1.streamQueue = [0, 4] ∧ QueueInv r.2.1 ∧
        (r.1.map fun fr => (fr.Length.getD 0).toNat).sum ≤ 1200 := by
  have hrun : run (step sendStreams) (fun _ _ => True) newFramer
      [.addActiveStream 4, .addActiveStream 0] =
        some ((newFramer.AddActiveStream 4).AddActiveStream 0) := rfl
  have hcall : (((newFramer.AddActiveStream 4).AddActiveStream 0).AppendStreamFrames sendStreams
      twoSendStreams [] 1200).map (·.2.1.streamQueue) = some [0, 4] := by
    decide +kernel
  obtain ⟨r, hr, hq⟩ := Option.map_eq_some_iff.mp hcall
  obtain ⟨hinv, -, news, hnews, -, hsum⟩ :=
    (AppendStreamFrames_round_robin sendStreams sendStreams_fits hrun).2 _ [] 1200 r (by decide) hr
  refine ⟨_, hrun, r, hr, hq, hinv, ?_⟩
  rw [hnews, List.nil_append]
  exact hsum

end framerI

end QuicGo
