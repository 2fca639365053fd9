import QuicGo.Protocol.Types
import QuicGo.Lib.Except
import QuicGo.Lib.Reachable

/-! `frameSorter`: the reassembly buffer of a receive stream. `queue` maps offsets to the data
queued there, and `gaps` is the list of byte ranges not yet received, starting with all of `[0,
MaxByteCount]`. -/
namespace QuicGo.Streams
open QuicGo.Protocol QuicGo.Lib

/-- `utils.ByteInterval` -/
structure ByteInterval where
  Start : UInt64
  End : UInt64
  deriving DecidableEq, Repr, Inhabited

/-- `protocol.MaxStreamFrameSorterGaps`: the maximum number of gaps between received stream
frames. -/
def MaxStreamFrameSorterGaps : Nat := 1000

/-- The errors of `push`. -/
inductive frameSorterError where
  /-- "Duplicate Stream Data", which `Push` drops -/
  | errDuplicateStreamData
  /-- "StreamFrameSorter BUG: no gap found" -/
  | noGapFound
  /-- "StreamFrameSorter BUG: no end gap found" -/
  | noEndGapFound
  /-- "Too many gaps in received data" -/
  | tooManyGaps
  deriving DecidableEq, Repr

structure frameSorter where
  queue : List (UInt64 × List UInt8)
  readPos : UInt64
  gaps : List ByteInterval
  deriving DecidableEq, Repr

namespace frameSorter

def newFrameSorter : frameSorter :=
  ⟨[], 0, [⟨0, MaxByteCount⟩]⟩

/-- `queue[offset]` -/
def queueGet (q : List (UInt64 × List UInt8)) (offset : UInt64) : Option (List UInt8) :=
  q.lookup offset

/-- `delete(queue, offset)` -/
def queueDelete (q : List (UInt64 × List UInt8)) (offset : UInt64) : List (UInt64 × List UInt8) :=
  q.filter (·.1 ≠ offset)

/-- `queue[offset] = data` -/
def queueSet (q : List (UInt64 × List UInt8)) (offset : UInt64) (data : List UInt8) :
    List (UInt64 × List UInt8) :=
  (offset, data) :: queueDelete q offset

/-- The loop that skips all gaps before the frame `[start, end)`: it returns the gaps before
the one the frame reaches, that gap and the gaps after it. -/
def findGap (start end_ : UInt64) :
    List ByteInterval → List ByteInterval → Except frameSorterError
      (List ByteInterval × ByteInterval × List ByteInterval)
  | _, [] => throw .noGapFound
  | pre, gap :: post =>
    -- the frame is a duplicate
    if end_ ≤ gap.Start then throw .errDuplicateStreamData
    else if end_ > gap.Start ∧ start ≤ gap.End then pure (pre, gap, post)
    else findGap start end_ (pre ++ [gap]) post

/-- Where `endGap` points when its loop ends. -/
inductive EndGap where
  /-- at `gap` itself -/
  | isGap
  /-- at the first gap after `gap`, still in the list -/
  | inList
  /-- at an element the loop removed from the list, with its value -/
  | removed (v : ByteInterval)
  deriving DecidableEq, Repr

/-- The loop that finds the highest gap whose start lies before the end of the frame.
`endGap` is the gap reached, `first` says whether it is still `gap`, and `after` holds the gaps
after it. The loop deletes the queued frames that the new one covers completely. It returns
where `endGap` ended, its value, the gaps after `gap` and the queue. -/
def endGapLoop (end_ : UInt64) (first : Bool) (endGap : ByteInterval) :
    List ByteInterval → List (UInt64 × List UInt8) →
      Except frameSorterError (EndGap × ByteInterval × List ByteInterval × List (UInt64 × List UInt8))
  | after, queue =>
    if end_ ≥ endGap.End then
      match after with
      | [] => throw .noEndGapFound
      | nextEndGap :: after' =>
        -- `endGap` leaves the list unless it is `gap`
        if end_ ≤ nextEndGap.Start then
          pure (if first then .isGap else .removed endGap, endGap, nextEndGap :: after', queue)
        -- delete queued frames completely covered by the current frame
        else endGapLoop end_ false nextEndGap after' (queueDelete queue endGap.End)
    else if first then pure (.isGap, endGap, after, queue)
    else pure (.inList, endGap, endGap :: after, queue)

/-- Set the start of `endGap` where it is still in the list. -/
def setEndGapStart (where_ : EndGap) (gap : ByteInterval) (post : List ByteInterval)
    (start : UInt64) : ByteInterval × List ByteInterval :=
  match where_, post with
  | .isGap, _ => ({ gap with Start := start }, post)
  | .inList, g :: rest => (gap, { g with Start := start } :: rest)
  | _, _ => (gap, post)

def push (s : frameSorter) (data : List UInt8) (offset : UInt64) :
    Except frameSorterError frameSorter := do
  if data.length = 0 then return s
  -- a frame queued at the same offset: keep only what goes beyond it
  let (data, offset) := match queueGet s.queue offset with
    | some oldData => if data.length ≤ oldData.length then (none, offset)
        else (some (data.drop oldData.length), offset + oldData.length.toUInt64)
    | none => (some data, offset)
  let some data := data | throw .errDuplicateStreamData
  let start := offset
  let end_ := offset + data.length.toUInt64
  let (pre, gap, post) ← findGap start end_ [] s.gaps
  let (data, offset, start) := if start < gap.Start then
      let add := gap.Start - start
      (data.drop add.toNat, offset + add, start + add)
    else (data, offset, start)
  let (where_, endGap, post, queue) ← endGapLoop end_ true gap post s.queue
  let (data, end_) := if end_ > endGap.End then
      let cutLen := end_ - endGap.End
      (data.take (data.length - cutLen.toNat), end_ - cutLen)
    else (data, end_)
  let gaps :=
    if start = gap.Start then
      -- the frame completely fills this gap, or covers its beginning
      let gapKept := decide (end_ < gap.End)
      if end_ < endGap.End then
        let (gap', post') := setEndGapStart where_ gap post end_
        pre ++ (if gapKept then [gap'] else []) ++ post'
      else pre ++ (if gapKept then [gap] else []) ++ post
    -- the frame covers the end of the gap
    else if end_ = endGap.End then pre ++ { gap with End := start } :: post
    -- the frame lies within the current gap, splitting it into two
    else if where_ = .isGap then pre ++ { gap with End := start } :: ⟨end_, gap.End⟩ :: post
    else
      let (_, post') := setEndGapStart where_ gap post end_
      pre ++ { gap with End := start } :: post'
  if gaps.length > MaxStreamFrameSorterGaps then throw .tooManyGaps
  pure { s with queue := queueSet queue offset data, gaps }

/-- `Push` drops duplicate data silently. -/
def Push (s : frameSorter) (data : List UInt8) (offset : UInt64) :
    Except frameSorterError frameSorter :=
  match s.push data offset with
  | .error .errDuplicateStreamData => pure s
  | r => r

/-- `Pop` returns the offset and the data queued at the read position, if any. -/
def Pop (s : frameSorter) : (UInt64 × Option (List UInt8)) × frameSorter :=
  match queueGet s.queue s.readPos with
  | none => ((s.readPos, none), s)
  | some data =>
    ((s.readPos, some data),
      { s with queue := queueDelete s.queue s.readPos, readPos := s.readPos + data.length.toUInt64 })

/-- `HasMoreData` says if there is any more data queued at any offset. -/
def HasMoreData (s : frameSorter) : Bool :=
  !s.queue.isEmpty

theorem queueDelete_length_le (q : List (UInt64 × List UInt8)) (offset : UInt64) :
    (queueDelete q offset).length ≤ q.length :=
  List.length_filter_le _ _

theorem queueDelete_length_lt {q : List (UInt64 × List UInt8)} {offset : UInt64}
    {data : List UInt8} (h : queueGet q offset = some data) :
    (queueDelete q offset).length < q.length := by
  induction q with
  | nil => simp [queueGet] at h
  | cons e q ih =>
    by_cases he : e.1 = offset
    · have hdel : queueDelete (e :: q) offset = queueDelete q offset := by
        simp [queueDelete, he]
      rw [hdel, List.length_cons]
      exact Nat.lt_succ_of_le (queueDelete_length_le q offset)
    · have hq : queueGet q offset = some data := by
        obtain ⟨k, v⟩ := e
        have hk : (offset == k) = false := beq_eq_false_iff_ne.mpr (Ne.symm he)
        simpa only [queueGet, List.lookup_cons, hk] using h
      simpa [queueDelete, he] using ih hq

theorem Pop_queue_length_le (s : frameSorter) : s.Pop.2.queue.length ≤ s.queue.length := by
  unfold Pop
  split
  · exact le_rfl
  · exact queueDelete_length_le _ _

theorem Pop_queue_length_lt {s : frameSorter} {data : List UInt8} (h : s.Pop.1.2 = some data) :
    s.Pop.2.queue.length < s.queue.length := by
  unfold Pop at h ⊢
  split
  · simp_all
  · exact queueDelete_length_lt ‹_›

/-! ### Runs of a sorter -/

/-- The calls on a frame sorter. -/
inductive Event where
  | push (data : List UInt8) (offset : UInt64)
  | pop
  deriving DecidableEq, Repr

/-- One call; a `Push` that returns an error ends the run, as the stream closes with it. -/
def step (s : frameSorter) : Event → Option frameSorter
  | .push data offset => (s.Push data offset).toOption
  | .pop => some s.Pop.2

/-- A push of bytes of the stream `S` that ends at most at `MaxByteCount`, the bound that
`parseStreamFrame` checks. -/
def Consistent (S : Nat → UInt8) (_ : frameSorter) : Event → Prop
  | .push data offset => offset.toNat + data.length ≤ MaxByteCount.toNat ∧
      data = (List.range data.length).map fun i => S (offset.toNat + i)
  | .pop => True

instance (S : Nat → UInt8) (s : frameSorter) : (e : Event) → Decidable (Consistent S s e)
  | .push _ _ => inferInstanceAs (Decidable (_ ∧ _))
  | .pop => isTrue trivial

/-- A push that ends at `MaxByteCount`, which `parseStreamFrame` accepts, fails on a new sorter:
the loop that looks for the end gap runs past the last gap, which ends there too. -/
theorem push_newFrameSorter_to_MaxByteCount {data : List UInt8} {offset : UInt64}
    (hne : data ≠ []) (hend : offset.toNat + data.length = MaxByteCount.toNat) :
    newFrameSorter.push data offset = .error .noEndGapFound := by
  have hM := MaxByteCount_toNat
  have hlen : data.length ≠ 0 := by simpa using hne
  have hendEq : offset + data.length.toUInt64 = MaxByteCount := by
    apply UInt64.toNat_inj.mp
    rw [UInt64.toNat_add, UInt64.toNat_ofNat', Nat.mod_eq_of_lt (by omega),
      Nat.mod_eq_of_lt (by omega), hend]
  have hpos : ¬ MaxByteCount ≤ 0 := by simp [UInt64.le_iff_toNat_le, hM]
  have hpos' : 0 < MaxByteCount := by simp [UInt64.lt_iff_toNat_lt, hM]
  have hstart : offset ≤ MaxByteCount := by rw [UInt64.le_iff_toNat_le]; omega
  simp [push, newFrameSorter, hlen, queueGet, hendEq, findGap, hpos, hstart, hpos', endGapLoop]
  rfl

theorem Push_newFrameSorter_to_MaxByteCount {data : List UInt8} {offset : UInt64}
    (hne : data ≠ []) (hend : offset.toNat + data.length = MaxByteCount.toNat) :
    newFrameSorter.Push data offset = .error .noEndGapFound := by
  simp [Push, push_newFrameSorter_to_MaxByteCount hne hend]

/-- The last byte a stream can have, alone in a frame. -/
theorem Push_last_byte_fails :
    [(0 : UInt8)] ≠ [] ∧ (MaxByteCount - 1).toNat + [(0 : UInt8)].length = MaxByteCount.toNat ∧
      newFrameSorter.Push [0] (MaxByteCount - 1) = .error .noEndGapFound := by
  have hend : (MaxByteCount - 1).toNat + [(0 : UInt8)].length = MaxByteCount.toNat := by
    have hle : (1 : UInt64) ≤ MaxByteCount := by
      simp [UInt64.le_iff_toNat_le, MaxByteCount_toNat]
    rw [UInt64.toNat_sub_of_le _ _ hle, MaxByteCount_toNat]
    rfl
  exact ⟨List.cons_ne_nil _ _, hend, Push_newFrameSorter_to_MaxByteCount (List.cons_ne_nil _ _) hend⟩

/-- The bytes `offset .. offset + len` of a stream whose byte at position `n` is `n mod 256`. -/
def streamBytes (offset len : Nat) : List UInt8 :=
  (List.range len).map fun i => (offset + i).toUInt8

set_option maxRecDepth 10000 in
/-- Frames at `[10, 20)` and `[20, 30)`, then one at `[5, 35)` that covers both, then the frame
at `[0, 5)`: the covering push deletes only the frame at `10`, the end of the gap it starts in,
so the frame at `20` stays queued inside `[5, 35)`. Popping reads `[0, 35)` and then returns
nothing, and `HasMoreData` still says that data is queued. -/
theorem covered_frame_stays_queued :
    ∃ s, run step (Consistent fun n => n.toUInt8) newFrameSorter
        [.push (streamBytes 10 10) 10, .push (streamBytes 20 10) 20, .push (streamBytes 5 30) 5,
          .push (streamBytes 0 5) 0, .pop, .pop] = some s ∧
      s.readPos = 35 ∧ s.Pop.1.2 = none ∧ s.HasMoreData = true ∧
      s.queue = [(20, streamBytes 20 10)] := by
  have hrun : run step (Consistent fun n => n.toUInt8) newFrameSorter
      [.push (streamBytes 10 10) 10, .push (streamBytes 20 10) 20, .push (streamBytes 5 30) 5,
        .push (streamBytes 0 5) 0, .pop, .pop] = some _ := rfl
  exact ⟨_, hrun, rfl, rfl, rfl, rfl⟩

end frameSorter

end QuicGo.Streams
