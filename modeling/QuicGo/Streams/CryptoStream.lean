import QuicGo.Streams.Reassembly
import QuicGo.Wire.FrameCodec

/-! `cryptoStreamImpl`: the stream of CRYPTO frames of one encryption level. A crypto stream
reassembles the data of the CRYPTO frames it receives in a `frameSorter`, pops everything that has
arrived in order into `msgBuf`, and `GetCryptoData` cuts TLS handshake messages off the front of
`msgBuf`: a type byte, a 24-bit big-endian body length, and the body. -/
namespace QuicGo.Streams
open QuicGo.Protocol QuicGo.Wire QuicGo.Lib

/-- `protocol.MaxCryptoStreamOffset`: the maximum offset allowed on any of the crypto streams. -/
def MaxCryptoStreamOffset : UInt64 := 16 * ((1 : UInt64) <<< (10 : UInt64))

theorem MaxCryptoStreamOffset_toNat : MaxCryptoStreamOffset.toNat = 16384 := rfl

/-- The errors of the crypto streams and of their manager. -/
inductive cryptoStreamError where
  /-- "received invalid offset %d on crypto stream, maximum allowed %d" -/
  | invalidOffset (maxOffset : UInt64)
  /-- "received crypto data after change of encryption level" -/
  | dataAfterFinished
  /-- "encryption level changed, but crypto stream has more data to read" -/
  | moreDataToRead
  /-- "received CRYPTO frame with unexpected encryption level: %s" -/
  | unexpectedEncryptionLevel (encLevel : EncryptionLevel)
  /-- an error of the frame sorter -/
  | frameSorter (e : frameSorterError)
  deriving DecidableEq, Repr

structure cryptoStreamImpl where
  queue : frameSorter
  msgBuf : List UInt8
  highestOffset : UInt64
  finished : Bool
  writeOffset : UInt64
  writeBuf : List UInt8
  deriving DecidableEq, Repr

namespace cryptoStreamImpl

def newCryptoStream : cryptoStreamImpl where
  queue := frameSorter.newFrameSorter
  msgBuf := []
  highestOffset := 0
  finished := false
  writeOffset := 0
  writeBuf := []

/-- The loop at the end of `HandleCryptoFrame`: pop the sorter until it returns nothing, and
append what it pops to `msgBuf`. -/
def popAll (queue : frameSorter) (msgBuf : List UInt8) : frameSorter × List UInt8 :=
  match h : queue.Pop with
  | ((_, some data), queue') => popAll queue' (msgBuf ++ data)
  | ((_, none), queue') => (queue', msgBuf)
termination_by queue.queue.length
decreasing_by
  have hsome : queue.Pop.1.2 = some data := by rw [h]
  have hlt := frameSorter.Pop_queue_length_lt hsome
  rw [h] at hlt
  exact hlt

def HandleCryptoFrame (s : cryptoStreamImpl) (f : CryptoFrame) :
    Except cryptoStreamError cryptoStreamImpl := do
  let highestOffset := f.Offset + f.Data.length.toUInt64
  if highestOffset > MaxCryptoStreamOffset then throw (.invalidOffset highestOffset)
  if s.finished then
    -- reject crypto data received after this stream was already finished
    if highestOffset > s.highestOffset then throw .dataAfterFinished
    -- ignore data with a smaller offset than the highest received, e.g. a retransmission
    return s
  let s := { s with highestOffset := max s.highestOffset highestOffset }
  let queue ← (s.queue.Push f.Data f.Offset).mapError .frameSorter
  let (queue, msgBuf) := popAll queue s.msgBuf
  return { s with queue, msgBuf }

/-- `GetCryptoData` returns the next message, once all of it arrived. -/
def GetCryptoData (s : cryptoStreamImpl) : Option (List UInt8) × cryptoStreamImpl :=
  if s.msgBuf.length < 4 then (none, s)
  else
    let msgLen := 4 + ((s.msgBuf.getD 1 0).toNat <<< 16) + ((s.msgBuf.getD 2 0).toNat <<< 8) +
      (s.msgBuf.getD 3 0).toNat
    if s.msgBuf.length < msgLen then (none, s)
    else (some (s.msgBuf.take msgLen), { s with msgBuf := s.msgBuf.drop msgLen })

theorem GetCryptoData_some_length {s s' : cryptoStreamImpl} {data : List UInt8}
    (h : s.GetCryptoData = (some data, s')) : s'.msgBuf.length + 4 ≤ s.msgBuf.length := by
  unfold GetCryptoData at h
  by_cases h4 : s.msgBuf.length < 4
  · rw [if_pos h4] at h
    cases h
  rw [if_neg h4] at h
  dsimp only at h
  split at h
  · cases h
  · rename_i hlen
    cases h
    simp only [List.length_drop]
    omega

def Finish (s : cryptoStreamImpl) : Except cryptoStreamError cryptoStreamImpl :=
  if s.queue.HasMoreData then throw .moreDataToRead
  else pure { s with finished := true }

/-- `Write` queues data to be sent in CRYPTO frames. -/
def Write (s : cryptoStreamImpl) (p : List UInt8) : Nat × cryptoStreamImpl :=
  (p.length, { s with writeBuf := s.writeBuf ++ p })

def HasData (s : cryptoStreamImpl) : Bool :=
  decide (s.writeBuf.length > 0)

/-- `PopCryptoFrame` cuts the next frame of at most `maxLen` bytes off the queued data; `none` is
a panic of `MaxDataLen`. -/
def PopCryptoFrame (s : cryptoStreamImpl) (maxLen : UInt64) :
    Option (CryptoFrame × cryptoStreamImpl) := do
  let f : CryptoFrame := { Offset := s.writeOffset, Data := [] }
  let n := min (← f.MaxDataLen maxLen) s.writeBuf.length.toUInt64
  let f := { f with Data := s.writeBuf.take n.toNat }
  pure (f, { s with writeBuf := s.writeBuf.drop n.toNat, writeOffset := s.writeOffset + n })

/-! ### Receiving -/

open frameSorter

theorem popAll_of_some {q q' : frameSorter} {buf data : List UInt8} {o : UInt64}
    (h : q.Pop = ((o, some data), q')) : popAll q buf = popAll q' (buf ++ data) := by
  rw [popAll]
  split <;> simp_all

theorem popAll_of_none {q q' : frameSorter} {buf : List UInt8} {o : UInt64}
    (h : q.Pop = ((o, none), q')) : popAll q buf = (q', buf) := by
  rw [popAll]
  split <;> simp_all

/-- `popAll` takes every byte received in a row from the read position: it appends the bytes of
`S` from the old read position up to the new one, where the next byte is missing. -/
theorem popAll_spec {S : Nat → UInt8} {q q' : frameSorter} {buf buf' : List UInt8}
    (hinv : Inv S q) (h : popAll q buf = (q', buf')) :
    Inv S q' ∧ q'.gaps = q.gaps ∧ q.readPos.toNat ≤ q'.readPos.toNat ∧
      buf' = buf ++ streamSlice S q.readPos.toNat (q'.readPos.toNat - q.readPos.toNat) ∧
      (q'.readPos.toNat = MaxByteCount.toNat ∨ Missing q.gaps q'.readPos.toNat) := by
  rcases hpop : q.Pop with ⟨⟨o, _ | data⟩, q₁⟩
  · rw [popAll_of_none hpop] at h
    obtain ⟨rfl, rfl⟩ := Prod.mk.inj h
    obtain ⟨rfl, hnone⟩ := Pop_none_spec hinv hpop
    exact ⟨hinv, rfl, le_rfl, by simp, hnone⟩
  · rw [popAll_of_some hpop] at h
    obtain ⟨-, hslice, hpos, hgaps, hinv₁⟩ := Pop_some_spec hinv hpop
    obtain ⟨hinv', hgaps', hle, hbuf, hend⟩ := popAll_spec hinv₁ h
    refine ⟨hinv', hgaps'.trans hgaps, by omega, ?_, hgaps ▸ hend⟩
    rw [hbuf, hslice.eq_streamSlice, hpos, List.append_assoc, ← streamSlice_add]
    congr 2
    omega
termination_by q.queue.length
decreasing_by
  have hsome : q.Pop.1.2 = some data := by rw [hpop]
  have hlt := frameSorter.Pop_queue_length_lt hsome
  rw [hpop] at hlt
  exact hlt

/-- What `HandleCryptoFrame` does on a stream that is not finished: the frame goes to the sorter,
and everything received in a row from the read position moves to `msgBuf`. -/
theorem HandleCryptoFrame_ok {s s' : cryptoStreamImpl} {f : CryptoFrame}
    (hfin : s.finished = false) (h : s.HandleCryptoFrame f = .ok s') :
    f.Offset + f.Data.length.toUInt64 ≤ MaxCryptoStreamOffset ∧
      ∃ q, s.queue.Push f.Data f.Offset = .ok q ∧ popAll q s.msgBuf = (s'.queue, s'.msgBuf) ∧
        s'.finished = false := by
  unfold HandleCryptoFrame at h
  by_cases hmax : f.Offset + f.Data.length.toUInt64 > MaxCryptoStreamOffset
  · rw [if_pos hmax] at h
    cases h
  rw [if_neg hmax, hfin, if_neg Bool.false_ne_true] at h
  obtain ⟨q, hq, h⟩ := Except.bind_eq_ok h
  cases hpush : s.queue.Push f.Data f.Offset with
  | error e =>
    rw [hpush] at hq
    cases hq
  | ok q' =>
    rw [hpush] at hq
    cases hq
    split at h
    rename_i queue msgBuf hpop
    cases h
    exact ⟨UInt64.not_lt.mp hmax, q, rfl, hpop, rfl⟩

/-- A frame that passes the offset check without wrapping around ends within the crypto stream's
limit. -/
theorem end_le_MaxCryptoStreamOffset {f : CryptoFrame}
    (hov : f.Offset.toNat + f.Data.length < 2 ^ 64)
    (hle : f.Offset + f.Data.length.toUInt64 ≤ MaxCryptoStreamOffset) :
    f.Offset.toNat + f.Data.length ≤ MaxCryptoStreamOffset.toNat := by
  rw [UInt64.le_iff_toNat_le, UInt64.toNat_add] at hle
  simp only [Nat.toUInt64_eq, UInt64.toNat_ofNat'] at hle
  omega

/-! ### Handshake messages -/

/-- A TLS handshake message: a type byte, a 24-bit big-endian body length, and the body. -/
def IsHandshakeMessage (m : List UInt8) : Prop :=
  ∃ type b1 b2 b3 body, m = type :: b1 :: b2 :: b3 :: body ∧
    body.length = b1.toNat * 2 ^ 16 + b2.toNat * 2 ^ 8 + b3.toNat

theorem IsHandshakeMessage.ne_nil {m : List UInt8} (hm : IsHandshakeMessage m) : m ≠ [] := by
  obtain ⟨type, b1, b2, b3, body, rfl, -⟩ := hm
  exact List.cons_ne_nil _ _

theorem GetCryptoData_nil {s : cryptoStreamImpl} (h : s.msgBuf = []) :
    s.GetCryptoData = (none, s) := by
  unfold GetCryptoData
  rw [if_pos (by simp [h])]

/-- `GetCryptoData` on a buffer that starts with a handshake message returns that message once all
of it arrived, and nothing before. -/
theorem GetCryptoData_message {s : cryptoStreamImpl} {m rest : List UInt8} {L : Nat}
    (hm : IsHandshakeMessage m) (hbuf : s.msgBuf = (m ++ rest).take L) :
    s.GetCryptoData = if m.length ≤ L then
      (some m, { s with msgBuf := rest.take (L - m.length) }) else (none, s) := by
  obtain ⟨type, b1, b2, b3, body, rfl, hbody⟩ := hm
  unfold GetCryptoData
  by_cases h4 : L < 4
  · rw [if_pos (by simp [hbuf]; omega), if_neg (by simp; omega)]
  rw [if_neg (by simp [hbuf]; omega)]
  have hhdr : s.msgBuf.getD 1 0 = b1 ∧ s.msgBuf.getD 2 0 = b2 ∧ s.msgBuf.getD 3 0 = b3 := by
    obtain ⟨L', rfl⟩ : ∃ L', L = L' + 4 := ⟨L - 4, by omega⟩
    simp [hbuf, List.take_succ_cons]
  have hlen : 4 + (b1.toNat <<< 16) + (b2.toNat <<< 8) + b3.toNat =
      (type :: b1 :: b2 :: b3 :: body).length := by
    simp only [Nat.shiftLeft_eq, List.length_cons, hbody]
    omega
  dsimp only
  rw [hhdr.1, hhdr.2.1, hhdr.2.2, hlen]
  by_cases hfit : (type :: b1 :: b2 :: b3 :: body).length ≤ L
  · rw [if_neg (by simp [hbuf]; omega), if_pos hfit, hbuf, List.take_take,
      Nat.min_eq_left hfit, List.take_left' rfl, List.drop_take, List.drop_left' rfl]
  · rw [if_pos (by simp [hbuf]; omega), if_neg hfit]

/-! ### Runs of frames -/

/-- The frame-sorter calls that the frames `fs` make. -/
def pushes (fs : List CryptoFrame) : List Event :=
  fs.map fun f => .push f.Data f.Offset

/-- Some frame of `fs` carried the byte at `p`. -/
def Covered (fs : List CryptoFrame) (p : Nat) : Prop :=
  ∃ f ∈ fs, f.Offset.toNat ≤ p ∧ p < f.Offset.toNat + f.Data.length

theorem carried_pushes {fs : List CryptoFrame} {p : Nat} :
    Carried (pushes fs) p ↔ Covered fs p := by
  simp [Carried, Covered, pushes]

/-- What a crypto stream that received the frames `fs` of the stream `S` keeps: its sorter
reassembles them, it has popped everything that arrived in a row, and it is not finished. -/
structure Received (S : Nat → UInt8) (fs : List CryptoFrame) (str : cryptoStreamImpl) : Prop where
  queue : Reassembles S (pushes fs) str.queue
  readPos : str.queue.readPos.toNat = MaxByteCount.toNat ∨
    Missing str.queue.gaps str.queue.readPos.toNat
  finished : str.finished = false
  accepted : ∀ f ∈ fs, f.Offset.toNat + f.Data.length ≤ MaxCryptoStreamOffset.toNat

theorem Received.init (S : Nat → UInt8) : Received S [] newCryptoStream where
  queue := Reassembles.init S
  readPos := .inr (missing_cons.mpr (.inl ⟨by simp [newCryptoStream, newFrameSorter],
    by simp [newCryptoStream, newFrameSorter, MaxByteCount_toNat]⟩))
  finished := rfl
  accepted := by simp

theorem Received.covered_of_lt {S : Nat → UInt8} {fs : List CryptoFrame} {str : cryptoStreamImpl}
    (hr : Received S fs str) {p : Nat} (hp : p < str.queue.readPos.toNat) : Covered fs p := by
  obtain ⟨hinv, hmiss⟩ := hr.queue
  have hnot : ¬ Missing str.queue.gaps p := by
    rintro ⟨g, hg, hin, -⟩
    have := hinv.gaps.above g hg
    omega
  have hmax := hinv.readPos_le
  rw [hmiss] at hnot
  exact carried_pushes.mp (by_contra fun hc => hnot ⟨by omega, hc⟩)

theorem Received.not_covered {S : Nat → UInt8} {fs : List CryptoFrame} {str : cryptoStreamImpl}
    (hr : Received S fs str) (hlt : str.queue.readPos.toNat < MaxByteCount.toNat) :
    ¬ Covered fs str.queue.readPos.toNat := by
  rcases hr.readPos with heq | hm
  · omega
  · rw [hr.queue.2] at hm
    exact carried_pushes.not.mp hm.2

/-- The read position stays within the crypto stream's limit, since every byte before it was
carried by an accepted frame. -/
theorem Received.readPos_le {S : Nat → UInt8} {fs : List CryptoFrame} {str : cryptoStreamImpl}
    (hr : Received S fs str) : str.queue.readPos.toNat ≤ MaxCryptoStreamOffset.toNat := by
  by_contra hlt
  obtain ⟨f, hf, -, hp⟩ := hr.covered_of_lt (Nat.lt_of_not_le hlt)
  have := hr.accepted f hf
  omega

/-- One frame on a stream that is not finished: the sorter reassembles it with the earlier ones,
and `msgBuf` grows by the bytes of the stream from the old read position to the new one. -/
theorem Received.HandleCryptoFrame {S : Nat → UInt8} {fs : List CryptoFrame}
    {str str' : cryptoStreamImpl} {f : CryptoFrame} (hr : Received S fs str)
    (hslice : Slice S f.Offset.toNat f.Data) (hov : f.Offset.toNat + f.Data.length < 2 ^ 64)
    (h : str.HandleCryptoFrame f = .ok str') :
    Received S (fs ++ [f]) str' ∧ str.queue.readPos.toNat ≤ str'.queue.readPos.toNat ∧
      str'.msgBuf = str.msgBuf ++ streamSlice S str.queue.readPos.toNat
        (str'.queue.readPos.toNat - str.queue.readPos.toNat) := by
  obtain ⟨hle, q, hpush, hpop, hfin⟩ := HandleCryptoFrame_ok hr.finished h
  have hend := end_le_MaxCryptoStreamOffset hov hle
  have hmax : f.Offset.toNat + f.Data.length ≤ MaxByteCount.toNat := by
    rw [MaxByteCount_toNat]
    rw [MaxCryptoStreamOffset_toNat] at hend
    omega
  have hq : Reassembles S (pushes (fs ++ [f])) q := by
    rw [pushes, List.map_append]
    exact hr.queue.step ⟨hmax, hslice.eq_streamSlice⟩ (by simp [step, hpush])
  have hpos : q.readPos = str.queue.readPos :=
    (Push_spec hr.queue.1 hslice hmax hpush).2.1
  obtain ⟨hinv', hgaps, hle', hbuf, hend'⟩ := popAll_spec hq.1 hpop
  have hacc : ∀ f' ∈ fs ++ [f], f'.Offset.toNat + f'.Data.length ≤ MaxCryptoStreamOffset.toNat := by
    intro f' hf'
    rcases List.mem_append.mp hf' with hf' | hf'
    · exact hr.accepted f' hf'
    · rw [List.mem_singleton.mp hf']
      exact hend
  refine ⟨⟨⟨hinv', fun p => hgaps ▸ hq.2 p⟩, hgaps ▸ hend', hfin, hacc⟩, hpos ▸ hle', ?_⟩
  rw [hbuf, hpos]

/-- A CRYPTO frame that carries the bytes of `D` at their place. -/
def FrameOf (D : List UInt8) (f : CryptoFrame) : Prop :=
  f.Offset.toNat + f.Data.length ≤ D.length ∧ f.Data = (D.drop f.Offset.toNat).take f.Data.length

instance (D : List UInt8) (f : CryptoFrame) : Decidable (FrameOf D f) :=
  inferInstanceAs (Decidable (_ ∧ _))

theorem take_drop_eq_streamSlice {D : List UInt8} {r n : Nat} (h : r + n ≤ D.length) :
    (D.drop r).take n = streamSlice (fun p => D.getD p 0) r n := by
  apply List.ext_getElem (by simp; omega)
  intro i h₁ h₂
  simp [streamSlice, List.getD_eq_getElem?_getD, List.getElem?_eq_getElem (show r + i < D.length by simp at h₂; omega)]

theorem FrameOf.slice {D : List UInt8} {f : CryptoFrame} (hf : FrameOf D f) :
    Slice (fun p => D.getD p 0) f.Offset.toNat f.Data := by
  intro i hi
  rw [List.getElem_of_eq (hf.2.trans (take_drop_eq_streamSlice hf.1)) hi]
  simp [streamSlice]

theorem Received.readPos_le_length {S : Nat → UInt8} {fs : List CryptoFrame} {str : cryptoStreamImpl}
    {D : List UInt8} (hr : Received S fs str) (hfs : ∀ f ∈ fs, FrameOf D f) :
    str.queue.readPos.toNat ≤ D.length := by
  by_contra hlt
  obtain ⟨f, hf, -, hp⟩ := hr.covered_of_lt (Nat.lt_of_not_le hlt)
  have := (hfs f hf).1
  omega

/-! ### Sending -/

/-- What `PopCryptoFrame` does: the frame at the write offset takes the first `n` bytes queued,
where `n` is the room `MaxDataLen` leaves or all that is queued. -/
theorem PopCryptoFrame_some {s s' : cryptoStreamImpl} {maxLen : UInt64} {f : CryptoFrame}
    (h : s.PopCryptoFrame maxLen = some (f, s')) :
    ∃ m, ({ Offset := s.writeOffset, Data := [] } : CryptoFrame).MaxDataLen maxLen = some m ∧
      f = { Offset := s.writeOffset, Data := s.writeBuf.take (min m s.writeBuf.length.toUInt64).toNat } ∧
      s' = { s with writeBuf := s.writeBuf.drop (min m s.writeBuf.length.toUInt64).toNat,
                    writeOffset := s.writeOffset + min m s.writeBuf.length.toUInt64 } := by
  unfold PopCryptoFrame at h
  cases hm : ({ Offset := s.writeOffset, Data := [] } : CryptoFrame).MaxDataLen maxLen with
  | none => simp [hm] at h
  | some m =>
    simp only [hm, Option.bind_eq_bind, Option.bind_some, Option.pure_def, Option.some.injEq,
      Prod.mk.injEq] at h
    exact ⟨m, rfl, h.1.symm, h.2.symm⟩

theorem HasData_eq_false {s : cryptoStreamImpl} : s.HasData = false ↔ s.writeBuf = [] := by
  simp [HasData]

end cryptoStreamImpl

open cryptoStreamImpl

/-- The calls on the send half of a crypto stream. -/
inductive cryptoSendEvent where
  | write (p : List UInt8)
  | popCryptoFrame (maxLen : UInt64)
  deriving DecidableEq, Repr

/-- The send half of a crypto stream, with the data written to it and the frames popped from it,
each with the size it was popped for. -/
structure cryptoSendState where
  stream : cryptoStreamImpl
  written : List UInt8
  frames : List (UInt64 × CryptoFrame)

namespace cryptoSendState

def init : cryptoSendState := ⟨newCryptoStream, [], []⟩

/-- One call; a panic of `MaxDataLen` ends the run. -/
def step (st : cryptoSendState) : cryptoSendEvent → Option cryptoSendState
  | .write p => some { st with stream := (st.stream.Write p).2, written := st.written ++ p }
  | .popCryptoFrame maxLen => (st.stream.PopCryptoFrame maxLen).map fun r =>
      { st with stream := r.2, frames := st.frames ++ [(maxLen, r.1)] }

/-- Frames are popped for packets of at most `MaxReceivePacketSize` bytes. -/
def Admissible (_ : cryptoSendState) : cryptoSendEvent → Prop
  | .write _ => True
  | .popCryptoFrame maxLen => maxLen ≤ MaxReceivePacketSize

instance (st : cryptoSendState) : (e : cryptoSendEvent) → Decidable (Admissible st e)
  | .write _ => instDecidableTrue
  | .popCryptoFrame _ => inferInstanceAs (Decidable (_ ≤ _))

/-- The data of the frames popped so far, in order. -/
def sent (st : cryptoSendState) : List UInt8 :=
  st.frames.flatMap (·.2.Data)

/-- What holds along every run: the frames tile the bytes written from offset 0 and the data
not yet popped follows them, the write offset is where they end, and each frame with data fits
the size it was popped for. -/
structure Inv (st : cryptoSendState) : Prop where
  contiguous : Contiguous (fun q : UInt64 × CryptoFrame => q.2.Offset.toNat) (·.2.Data) 0 st.frames
  data : st.sent ++ st.stream.writeBuf = st.written
  writeOffset : st.stream.writeOffset.toNat = st.sent.length
  fits : ∀ q ∈ st.frames, q.2.Data ≠ [] → ∃ L, q.2.Length = some L ∧ L ≤ q.1

theorem Inv.init : Inv init where
  contiguous := trivial
  data := rfl
  writeOffset := rfl
  fits _ hq := absurd hq List.not_mem_nil

theorem Inv.write {st : cryptoSendState} (hi : Inv st) (p : List UInt8) :
    Inv { st with stream := (st.stream.Write p).2, written := st.written ++ p } where
  contiguous := hi.contiguous
  data := by simp [cryptoStreamImpl.Write, sent, ← hi.data]
  writeOffset := hi.writeOffset
  fits := hi.fits

theorem Inv.popCryptoFrame {st : cryptoSendState} {maxLen : UInt64} {f : CryptoFrame}
    {s' : cryptoStreamImpl} (hi : Inv st) (hmax : maxLen ≤ MaxReceivePacketSize)
    (h : st.stream.PopCryptoFrame maxLen = some (f, s')) :
    Inv { st with stream := s', frames := st.frames ++ [(maxLen, f)] } := by
  obtain ⟨m, hm, hf, rfl⟩ := PopCryptoFrame_some h
  obtain ⟨hoff, hmle⟩ := CryptoFrame.MaxDataLen_some hm
  set n := min m st.stream.writeBuf.length.toUInt64 with hn
  have hnval : n.toNat = min m.toNat (st.stream.writeBuf.length % 2 ^ 64) := by
    rw [hn, UInt64.toNat_min, Nat.toUInt64_eq, UInt64.toNat_ofNat']
  have hnlen : n.toNat ≤ st.stream.writeBuf.length := by
    have := Nat.mod_le st.stream.writeBuf.length (2 ^ 64)
    omega
  have hmax' : m.toNat ≤ 1452 := by
    have := UInt64.le_iff_toNat_le.mp (UInt64.le_trans hmle hmax)
    simpa [MaxReceivePacketSize] using this
  have hlen : f.Data.length = n.toNat := by
    rw [hf, List.length_take]
    omega
  have hsent : (st.frames ++ [(maxLen, f)]).flatMap (·.2.Data) = st.sent ++ f.Data := by
    simp [sent]
  refine ⟨hi.contiguous.snoc (by simpa [hf, sent] using hi.writeOffset), ?_, ?_, ?_⟩
  · simp only [sent]
    rw [hsent, List.append_assoc, hf, List.take_append_drop]
    exact hi.data
  · simp only [sent]
    rw [hsent, List.length_append, hlen, ← hi.writeOffset, UInt64.toNat_add]
    simp only [Utils.maxVarInt8] at hoff
    omega
  · intro q hq hne
    rcases List.mem_append.mp hq with hq | hq
    · exact hi.fits q hq hne
    · rw [List.mem_singleton.mp hq] at hne ⊢
      have hn0 : m ≠ 0 := by
        rintro rfl
        have hzero : n.toNat = 0 := by
          rw [hnval]
          simp
        exact hne (List.eq_nil_of_length_eq_zero (hlen.trans hzero))
      have hm' : f.MaxDataLen maxLen = some m := by
        rw [hf]
        exact hm
      obtain ⟨L, hL, hle, -⟩ := CryptoFrame.Length_of_MaxDataLen hm' hn0
        (by simp only [Utils.maxVarInt2]; omega) (by omega)
      exact ⟨L, hL, hle⟩

theorem Inv.step {st st' : cryptoSendState} {e : cryptoSendEvent} (hi : Inv st)
    (he : Admissible st e) (h : st.step e = some st') : Inv st' := by
  cases e with
  | write p =>
    obtain rfl := Option.some.inj h
    exact hi.write p
  | popCryptoFrame maxLen =>
    obtain ⟨⟨f, s'⟩, hpop, rfl⟩ := Option.map_eq_some_iff.mp h
    exact hi.popCryptoFrame he hpop

theorem Inv.of_run {es : List cryptoSendEvent} {st : cryptoSendState}
    (hr : run cryptoSendState.step Admissible cryptoSendState.init es = some st) : Inv st :=
  run_preserves (fun _ _ _ hi he h => hi.step he h) Inv.init hr

theorem Inv.frameOf {st : cryptoSendState} (hi : Inv st) {q : UInt64 × CryptoFrame}
    (hq : q ∈ st.frames) : FrameOf st.written q.2 := by
  obtain ⟨-, hend, hslice⟩ := hi.contiguous.slice hq
  simp only [Nat.sub_zero] at hend hslice
  have hdata : st.frames.flatMap (·.2.Data) ++ st.stream.writeBuf = st.written := hi.data
  have hlen := congrArg List.length hdata
  rw [List.length_append] at hlen
  refine ⟨by omega, ?_⟩
  rw [← hdata, List.drop_append_of_le_length (by omega),
    List.take_append_of_le_length (by simp only [List.length_drop]; omega)]
  exact hslice.symm

/-- Along every run of writes and of pops for packets of at most `MaxReceivePacketSize` bytes,
the CRYPTO frames popped tile the bytes written from offset 0, each carrying the bytes written at
its offset; the data not yet popped follows them; each frame with data fits the size it was
popped for; and once the stream has no data left, the frames carry all that was written. -/
theorem run_PopCryptoFrame {es : List cryptoSendEvent} {st : cryptoSendState}
    (hr : run cryptoSendState.step Admissible cryptoSendState.init es = some st) :
    Contiguous (fun q : UInt64 × CryptoFrame => q.2.Offset.toNat) (·.2.Data) 0 st.frames ∧
      (∀ q ∈ st.frames, FrameOf st.written q.2) ∧
      st.sent ++ st.stream.writeBuf = st.written ∧
      (∀ q ∈ st.frames, q.2.Data ≠ [] → ∃ L, q.2.Length = some L ∧ L ≤ q.1) ∧
      (st.stream.HasData = false → st.sent = st.written) := by
  have hi := Inv.of_run hr
  refine ⟨hi.contiguous, fun q hq => hi.frameOf hq, hi.data, hi.fits, fun hnone => ?_⟩
  rw [← hi.data, HasData_eq_false.mp hnone, List.append_nil]

theorem run_PopCryptoFrame_write_pop :
    ∃ st, run cryptoSendState.step Admissible cryptoSendState.init
        [.write [1, 2, 3], .popCryptoFrame MaxReceivePacketSize] = some st ∧
      st.stream.HasData = false ∧ st.sent = st.written ∧
      ∀ q ∈ st.frames, FrameOf st.written q.2 := by
  have hrun : run cryptoSendState.step Admissible cryptoSendState.init
      [.write [1, 2, 3], .popCryptoFrame MaxReceivePacketSize] = some _ := rfl
  obtain ⟨-, hframes, -, -, hall⟩ := run_PopCryptoFrame hrun
  exact ⟨_, hrun, rfl, hall rfl, hframes⟩

end cryptoSendState
end QuicGo.Streams
