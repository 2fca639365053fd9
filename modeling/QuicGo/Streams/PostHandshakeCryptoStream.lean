import QuicGo.Streams.CryptoStream
import QuicGo.Session.Framer

/-! `postHandshakeCryptoStream`: the crypto stream of the 1-RTT level, which carries the TLS
messages sent after the handshake. Its `Write` writes to a `cryptoStreamImpl` and at once cuts all
the data into CRYPTO frames of at most `MaxPostHandshakeCryptoFrameSize` bytes, each queued with the
framer as a control frame. -/

namespace QuicGo.Protocol

/-- `protocol.MaxPostHandshakeCryptoFrameSize` -/
def MaxPostHandshakeCryptoFrameSize : UInt64 := 1000

end QuicGo.Protocol

namespace QuicGo.Streams
open QuicGo.Protocol QuicGo.Wire QuicGo.Lib QuicGo.Utils cryptoStreamImpl

/-- `postHandshakeCryptoStream`; the framer is the connection's, held here by value. -/
structure postHandshakeCryptoStream where
  cryptoStream : cryptoStreamImpl
  framer : framerI

namespace postHandshakeCryptoStream

def newPostHandshakeCryptoStream (framer : framerI) : postHandshakeCryptoStream :=
  ⟨newCryptoStream, framer⟩

/-- The loop of `Write`, for `fuel` rounds at most: while the stream has data, pop a frame of at
most `MaxPostHandshakeCryptoFrameSize` bytes and queue it with the framer. It is `none` where
`MaxDataLen` panics, and when the fuel runs out, which the fuel of `Write`, one round more than
there are bytes, never does. -/
def queueFrames : Nat → cryptoStreamImpl → framerI → Option (cryptoStreamImpl × framerI)
  | 0, _, _ => none
  | fuel + 1, s, framer =>
    if s.HasData then
      match s.PopCryptoFrame MaxPostHandshakeCryptoFrameSize with
      | none => none
      | some (f, s) => queueFrames fuel s (framer.QueueControlFrame (.crypto f))
    else some (s, framer)

/-- `postHandshakeCryptoStream.Write`; the `Write` of the crypto stream never fails, so its error
path is left out. -/
def Write (s : postHandshakeCryptoStream) (p : List UInt8) :
    Option (Nat × postHandshakeCryptoStream) := do
  let (n, str) := s.cryptoStream.Write p
  let (str, framer) ← queueFrames (str.writeBuf.length + 1) str s.framer
  pure (n, { cryptoStream := str, framer })

/-- One call of `Write`; a panic ends the run. -/
def step (s : postHandshakeCryptoStream) (p : List UInt8) : Option postHandshakeCryptoStream :=
  (s.Write p).map (·.2)

/-! ### The loop of `Write` -/

/-- While the offsets stay varints, a pop from a stream with data succeeds and takes at least one
byte, and the write offset moves past what it takes. -/
theorem PopCryptoFrame_progress {s : cryptoStreamImpl} (hd : s.HasData = true)
    (hoff : s.writeOffset.toNat + s.writeBuf.length ≤ maxVarInt8) :
    ∃ f s', s.PopCryptoFrame MaxPostHandshakeCryptoFrameSize = some (f, s') ∧ f.Data ≠ [] ∧
      s'.writeBuf.length < s.writeBuf.length ∧
      s'.writeOffset.toNat + s'.writeBuf.length = s.writeOffset.toNat + s.writeBuf.length := by
  have hlen : 0 < s.writeBuf.length := by simpa [HasData] using hd
  obtain ⟨m, hm⟩ := @CryptoFrame.MaxDataLen_isSome ⟨s.writeOffset, []⟩
    MaxPostHandshakeCryptoFrameSize (by dsimp only; omega) (by decide)
  have hpos : 0 < m.toNat := CryptoFrame.MaxDataLen_pos hm (by decide)
  have hpop : s.PopCryptoFrame MaxPostHandshakeCryptoFrameSize =
      some (⟨s.writeOffset, s.writeBuf.take (min m s.writeBuf.length.toUInt64).toNat⟩,
        { s with writeBuf := s.writeBuf.drop (min m s.writeBuf.length.toUInt64).toNat,
                 writeOffset := s.writeOffset + min m s.writeBuf.length.toUInt64 }) := by
    simp only [PopCryptoFrame, hm, Option.bind_eq_bind, Option.bind_some, Option.pure_def]
  set n := min m s.writeBuf.length.toUInt64 with hn
  have hnval : n.toNat = min m.toNat s.writeBuf.length := by
    rw [hn, UInt64.toNat_min, Nat.toUInt64_eq, UInt64.toNat_ofNat',
      Nat.mod_eq_of_lt (by unfold maxVarInt8 at hoff; omega)]
  refine ⟨_, _, hpop, ?_, ?_, ?_⟩
  · apply List.ne_nil_of_length_pos
    rw [List.length_take]
    omega
  · rw [List.length_drop]
    omega
  · have hoff' : (s.writeOffset + n).toNat = s.writeOffset.toNat + n.toNat := by
      rw [UInt64.toNat_add, Nat.mod_eq_of_lt (by unfold maxVarInt8 at hoff; omega)]
    rw [hoff', List.length_drop]
    omega

theorem queueFrames_of_noData (fuel : Nat) {s : cryptoStreamImpl} (framer : framerI)
    (h : s.HasData = false) : queueFrames (fuel + 1) s framer = some (s, framer) := by
  rw [queueFrames, if_neg (by simp [h])]

theorem queueFrames_of_pop (fuel : Nat) {s s' : cryptoStreamImpl} {f : CryptoFrame}
    (framer : framerI) (hd : s.HasData = true)
    (hp : s.PopCryptoFrame MaxPostHandshakeCryptoFrameSize = some (f, s')) :
    queueFrames (fuel + 1) s framer = queueFrames fuel s' (framer.QueueControlFrame (.crypto f)) := by
  rw [queueFrames, if_pos hd, hp]

/-- While the offsets stay varints, the loop cuts all the data of the stream into frames that are
not empty and queues them with the framer in order; the passes are pops of the crypto send state
machine, one for each frame. -/
theorem queueFrames_spec : ∀ (fuel : Nat) (st : cryptoSendState) (framer : framerI),
    st.stream.writeOffset.toNat + st.stream.writeBuf.length ≤ maxVarInt8 →
    st.stream.writeBuf.length < fuel →
    ∃ (s' : cryptoStreamImpl) (new : List CryptoFrame), queueFrames fuel st.stream framer =
        some (s', { framer with controlFrames := framer.controlFrames ++ new.map .crypto }) ∧
      run cryptoSendState.step cryptoSendState.Admissible st
          (new.map fun _ => .popCryptoFrame MaxPostHandshakeCryptoFrameSize) =
        some ⟨s', st.written, st.frames ++ new.map (MaxPostHandshakeCryptoFrameSize, ·)⟩ ∧
      s'.HasData = false ∧ ∀ f ∈ new, f.Data ≠ []
  | 0, _, _, _, hfuel => absurd hfuel (Nat.not_lt_zero _)
  | fuel + 1, st, framer, hoff, hfuel => by
    cases hd : st.stream.HasData with
    | false =>
      refine ⟨st.stream, [], ?_, ?_, hd, fun _ hf => absurd hf List.not_mem_nil⟩
      · rw [queueFrames_of_noData fuel framer hd]
        simp
      · simp [run]
    | true =>
      obtain ⟨f, s₁, hpop, hne, hlt, hsum⟩ := PopCryptoFrame_progress hd hoff
      obtain ⟨s', new, hq, hrun, hnd, hnew⟩ := queueFrames_spec fuel
        { st with stream := s₁, frames := st.frames ++ [(MaxPostHandshakeCryptoFrameSize, f)] }
        (framer.QueueControlFrame (.crypto f)) (by dsimp only; omega) (by dsimp only; omega)
      refine ⟨s', f :: new, ?_, ?_, hnd, ?_⟩
      · rw [queueFrames_of_pop fuel framer hd hpop, hq]
        simp [framerI.QueueControlFrame]
      · have hadm : cryptoSendState.Admissible st (.popCryptoFrame MaxPostHandshakeCryptoFrameSize) :=
          show MaxPostHandshakeCryptoFrameSize ≤ MaxReceivePacketSize by decide
        simp only [List.map_cons, run, if_pos hadm, cryptoSendState.step, hpop, Option.map_some,
          Option.bind_some]
        rw [hrun]
        simp
      · intro g hg
        rcases List.mem_cons.mp hg with rfl | hg
        · exact hne
        · exact hnew g hg

/-! ### Runs of writes -/

section Runs

variable {fr₀ : framerI}

/-- How a post-handshake stream stands to a state of the crypto send state machine: it has the
same crypto stream, with no data left, and the framer holds, after what it held at the start, the
frames that the machine popped, each for `MaxPostHandshakeCryptoFrameSize` bytes and not empty. -/
structure Sim (fr₀ : framerI) (s : postHandshakeCryptoStream) (st : cryptoSendState) : Prop where
  stream : s.cryptoStream = st.stream
  framer : s.framer =
    { fr₀ with controlFrames := fr₀.controlFrames ++ st.frames.map (Frame.crypto ·.2) }
  frames : ∀ q ∈ st.frames, q.1 = MaxPostHandshakeCryptoFrameSize ∧ q.2.Data ≠ []
  noData : st.stream.HasData = false

theorem Sim.init (fr₀ : framerI) :
    Sim fr₀ (newPostHandshakeCryptoStream fr₀) cryptoSendState.init where
  stream := rfl
  framer := by simp [newPostHandshakeCryptoStream, cryptoSendState.init]
  frames _ hq := absurd hq List.not_mem_nil
  noData := rfl

/-- A `Write` that keeps the offsets varints returns, and it is a write of the crypto send state
machine followed by pops. -/
theorem Sim.Write {s : postHandshakeCryptoStream} {st : cryptoSendState} (hsim : Sim fr₀ s st)
    (hi : cryptoSendState.Inv st) {p : List UInt8}
    (hp : st.written.length + p.length ≤ maxVarInt8) :
    ∃ s' st' es, s.Write p = some (p.length, s') ∧
      run cryptoSendState.step cryptoSendState.Admissible st (.write p :: es) = some st' ∧
      st'.written = st.written ++ p ∧ Sim fr₀ s' st' := by
  have hbuf : st.stream.writeBuf = [] := HasData_eq_false.mp hsim.noData
  have hsent : st.sent = st.written := by rw [← hi.data, hbuf, List.append_nil]
  have hoff : ((st.stream.Write p).2).writeOffset.toNat + ((st.stream.Write p).2).writeBuf.length ≤
      maxVarInt8 := by
    simp only [cryptoStreamImpl.Write, hbuf, List.nil_append, hi.writeOffset, hsent]
    exact hp
  obtain ⟨s', new, hq, hrun, hnd, hnew⟩ := queueFrames_spec _
    { st with stream := (st.stream.Write p).2, written := st.written ++ p } s.framer hoff
    (Nat.lt_succ_self _)
  refine ⟨⟨s', { s.framer with controlFrames := s.framer.controlFrames ++ new.map .crypto }⟩,
    ⟨s', st.written ++ p, st.frames ++ new.map (MaxPostHandshakeCryptoFrameSize, ·)⟩,
    new.map fun _ => .popCryptoFrame MaxPostHandshakeCryptoFrameSize, ?_, ?_, rfl, ?_⟩
  · simp only [postHandshakeCryptoStream.Write, hsim.stream]
    rw [hq]
    rfl
  · simp only [run, cryptoSendState.step, Option.bind_some]
    exact hrun
  · refine ⟨rfl, ?_, ?_, hnd⟩
    · rw [hsim.framer]
      simp
    · intro q hq
      rcases List.mem_append.mp hq with hq | hq
      · exact hsim.frames q hq
      · obtain ⟨f, hf, rfl⟩ := List.mem_map.mp hq
        exact ⟨rfl, hnew f hf⟩

variable (fr₀) in
/-- Every run of writes from a new stream, with fewer than `2^62` bytes in all, returns, and a
run of the crypto send state machine from its initial state writes the same bytes and ends in a
state that stands to the stream as `Sim` says. -/
theorem sim_of_run (ps : List (List UInt8)) (hps : ps.flatten.length ≤ maxVarInt8) :
    ∃ s es st, run step (fun _ _ => True) (newPostHandshakeCryptoStream fr₀) ps = some s ∧
      run cryptoSendState.step cryptoSendState.Admissible cryptoSendState.init es = some st ∧
      st.written = ps.flatten ∧ Sim fr₀ s st := by
  induction ps using List.reverseRecOn with
  | nil => exact ⟨_, [], _, rfl, rfl, rfl, Sim.init fr₀⟩
  | append_singleton qs p ih =>
    have hlen : qs.flatten.length + p.length ≤ maxVarInt8 := by
      simpa [List.flatten_append] using hps
    obtain ⟨s, es, st, hr, hrst, hw, hsim⟩ := ih (by omega)
    obtain ⟨s', st', es', hwrite, hrst', hw', hsim'⟩ :=
      hsim.Write (cryptoSendState.Inv.of_run hrst) (by rw [hw]; exact hlen)
    refine ⟨s', es ++ .write p :: es', st', ?_, ?_, ?_, hsim'⟩
    · rw [run_append, hr, Option.bind_some]
      simp [run, step, hwrite]
    · rw [run_append, hrst, Option.bind_some, hrst']
    · rw [hw', hw, List.flatten_append, List.flatten_singleton]

/-- Writing post-handshake messages to a new stream, fewer than `2^62` bytes in all, never
panics. Afterwards the stream has no data, and the framer holds, after the control frames it held,
CRYPTO frames that tile the bytes written from offset 0; none of them is empty, each carries the
bytes written at its offset, and each takes at most `MaxPostHandshakeCryptoFrameSize` bytes. -/
theorem run_Write {ps : List (List UInt8)} (hps : ps.flatten.length ≤ maxVarInt8) :
    ∃ s fs, run step (fun _ _ => True) (newPostHandshakeCryptoStream fr₀) ps = some s ∧
      s.framer = { fr₀ with controlFrames := fr₀.controlFrames ++ fs.map .crypto } ∧
      Contiguous (fun f : CryptoFrame => f.Offset.toNat) (·.Data) 0 fs ∧
      fs.flatMap (·.Data) = ps.flatten ∧
      (∀ f ∈ fs, f.Data ≠ [] ∧ FrameOf ps.flatten f ∧
        ∃ L, f.Length = some L ∧ L ≤ MaxPostHandshakeCryptoFrameSize) ∧
      s.cryptoStream.HasData = false := by
  obtain ⟨s, es, st, hr, hrst, hw, hsim⟩ := sim_of_run fr₀ ps hps
  have hi := cryptoSendState.Inv.of_run hrst
  have hsent : st.sent = st.written := by
    rw [← hi.data, HasData_eq_false.mp hsim.noData, List.append_nil]
  refine ⟨s, st.frames.map (·.2), hr, ?_, ?_, ?_, ?_, hsim.stream ▸ hsim.noData⟩
  · rw [hsim.framer, List.map_map]
    rfl
  · exact (contiguous_map _).mpr hi.contiguous
  · rw [List.flatMap_map, ← hw, ← hsent]
    rfl
  · intro f hf
    obtain ⟨q, hq, rfl⟩ := List.mem_map.mp hf
    obtain ⟨hq1, hne⟩ := hsim.frames q hq
    obtain ⟨L, hL, hle⟩ := hi.fits q hq hne
    exact ⟨hne, hw ▸ hi.frameOf hq, L, hL, hq1 ▸ hle⟩

theorem run_Write_two_messages :
    ∃ (s : postHandshakeCryptoStream) (fs : List CryptoFrame),
      run step (fun _ _ => True) (newPostHandshakeCryptoStream newFramer) [[1, 2], [3]] = some s ∧
      s.framer.controlFrames = fs.map .crypto ∧ fs.flatMap (·.Data) = [1, 2, 3] ∧
      s.cryptoStream.HasData = false := by
  obtain ⟨s, fs, hr, hfr, -, hdata, -, hnd⟩ := @run_Write newFramer [[1, 2], [3]] (by decide)
  exact ⟨s, fs, hr, by rw [hfr]; rfl, hdata, hnd⟩

end Runs

end postHandshakeCryptoStream

end QuicGo.Streams
