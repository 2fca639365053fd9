import QuicGo.Streams.CryptoStream

/-! `cryptoStreamManager`: the crypto streams of the Initial and the Handshake encryption level, and
the loop that hands the TLS stack, the `cryptoDataHandler`, each message that a stream cuts from
what it received. The handler's state is passed along explicitly. -/
namespace QuicGo.Streams
open QuicGo.Protocol QuicGo.Wire QuicGo.Lib

/-- The crypto streams of the Initial and the Handshake encryption level. -/
structure cryptoStreamManager where
  initialStream : cryptoStreamImpl
  handshakeStream : cryptoStreamImpl
  deriving DecidableEq, Repr

namespace cryptoStreamManager
open cryptoStreamImpl

section
variable {σ : Type} (HandleMessage : σ → List UInt8 → EncryptionLevel → Bool × σ)

/-- The loop at the end of `HandleCryptoFrame`: every message that the stream returns goes to the
handler, until the stream has no complete message left or the handler reports that the
encryption level is finished, which finishes the stream. -/
def handleMessages (encLevel : EncryptionLevel) (str : cryptoStreamImpl) (h : σ) :
    Except cryptoStreamError (Bool × cryptoStreamImpl × σ) :=
  match hg : str.GetCryptoData with
  | (none, str') => pure (false, str', h)
  | (some data, str') =>
    let (encLevelFinished, h') := HandleMessage h data encLevel
    if encLevelFinished then do
      let str'' ← str'.Finish
      pure (true, str'', h')
    else handleMessages encLevel str' h'
termination_by str.msgBuf.length
decreasing_by
  have := GetCryptoData_some_length hg
  omega

/-- `HandleCryptoFrame` returns whether the encryption level changed. -/
def HandleCryptoFrame (m : cryptoStreamManager) (h : σ) (frame : CryptoFrame)
    (encLevel : EncryptionLevel) :
    Except cryptoStreamError (Bool × cryptoStreamManager × σ) :=
  match encLevel with
  | .EncryptionInitial => do
    let str ← m.initialStream.HandleCryptoFrame frame
    let (changed, str, h) ← handleMessages HandleMessage encLevel str h
    pure (changed, { m with initialStream := str }, h)
  | .EncryptionHandshake => do
    let str ← m.handshakeStream.HandleCryptoFrame frame
    let (changed, str, h) ← handleMessages HandleMessage encLevel str h
    pure (changed, { m with handshakeStream := str }, h)
  -- session tickets are not processed yet
  | .Encryption1RTT => pure (false, m, h)
  | _ => throw (.unexpectedEncryptionLevel encLevel)

/-- Hand one CRYPTO frame to the manager at encryption level `encLevel`; an error ends the run,
as it closes the connection. -/
def step (encLevel : EncryptionLevel) (st : cryptoStreamManager × σ) (frame : CryptoFrame) :
    Option (cryptoStreamManager × σ) :=
  match st.1.HandleCryptoFrame HandleMessage st.2 frame encLevel with
  | .ok (_, m, h) => some (m, h)
  | .error _ => none

end

/-! ### The loop over the messages -/

variable {σ : Type} {HandleMessage : σ → List UInt8 → EncryptionLevel → Bool × σ}
  {encLevel : EncryptionLevel}

theorem handleMessages_of_none {str str' : cryptoStreamImpl} {h : σ}
    (hg : str.GetCryptoData = (none, str')) :
    handleMessages HandleMessage encLevel str h = .ok (false, str', h) := by
  rw [handleMessages]
  split
  · rename_i str'' hg'
    rw [hg] at hg'
    cases hg'
    rfl
  · simp_all

theorem handleMessages_of_some {str str' : cryptoStreamImpl} {h : σ} {d : List UInt8}
    (hg : str.GetCryptoData = (some d, str')) (hfin : (HandleMessage h d encLevel).1 = false) :
    handleMessages HandleMessage encLevel str h =
      handleMessages HandleMessage encLevel str' (HandleMessage h d encLevel).2 := by
  rw [handleMessages]
  split
  · simp_all
  · rename_i d' str'' hg'
    rw [hg] at hg'
    cases hg'
    rcases hH : HandleMessage h d encLevel with ⟨fin, h'⟩
    rw [hH] at hfin
    cases hfin
    rfl

/-- With a handler that never finishes the encryption level, `handleMessages` hands it every
message that is complete in the buffer, in order, and keeps the rest of the buffer. -/
theorem handleMessages_drain (hnever : ∀ h d, (HandleMessage h d encLevel).1 = false) :
    ∀ {ms : List (List UInt8)} {L : Nat} {str : cryptoStreamImpl} {h : σ},
      (∀ m ∈ ms, IsHandshakeMessage m) → str.msgBuf = ms.flatten.take L →
      handleMessages HandleMessage encLevel str h = .ok (false,
        { str with msgBuf := pending ms L },
        (ms.take (completeWithin ms L)).foldl (fun h d => (HandleMessage h d encLevel).2) h) := by
  intro ms
  induction ms with
  | nil =>
    intro L str h _ hbuf
    simp only [List.flatten_nil, List.take_nil] at hbuf
    rw [handleMessages_of_none (GetCryptoData_nil hbuf)]
    cases str
    simp_all [pending, completeWithin]
  | cons m ms ih =>
    intro L str h hms hbuf
    rw [List.flatten_cons] at hbuf
    have hm := hms m List.mem_cons_self
    by_cases hfit : m.length ≤ L
    · have hg := GetCryptoData_message hm hbuf
      rw [if_pos hfit] at hg
      rw [handleMessages_of_some hg (hnever h m),
        ih (fun m' hm' => hms m' (List.mem_cons_of_mem _ hm')) rfl]
      simp only [pending, completeWithin, if_pos hfit, List.drop_succ_cons, List.take_succ_cons,
        List.foldl_cons, List.flatten_cons, List.length_append, Nat.sub_sub]
    · have hg := GetCryptoData_message hm hbuf
      rw [if_neg hfit] at hg
      rw [handleMessages_of_none hg]
      simp only [pending, completeWithin, if_neg hfit, List.drop_zero, List.take_zero, List.foldl_nil,
        List.flatten_cons, List.flatten_nil, List.length_nil, Nat.sub_zero, ← hbuf]

theorem HandleCryptoFrame_initial {m m' : cryptoStreamManager} {hs hs' : σ} {f : CryptoFrame}
    {b : Bool} (h : m.HandleCryptoFrame HandleMessage hs f .EncryptionInitial = .ok (b, m', hs')) :
    ∃ str, m.initialStream.HandleCryptoFrame f = .ok str ∧
      handleMessages HandleMessage .EncryptionInitial str hs = .ok (b, m'.initialStream, hs') ∧
      m'.handshakeStream = m.handshakeStream := by
  obtain ⟨str, hstr, h⟩ := Except.bind_eq_ok h
  obtain ⟨⟨b', str', hs''⟩, hh, h⟩ := Except.bind_eq_ok h
  cases h
  exact ⟨str, hstr, hh, rfl⟩

/-! ### Runs at the Initial level -/

/-- What the manager keeps while the Initial stream receives the frames `fs` of the handshake
messages `msgs`: the frames are frames of the messages' bytes, the stream received them, the
handler has seen, in order, every message complete within what arrived in a row, and the rest of
what arrived waits in `msgBuf`. -/
structure Delivers (HandleMessage : σ → List UInt8 → EncryptionLevel → Bool × σ) (h0 : σ)
    (msgs : List (List UInt8)) (fs : List CryptoFrame) (st : cryptoStreamManager × σ) : Prop where
  frames : ∀ f ∈ fs, FrameOf msgs.flatten f
  received : Received (fun p => msgs.flatten.getD p 0) fs st.1.initialStream
  msgBuf : st.1.initialStream.msgBuf = pending msgs st.1.initialStream.queue.readPos.toNat
  handled : st.2 = (msgs.take (completeWithin msgs st.1.initialStream.queue.readPos.toNat)).foldl
    (fun h d => (HandleMessage h d .EncryptionInitial).2) h0

theorem Delivers.init (HandleMessage : σ → List UInt8 → EncryptionLevel → Bool × σ) (h0 : σ)
    {msgs : List (List UInt8)} (hmsgs : ∀ m ∈ msgs, IsHandshakeMessage m)
    (hsStream : cryptoStreamImpl) :
    Delivers HandleMessage h0 msgs [] ({ initialStream := newCryptoStream, handshakeStream := hsStream }, h0) where
  frames := by simp
  received := Received.init _
  msgBuf := by simp [newCryptoStream, frameSorter.newFrameSorter, pending]
  handled := by
    simp [newCryptoStream, frameSorter.newFrameSorter, completeWithin_zero fun m hm => (hmsgs m hm).ne_nil]

/-- One frame of the messages' bytes, handled at the Initial level by a handler that does not
finish the level, keeps `Delivers`. -/
theorem Delivers.step {h0 : σ} {msgs : List (List UInt8)} {fs : List CryptoFrame}
    {st st' : cryptoStreamManager × σ} {f : CryptoFrame}
    (hD : msgs.flatten.length < 2 ^ 64) (hmsgs : ∀ m ∈ msgs, IsHandshakeMessage m)
    (hnever : ∀ h d, (HandleMessage h d .EncryptionInitial).1 = false)
    (hd : Delivers HandleMessage h0 msgs fs st) (hf : FrameOf msgs.flatten f)
    (h : step HandleMessage .EncryptionInitial st f = some st') :
    Delivers HandleMessage h0 msgs (fs ++ [f]) st' := by
  obtain ⟨m, hs⟩ := st
  unfold cryptoStreamManager.step at h
  split at h
  case h_2 => cases h
  rename_i b m' hs' hres
  cases h
  obtain ⟨str, hstr, hmsg, -⟩ := HandleCryptoFrame_initial hres
  have hfs : ∀ f' ∈ fs ++ [f], FrameOf msgs.flatten f' := by
    intro f' hf'
    rcases List.mem_append.mp hf' with hf' | hf'
    · exact hd.frames f' hf'
    · rw [List.mem_singleton.mp hf']
      exact hf
  obtain ⟨hr', hle, hbuf⟩ := hd.received.HandleCryptoFrame hf.slice (by have := hf.1; omega) hstr
  have hlen := hr'.readPos_le_length hfs
  have hbuf' : str.msgBuf = (msgs.drop (completeWithin msgs m.initialStream.queue.readPos.toNat)).flatten.take
      (str.queue.readPos.toNat -
        (msgs.take (completeWithin msgs m.initialStream.queue.readPos.toNat)).flatten.length) := by
    rw [hbuf, hd.msgBuf, ← take_drop_eq_streamSlice (by omega), pending_append hle]
  rw [handleMessages_drain hnever (fun m hm => hmsgs m (List.mem_of_mem_drop hm)) hbuf'] at hmsg
  obtain ⟨initialStream', handshakeStream'⟩ := m'
  simp only [Except.ok.injEq, Prod.mk.injEq] at hmsg
  obtain ⟨-, rfl, rfl⟩ := hmsg
  obtain ⟨hpend, htake⟩ := pending_drain msgs hle rfl rfl
  refine ⟨hfs, ⟨hr'.queue, hr'.readPos, hr'.finished, hr'.accepted⟩, hpend, ?_⟩
  have hhandled := hd.handled
  dsimp only at hhandled ⊢
  rw [hhandled, ← List.foldl_append, htake]

theorem Delivers.of_run {h0 hs : σ} {msgs : List (List UInt8)} {fs : List CryptoFrame}
    {hsStream : cryptoStreamImpl} {m : cryptoStreamManager}
    (hD : msgs.flatten.length < 2 ^ 64) (hmsgs : ∀ m ∈ msgs, IsHandshakeMessage m)
    (hnever : ∀ h d, (HandleMessage h d .EncryptionInitial).1 = false)
    (h : run (cryptoStreamManager.step HandleMessage .EncryptionInitial) (fun _ => FrameOf msgs.flatten)
      ({ initialStream := newCryptoStream, handshakeStream := hsStream }, h0) fs = some (m, hs)) :
    Delivers HandleMessage h0 msgs fs (m, hs) :=
  run_invariant_of_nil (fun _ _ _ _ hd hf hs => hd.step hD hmsgs hnever hf hs)
    (Delivers.init HandleMessage h0 hmsgs hsStream) h

theorem Delivers.readPos_lt {h0 : σ} {msgs : List (List UInt8)} {fs : List CryptoFrame}
    {st : cryptoStreamManager × σ} (hd : Delivers HandleMessage h0 msgs fs st) :
    st.1.initialStream.queue.readPos.toNat < MaxByteCount.toNat := by
  have hle := hd.received.readPos_le
  rw [MaxCryptoStreamOffset_toNat] at hle
  rw [MaxByteCount_toNat]
  omega

/-- Over every run of CRYPTO frames that carry the bytes of a sequence of TLS handshake messages,
handled at the Initial level by a handler that does not finish the level, the handler has seen,
in order, exactly the messages that lie complete within the bytes that arrived in a row, and the
rest of those bytes waits in the stream's buffer. -/
theorem run_HandleCryptoFrame_initial {h0 hs : σ} {msgs : List (List UInt8)}
    {fs : List CryptoFrame} {hsStream : cryptoStreamImpl} {m : cryptoStreamManager}
    (hD : msgs.flatten.length < 2 ^ 64) (hmsgs : ∀ m ∈ msgs, IsHandshakeMessage m)
    (hnever : ∀ h d, (HandleMessage h d .EncryptionInitial).1 = false)
    (h : run (step HandleMessage .EncryptionInitial) (fun _ => FrameOf msgs.flatten)
      ({ initialStream := newCryptoStream, handshakeStream := hsStream }, h0) fs = some (m, hs)) :
    ∃ P, (∀ p < P, Covered fs p) ∧ ¬ Covered fs P ∧
      hs = (msgs.take (completeWithin msgs P)).foldl
        (fun h d => (HandleMessage h d .EncryptionInitial).2) h0 ∧
      m.initialStream.msgBuf = pending msgs P := by
  have hd := Delivers.of_run hD hmsgs hnever h
  have hr : Received _ fs m.initialStream := hd.received
  exact ⟨_, fun p hp => hr.covered_of_lt hp, hr.not_covered hd.readPos_lt, hd.handled, hd.msgBuf⟩

set_option maxRecDepth 10000 in
/-- One CRYPTO frame that carries a whole handshake message with a body of one byte, handed to a
fresh manager whose handler keeps the messages it gets. -/
theorem run_one_message :
    run (step (fun (h : List (List UInt8)) d _ => (false, h ++ [d])) .EncryptionInitial)
      (fun _ => FrameOf [1, 0, 0, 1, 7])
      ({ initialStream := newCryptoStream, handshakeStream := newCryptoStream }, [])
      [⟨0, [1, 0, 0, 1, 7]⟩] =
    some (⟨⟨⟨[], 5, [⟨5, MaxByteCount⟩]⟩, [], 5, false, 0, []⟩, newCryptoStream⟩,
      [[1, 0, 0, 1, 7]]) := by
  have hpush : frameSorter.newFrameSorter.Push [1, 0, 0, 1, 7] 0 =
      .ok ⟨[(0, [1, 0, 0, 1, 7])], 0, [⟨5, MaxByteCount⟩]⟩ := rfl
  have hpop : popAll ⟨[(0, [1, 0, 0, 1, 7])], 0, [⟨5, MaxByteCount⟩]⟩ [] =
      (⟨[], 5, [⟨5, MaxByteCount⟩]⟩, [1, 0, 0, 1, 7]) := by
    rw [popAll_of_some rfl, popAll_of_none rfl]
    rfl
  have hstr : newCryptoStream.HandleCryptoFrame ⟨0, [1, 0, 0, 1, 7]⟩ =
      .ok ⟨⟨[], 5, [⟨5, MaxByteCount⟩]⟩, [1, 0, 0, 1, 7], 5, false, 0, []⟩ := by
    unfold cryptoStreamImpl.HandleCryptoFrame
    rw [if_neg (by decide)]
    simp only [newCryptoStream, Bool.false_eq_true, if_false, hpush, Except.mapError,
      Except.ok_bind, hpop]
    rfl
  have hg₁ : GetCryptoData ⟨⟨[], 5, [⟨5, MaxByteCount⟩]⟩, [1, 0, 0, 1, 7], 5, false, 0, []⟩ =
      (some [1, 0, 0, 1, 7], ⟨⟨[], 5, [⟨5, MaxByteCount⟩]⟩, [], 5, false, 0, []⟩) := rfl
  have hg₂ : GetCryptoData ⟨⟨[], 5, [⟨5, MaxByteCount⟩]⟩, [], 5, false, 0, []⟩ =
      (none, ⟨⟨[], 5, [⟨5, MaxByteCount⟩]⟩, [], 5, false, 0, []⟩) := rfl
  have hmsg : handleMessages (fun (h : List (List UInt8)) d _ => (false, h ++ [d]))
      .EncryptionInitial ⟨⟨[], 5, [⟨5, MaxByteCount⟩]⟩, [1, 0, 0, 1, 7], 5, false, 0, []⟩ [] =
      .ok (false, ⟨⟨[], 5, [⟨5, MaxByteCount⟩]⟩, [], 5, false, 0, []⟩, [[1, 0, 0, 1, 7]]) := by
    rw [handleMessages_of_some hg₁ rfl, handleMessages_of_none hg₂]
    rfl
  rw [run, if_pos (by decide)]
  simp only [step, cryptoStreamManager.HandleCryptoFrame, hstr, Except.ok_bind, hmsg]
  rfl

theorem run_HandleCryptoFrame_initial_one_message :
    ∃ P, (∀ p < P, Covered [⟨0, [1, 0, 0, 1, 7]⟩] p) ∧ ¬ Covered [⟨0, [1, 0, 0, 1, 7]⟩] P ∧
      [[1, 0, 0, 1, 7]] = ([[1, 0, 0, 1, 7]].take (completeWithin [[1, 0, 0, 1, 7]] P)).foldl
        (fun (h : List (List UInt8)) d => h ++ [d]) [] ∧
      ([] : List UInt8) = pending [[1, 0, 0, 1, 7]] P := by
  have hmsgs : ∀ m ∈ [[(1 : UInt8), 0, 0, 1, 7]], IsHandshakeMessage m := fun m hm => by
    rw [List.mem_singleton.mp hm]
    exact ⟨1, 0, 0, 1, [7], rfl, rfl⟩
  exact @run_HandleCryptoFrame_initial (List (List UInt8)) (fun h d _ => (false, h ++ [d])) []
    [[1, 0, 0, 1, 7]] [[1, 0, 0, 1, 7]] [⟨0, [1, 0, 0, 1, 7]⟩] newCryptoStream
    ⟨⟨⟨[], 5, [⟨5, MaxByteCount⟩]⟩, [], 5, false, 0, []⟩, newCryptoStream⟩ (by decide) hmsgs
    (fun _ _ => rfl) run_one_message

/-- What one endpoint writes to its Initial crypto stream reaches the other endpoint's TLS stack
whole: when the messages written were all cut into CRYPTO frames, and every one of these frames
arrives at least once, in any order, among frames that carry the same bytes, then a handler that
does not finish the level has seen every message, in order, and the buffer is empty. -/
theorem handshake_messages_delivered {es : List cryptoSendEvent} {snd : cryptoSendState}
    {msgs : List (List UInt8)} {fs : List CryptoFrame} {h0 hs : σ} {hsStream : cryptoStreamImpl}
    {m : cryptoStreamManager}
    (hsnd : run cryptoSendState.step cryptoSendState.Admissible cryptoSendState.init es = some snd)
    (hwritten : snd.written = msgs.flatten) (hdone : snd.stream.HasData = false)
    (hdelivered : ∀ q ∈ snd.frames, q.2 ∈ fs) (hmsgs : ∀ m ∈ msgs, IsHandshakeMessage m)
    (hnever : ∀ h d, (HandleMessage h d .EncryptionInitial).1 = false)
    (hrcv : run (step HandleMessage .EncryptionInitial) (fun _ => FrameOf msgs.flatten)
      ({ initialStream := newCryptoStream, handshakeStream := hsStream }, h0) fs = some (m, hs)) :
    hs = msgs.foldl (fun h d => (HandleMessage h d .EncryptionInitial).2) h0 ∧
      m.initialStream.msgBuf = [] := by
  have hi := cryptoSendState.Inv.of_run hsnd
  have hsent : snd.sent = msgs.flatten := by
    rw [← hwritten, ← hi.data, HasData_eq_false.mp hdone, List.append_nil]
  have hD : msgs.flatten.length < 2 ^ 64 := by
    rw [← hsent, ← hi.writeOffset]
    exact snd.stream.writeOffset.toNat_lt
  have hd := Delivers.of_run hD hmsgs hnever hrcv
  have hr : Received _ fs m.initialStream := hd.received
  have hP : m.initialStream.queue.readPos.toNat = msgs.flatten.length := by
    refine le_antisymm (hr.readPos_le_length hd.frames) (Nat.not_lt.mp fun hlt => ?_)
    have hlt' : m.initialStream.queue.readPos.toNat < 0 + (snd.frames.flatMap (·.2.Data)).length := by
      rw [Nat.zero_add, ← cryptoSendState.sent, hsent]
      exact hlt
    obtain ⟨q, hq, hle, hend⟩ := hi.contiguous.exists_mem_of_lt (Nat.zero_le _) hlt'
    exact hr.not_covered hd.readPos_lt ⟨q.2, hdelivered q hq, hle, hend⟩
  have hall : completeWithin msgs m.initialStream.queue.readPos.toNat = msgs.length := by
    rw [hP, completeWithin_flatten_length]
  refine ⟨?_, ?_⟩
  · have hhandled := hd.handled
    dsimp only at hhandled
    rw [hhandled, hall, List.take_length]
  · rw [hd.msgBuf, pending, hall, List.drop_length, List.flatten_nil, List.take_nil]


set_option maxRecDepth 10000 in
/-- The sender cuts a handshake message into one frame, which reaches the receiver: the handler
gets the message. -/
theorem handshake_messages_delivered_one_message :
    ∃ snd m hs, run cryptoSendState.step cryptoSendState.Admissible cryptoSendState.init
        [.write [1, 0, 0, 1, 7], .popCryptoFrame MaxReceivePacketSize] = some snd ∧
      run (step (fun (h : List (List UInt8)) d _ => (false, h ++ [d])) .EncryptionInitial)
        (fun _ => FrameOf [1, 0, 0, 1, 7])
        ({ initialStream := newCryptoStream, handshakeStream := newCryptoStream }, [])
        (snd.frames.map (·.2)) = some (m, hs) ∧
      hs = [[1, 0, 0, 1, 7]] ∧ m.initialStream.msgBuf = [] := by
  have hsnd : run cryptoSendState.step cryptoSendState.Admissible cryptoSendState.init
      [.write [1, 0, 0, 1, 7], .popCryptoFrame MaxReceivePacketSize] =
      some ⟨⟨frameSorter.newFrameSorter, [], 0, false, 5, []⟩, [1, 0, 0, 1, 7],
        [(MaxReceivePacketSize, ⟨0, [1, 0, 0, 1, 7]⟩)]⟩ := rfl
  have hdelivered : ∀ q ∈ [(MaxReceivePacketSize, (⟨0, [1, 0, 0, 1, 7]⟩ : CryptoFrame))],
      q.2 ∈ [(⟨0, [1, 0, 0, 1, 7]⟩ : CryptoFrame)] := by
    decide
  obtain ⟨hhs, hbuf⟩ := handshake_messages_delivered hsnd rfl rfl hdelivered
    (fun m hm => by
      rw [List.mem_singleton.mp hm]
      exact ⟨1, 0, 0, 1, [7], rfl, rfl⟩)
    (fun _ _ => rfl) run_one_message
  exact ⟨_, _, _, hsnd, run_one_message, hhs, hbuf⟩

end cryptoStreamManager
end QuicGo.Streams
