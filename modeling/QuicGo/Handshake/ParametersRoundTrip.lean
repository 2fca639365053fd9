import QuicGo.Handshake.TransportParameters
import QuicGo.Wire.Header

/-! What `marshal` writes, `unmarshal` reads back. `marshal` writes one parameter after another;
each round of the loop of `unmarshal` reads one of them back (`ReadsRounds`), and a writer whose
bytes the loop reads so is `WritesRounds`. -/
namespace QuicGo.Handshake
open QuicGo.Utils QuicGo.Lib QuicGo.Protocol QuicGo.Wire QuicGo.Utils.BigEndian

/-! ### The parameters a sender may send -/

/-- The parameters that survive `marshal` and `unmarshal` from a sender at `sentBy`: every
value that `marshal` writes as a varint below `2^62`, an ack delay exponent that `unmarshal`
accepts, a nonnegative idle timeout of whole seconds that fits a `time.Duration`, and a stateless
reset token of 16 bytes and an original connection ID of at most 18, both only from a server. -/
structure TransportParameters.Valid (p : TransportParameters) (sentBy : Perspective) : Prop where
  initialMaxStreamDataBidiLocal : p.InitialMaxStreamDataBidiLocal.toNat < 2 ^ 62
  initialMaxStreamDataBidiRemote : p.InitialMaxStreamDataBidiRemote.toNat < 2 ^ 62
  initialMaxStreamDataUni : p.InitialMaxStreamDataUni.toNat < 2 ^ 62
  initialMaxData : p.InitialMaxData.toNat < 2 ^ 62
  maxBidiStreams : p.MaxBidiStreams.toNat < 2 ^ 62
  maxUniStreams : p.MaxUniStreams.toNat < 2 ^ 62
  ackDelayExponent : p.AckDelayExponent.toNat ≤ MaxAckDelayExponent
  idleTimeout_nonneg : 0 ≤ p.IdleTimeout
  idleTimeout_lt : p.IdleTimeout < 2 ^ 63
  idleTimeout_seconds : p.IdleTimeout % 1000000000 = 0
  statelessResetToken : p.StatelessResetToken = [] ∨ p.StatelessResetToken.length = 16
  originalConnectionID : p.OriginalConnectionID.length ≤ 18
  client : sentBy = .PerspectiveClient →
    p.StatelessResetToken = [] ∧ p.OriginalConnectionID = []

/-- What `unmarshal` reads back from what `marshal` wrote from `p`: the maximum packet size is
always `MaxReceivePacketSize`, and the idle timeout is at least `MinRemoteIdleTimeout`. -/
def TransportParameters.received (p : TransportParameters) : TransportParameters :=
  { p with
    MaxPacketSize := MaxReceivePacketSize
    IdleTimeout := max MinRemoteIdleTimeout p.IdleTimeout }

theorem idleTimeout_lt {t : Int} (h0 : 0 ≤ t) (h1 : t < 2 ^ 63) :
    toUint64 (t.tdiv 1000000000) < 2 ^ 62 := by
  rw [toUint64, Int.tdiv_eq_ediv_of_nonneg h0]
  omega

theorem idleTimeout_readBack {t : Int} (h0 : 0 ≤ t) (h1 : t < 2 ^ 63) (hs : t % 1000000000 = 0) :
    toInt64 (toInt64 (toUint64 (t.tdiv 1000000000)) * 1000000000) = t := by
  rw [toUint64, Int.tdiv_eq_ediv_of_nonneg h0]
  unfold toInt64
  omega

namespace TransportParameters.Valid

variable {p : TransportParameters} {sentBy : Perspective} (hv : p.Valid sentBy)
include hv

theorem statelessResetToken_sent (h : p.StatelessResetToken.length > 0) :
    sentBy ≠ .PerspectiveClient ∧ p.StatelessResetToken.length = 16 := by
  have hne : p.StatelessResetToken ≠ [] := List.ne_nil_of_length_pos h
  refine ⟨fun hc => hne (hv.client hc).1, ?_⟩
  exact hv.statelessResetToken.resolve_left hne

theorem originalConnectionID_sent (h : p.OriginalConnectionID.length > 0) :
    sentBy ≠ .PerspectiveClient ∧ p.OriginalConnectionID.length ≤ 18 := by
  have hne : p.OriginalConnectionID ≠ [] := List.ne_nil_of_length_pos h
  exact ⟨fun hc => hne (hv.client hc).2, hv.originalConnectionID⟩

end TransportParameters.Valid

/-! ### Reading one parameter -/

theorem wrapError_decodes {α : Type} {wrap : Utils.Error → TransportParameterError}
    {r : Reader α} {l : List UInt8} {a : α} (h : Decodes r l a) :
    Decodes (wrapError wrap r) l a := by
  intro rest
  have h' : r (l ++ rest) = .ok (a, rest) := h rest
  simp only [StateT.run, wrapError, h']

theorem ignoreError_decodes {α : Type} {zero : α} {r : Reader α} {l : List UInt8} {a : α}
    (h : Decodes r l a) : Decodes (ignoreError zero r) l a := by
  intro rest
  have h' : r (l ++ rest) = .ok (a, rest) := h rest
  simp only [StateT.run, ignoreError, h']

theorem readNumeric_decodes {p p' : TransportParameters} {paramID : UInt16} {value : List UInt8}
    {val : Nat} (hd : Decodes ReadVarInt value val)
    (hset : p.setNumericTransportParameter paramID val = .ok p') :
    Decodes (p.readNumericTransportParameter paramID value.length) value p' := by
  intro rest
  have hw : (wrapError (.errorWhileReading paramID) ReadVarInt).run (value ++ rest) =
      .ok (val, rest) :=
    wrapError_decodes hd rest
  simp only [TransportParameters.readNumericTransportParameter, StateT.run_bind]
  simp [StateT.run_get, hw]
  rw [hset]
  rfl

/-- The bytes of one parameter: its identifier, the length of its value and the value. -/
def paramBytes (paramID : UInt16) (value : List UInt8) : List UInt8 :=
  [(paramID >>> 8).toUInt8, paramID.toUInt8, (value.length.toUInt16 >>> 8).toUInt8,
    value.length.toUInt16.toUInt8] ++ value

theorem toNat_length_toUInt16 {value : List UInt8} (hlen : value.length < 2 ^ 16) :
    value.length.toUInt16.toNat = value.length := by
  simp only [Nat.toUInt16_eq, UInt16.toNat_ofNat']
  omega

theorem readTransportParameter_numeric {sentBy : Perspective} {st : UnmarshalState}
    {paramID : UInt16} {value : List UInt8} {val : Nat} {p' : TransportParameters}
    (hid : paramID = ackDelayExponentParameterID ∨ isNumericParameterID paramID = true)
    (hlen : value.length < 2 ^ 16) (hd : Decodes ReadVarInt value val)
    (hset : st.p.setNumericTransportParameter paramID val = .ok p') :
    Decodes (readTransportParameter sentBy st) (paramBytes paramID value)
      { p := p', parameterIDs := st.parameterIDs ++ [paramID],
        readAckDelayExponent :=
          st.readAckDelayExponent || decide (paramID = ackDelayExponentParameterID) } := by
  have hnum := readNumeric_decodes hd hset
  rw [← toNat_length_toUInt16 hlen] at hnum
  unfold readTransportParameter paramBytes
  refine (ignoreError_decodes (ReadUint16_decodes paramID)).bind
    ((ignoreError_decodes (ReadUint16_decodes _)).bind ?_)
  simp only [if_pos hid]
  by_cases hack : paramID = ackDelayExponentParameterID
  · simp only [if_pos hack]
    have h := hnum.bind_pure fun p => (⟨p, st.parameterIDs ++ [paramID], true⟩ : UnmarshalState)
    simpa [hack] using h
  · simp only [if_neg hack]
    have h := hnum.bind_pure fun p =>
      (⟨p, st.parameterIDs ++ [paramID], st.readAckDelayExponent⟩ : UnmarshalState)
    simpa [hack] using h

theorem readTransportParameter_disableMigration (sentBy : Perspective) (st : UnmarshalState) :
    Decodes (readTransportParameter sentBy st) (paramBytes disableMigrationParameterID [])
      ⟨{ st.p with DisableMigration := true }, st.parameterIDs ++ [disableMigrationParameterID],
        st.readAckDelayExponent⟩ := by
  unfold readTransportParameter paramBytes
  refine (ignoreError_decodes (ReadUint16_decodes _)).bind
    ((ignoreError_decodes (ReadUint16_decodes _)).bind ?_)
  rw [if_neg (by decide)]
  intro rest
  simp
  rfl

theorem readTransportParameter_statelessResetToken {sentBy : Perspective}
    (hs : sentBy ≠ .PerspectiveClient) (st : UnmarshalState) {b : List UInt8}
    (hb : b.length = 16) :
    Decodes (readTransportParameter sentBy st) (paramBytes statelessResetTokenParameterID b)
      ⟨{ st.p with StatelessResetToken := b },
        st.parameterIDs ++ [statelessResetTokenParameterID], st.readAckDelayExponent⟩ := by
  unfold readTransportParameter paramBytes
  refine (ignoreError_decodes (ReadUint16_decodes _)).bind
    ((ignoreError_decodes (ReadUint16_decodes _)).bind ?_)
  rw [if_neg (by decide)]
  intro rest
  have hr : (ignoreError [] (ReadFull b.length)).run (b ++ rest) = .ok (b, rest) :=
    ignoreError_decodes (ReadFull_decodes b) rest
  rw [hb] at hr
  simp [hs, hb, hr, statelessResetTokenParameterID, disableMigrationParameterID]

theorem readTransportParameter_originalConnectionID {sentBy : Perspective}
    (hs : sentBy ≠ .PerspectiveClient) (st : UnmarshalState) {c : List UInt8}
    (hc : c.length < 2 ^ 16) :
    Decodes (readTransportParameter sentBy st) (paramBytes originalConnectionIDParameterID c)
      ⟨{ st.p with OriginalConnectionID := c },
        st.parameterIDs ++ [originalConnectionIDParameterID], st.readAckDelayExponent⟩ := by
  unfold readTransportParameter paramBytes
  refine (ignoreError_decodes (ReadUint16_decodes _)).bind
    ((ignoreError_decodes (ReadUint16_decodes _)).bind ?_)
  rw [if_neg (by decide)]
  intro rest
  have hr : (ignoreError [] (ReadConnectionID c.length)).run (c ++ rest) = .ok (c, rest) :=
    ignoreError_decodes (ReadConnectionID_decodes c) rest
  simp [hs, toNat_length_toUInt16 hc, hr, originalConnectionIDParameterID,
    statelessResetTokenParameterID, disableMigrationParameterID]

/-! ### The loop of `unmarshal` -/

/-- The rounds of the loop of `unmarshal` over the chunks `cs`, one parameter each and each at
least the four bytes of its identifier and length, from the state `st` to `st'`. -/
inductive ReadsRounds (sentBy : Perspective) :
    UnmarshalState → List (List UInt8) → UnmarshalState → Prop where
  | nil (st : UnmarshalState) : ReadsRounds sentBy st [] st
  | cons {st st' st'' : UnmarshalState} {c : List UInt8} {cs : List (List UInt8)}
      (hc : 4 ≤ c.length) (hd : Decodes (readTransportParameter sentBy st) c st')
      (hr : ReadsRounds sentBy st' cs st'') : ReadsRounds sentBy st (c :: cs) st''

theorem ReadsRounds.append {sentBy : Perspective} {st st' st'' : UnmarshalState}
    {cs ds : List (List UInt8)} (h₁ : ReadsRounds sentBy st cs st')
    (h₂ : ReadsRounds sentBy st' ds st'') : ReadsRounds sentBy st (cs ++ ds) st'' := by
  induction h₁ with
  | nil => exact h₂
  | cons hc hd _ ih => exact .cons hc hd (ih h₂)

theorem ReadsRounds.length_le {sentBy : Perspective} {st st' : UnmarshalState}
    {cs : List (List UInt8)} (h : ReadsRounds sentBy st cs st') :
    4 * cs.length ≤ cs.flatten.length := by
  induction h with
  | nil => simp
  | cons hc _ _ ih =>
    simp only [List.length_cons, List.flatten_cons, List.length_append]
    omega

/-- The loop reads every round and stops before fewer than four bytes, given a round of fuel
for each chunk. -/
theorem unmarshalLoop_run {sentBy : Perspective} {st st' : UnmarshalState} {cs : List (List UInt8)}
    (h : ReadsRounds sentBy st cs st') {fuel : Nat} (hf : cs.length ≤ fuel) {rest : List UInt8}
    (hrest : rest.length < 4) :
    (unmarshalLoop sentBy fuel st).run (cs.flatten ++ rest) = .ok (st', rest) := by
  induction h generalizing fuel with
  | nil st =>
    cases fuel with
    | zero => rfl
    | succ fuel =>
      have hlt : ¬4 ≤ rest.length := by omega
      simp [unmarshalLoop, StateT.run_bind, hlt]
      rfl
  | @cons st₁ st₂ st₃ c cs hc hd _ ih =>
    cases fuel with
    | zero => simp at hf
    | succ fuel =>
    have hge : 4 ≤ (c ++ (cs.flatten ++ rest)).length := by
      rw [List.length_append]
      omega
    rw [List.flatten_cons, List.append_assoc, unmarshalLoop, StateT.run_bind]
    simp only [StateT.run_get, pure_bind]
    rw [if_pos hge, StateT.run_bind, hd (cs.flatten ++ rest)]
    exact ih (by simp at hf; omega)

/-! ### Writing the parameters -/

theorem writeParam_emits (paramID : UInt16) (value : List UInt8) :
    Emits (WriteUint16 paramID >>= fun _ =>
      WriteUint16 value.length.toUInt16 >>= fun _ => Utils.Write value)
      (paramBytes paramID value) :=
  (Write_emits _).bind ((Write_emits _).bind (Write_emits _))

/-- `w` writes at most `n` bytes, parameters that rounds of the loop of `unmarshal` read back
from `st` to `st'`. -/
def WritesRounds (sentBy : Perspective) (w : Writer) (st st' : UnmarshalState) (n : Nat) : Prop :=
  ∃ cs : List (List UInt8), Emits w cs.flatten ∧ cs.flatten.length ≤ n ∧
    ReadsRounds sentBy st cs st'

namespace WritesRounds

variable {sentBy : Perspective}

theorem pure (st : UnmarshalState) : WritesRounds sentBy (Pure.pure ⟨⟩) st st 0 :=
  ⟨[], Emits.pure, Nat.le_refl 0, .nil st⟩

theorem bind {w : Writer} {g : PUnit → Writer} {st st' st'' : UnmarshalState} {n₁ n₂ : Nat}
    (h₁ : WritesRounds sentBy w st st' n₁)
    (h₂ : WritesRounds sentBy (g ⟨⟩) st' st'' n₂) :
    WritesRounds sentBy (w >>= g) st st'' (n₂ + n₁) := by
  obtain ⟨cs, hw, hn₁, hr⟩ := h₁
  obtain ⟨ds, hg, hn₂, hr'⟩ := h₂
  refine ⟨cs ++ ds, ?_, ?_, hr.append hr'⟩
  · rw [List.flatten_append]
    exact hw.bind hg
  · rw [List.flatten_append, List.length_append]
    omega

theorem mono {w : Writer} {st st' : UnmarshalState} {n m : Nat}
    (h : WritesRounds sentBy w st st' n) (hnm : n ≤ m) : WritesRounds sentBy w st st' m := by
  obtain ⟨cs, hw, hn, hr⟩ := h
  exact ⟨cs, hw, hn.trans hnm, hr⟩

theorem one {w : Writer} {c : List UInt8} {st st' : UnmarshalState} (he : Emits w c)
    (hc : 4 ≤ c.length) (hd : Decodes (readTransportParameter sentBy st) c st') :
    WritesRounds sentBy w st st' c.length :=
  ⟨[c], by simpa using he, by simp, .cons hc hd (.nil st')⟩

end WritesRounds

theorem toUInt16_eq_of_toNat {L : UInt64} {n : Nat} (h : L.toNat = n) :
    L.toUInt16 = n.toUInt16 := by
  apply UInt16.toNat_inj.mp
  simp [← h]

theorem writeNumericTransportParameter_writesRounds {sentBy : Perspective} {st : UnmarshalState}
    {paramID : UInt16} {val : Nat} {p' : TransportParameters}
    (hid : paramID = ackDelayExponentParameterID ∨ isNumericParameterID paramID = true)
    (hv : val < 2 ^ 62) (hset : st.p.setNumericTransportParameter paramID val = .ok p') :
    WritesRounds sentBy (writeNumericTransportParameter paramID val) st
      { p := p', parameterIDs := st.parameterIDs ++ [paramID],
        readAckDelayExponent :=
          st.readAckDelayExponent || decide (paramID = ackDelayExponentParameterID) } 12 := by
  obtain ⟨L, hL, hL8, l, hw, hl, hd⟩ := varInt_roundTrip hv
  have hlen : l.length < 2 ^ 16 := by omega
  refine (WritesRounds.one (c := paramBytes paramID l) ?_ (by simp [paramBytes])
    (readTransportParameter_numeric hid hlen hd hset)).mono (by simp [paramBytes]; omega)
  unfold writeNumericTransportParameter
  rw [hL]
  simp only [orPanic, pure_bind, WriteUint16, toUInt16_eq_of_toNat hl.symm]
  exact (Write_emits _).bind ((Write_emits _).bind hw)

theorem setNumericTransportParameter_ackDelayExponent (p : TransportParameters) {val : Nat}
    (h : val ≤ MaxAckDelayExponent) :
    p.setNumericTransportParameter ackDelayExponentParameterID val =
      .ok { p with AckDelayExponent := val.toUInt8 } := by
  have hn : ¬val > MaxAckDelayExponent := Nat.not_lt.mpr h
  simp [TransportParameters.setNumericTransportParameter, hn, ackDelayExponentParameterID,
    initialMaxStreamDataBidiLocalParameterID, initialMaxStreamDataBidiRemoteParameterID,
    initialMaxStreamDataUniParameterID, initialMaxDataParameterID,
    initialMaxStreamsBidiParameterID, initialMaxStreamsUniParameterID, idleTimeoutParameterID,
    maxPacketSizeParameterID]
  rfl

/-! ### The optional parameters

Each is written under an `if` without `else`, so `do` continues both branches with one join
point. -/

theorem ackDelayExponent_ite {sentBy : Perspective} {ack : UInt8}
    (hack : ack.toNat ≤ MaxAckDelayExponent) {k : PUnit → Writer} {st st₂ : UnmarshalState}
    {n : Nat}
    (hk : WritesRounds sentBy (k ⟨⟩)
      ⟨{ st.p with
          AckDelayExponent :=
            if ack ≠ DefaultAckDelayExponent then ack else st.p.AckDelayExponent },
        st.parameterIDs ++
          (if ack ≠ DefaultAckDelayExponent then [ackDelayExponentParameterID] else []),
        st.readAckDelayExponent || decide (ack ≠ DefaultAckDelayExponent)⟩ st₂ n) :
    WritesRounds sentBy
      (if ack ≠ DefaultAckDelayExponent then
        writeNumericTransportParameter ackDelayExponentParameterID ack.toNat >>= k
      else k ⟨⟩) st st₂ (n + 12) := by
  have hv : ack.toNat < 2 ^ 62 := by
    unfold MaxAckDelayExponent at hack
    omega
  by_cases hc : ack ≠ DefaultAckDelayExponent
  · rw [if_pos hc]
    refine (writeNumericTransportParameter_writesRounds (Or.inl rfl) hv
      (setNumericTransportParameter_ackDelayExponent _ hack)).bind ?_
    simpa [hc] using hk
  · rw [if_neg hc]
    simp only [hc, if_false, List.append_nil, decide_false, Bool.or_false] at hk
    exact hk.mono (Nat.le_add_right n 12)

theorem disableMigration_ite {sentBy : Perspective} {dm : Bool} {k : PUnit → Writer}
    {st st₂ : UnmarshalState} {n : Nat}
    (hk : WritesRounds sentBy (k ⟨⟩)
      ⟨{ st.p with DisableMigration := dm || st.p.DisableMigration },
        st.parameterIDs ++ (if dm then [disableMigrationParameterID] else []),
        st.readAckDelayExponent⟩ st₂ n) :
    WritesRounds sentBy
      (if dm = true then
        WriteUint16 disableMigrationParameterID >>= fun _ => WriteUint16 0 >>= k
      else k ⟨⟩) st st₂ (n + 4) := by
  cases dm with
  | true =>
    have he : Emits (WriteUint16 disableMigrationParameterID >>= fun _ => WriteUint16 0)
        (paramBytes disableMigrationParameterID []) :=
      (Write_emits _).bind (Write_emits _)
    have h := (WritesRounds.one he (by decide)
      (readTransportParameter_disableMigration sentBy st)).bind hk
    rwa [bind_assoc] at h
  | false =>
    have hk' : WritesRounds sentBy (k ⟨⟩) st st₂ n := by simpa using hk
    exact hk'.mono (Nat.le_add_right n 4)

theorem statelessResetToken_ite {sentBy : Perspective} {b : List UInt8}
    (hb : b.length > 0 → sentBy ≠ .PerspectiveClient ∧ b.length = 16) {k : PUnit → Writer}
    {st st₂ : UnmarshalState} {n : Nat}
    (hk : WritesRounds sentBy (k ⟨⟩)
      ⟨{ st.p with
          StatelessResetToken := if b.length > 0 then b else st.p.StatelessResetToken },
        st.parameterIDs ++ (if b.length > 0 then [statelessResetTokenParameterID] else []),
        st.readAckDelayExponent⟩ st₂ n) :
    WritesRounds sentBy
      (if b.length > 0 then
        WriteUint16 statelessResetTokenParameterID >>= fun _ =>
          WriteUint16 b.length.toUInt16 >>= fun _ => Utils.Write b >>= k
      else k ⟨⟩) st st₂ (n + 20) := by
  by_cases hc : b.length > 0
  · rw [if_pos hc]
    simp only [if_pos hc] at hk
    have hl : (paramBytes statelessResetTokenParameterID b).length = 20 := by
      simp [paramBytes, (hb hc).2]
    have h := (WritesRounds.one (writeParam_emits _ _) (by omega)
      (readTransportParameter_statelessResetToken (hb hc).1 st (hb hc).2)).bind hk
    rw [hl] at h
    simpa only [bind_assoc] using h
  · rw [if_neg hc]
    simp only [if_neg hc, List.append_nil] at hk
    exact hk.mono (Nat.le_add_right n 20)

theorem originalConnectionID_ite {sentBy : Perspective} {c : List UInt8}
    (hc : c.length > 0 → sentBy ≠ .PerspectiveClient ∧ c.length ≤ 18)
    (st : UnmarshalState) :
    WritesRounds sentBy
      (if c.length > 0 then
        WriteUint16 originalConnectionIDParameterID >>= fun _ =>
          WriteUint16 c.length.toUInt16 >>= fun _ => Utils.Write c
      else Pure.pure ⟨⟩) st
      ⟨{ st.p with
          OriginalConnectionID := if c.length > 0 then c else st.p.OriginalConnectionID },
        st.parameterIDs ++ (if c.length > 0 then [originalConnectionIDParameterID] else []),
        st.readAckDelayExponent⟩ 22 := by
  by_cases h : c.length > 0
  · simp only [if_pos h]
    have h18 := (hc h).2
    exact (WritesRounds.one (writeParam_emits _ _) (by simp [paramBytes])
      (readTransportParameter_originalConnectionID (hc h).1 st (by omega))).mono
      (by simp [paramBytes]; omega)
  · simp only [if_neg h, List.append_nil]
    exact (WritesRounds.pure st).mono (Nat.zero_le 22)

theorem marshal_writesRounds {sentBy : Perspective} {p : TransportParameters}
    (hv : p.Valid sentBy) : ∃ st, WritesRounds sentBy p.marshal ⟨{}, [], false⟩ st 154 ∧
      st.parameterIDs.Nodup ∧
      (if st.readAckDelayExponent then st.p
        else { st.p with AckDelayExponent := DefaultAckDelayExponent }) = p.received := by
  refine ⟨?st, ?w, ?n, ?e⟩
  case w =>
    unfold TransportParameters.marshal
    refine (writeNumericTransportParameter_writesRounds (by decide)
      hv.initialMaxStreamDataBidiLocal rfl).bind ?_
    refine (writeNumericTransportParameter_writesRounds (by decide)
      hv.initialMaxStreamDataBidiRemote rfl).bind ?_
    refine (writeNumericTransportParameter_writesRounds (by decide)
      hv.initialMaxStreamDataUni rfl).bind ?_
    refine (writeNumericTransportParameter_writesRounds (by decide)
      hv.initialMaxData rfl).bind ?_
    refine (writeNumericTransportParameter_writesRounds (by decide)
      hv.maxBidiStreams rfl).bind ?_
    refine (writeNumericTransportParameter_writesRounds (by decide)
      hv.maxUniStreams rfl).bind ?_
    refine (writeNumericTransportParameter_writesRounds (by decide)
      (idleTimeout_lt hv.idleTimeout_nonneg hv.idleTimeout_lt) rfl).bind ?_
    refine (writeNumericTransportParameter_writesRounds (by decide) (by decide) rfl).bind ?_
    dsimp only
    refine ackDelayExponent_ite hv.ackDelayExponent ?_
    refine disableMigration_ite ?_
    refine statelessResetToken_ite hv.statelessResetToken_sent ?_
    exact originalConnectionID_ite hv.originalConnectionID_sent _
  case n =>
    dsimp only
    refine List.Nodup.sublist ((((List.Sublist.refl _).append (List.ite_nil_sublist _ _)).append
      (List.ite_nil_sublist _ _)).append (List.ite_nil_sublist _ _)
      |>.append (List.ite_nil_sublist _ _)) ?_
    decide
  case e =>
    have hidle :=
      idleTimeout_readBack hv.idleTimeout_nonneg hv.idleTimeout_lt hv.idleTimeout_seconds
    dsimp only
    by_cases hd : p.AckDelayExponent = DefaultAckDelayExponent <;>
      simp +decide [hd, TransportParameters.received, hidle, List.ite_length_pos_self]

theorem firstDuplicate_eq_none_of_nodup : ∀ {l : List UInt16}, l.Nodup → firstDuplicate l = none
  | [], _ | [_], _ => rfl
  | a :: b :: rest, h => by
    have hab : a ≠ b := fun hab => (List.nodup_cons.mp h).1 (hab ▸ List.mem_cons_self)
    rw [firstDuplicate, if_neg hab]
    exact firstDuplicate_eq_none_of_nodup (List.nodup_cons.mp h).2

theorem TransportParameters.unmarshal_marshal {sentBy : Perspective} {p : TransportParameters}
    (hv : p.Valid sentBy) :
    ∃ data, Emits p.marshal data ∧ data.length ≤ 154 ∧
      ({} : TransportParameters).unmarshal data sentBy = .ok p.received := by
  obtain ⟨st, ⟨cs, he, hlen, hr⟩, hnd, hp⟩ := marshal_writesRounds hv
  refine ⟨cs.flatten, he, hlen, ?_⟩
  have hfuel : cs.length ≤ cs.flatten.length := by
    have := hr.length_le
    omega
  have hloop := unmarshalLoop_run hr hfuel (show ([] : List UInt8).length < 4 by simp)
  rw [List.append_nil] at hloop
  have hdup : ∀ le : UInt16 → UInt16 → Bool,
      firstDuplicate (st.parameterIDs.mergeSort le) = none :=
    fun le => firstDuplicate_eq_none_of_nodup ((List.mergeSort_perm _ le).nodup_iff.mpr hnd)
  simp only [TransportParameters.unmarshal, hloop, Except.ok_bind, hdup]
  rw [hp]
  rfl

/-! ### The TLS extensions -/

theorem beUint32_bytes (v : UInt32) (r : List UInt8) :
    beUint32 ([(v >>> 24).toUInt8, (v >>> 16).toUInt8, (v >>> 8).toUInt8, v.toUInt8] ++ r) = v := by
  apply UInt32.toNat_inj.mp
  have hlt := v.toNat_lt
  simp only [beUint32, List.cons_append, List.getD_cons_succ, List.getD_cons_zero,
    UInt32.toNat_or, UInt32.toNat_shiftLeft, UInt8.toNat_toUInt32, UInt32.toNat_toUInt8,
    UInt32.toNat_shiftRight, Nat.shiftLeft_eq, Nat.shiftRight_eq_div_pow]
  have h8 : (8 : UInt32).toNat % 32 = 8 := rfl
  have h16 : (16 : UInt32).toNat % 32 = 16 := rfl
  have h24 : (24 : UInt32).toNat % 32 = 24 := rfl
  rw [h8, h16, h24]
  have e8 : v.toNat / 2 ^ 8 % 2 ^ 8 * 2 ^ 8 % 2 ^ 32 = v.toNat / 2 ^ 8 % 2 ^ 8 * 2 ^ 8 :=
    Nat.mod_eq_of_lt (by omega)
  have e16 : v.toNat / 2 ^ 16 % 2 ^ 8 * 2 ^ 16 % 2 ^ 32 = v.toNat / 2 ^ 16 % 2 ^ 8 * 2 ^ 16 :=
    Nat.mod_eq_of_lt (by omega)
  have e24 : v.toNat / 2 ^ 24 % 2 ^ 8 * 2 ^ 24 % 2 ^ 32 = v.toNat / 2 ^ 24 % 2 ^ 8 * 2 ^ 24 :=
    Nat.mod_eq_of_lt (by omega)
  rw [e8, e16, e24]
  rw [or_mul_two_pow_eq_add (x := v.toNat % 2 ^ 8) (by omega),
    or_mul_two_pow_eq_add (x := v.toNat / 2 ^ 8 % 2 ^ 8 * 2 ^ 8 + v.toNat % 2 ^ 8) (by omega),
    or_mul_two_pow_eq_add (by omega)]
  omega

theorem beUint16_bytes (v : UInt16) (r : List UInt8) :
    beUint16 ([(v >>> 8).toUInt8, v.toUInt8] ++ r) = v := by
  apply UInt16.toNat_inj.mp
  have hlt := v.toNat_lt
  simp only [beUint16, List.cons_append, List.getD_cons_succ, List.getD_cons_zero,
    UInt16.toNat_or, UInt16.toNat_shiftLeft, UInt8.toNat_toUInt16, UInt16.toNat_toUInt8,
    UInt16.toNat_shiftRight, Nat.shiftLeft_eq, Nat.shiftRight_eq_div_pow]
  have h8 : (8 : UInt16).toNat % 16 = 8 := rfl
  have e8 : v.toNat / 2 ^ 8 % 2 ^ 8 * 2 ^ 8 % 2 ^ 16 = v.toNat / 2 ^ 8 % 2 ^ 8 * 2 ^ 8 :=
    Nat.mod_eq_of_lt (by omega)
  rw [h8, e8, or_mul_two_pow_eq_add (by omega)]
  omega

theorem putUint16_append {a : List UInt8} {n : Nat} (hn : a.length = n) (r : List UInt8)
    (x y : UInt8) (v : UInt16) :
    putUint16 (a ++ [x, y] ++ r) n v = a ++ [(v >>> 8).toUInt8, v.toUInt8] ++ r := by
  subst hn
  simp [putUint16, List.set_append_right]

theorem ClientHelloTransportParameters.Unmarshal_Marshal {p : TransportParameters}
    (hv : p.Valid .PerspectiveClient) (v : VersionNumber) :
    ∃ data, ({ InitialVersion := v, Parameters := p } : ClientHelloTransportParameters).Marshal =
        .ok data ∧
      ({} : ClientHelloTransportParameters).Unmarshal data =
        .ok { InitialVersion := v, Parameters := p.received } := by
  obtain ⟨params, he, hlen, hu⟩ := p.unmarshal_marshal hv
  set vb : List UInt8 := [(v >>> 24).toUInt8, (v >>> 16).toUInt8, (v >>> 8).toUInt8, v.toUInt8]
    with hvb
  have hvl : vb.length = 4 := rfl
  set lb : List UInt8 := [(params.length.toUInt16 >>> 8).toUInt8, params.length.toUInt16.toUInt8]
    with hlb
  have hrun : (do WriteUint32 v; Utils.Write [0, 0]; p.marshal : Writer).run [] =
      .ok (⟨⟩, [] ++ (vb ++ ([0, 0] ++ params))) :=
    (Write_emits _).bind ((Write_emits _).bind he) []
  refine ⟨vb ++ lb ++ params, ?_, ?_⟩
  · have hl : (vb ++ [0, 0] ++ params).length - 4 - 2 = params.length := by
      simp [hvl]
    simp only [ClientHelloTransportParameters.Marshal, hrun, Except.ok_bind, List.nil_append,
      ← List.append_assoc]
    rw [hl, putUint16_append hvl]
    rfl
  · have h32 : beUint32 (vb ++ lb ++ params) = v := by
      rw [List.append_assoc, hvb, beUint32_bytes]
    have h16 : (beUint16 ((vb ++ lb ++ params).drop 4)).toNat = params.length := by
      rw [List.append_assoc, List.drop_left' hvl, hlb, beUint16_bytes]
      exact toNat_length_toUInt16 (by omega)
    have hdrop : (vb ++ lb ++ params).drop 6 = params := List.drop_left' (by simp [hvl, hlb])
    have h6 : ¬(vb ++ lb ++ params).length < 6 := by
      simp [hvl, hlb]
      omega
    simp only [ClientHelloTransportParameters.Unmarshal, if_neg h6, h32, h16, hdrop, ne_eq,
      not_true_eq_false, if_false]
    rw [hu]
    rfl

/-- The four bytes of `WriteUint32`, most significant first. -/
def uint32Bytes (v : UInt32) : List UInt8 :=
  [(v >>> 24).toUInt8, (v >>> 16).toUInt8, (v >>> 8).toUInt8, v.toUInt8]

theorem readVersionList_bytes (r : List UInt8) :
    ∀ vs : List VersionNumber, readVersionList vs.length (vs.flatMap uint32Bytes ++ r) = (vs, r)
  | [] => rfl
  | v :: vs => by
    have hd : (uint32Bytes v ++ (vs.flatMap uint32Bytes ++ r)).drop 4 =
        vs.flatMap uint32Bytes ++ r :=
      List.drop_left' rfl
    rw [List.length_cons, List.flatMap_cons, List.append_assoc, readVersionList, hd,
      readVersionList_bytes r vs, uint32Bytes, beUint32_bytes]

/-- `EncryptedExtensions` parameters come back through `Marshal` and `Unmarshal`, with the
negotiated version and up to 63 supported versions, whose length in bytes fits one byte. -/
theorem EncryptedExtensionsTransportParameters.Unmarshal_Marshal {p : TransportParameters}
    (hv : p.Valid .PerspectiveServer) (v : VersionNumber) {vs : List VersionNumber}
    (hvs : vs.length ≤ 63) :
    ∃ data, ({ NegotiatedVersion := v, SupportedVersions := vs, Parameters := p } :
          EncryptedExtensionsTransportParameters).Marshal = .ok data ∧
      ({} : EncryptedExtensionsTransportParameters).Unmarshal data =
        .ok { NegotiatedVersion := v, SupportedVersions := vs, Parameters := p.received } := by
  obtain ⟨params, he, hlen, hu⟩ := p.unmarshal_marshal hv
  set b : List UInt8 := uint32Bytes v ++ [(4 * vs.length).toUInt8] ++ vs.flatMap uint32Bytes
    with hb
  have hbl : b.length = 5 + 4 * vs.length := by
    simp [hb, uint32Bytes]
    omega
  set lb : List UInt8 := [(params.length.toUInt16 >>> 8).toUInt8, params.length.toUInt16.toUInt8]
    with hlb
  have hrun₁ : (do
      WriteUint32 v
      WriteByte (4 * vs.length).toUInt8
      vs.forM WriteUint32 : Writer).run [] =
        .ok (⟨⟩, [] ++ (uint32Bytes v ++ ([(4 * vs.length).toUInt8] ++
          vs.flatMap uint32Bytes))) :=
    (Write_emits (uint32Bytes v)).bind ((WriteByte_emits _).bind
      (Emits.forM (g := uint32Bytes) (fun _ => Write_emits _) vs)) []
  have hrun₂ : (do Utils.Write [0, 0]; p.marshal : Writer).run b =
      .ok (⟨⟩, b ++ ([0, 0] ++ params)) :=
    (Write_emits _).bind he b
  refine ⟨b ++ lb ++ params, ?_, ?_⟩
  · have hl : (b ++ [0, 0] ++ params).length - b.length - 2 = params.length := by
      simp
    simp only [EncryptedExtensionsTransportParameters.Marshal, hrun₁, Except.ok_bind,
      List.nil_append, ← List.append_assoc, ← hb, hrun₂]
    rw [hl, putUint16_append rfl]
    rfl
  · have hn : ((4 * vs.length).toUInt8).toNat = 4 * vs.length := by
      simp only [Nat.toUInt8_eq, UInt8.toNat_ofNat']
      omega
    have hrest : b ++ lb ++ params =
        uint32Bytes v ++
          ((4 * vs.length).toUInt8 :: (vs.flatMap uint32Bytes ++ (lb ++ params))) := by
      simp [hb]
    have h5 : ¬(b ++ lb ++ params).length < 5 := by
      rw [List.length_append, List.length_append, hbl]
      omega
    have h32 : beUint32 (b ++ lb ++ params) = v := by
      rw [hrest, uint32Bytes, beUint32_bytes]
    have h4 : ((b ++ lb ++ params).getD 4 0).toNat = 4 * vs.length := by
      rw [hrest]
      exact hn
    have hd5 : (b ++ lb ++ params).drop 5 = vs.flatMap uint32Bytes ++ (lb ++ params) := by
      rw [hrest]
      rfl
    have hl2 : ¬(vs.flatMap uint32Bytes ++ (lb ++ params)).length < 4 * vs.length + 2 := by
      simp [hlb, uint32Bytes]
      omega
    have h16 : (beUint16 (lb ++ params)).toNat = params.length := by
      rw [hlb, beUint16_bytes]
      exact toNat_length_toUInt16 (by omega)
    have hd2 : (lb ++ params).drop 2 = params := List.drop_left' (by simp [hlb])
    simp only [EncryptedExtensionsTransportParameters.Unmarshal, if_neg h5, h32, h4,
      Nat.mul_mod_right, Nat.mul_div_cancel_left _ (by decide : 0 < 4), hd5, if_neg hl2,
      readVersionList_bytes, h16, hd2, ne_eq, not_true_eq_false, if_false]
    rw [hu]
    rfl

/-! ### The round trip -/

/-- What `marshal` writes from parameters that a sender at `sentBy` may send, `unmarshal` reads
back into zero parameters as `p.received`; a `ClientHello` from a client and `EncryptedExtensions`
from a server carry them through `Marshal` and `Unmarshal` with their versions. -/
theorem TransportParameters.roundTrip_extensions {p : TransportParameters} {sentBy : Perspective}
    (hv : p.Valid sentBy) :
    (∃ data, Emits p.marshal data ∧
      ({} : TransportParameters).unmarshal data sentBy = .ok p.received) ∧
    (sentBy = .PerspectiveClient → ∀ v : VersionNumber, ∃ data,
      ({ InitialVersion := v, Parameters := p } : ClientHelloTransportParameters).Marshal =
        .ok data ∧
      ({} : ClientHelloTransportParameters).Unmarshal data =
        .ok { InitialVersion := v, Parameters := p.received }) ∧
    (sentBy = .PerspectiveServer → ∀ (v : VersionNumber) (vs : List VersionNumber),
      vs.length ≤ 63 → ∃ data,
      ({ NegotiatedVersion := v, SupportedVersions := vs, Parameters := p } :
          EncryptedExtensionsTransportParameters).Marshal = .ok data ∧
      ({} : EncryptedExtensionsTransportParameters).Unmarshal data =
        .ok { NegotiatedVersion := v, SupportedVersions := vs, Parameters := p.received }) := by
  obtain ⟨data, he, -, hu⟩ := p.unmarshal_marshal hv
  refine ⟨⟨data, he, hu⟩, ?_, ?_⟩
  · rintro rfl v
    exact ClientHelloTransportParameters.Unmarshal_Marshal hv v
  · rintro rfl v vs hvs
    exact EncryptedExtensionsTransportParameters.Unmarshal_Marshal hv v hvs

/-- A server's parameters with every optional one present. -/
theorem roundTrip_extensions_server :
    TransportParameters.Valid
        { IdleTimeout := 30000000000, AckDelayExponent := 10, DisableMigration := true,
          StatelessResetToken := List.replicate 16 7, OriginalConnectionID := [1, 2, 3, 4] }
        .PerspectiveServer ∧
      ∃ data, Emits (TransportParameters.marshal
          { IdleTimeout := 30000000000, AckDelayExponent := 10, DisableMigration := true,
            StatelessResetToken := List.replicate 16 7, OriginalConnectionID := [1, 2, 3, 4] })
          data ∧
        ({} : TransportParameters).unmarshal data .PerspectiveServer =
          .ok (TransportParameters.received
            { IdleTimeout := 30000000000, AckDelayExponent := 10, DisableMigration := true,
              StatelessResetToken := List.replicate 16 7, OriginalConnectionID := [1, 2, 3, 4] }) :=
  have hv : TransportParameters.Valid
      { IdleTimeout := 30000000000, AckDelayExponent := 10, DisableMigration := true,
        StatelessResetToken := List.replicate 16 7, OriginalConnectionID := [1, 2, 3, 4] }
      .PerspectiveServer :=
    ⟨by decide, by decide, by decide, by decide, by decide, by decide, by decide, by decide,
      by decide, by decide, by decide, by decide, by decide⟩
  ⟨hv, (TransportParameters.roundTrip_extensions hv).1⟩

/-- A negative idle timeout of whole seconds makes `marshal` panic: `uint64` of the negative
number of seconds does not fit a varint. -/
theorem marshal_negative_idleTimeout :
    (∀ data, ¬Emits (TransportParameters.marshal { IdleTimeout := -1000000000 }) data) ∧
      (-1000000000 : Int) % 1000000000 = 0 := by
  refine ⟨fun data he => ?_, by decide⟩
  have hrun := he []
  have hfail : ((TransportParameters.marshal { IdleTimeout := -1000000000 }).run []).isOk =
      false := by
    decide
  rw [hrun] at hfail
  exact Bool.false_ne_true hfail.symm

end QuicGo.Handshake
