import QuicGo.Session.Retransmission
import QuicGo.Lib.Reachable

/-! Packets without a retransmittable frame in a row (`PackPacket` of `packet_packer.go`). A packet
that carries only ACK frames is not acknowledged, so a sender that only sends ACKs never learns
whether they arrived. -/

namespace QuicGo
open Protocol Wire Lib Ackhandler

namespace packetPacker

variable {ε : Type} (p : packetPacker) (env : packerEnv ε)

/-- Whether `PackPacket` takes its 1-RTT path from this state: `maybePackCryptoPacket` packs
nothing. -/
def takesOneRTTPath (e : ε) : Bool :=
  match p.maybePackCryptoPacket env e with
  | .ok (none, _) => true
  | _ => false

/-- The frames that `writeAndSealPacket` seals are retransmittable exactly when those it was given
are: it changes at most the data length of the last one. -/
theorem writeAndSealPacket_retransmittable {e e' : ε} {header : ExtendedHeader}
    {frames : List Frame} {encLevel : EncryptionLevel} {sealer : Sealer} {pp : packedPacket}
    (h : p.writeAndSealPacket env e header frames encLevel sealer = .ok (pp, e')) :
    HasRetransmittableFrames pp.frames = HasRetransmittableFrames frames := by
  obtain ⟨buffer, payloadOffset, -, hw, -⟩ := writeAndSealPacket_ok p env h
  obtain ⟨last, hl, hframes⟩ := writePacket_frames p hw
  dsimp only at hframes
  rw [hframes]
  conv_rhs => rw [← List.dropLast_append_getLast? last hl]
  have hlast : IsFrameRetransmittable (setDataLenPresent true last) = IsFrameRetransmittable last := by
    cases last <;> rfl
  split_ifs <;> simp [HasRetransmittableFrames, hlast]

/-- What a call of `PackPacket` does: on the crypto path it leaves the packer as it was; on the
1-RTT path it sends nothing when there is nothing to send, and else a packet whose frames are
retransmittable as those that `addPing` returns, with the packer that `addPing` returns. -/
theorem PackPacket_cases {e e' : ε} {packet : Option packedPacket} {p' : packetPacker}
    (h : p.PackPacket env e = .ok (packet, p', e')) :
    (p.takesOneRTTPath env e = false ∧ p' = p) ∨
      (p.takesOneRTTPath env e = true ∧
        ((packet = none ∧ p' = p) ∨
          ∃ pp frames, packet = some pp ∧ frames ≠ [] ∧ (p.addPing frames).2 = p' ∧
            HasRetransmittableFrames pp.frames = HasRetransmittableFrames (p.addPing frames).1)) := by
  unfold PackPacket at h
  obtain ⟨⟨crypto, e₁⟩, hc, h⟩ := Except.bind_eq_ok h
  cases crypto with
  | some pp =>
    left
    refine ⟨by simp [takesOneRTTPath, hc], ?_⟩
    exact (Prod.mk.inj (Prod.mk.inj (Except.ok.inj h)).2).1.symm
  | none =>
    right
    refine ⟨by simp [takesOneRTTPath, hc], ?_⟩
    dsimp only at h
    obtain ⟨headerLen, -, h⟩ := Except.bind_eq_ok h
    obtain ⟨⟨frames, e₂⟩, -, h⟩ := Except.bind_eq_ok h
    dsimp only at h
    split_ifs at h with hlen
    · obtain ⟨rfl, rfl, -⟩ : none = packet ∧ p = p' ∧ e₂ = e' := by simpa using Except.ok.inj h
      exact .inl ⟨rfl, rfl⟩
    · obtain ⟨⟨pp, e₃⟩, hw, h⟩ := Except.bind_eq_ok h
      obtain ⟨rfl, rfl, rfl⟩ : some pp = packet ∧ (p.addPing frames).2 = p' ∧ e₃ = e' := by
        simpa using Except.ok.inj h
      exact .inr ⟨pp, frames, rfl, List.ne_nil_of_length_pos (Nat.pos_of_ne_zero hlen), rfl,
        writeAndSealPacket_retransmittable _ env hw⟩

/-- `addPing` either returns retransmittable frames and clears the count, or returns the frames it
was given, none of them retransmittable, and counts one more such packet, below the maximum. -/
theorem addPing_spec (frames : List Frame) :
    (HasRetransmittableFrames (p.addPing frames).1 = true ∧
      (p.addPing frames).2.numNonRetransmittableAcks = 0) ∨
    (HasRetransmittableFrames (p.addPing frames).1 = false ∧
      (p.addPing frames).2.numNonRetransmittableAcks = p.numNonRetransmittableAcks + 1 ∧
      p.numNonRetransmittableAcks < MaxNonRetransmittableAcks) := by
  unfold addPing
  split_ifs with hr hmax
  · left
    simp [HasRetransmittableFrames, IsFrameRetransmittable]
  · right
    simp only [Bool.not_eq_true'] at hr
    exact ⟨by simpa using hr, rfl, by omega⟩
  · left
    simp only [Bool.not_eq_true', Bool.not_eq_false] at hr
    exact ⟨by simpa using hr, rfl⟩

/-! ### Runs of `PackPacket` -/

/-- A call of `PackPacket`: the packet it returns, and whether it took the 1-RTT path. -/
structure packCall where
  packet : Option packedPacket
  oneRTT : Bool

/-- `PackPacket` as a step of the packer and the objects it calls, labelled by the call. -/
def PackStep (s : packetPacker × ε) (c : packCall) (s' : packetPacker × ε) : Prop :=
  s.1.PackPacket env s.2 = .ok (c.packet, s'.1, s'.2) ∧ c.oneRTT = s.1.takesOneRTTPath env s.2

end packetPacker

/-- The frames of the packets that calls of `PackPacket` sent on the 1-RTT path, in order. -/
def oneRTTFrames (calls : List packetPacker.packCall) : List (List Frame) :=
  calls.filterMap fun c => if c.oneRTT then c.packet.map (·.frames) else none

/-- How many packets at the end carry no retransmittable frame. -/
def ackOnlyRun (packets : List (List Frame)) : Nat :=
  (packets.reverse.takeWhile fun frames => !HasRetransmittableFrames frames).length

theorem oneRTTFrames_append (calls : List packetPacker.packCall) (c : packetPacker.packCall) :
    oneRTTFrames (calls ++ [c]) =
      oneRTTFrames calls ++ if c.oneRTT then (c.packet.map (·.frames)).toList else [] := by
  obtain ⟨packet, oneRTT⟩ := c
  simp only [oneRTTFrames, List.filterMap_append]
  cases oneRTT <;> cases packet <;> rfl

@[simp] theorem ackOnlyRun_nil : ackOnlyRun [] = 0 := rfl

theorem ackOnlyRun_append_retransmittable {packets : List (List Frame)} {frames : List Frame}
    (h : HasRetransmittableFrames frames = true) : ackOnlyRun (packets ++ [frames]) = 0 := by
  simp [ackOnlyRun, h]

theorem ackOnlyRun_append_ackOnly {packets : List (List Frame)} {frames : List Frame}
    (h : HasRetransmittableFrames frames = false) :
    ackOnlyRun (packets ++ [frames]) = ackOnlyRun packets + 1 := by
  simp [ackOnlyRun, h]

namespace packetPacker

variable {ε : Type} (env : packerEnv ε)

/-- The count of `PackPacket` bounds the packets of its 1-RTT path without a retransmittable frame
at the end of a run, and stays at most `MaxNonRetransmittableAcks`. -/
def PingInv (calls : List packCall) (s : packetPacker × ε) : Prop :=
  ackOnlyRun (oneRTTFrames calls) ≤ s.1.numNonRetransmittableAcks ∧
    s.1.numNonRetransmittableAcks ≤ MaxNonRetransmittableAcks

/-- A call that sends no packet of the 1-RTT path and leaves the packer as it was keeps the
invariant. -/
theorem PingInv.of_unchanged {calls : List packCall} {s s' : packetPacker × ε} {c : packCall}
    (hinv : PingInv calls s) (hsent : (if c.oneRTT then (c.packet.map (·.frames)).toList else []) = [])
    (hp : s'.1 = s.1) : PingInv (calls ++ [c]) s' := by
  rw [PingInv, oneRTTFrames_append, hsent, List.append_nil, hp]
  exact hinv

theorem PingInv.step {calls : List packCall} {s s' : packetPacker × ε} {c : packCall}
    (hinv : PingInv calls s) (hstep : PackStep env s c s') : PingInv (calls ++ [c]) s' := by
  obtain ⟨h, hc⟩ := hstep
  rcases PackPacket_cases s.1 env h with ⟨hpath, hp⟩ | ⟨hpath, ⟨hnone, hp⟩ | ⟨pp, frames, hpp, -, hp, hr⟩⟩
  · exact hinv.of_unchanged (by rw [hc, hpath]; rfl) hp
  · exact hinv.of_unchanged (by rw [hnone]; split <;> rfl) hp
  · obtain ⟨hrun, hmax⟩ := hinv
    have hcalls : oneRTTFrames (calls ++ [c]) = oneRTTFrames calls ++ [pp.frames] := by
      rw [oneRTTFrames_append, hc, hpath, hpp]
      rfl
    rw [PingInv, hcalls, ← hp]
    rcases addPing_spec s.1 frames with ⟨hping, hzero⟩ | ⟨hack, hcount, hlt⟩
    · rw [ackOnlyRun_append_retransmittable (hr.trans hping), hzero]
      exact ⟨le_refl 0, Nat.zero_le _⟩
    · rw [ackOnlyRun_append_ackOnly (hr.trans hack), hcount]
      exact ⟨Nat.add_le_add_right hrun 1, hlt⟩

/-- A run of `PackPacket` never ends in more than `MaxNonRetransmittableAcks` packets of the 1-RTT
path without a retransmittable frame: the packet after that many gets a PING. -/
theorem run_PackPacket_ackOnlyRun {s s' : packetPacker × ε} {calls : List packCall}
    (hrun : Run (PackStep env) s calls s')
    (hp : s.1.numNonRetransmittableAcks ≤ MaxNonRetransmittableAcks) :
    ackOnlyRun (oneRTTFrames calls) ≤ MaxNonRetransmittableAcks := by
  have hinv : PingInv calls s' :=
    hrun.invariant ⟨Nat.zero_le _, hp⟩ fun _ _ _ _ hinv hstep => hinv.step env hstep
  exact hinv.1.trans hinv.2

/-- The objects of a server for examples with a MAX_DATA frame queued. -/
def maxDataEnv : packerEnv Unit :=
  { testEnv with AppendControlFrames := fun _ frames _ => some ((frames ++ [.maxData 1000], 3), ()) }

/-- A packer that has sent 19 packets without a retransmittable frame sends a MAX_DATA frame, and
starts counting again. -/
theorem run_PackPacket_ackOnlyRun_maxData :
    ∃ calls s', Run (PackStep maxDataEnv) ({ testPacker with numNonRetransmittableAcks := 19 }, ())
        calls s' ∧ calls.length = 1 ∧
      ({ testPacker with numNonRetransmittableAcks := 19 } : packetPacker).numNonRetransmittableAcks ≤
        MaxNonRetransmittableAcks ∧
      ackOnlyRun (oneRTTFrames calls) ≤ MaxNonRetransmittableAcks := by
  obtain ⟨pp, h⟩ : ∃ pp, ({ testPacker with numNonRetransmittableAcks := 19 } : packetPacker).PackPacket
      maxDataEnv () = .ok (some pp, { testPacker with numNonRetransmittableAcks := 0 }, ()) := ⟨_, rfl⟩
  have hrun : Run (PackStep maxDataEnv) ({ testPacker with numNonRetransmittableAcks := 19 }, ())
      [⟨some pp, true⟩] ({ testPacker with numNonRetransmittableAcks := 0 }, ()) :=
    (Run.nil _).snoc ⟨h, rfl⟩
  exact ⟨_, _, hrun, rfl, by decide, run_PackPacket_ackOnlyRun maxDataEnv hrun (by decide)⟩

end packetPacker

end QuicGo
