import QuicGo.Session.PacketPacker
import QuicGo.Lib.List

/-! What a retransmission keeps of the lost packet (`PackRetransmission` of `packet_packer.go`): its
frames that are not STREAM frames, each once and in order, and each STREAM frame as pieces
(`PiecesOf`) whose data is its data cut in order. -/

namespace QuicGo
open Protocol Wire Lib Ackhandler

namespace Wire

/-- The STREAM frame that a frame is, if it is one. -/
def Frame.asStreamFrame : Frame → Option StreamFrame
  | .stream f => some f
  | _ => none

/-- The STREAM frames among some frames, in order. -/
def streamFramesOf (frames : List Frame) : List StreamFrame :=
  frames.filterMap Frame.asStreamFrame

/-- The frames that are not STREAM frames, in order: what `PackRetransmission` calls control
frames. -/
def controlFramesOf (frames : List Frame) : List Frame :=
  frames.filter fun f => f.asStreamFrame.isNone

@[simp] theorem streamFramesOf_nil : streamFramesOf [] = [] := rfl

@[simp] theorem streamFramesOf_append (l l' : List Frame) :
    streamFramesOf (l ++ l') = streamFramesOf l ++ streamFramesOf l' :=
  List.filterMap_append

@[simp] theorem streamFramesOf_stream (f : StreamFrame) : streamFramesOf [.stream f] = [f] := rfl

@[simp] theorem controlFramesOf_nil : controlFramesOf [] = [] := rfl

@[simp] theorem controlFramesOf_append (l l' : List Frame) :
    controlFramesOf (l ++ l') = controlFramesOf l ++ controlFramesOf l' :=
  List.filter_append _ _

@[simp] theorem controlFramesOf_stream (f : StreamFrame) : controlFramesOf [.stream f] = [] := rfl

theorem streamFramesOf_eq_nil {frames : List Frame} (h : ∀ f ∈ frames, f.asStreamFrame = none) :
    streamFramesOf frames = [] :=
  List.filterMap_eq_nil_iff.mpr h

theorem controlFramesOf_eq_self {frames : List Frame} (h : ∀ f ∈ frames, f.asStreamFrame = none) :
    controlFramesOf frames = frames :=
  List.filter_eq_self.mpr fun f hf => by simp [h f hf]

/-- The data of a STREAM frame ends within the 64 bits of an offset. -/
def StreamFrame.EndFits (f : StreamFrame) : Prop :=
  f.Offset.toNat + f.Data.length < 2 ^ 64

/-- `pieces` carry the STREAM frame `f`: they are frames of its stream whose data is its data cut
in order, each starting where the one before it ends; all but the last have no FIN bit, and the
last has the FIN bit of `f`. -/
structure PiecesOf (f : StreamFrame) (pieces : List StreamFrame) : Prop where
  ne_nil : pieces ≠ []
  streamID : ∀ g ∈ pieces, g.StreamID = f.StreamID
  data : pieces.flatMap (·.Data) = f.Data
  contiguous : Contiguous (fun g : StreamFrame => g.Offset.toNat) (·.Data) f.Offset.toNat pieces
  fin : ∀ g ∈ pieces.dropLast, g.FinBit = false
  finLast : ∀ g, pieces.getLast? = some g → g.FinBit = f.FinBit

namespace PiecesOf

theorem withDataLen (f : StreamFrame) (b : Bool) : PiecesOf f [{ f with DataLenPresent := b }] where
  ne_nil := List.cons_ne_nil _ _
  streamID := by simp
  data := by simp
  contiguous := by simp [Contiguous]
  fin := by simp
  finLast := by simp

theorem refine {o x : StreamFrame} {a b qs : List StreamFrame} (ho : PiecesOf o (a ++ x :: b))
    (hx : PiecesOf x qs) : PiecesOf o (a ++ qs ++ b) where
  ne_nil := by simp [hx.ne_nil]
  streamID g hg := by
    simp only [List.mem_append] at hg
    rcases hg with (hg | hg) | hg
    · exact ho.streamID g (by simp [hg])
    · rw [hx.streamID g hg]
      exact ho.streamID x (by simp)
    · exact ho.streamID g (by simp [hg])
  data := by
    rw [← ho.data]
    simp [hx.data]
  contiguous := by
    obtain ⟨ha, hxo, hb⟩ := contiguous_append.mp ho.contiguous
    have hqs := hx.contiguous
    have hlen : (qs.flatMap (·.Data)).length = x.Data.length := by rw [hx.data]
    rw [show x.Offset.toNat = _ from hxo] at hqs
    refine contiguous_append.mpr ⟨contiguous_append.mpr ⟨ha, hqs⟩, ?_⟩
    simpa [hlen, Nat.add_assoc] using hb
  fin g hg := by
    obtain ⟨qs', q, rfl⟩ := (List.eq_nil_or_concat' qs).resolve_left hx.ne_nil
    rcases List.eq_nil_or_concat' b with rfl | ⟨b', z, rfl⟩
    · simp only [List.append_nil, ← List.append_assoc, List.dropLast_concat,
        List.mem_append] at hg
      rcases hg with hg | hg
      · exact ho.fin g (by simp [hg])
      · exact hx.fin g (by simp [hg])
    · have hdrop : (a ++ x :: (b' ++ [z])).dropLast = a ++ x :: b' := by
        rw [← List.cons_append, ← List.append_assoc, List.dropLast_concat]
      have hxf : x.FinBit = false := ho.fin x (by simp [hdrop])
      simp only [← List.append_assoc, List.dropLast_concat, List.mem_append,
        List.mem_singleton] at hg
      rcases hg with ((hg | hg) | rfl) | hg
      · exact ho.fin g (by simp [hdrop, hg])
      · exact hx.fin g (by simp [hg])
      · exact (hx.finLast g (by simp)).trans hxf
      · exact ho.fin g (by simp [hdrop, hg])
  finLast g hg := by
    obtain ⟨qs', q, rfl⟩ := (List.eq_nil_or_concat' qs).resolve_left hx.ne_nil
    rcases List.eq_nil_or_concat' b with rfl | ⟨b', z, rfl⟩
    · simp only [List.append_nil, List.getLast?_append, List.getLast?_singleton, Option.some_or,
        Option.some.injEq] at hg
      subst hg
      exact (hx.finLast q (by simp)).trans (ho.finLast x (by simp))
    · simp only [List.getLast?_append, List.getLast?_singleton, Option.some_or,
        Option.some.injEq] at hg
      subst hg
      exact ho.finLast z (by rw [← List.cons_append, ← List.append_assoc, List.getLast?_concat])

/-- The frame that `MaybeSplitOffFrame` splits off a frame sized without its data length, and what
is left of it, which gets its data length back, are pieces of it; what is left still ends within
the 64 bits of an offset. -/
theorem split {f sf f' : StreamFrame} {maxSize : UInt64}
    (h : ({ f with DataLenPresent := false } : StreamFrame).MaybeSplitOffFrame maxSize =
      .ok (some sf, f'))
    (hf : f.EndFits) :
    PiecesOf f [sf, { f' with DataLenPresent := true }] ∧
      ({ f' with DataLenPresent := true } : StreamFrame).EndFits := by
  obtain ⟨n, -, -, hle, rfl, rfl⟩ := StreamFrame.MaybeSplitOffFrame_some h
  unfold StreamFrame.EndFits at hf ⊢
  dsimp only at hle ⊢
  have hoff : (f.Offset + n).toNat = f.Offset.toNat + n.toNat := by
    rw [UInt64.toNat_add, Nat.mod_eq_of_lt (by omega)]
  refine ⟨⟨List.cons_ne_nil _ _, by simp, by simp, ?_, by simp, by simp⟩, ?_⟩
  · simp [Contiguous, hoff, Nat.min_eq_left hle]
  · simp only [List.length_drop, hoff]
    omega

end PiecesOf

end Wire

@[simp] theorem asStreamFrame_setDataLenPresent (b : Bool) (f : Frame) :
    (setDataLenPresent b f).asStreamFrame =
      f.asStreamFrame.map fun sf => { sf with DataLenPresent := b } := by
  cases f <;> rfl

@[simp] theorem setDataLenPresent_setDataLenPresent (b c : Bool) (f : Frame) :
    setDataLenPresent b (setDataLenPresent c f) = setDataLenPresent b f := by
  cases f <;> rfl

@[simp] theorem controlFramesOf_setDataLenPresent (b : Bool) (f : Frame) :
    controlFramesOf [setDataLenPresent b f] = controlFramesOf [f] := by
  cases f <;> rfl

theorem splitsInto_setLast {lost P Q : List StreamFrame} {frames : List Frame} {last : Frame}
    (b : Bool) (hl : frames.getLast? = some last)
    (h : SplitsInto PiecesOf lost (P ++ streamFramesOf frames ++ Q)) :
    SplitsInto PiecesOf lost (P ++ streamFramesOf (frames.dropLast ++ [setDataLenPresent b last]) ++ Q) := by
  rw [← List.dropLast_append_getLast? last hl] at h
  cases last with
  | stream sf =>
    have h' : SplitsInto PiecesOf lost ((P ++ streamFramesOf frames.dropLast) ++ sf :: Q) := by
      simpa using h
    simpa [setDataLenPresent] using h'.bind PiecesOf.refine (PiecesOf.withDataLen sf b)
  | _ => simpa [setDataLenPresent] using h

theorem controlFramesOf_setLast {frames : List Frame} {last : Frame} (b : Bool)
    (hl : frames.getLast? = some last) :
    controlFramesOf (frames.dropLast ++ [setDataLenPresent b last]) = controlFramesOf frames := by
  conv_rhs => rw [← List.dropLast_append_getLast? last hl]
  simp

namespace packetPacker

/-- `sortFrames` keeps the control frames in order, and the STREAM frames in order with their data
length. -/
theorem sortFrames_eq (frames : List Frame) :
    sortFrames frames = (controlFramesOf frames,
      (streamFramesOf frames).map fun sf => { sf with DataLenPresent := true }) := by
  induction frames with
  | nil => rfl
  | cons f frames ih =>
    cases f <;> simp only [sortFrames, ih, streamFramesOf, controlFramesOf, List.filterMap_cons,
      List.filter_cons, Frame.asStreamFrame, Option.isNone_some, Option.isNone_none,
      List.map_cons] <;> rfl

/-- A round of `packStreamFrames` packs pieces: the STREAM frames packed before, those it appends
and those left to pack stay the lost frames split into pieces, and what is left ends within the
64 bits of an offset. It appends no control frame. -/
theorem packStreamFrames_splits {maxSize : UInt64} {lost P : List StreamFrame}
    {streamFrames : List StreamFrame} {frames : List Frame} {length : UInt64}
    {r : List StreamFrame × List Frame × UInt64}
    (h : packStreamFrames maxSize streamFrames frames length = .ok r)
    (hs : SplitsInto PiecesOf lost (P ++ streamFramesOf frames ++ streamFrames))
    (hfits : ∀ f ∈ streamFrames, f.EndFits) :
    SplitsInto PiecesOf lost (P ++ streamFramesOf r.2.1 ++ r.1) ∧ (∀ f ∈ r.1, f.EndFits) ∧
      controlFramesOf r.2.1 = controlFramesOf frames := by
  fun_induction packStreamFrames maxSize streamFrames frames length generalizing r with
  | case1 frames length =>
    obtain rfl := Except.ok.inj h
    exact ⟨hs, hfits, rfl⟩
  | case2 | case3 | case5 => cases h
  | case4 frames length frame rest hroom sf frame' hsplit L hL ih =>
    obtain ⟨hpieces, hrest⟩ := PiecesOf.split hsplit (hfits frame (by simp))
    have hs' := hs.bind PiecesOf.refine hpieces
    obtain ⟨hs'', hfits', hctl⟩ := ih h (by simpa using hs') (by
      intro g hg
      rcases List.mem_cons.mp hg with rfl | hg
      · exact hrest
      · exact hfits g (by simp [hg]))
    exact ⟨hs'', hfits', by simpa using hctl⟩
  | case6 frames length frame rest hroom frame' hnone L hL ih =>
    obtain ⟨rfl, -⟩ := StreamFrame.MaybeSplitOffFrame_none hnone
    have hs' := hs.bind PiecesOf.refine (PiecesOf.withDataLen frame true)
    obtain ⟨hs'', hfits', hctl⟩ := ih h (by simpa using hs')
      (fun g hg => hfits g (by simp [hg]))
    exact ⟨hs'', hfits', by simpa using hctl⟩
  | case7 frames length frame rest hroom =>
    obtain rfl := Except.ok.inj h
    exact ⟨hs, hfits, rfl⟩

section Loop

variable {ε : Type} (p : packetPacker) (env : packerEnv ε)

/-! ### Rounds of the loops, one equation for each -/

theorem packStreamFrames_nil {maxSize : UInt64} {frames : List Frame} {length : UInt64} :
    packStreamFrames maxSize [] frames length = .ok ([], frames, length) := by
  rw [packStreamFrames]
  rfl

theorem packStreamFrames_whole {maxSize : UInt64} {frame : StreamFrame} {rest : List StreamFrame}
    {frames : List Frame} {length L : UInt64} (hroom : length + MinStreamFrameSize < maxSize)
    (hfits : ({ frame with DataLenPresent := false } : StreamFrame).MaybeSplitOffFrame
      (maxSize - length) = .ok (none, { frame with DataLenPresent := false }))
    (hL : ({ frame with DataLenPresent := true } : StreamFrame).Length = some L) :
    packStreamFrames maxSize (frame :: rest) frames length =
      packStreamFrames maxSize rest (frames ++ [.stream { frame with DataLenPresent := true }])
        (length + L) := by
  rw [packStreamFrames, if_pos hroom]
  split
  · simp_all
  · simp_all
  · rename_i frame' h
    rw [hfits] at h
    obtain rfl := (Prod.mk.inj (Except.ok.inj h)).2
    split <;> simp_all

/-- A STREAM frame that does not fit whole is split: the piece split off is packed, and what is left
of it stays first, with its data length. -/
theorem packStreamFrames_split {maxSize : UInt64} {frame sf frame' : StreamFrame}
    {rest : List StreamFrame} {frames : List Frame} {length L : UInt64}
    (hroom : length + MinStreamFrameSize < maxSize)
    (hsplit : ({ frame with DataLenPresent := false } : StreamFrame).MaybeSplitOffFrame
      (maxSize - length) = .ok (some sf, frame'))
    (hL : sf.Length = some L) :
    packStreamFrames maxSize (frame :: rest) frames length =
      packStreamFrames maxSize ({ frame' with DataLenPresent := true } :: rest)
        (frames ++ [.stream sf]) (length + L) := by
  rw [packStreamFrames, if_pos hroom]
  split
  · simp_all
  · rename_i sf' frame'' h
    rw [hsplit] at h
    obtain ⟨hsf, rfl⟩ := Prod.mk.inj (Except.ok.inj h)
    obtain rfl := Option.some.inj hsf
    split <;> simp_all
  · simp_all

theorem packStreamFrames_full {maxSize : UInt64} {frame : StreamFrame} {rest : List StreamFrame}
    {frames : List Frame} {length : UInt64} (hfull : ¬length + MinStreamFrameSize < maxSize) :
    packStreamFrames maxSize (frame :: rest) frames length = .ok (frame :: rest, frames, length) := by
  rw [packStreamFrames, if_neg hfull]
  rfl

theorem packRetransmissionLoop_done {e : ε} {encLevel : EncryptionLevel} {sealer : Sealer}
    {packets : List packedPacket} :
    p.packRetransmissionLoop env e encLevel sealer [] [] packets = .ok (packets, e) := by
  rw [packRetransmissionLoop]
  rfl

theorem packRetransmissionLoop_round {e e' : ε} {encLevel : EncryptionLevel} {sealer : Sealer}
    {controlFrames controlFrames' frames₀ frames : List Frame}
    {streamFrames streamFrames' : List StreamFrame} {packets : List packedPacket}
    {headerLen length length' : UInt64} {last : Frame} {packet : packedPacket}
    (hne : ¬(controlFrames = [] ∧ streamFrames = []))
    (hH : (p.getHeader env e encLevel).GetLength = some headerLen)
    (hc : framerI.appendControlFramesLoop (p.maxPacketSize - sealer.Overhead.toUInt64 - headerLen)
      controlFrames [] 0 = some (frames₀, length, controlFrames'))
    (hs : packStreamFrames (p.maxPacketSize - sealer.Overhead.toUInt64 - headerLen) streamFrames
      frames₀ length = .ok (streamFrames', frames, length'))
    (hl : frames.getLast? = some last)
    (hw : p.writeAndSealPacket env e (p.getHeader env e encLevel)
      (frames.dropLast ++ [setDataLenPresent false last]) encLevel sealer = .ok (packet, e')) :
    p.packRetransmissionLoop env e encLevel sealer controlFrames streamFrames packets =
      p.packRetransmissionLoop env e' encLevel sealer controlFrames' streamFrames'
        (packets ++ [packet]) := by
  rw [packRetransmissionLoop, if_neg hne]
  simp only [hH]
  split
  · simp_all
  rename_i hc'
  simp only [hc, Option.some.injEq, Prod.mk.injEq] at hc'
  obtain ⟨rfl, rfl, rfl⟩ := hc'
  split
  · simp_all
  rename_i hs'
  simp only [hs, Except.ok.injEq, Prod.mk.injEq] at hs'
  obtain ⟨rfl, rfl, rfl⟩ := hs'
  split
  · simp_all
  rename_i hl'
  obtain rfl := Option.some.inj (hl.symm.trans hl')
  split
  · simp_all
  rename_i hw'
  obtain ⟨rfl, rfl⟩ := Prod.mk.inj (Except.ok.inj (hw.symm.trans hw'))
  rfl

/-! ### What a retransmission keeps -/

/-- Every round of `packRetransmissionLoop` keeps the frames of the lost packet: the control frames
packed and those left are the lost control frames in order, and the STREAM frames packed and those
left are the lost STREAM frames split into pieces. -/
theorem packRetransmissionLoop_keeps {encLevel : EncryptionLevel} {sealer : Sealer}
    {lostControl : List Frame} {lost : List StreamFrame} {e : ε} {controlFrames : List Frame}
    {streamFrames : List StreamFrame} {packets : List packedPacket} {r : List packedPacket × ε}
    (h : p.packRetransmissionLoop env e encLevel sealer controlFrames streamFrames packets = .ok r)
    (hctl : controlFramesOf (packets.flatMap (·.frames)) ++ controlFrames = lostControl)
    (hnone : ∀ f ∈ controlFrames, f.asStreamFrame = none)
    (hs : SplitsInto PiecesOf lost (streamFramesOf (packets.flatMap (·.frames)) ++ streamFrames))
    (hfits : ∀ f ∈ streamFrames, f.EndFits) :
    controlFramesOf (r.1.flatMap (·.frames)) = lostControl ∧
      SplitsInto PiecesOf lost (streamFramesOf (r.1.flatMap (·.frames))) := by
  fun_induction p.packRetransmissionLoop env e encLevel sealer controlFrames streamFrames packets
    generalizing r with
  | case1 e controlFrames streamFrames packets hdone =>
    obtain rfl := Except.ok.inj h
    obtain ⟨rfl, rfl⟩ := hdone
    exact ⟨by simpa using hctl, by simpa using hs⟩
  | case2 | case3 | case4 | case5 | case6 => cases h
  | case7 e controlFrames streamFrames packets hne header L hL maxSize frames₀ length
      controlFrames' hc streamFrames' frames _ hpack last hl packet e' hw =>
    rename_i ih
    obtain ⟨taken, -, hsplit, hframes, -, -, -⟩ := framerI.appendControlFramesLoop_spec hc
    dsimp only at hsplit hframes
    have htaken : ∀ f ∈ taken, f.asStreamFrame = none :=
      fun f hf => hnone f (by rw [hsplit]; exact List.mem_append_left _ hf)
    have hs₀ : SplitsInto PiecesOf lost
        (streamFramesOf (packets.flatMap (·.frames)) ++ streamFramesOf frames₀ ++ streamFrames) := by
      rw [hframes, List.nil_append, streamFramesOf_eq_nil htaken, List.append_nil]
      exact hs
    obtain ⟨hs', hfits', hctl'⟩ := packStreamFrames_splits hpack hs₀ hfits
    dsimp only at hs' hfits' hctl'
    have hpf : ∃ b, packet.frames = frames.dropLast ++ [setDataLenPresent b last] := by
      obtain ⟨buffer, payloadOffset, -, hwp, -⟩ := writeAndSealPacket_ok p env hw
      obtain ⟨last', hl', hpf⟩ := writePacket_frames p hwp
      simp only [List.getLast?_concat, Option.some.injEq] at hl'
      subst hl'
      rw [List.dropLast_concat] at hpf
      split_ifs at hpf
      · exact ⟨true, by simpa using hpf⟩
      · exact ⟨false, hpf⟩
    obtain ⟨b, hpf⟩ := hpf
    refine ih h ?_ (fun f hf => hnone f (by rw [hsplit]; exact List.mem_append_right _ hf)) ?_ hfits'
    · rw [← hctl, hsplit, List.flatMap_append, List.flatMap_singleton, hpf, controlFramesOf_append,
        controlFramesOf_setLast b hl, hctl', hframes, List.nil_append, controlFramesOf_eq_self htaken,
        List.append_assoc]
    · rw [List.flatMap_append, List.flatMap_singleton, hpf, streamFramesOf_append]
      exact splitsInto_setLast b hl hs'

/-- A retransmission keeps the frames of the lost packet: the packets that `PackRetransmission`
returns carry its control frames in their order, each once, and its STREAM frames in their order,
split into pieces, when the data of each ends within the 64 bits of an offset. -/
theorem PackRetransmission_keeps_frames {e e' : ε} {packet : Packet} {packets : List packedPacket}
    (h : p.PackRetransmission env e packet = .ok (packets, e'))
    (hfits : ∀ f ∈ streamFramesOf packet.Frames, f.EndFits) :
    controlFramesOf (packets.flatMap (·.frames)) = controlFramesOf packet.Frames ∧
      SplitsInto PiecesOf (streamFramesOf packet.Frames)
        (streamFramesOf (packets.flatMap (·.frames))) := by
  unfold PackRetransmission at h
  rw [sortFrames_eq] at h
  dsimp only at h
  split at h
  · cases h
  refine packRetransmissionLoop_keeps p env h (by simp) ?_ ?_ ?_
  · intro f hf
    simpa [controlFramesOf] using (List.mem_filter.mp hf).2
  · simpa using SplitsInto.map fun f _ => PiecesOf.withDataLen f true
  · simpa [StreamFrame.EndFits] using hfits

/-- A sealer for examples: sixteen zero bytes of overhead, and no header protection. -/
def testSealer : Sealer where
  Overhead := 16
  Seal src _ _ := src ++ List.replicate 16 0
  seal_length _ _ _ := by simp
  EncryptHeader _ firstByte pnBytes := (firstByte, pnBytes)

/-- The objects of a server for examples, at the 1-RTT level: packet number 7 on two bytes, and
nothing queued. -/
def testEnv : packerEnv Unit where
  PeekPacketNumber _ _ := (7, PacketNumberLen2)
  PopPacketNumber _ _ := (7, ())
  GetSealer _ := (.Encryption1RTT, testSealer)
  GetSealerWithEncryptionLevel _ _ := some testSealer
  HasData _ _ := false
  PopCryptoFrame _ _ _ := none
  AppendStreamFrames _ frames _ := some (frames, ())
  AppendControlFrames _ frames _ := some ((frames, 0), ())
  GetAckFrame _ _ := (none, ())

/-- A server's packer whose peer allows packets of 200 bytes. -/
def testPacker : packetPacker :=
  (newPacketPacker [1, 2, 3, 4] [5, 6, 7, 8] (.udp true) .PerspectiveServer 0xff00001d)
    |>.HandleTransportParameters 200

/-- A lost 1-RTT packet with a PING and 300 bytes of a stream, more than a packet of 200 bytes
holds. -/
def lostPacket : Packet :=
  { PacketNumber := 3, PacketType := .PacketTypeNone, Length := 320, SendTime := 0,
    EncryptionLevel := .Encryption1RTT,
    Frames := [.ping, .stream ⟨4, true, false, 0, List.replicate 300 7⟩] }

set_option maxRecDepth 20000 in
/-- The lost packet goes out again in two packets: the PING and the first 174 bytes, then the
other 126 bytes with the FIN bit. -/
theorem PackRetransmission_keeps_frames_split :
    ∃ packets, testPacker.PackRetransmission testEnv () lostPacket = .ok (packets, ()) ∧
      packets.length = 2 ∧ (∀ f ∈ streamFramesOf lostPacket.Frames, f.EndFits) ∧
      controlFramesOf (packets.flatMap (·.frames)) = controlFramesOf lostPacket.Frames ∧
      SplitsInto PiecesOf (streamFramesOf lostPacket.Frames)
        (streamFramesOf (packets.flatMap (·.frames))) := by
  obtain ⟨packet₁, hw₁⟩ : ∃ packet, testPacker.writeAndSealPacket testEnv ()
      (testPacker.getHeader testEnv () .Encryption1RTT)
      [.ping, .stream ⟨4, false, false, 0, List.replicate 174 7⟩] .Encryption1RTT testSealer =
      .ok (packet, ()) := ⟨_, rfl⟩
  have hs₁ : packStreamFrames 177 [⟨4, true, true, 0, List.replicate 300 7⟩] [.ping] 1 =
      .ok ([⟨4, true, true, 174, List.replicate 126 7⟩],
        [.ping, .stream ⟨4, false, false, 0, List.replicate 174 7⟩], 177) := by
    rw [packStreamFrames_split (by decide) rfl rfl, packStreamFrames_full (by decide)]
    rfl
  obtain ⟨packet₂, hw₂⟩ : ∃ packet, testPacker.writeAndSealPacket testEnv ()
      (testPacker.getHeader testEnv () .Encryption1RTT)
      [.stream ⟨4, true, false, 174, List.replicate 126 7⟩] .Encryption1RTT testSealer =
      .ok (packet, ()) := ⟨_, rfl⟩
  have hs₂ : packStreamFrames 177 [⟨4, true, true, 174, List.replicate 126 7⟩] [] 0 =
      .ok ([], [.stream ⟨4, true, true, 174, List.replicate 126 7⟩], 132) := by
    rw [packStreamFrames_whole (by decide) rfl rfl, packStreamFrames_nil]
    rfl
  have hround₁ : testPacker.packRetransmissionLoop testEnv () .Encryption1RTT testSealer [.ping]
      [⟨4, true, true, 0, List.replicate 300 7⟩] [] =
      testPacker.packRetransmissionLoop testEnv () .Encryption1RTT testSealer []
        [⟨4, true, true, 174, List.replicate 126 7⟩] [packet₁] :=
    packRetransmissionLoop_round testPacker testEnv (by decide) rfl rfl hs₁ rfl hw₁
  have hround₂ : testPacker.packRetransmissionLoop testEnv () .Encryption1RTT testSealer []
      [⟨4, true, true, 174, List.replicate 126 7⟩] [packet₁] =
      testPacker.packRetransmissionLoop testEnv () .Encryption1RTT testSealer [] []
        [packet₁, packet₂] :=
    packRetransmissionLoop_round testPacker testEnv (by decide) rfl rfl hs₂ rfl hw₂
  have h : testPacker.PackRetransmission testEnv () lostPacket = .ok ([packet₁, packet₂], ()) := by
    unfold PackRetransmission
    rw [← packRetransmissionLoop_done testPacker testEnv, ← hround₂, ← hround₁]
    rfl
  have hfits : ∀ f ∈ streamFramesOf lostPacket.Frames, f.EndFits := by
    simp [lostPacket, streamFramesOf, Frame.asStreamFrame, StreamFrame.EndFits]
  exact ⟨[packet₁, packet₂], h, rfl, hfits,
    PackRetransmission_keeps_frames testPacker testEnv h hfits⟩

end Loop

end packetPacker

end QuicGo
