import QuicGo.Session.Framer
import QuicGo.Session.PacketHandlerMap
import QuicGo.Ackhandler.Packet

/-! The packet packer (`packet_packer.go`): it fills packets with frames and seals them.
`PackPacket` packs a crypto packet when an Initial or Handshake stream has data or an ACK is due
there, and otherwise a packet of the current level with the 1-RTT ACK, control frames and STREAM
frames. -/

namespace QuicGo.Protocol

/-- `protocol.MinInitialPacketSize`, an untyped constant of the source -/
def MinInitialPacketSize : Nat := 1200

/-- `protocol.MaxPacketSizeIPv4` -/
def MaxPacketSizeIPv4 : UInt64 := 1252

/-- `protocol.MaxPacketSizeIPv6` -/
def MaxPacketSizeIPv6 : UInt64 := 1232

/-- `protocol.MaxNonRetransmittableAcks` -/
def MaxNonRetransmittableAcks : Nat := 19

end QuicGo.Protocol

namespace QuicGo
open Protocol Wire Utils Lib Ackhandler

/-- `handshake.Sealer`. `Seal` returns the sealed payload for a packet number and the header as
associated data; `EncryptHeader` masks the first byte and the packet number bytes with a sample of
the sealed payload. -/
structure Sealer where
  Overhead : Nat
  Seal : List UInt8 → UInt64 → List UInt8 → List UInt8
  seal_length : ∀ src pn ad, (Seal src pn ad).length = src.length + Overhead
  EncryptHeader : List UInt8 → UInt8 → List UInt8 → UInt8 × List UInt8

/-- The errors of the packer. -/
inductive packerError where
  /-- the error of `GetSealerWithEncryptionLevel`: no sealer at that level -/
  | noSealer (encLevel : EncryptionLevel)
  /-- an error of writing a header or a frame, or of `MaybeSplitOffFrame` -/
  | write (err : Error)
  /-- "PacketPacker BUG: packet too large (%d bytes, allowed %d bytes)" -/
  | packetTooLarge (size allowed : UInt64)
  /-- "packetPacker BUG: Peeked and Popped packet numbers do not match" -/
  | packetNumberMismatch
  /-- a panic, with its message -/
  | panic (msg : String)
  deriving DecidableEq, Repr

/-- A panic of `VarIntLen`, or of a slice, as an error of the packer. -/
def orPanicWith {α : Type} (msg : String) : Option α → Except packerError α
  | some a => pure a
  | none => throw (.panic msg)

/-- Running a writer on the bytes written so far. -/
def runWriter (w : Writer) (buf : List UInt8) : Except packerError (List UInt8) :=
  match w.run buf with
  | .ok ((), buf) => pure buf
  | .error err => throw (.write err)

structure packedPacket where
  header : ExtendedHeader
  raw : List UInt8
  frames : List Frame
  buffer : packetBuffer
  deriving DecidableEq, Repr

namespace packedPacket

/-- `packedPacket.EncryptionLevel` -/
def EncryptionLevel (p : packedPacket) : Protocol.EncryptionLevel :=
  if !p.header.Header.IsLongHeader then .Encryption1RTT
  else match p.header.Header.«Type» with
    | .PacketTypeInitial => .EncryptionInitial
    | .PacketTypeHandshake => .EncryptionHandshake
    | _ => .EncryptionUnspecified

/-- `packedPacket.ToAckHandlerPacket`; `now` is the send time. -/
def ToAckHandlerPacket (p : packedPacket) (now : Int) : Packet :=
  { PacketNumber := p.header.PacketNumber.toNat
    PacketType := p.header.Header.«Type»
    Frames := p.frames
    Length := p.raw.length.toUInt64
    EncryptionLevel := p.EncryptionLevel
    SendTime := now }

end packedPacket

/-- The remote address as far as `getMaxPacketSize` reads it: a UDP address, with or without an
IPv4 form, or an address of another kind. -/
inductive remoteAddr where
  | udp (isIPv4 : Bool)
  | other
  deriving DecidableEq, Repr

def getMaxPacketSize : remoteAddr → UInt64
  | .udp true => MaxPacketSizeIPv4
  | .udp false => MaxPacketSizeIPv6
  | .other => MinInitialPacketSize.toUInt64

/-- The objects that the packer calls, over the state they share: `packetNumberManager`,
`sealingManager`, the Initial and the Handshake crypto stream (by encryption level), `frameSource`
and `ackFrameSource`. A panic of a callee is `none`. -/
structure packerEnv (ε : Type) where
  PeekPacketNumber : ε → EncryptionLevel → UInt64 × PacketNumberLen
  PopPacketNumber : ε → EncryptionLevel → UInt64 × ε
  GetSealer : ε → EncryptionLevel × Sealer
  GetSealerWithEncryptionLevel : ε → EncryptionLevel → Option Sealer
  HasData : ε → EncryptionLevel → Bool
  PopCryptoFrame : ε → EncryptionLevel → UInt64 → Option (CryptoFrame × ε)
  AppendStreamFrames : ε → List Frame → UInt64 → Option (List Frame × ε)
  AppendControlFrames : ε → List Frame → UInt64 → Option ((List Frame × UInt64) × ε)
  GetAckFrame : ε → EncryptionLevel → Option AckFrame × ε

/-- The fields of `packetPacker` that it reads and writes itself; the objects it calls are
`packerEnv`. -/
structure packetPacker where
  destConnID : List UInt8
  srcConnID : List UInt8
  perspective : Perspective
  version : VersionNumber
  token : List UInt8
  maxPacketSize : UInt64
  numNonRetransmittableAcks : Nat
  deriving DecidableEq, Repr

/-- Setting `DataLenPresent` of a STREAM frame; other frames have no such field. -/
def setDataLenPresent (b : Bool) : Frame → Frame
  | .stream f => .stream { f with DataLenPresent := b }
  | f => f

namespace packetPacker

variable {ε : Type} (p : packetPacker) (env : packerEnv ε)

def newPacketPacker (destConnID srcConnID : List UInt8) (addr : remoteAddr)
    (perspective : Perspective) (version : VersionNumber) : packetPacker :=
  { destConnID, srcConnID, perspective, version, token := [],
    maxPacketSize := getMaxPacketSize addr, numNonRetransmittableAcks := 0 }

/-- `getHeader`: a short header at the 1-RTT level, and a long header with a packet number of
four bytes and the maximum packet size as its length otherwise. -/
def getHeader (e : ε) (encLevel : EncryptionLevel) : ExtendedHeader :=
  let (pn, pnLen) := env.PeekPacketNumber e encLevel
  let header : ExtendedHeader :=
    { Header := { Version := p.version, DestConnectionID := p.destConnID },
      PacketNumber := pn, PacketNumberLen := pnLen }
  if encLevel ≠ .Encryption1RTT then
    { header with
      Header := { header.Header with
        IsLongHeader := true
        SrcConnectionID := p.srcConnID
        Length := p.maxPacketSize
        «Type» := match encLevel with
          | .EncryptionInitial => .PacketTypeInitial
          | .EncryptionHandshake => .PacketTypeHandshake
          | _ => header.Header.«Type» }
      PacketNumberLen := PacketNumberLen4 }
  else header

/-- The length that `writeAndSealPacket` puts into a long header it does not pad: the overhead,
the packet number and the frames. `none` is a panic of a frame's `Length`. -/
def payloadLength (overhead : Nat) (pnLen : PacketNumberLen) (frames : List Frame) :
    Option UInt64 :=
  frames.foldlM (fun length frame => (length + ·) <$> frame.Length)
    (overhead.toUInt64 + pnLen.toUInt64)

/-- The header of `writeAndSealPacket`, with the client's token in an Initial packet and the
length of a long header: what the padding to `MinInitialPacketSize` leaves in a client's Initial
packet, and the length of the payload otherwise. -/
def setLength (header : ExtendedHeader) (frames : List Frame) (sealer : Sealer) :
    Except packerError ExtendedHeader := do
  let addPaddingForInitial :=
    p.perspective = .PerspectiveClient ∧ header.Header.«Type» = .PacketTypeInitial
  if header.Header.IsLongHeader then
    let header := if p.perspective = .PerspectiveClient ∧
        header.Header.«Type» = .PacketTypeInitial then
      { header with Header := { header.Header with Token := p.token } }
    else header
    if addPaddingForInitial then
      let headerLen ← orPanicWith "VarIntLen: value doesn\x27t fit into 62 bits" header.GetLength
      pure { header with Header := { header.Header with
        Length := header.PacketNumberLen.toUInt64 + MinInitialPacketSize.toUInt64 - headerLen } }
    else
      let length ← orPanicWith "VarIntLen: value doesn\x27t fit into 62 bits"
        (payloadLength sealer.Overhead header.PacketNumberLen frames)
      pure { header with Header := { header.Header with Length := length } }
  else pure header

/-- The PADDING before the last frame that brings the packet number and the payload to four bytes,
so that the header protection finds its sample; `payloadLen` is the payload with the last frame. -/
def sampleRoom (pnLen : PacketNumberLen) (payloadLen : Nat) : List UInt8 :=
  let paddingLen : Int := 4 - pnLen.toNat - payloadLen
  if paddingLen > 0 then List.replicate paddingLen.toNat 0 else []

/-- The PADDING at the end of a client's Initial packet, up to `MinInitialPacketSize` bytes once
sealed. -/
def initialPadding (overhead : Nat) (bufLen : Nat) : List UInt8 :=
  let paddingLen : Int := MinInitialPacketSize - overhead - bufLen
  if paddingLen > 0 then List.replicate paddingLen.toNat 0 else []

/-- The bytes of the packet before sealing: the header, all frames but the last, the PADDING for
the sample, the last frame and the PADDING of a client's Initial packet. Returns them with the
length of the header and the frames as written, whose last frame has a data length when the packet
is padded to `MinInitialPacketSize`. -/
def writePacket (header : ExtendedHeader) (frames : List Frame) (sealer : Sealer) :
    Except packerError (List UInt8 × Nat × List Frame) := do
  let addPaddingForInitial :=
    p.perspective = .PerspectiveClient ∧ header.Header.«Type» = .PacketTypeInitial
  let buffer ← runWriter header.Write []
  let payloadOffset := buffer.length
  -- all frames but the last one; there is no last one to keep out of an empty list
  let some lastFrame := frames.getLast? | throw (.panic "slice bounds out of range")
  let buffer ← runWriter ((frames.dropLast).forM Frame.Write) buffer
  let lastFrame := if addPaddingForInitial then setDataLenPresent true lastFrame else lastFrame
  let buffer ← if addPaddingForInitial then pure buffer else do
    let lastLen ← orPanicWith "VarIntLen: value doesn\x27t fit into 62 bits" lastFrame.Length
    pure (buffer ++ sampleRoom header.PacketNumberLen
      (buffer.length - payloadOffset + lastLen.toNat))
  let buffer ← runWriter lastFrame.Write buffer
  let buffer := if addPaddingForInitial then
    buffer ++ initialPadding sealer.Overhead buffer.length else buffer
  pure (buffer, payloadOffset, frames.dropLast ++ [lastFrame])

/-- Sealing the bytes of a packet whose payload starts at `payloadOffset`, and masking its header
with a sample of sixteen bytes four bytes after the start of the packet number. The sample is
sliced from the pool buffer of `MaxReceivePacketSize` bytes, and where it runs past the packet it
reads bytes the packet does not use, zeros in a fresh buffer. -/
def sealPacket (header : ExtendedHeader) (buffer : List UInt8) (payloadOffset : Nat)
    (sealer : Sealer) : Except packerError (List UInt8) := do
  let raw := buffer.take payloadOffset ++
    sealer.Seal (buffer.drop payloadOffset) header.PacketNumber (buffer.take payloadOffset)
  if payloadOffset < header.PacketNumberLen.toNat then
    throw (.panic "slice bounds out of range")
  let pnOffset := payloadOffset - header.PacketNumberLen.toNat
  if MaxReceivePacketSize.toNat < pnOffset + 4 + 16 then
    throw (.panic "slice bounds out of range")
  let sample := ((raw ++ List.replicate 16 0).drop (pnOffset + 4)).take 16
  let (firstByte, pnBytes) := sealer.EncryptHeader sample (raw.headD 0)
    ((raw.drop pnOffset).take (payloadOffset - pnOffset))
  pure (firstByte :: (raw.take pnOffset).drop 1 ++ pnBytes ++ raw.drop payloadOffset)

def writeAndSealPacket (e : ε) (header : ExtendedHeader) (frames : List Frame)
    (encLevel : EncryptionLevel) (sealer : Sealer) : Except packerError (packedPacket × ε) := do
  let packetBuffer := getPacketBuffer
  let header ← p.setLength header frames sealer
  let (buffer, payloadOffset, frames) ← p.writePacket header frames sealer
  let size := (buffer.length + sealer.Overhead).toUInt64
  if size > p.maxPacketSize then throw (.packetTooLarge size p.maxPacketSize)
  let raw ← sealPacket header buffer payloadOffset sealer
  let (num, e) := env.PopPacketNumber e encLevel
  if num ≠ header.PacketNumber then throw .packetNumberMismatch
  pure ({ header, raw, frames, buffer := packetBuffer }, e)

/-- `writePacket` returns the frames it was given, the last one with its data length when it pads a
client's Initial packet. -/
theorem writePacket_frames {header : ExtendedHeader} {frames : List Frame} {sealer : Sealer}
    {r : List UInt8 × Nat × List Frame} (h : p.writePacket header frames sealer = .ok r) :
    ∃ last, frames.getLast? = some last ∧
      r.2.2 = frames.dropLast ++ [if p.perspective = .PerspectiveClient ∧
        header.Header.«Type» = .PacketTypeInitial then setDataLenPresent true last else last] := by
  unfold writePacket at h
  obtain ⟨buffer, -, h⟩ := Except.bind_eq_ok h
  cases hl : frames.getLast? with
  | none => simp [hl] at h
  | some last =>
    simp only [hl] at h
    obtain ⟨buffer, -, h⟩ := Except.bind_eq_ok h
    refine ⟨last, rfl, ?_⟩
    split_ifs at h with hpad
    · obtain ⟨buffer, -, h⟩ := Except.bind_eq_ok h
      obtain ⟨buffer, -, h⟩ := Except.bind_eq_ok h
      rw [← Except.ok.inj h, if_pos hpad]
    · obtain ⟨lastLen, -, h⟩ := Except.bind_eq_ok h
      obtain ⟨buffer, -, h⟩ := Except.bind_eq_ok h
      obtain ⟨buffer, -, h⟩ := Except.bind_eq_ok h
      rw [← Except.ok.inj h, if_neg hpad]

/-- What a sealed packet is made of: the header with its length, the bytes that `writePacket`
wrote, at most `maxPacketSize` of them once sealed, the sealed bytes, and the packet number that
the packet number manager handed out. -/
theorem writeAndSealPacket_ok {e e' : ε} {header : ExtendedHeader} {frames : List Frame}
    {encLevel : EncryptionLevel} {sealer : Sealer} {pp : packedPacket}
    (h : p.writeAndSealPacket env e header frames encLevel sealer = .ok (pp, e')) :
    ∃ buffer payloadOffset, p.setLength header frames sealer = .ok pp.header ∧
      p.writePacket pp.header frames sealer = .ok (buffer, payloadOffset, pp.frames) ∧
      (buffer.length + sealer.Overhead).toUInt64 ≤ p.maxPacketSize ∧
      sealPacket pp.header buffer payloadOffset sealer = .ok pp.raw ∧
      env.PopPacketNumber e encLevel = (pp.header.PacketNumber, e') ∧
      pp.buffer = getPacketBuffer := by
  unfold writeAndSealPacket at h
  dsimp only at h
  obtain ⟨header', hlen, h⟩ := Except.bind_eq_ok h
  obtain ⟨⟨buffer, payloadOffset, frames'⟩, hw, h⟩ := Except.bind_eq_ok h
  dsimp only at h
  by_cases hsize : (buffer.length + sealer.Overhead).toUInt64 > p.maxPacketSize
  · rw [if_pos hsize] at h
    cases h
  rw [if_neg hsize] at h
  obtain ⟨raw, hseal, h⟩ := Except.bind_eq_ok h
  by_cases hnum : (env.PopPacketNumber e encLevel).1 ≠ header'.PacketNumber
  · rw [if_pos hnum] at h
    cases h
  rw [if_neg hnum] at h
  obtain ⟨rfl, rfl⟩ := Prod.mk.inj (Except.ok.inj h)
  exact ⟨buffer, payloadOffset, hlen, hw, UInt64.not_lt.mp hsize, hseal,
    Prod.ext (not_not.mp hnum) rfl, rfl⟩

def PackConnectionClose (e : ε) (ccf : ConnectionCloseFrame) :
    Except packerError (packedPacket × ε) :=
  let (encLevel, sealer) := env.GetSealer e
  p.writeAndSealPacket env e (p.getHeader env e encLevel) [.connectionClose ccf] encLevel sealer

def MaybePackAckPacket (e : ε) : Except packerError (Option packedPacket × ε) :=
  match env.GetAckFrame e .Encryption1RTT with
  | (none, e) => pure (none, e)
  | (some ack, e) => do
    -- the ACK is sealed at the level of the current sealer
    let (encLevel, sealer) := env.GetSealer e
    let (packet, e) ← p.writeAndSealPacket env e (p.getHeader env e encLevel) [.ack ack] encLevel
      sealer
    pure (some packet, e)

/-- `composeNextPacket`: the 1-RTT ACK, control frames, and STREAM frames with one byte more,
since the last of them drops its data length. -/
def composeNextPacket (e : ε) (maxFrameSize : UInt64) : Except packerError (List Frame × ε) := do
  -- ACKs need to go first, so that the sentPacketHandler will recognize them
  let (ack, e) := env.GetAckFrame e .Encryption1RTT
  let (frames, length) ← match ack with
    | some ack => do
      let ackLen ← orPanicWith "index out of range" ack.Length
      pure ([Frame.ack ack], ackLen)
    | none => pure ([], 0)
  let ((frames, lengthAdded), e) ← orPanicWith "VarIntLen: value doesn\x27t fit into 62 bits"
    (env.AppendControlFrames e frames (maxFrameSize - length))
  let length := length + lengthAdded
  let maxFrameSize := maxFrameSize + 1
  let (frames, e) ← orPanicWith "VarIntLen: value doesn\x27t fit into 62 bits"
    (env.AppendStreamFrames e frames (maxFrameSize - length))
  let frames := match frames.getLast? with
    | some (.stream sf) => frames.dropLast ++ [.stream { sf with DataLenPresent := false }]
    | _ => frames
  pure (frames, e)

/-- `maybePackCryptoPacket`: a packet of the Initial level if its crypto stream has data or an ACK
is due there, and else one of the Handshake level on the same condition. -/
def maybePackCryptoPacket (e : ε) : Except packerError (Option packedPacket × ε) := do
  let hasData := env.HasData e .EncryptionInitial
  let (ack, e) := env.GetAckFrame e .EncryptionInitial
  let (level, hasData, ack, e) :=
    if hasData || ack.isSome then (some EncryptionLevel.EncryptionInitial, hasData, ack, e)
    else
      let hasData := env.HasData e .EncryptionHandshake
      let (ack, e) := env.GetAckFrame e .EncryptionHandshake
      if hasData || ack.isSome then (some .EncryptionHandshake, hasData, ack, e)
      else (none, hasData, ack, e)
  let some encLevel := level | pure (none, e)
  let some sealer := env.GetSealerWithEncryptionLevel e encLevel | throw (.noSealer encLevel)
  let hdr := p.getHeader env e encLevel
  let hdrLen ← orPanicWith "VarIntLen: value doesn\x27t fit into 62 bits" hdr.GetLength
  let (frames, length) ← match ack with
    | some ack => do
      let ackLen ← orPanicWith "index out of range" ack.Length
      pure ([Frame.ack ack], ackLen)
    | none => pure ([], 0)
  let (frames, e) ← if hasData then do
      let (cf, e) ← orPanicWith "VarIntLen: value doesn\x27t fit into 62 bits"
        (env.PopCryptoFrame e encLevel
          (p.maxPacketSize - hdrLen - sealer.Overhead.toUInt64 - length))
      pure (frames ++ [Frame.crypto cf], e)
    else pure (frames, e)
  let (packet, e) ← p.writeAndSealPacket env e hdr frames encLevel sealer
  pure (some packet, e)

/-- After a packet without retransmittable frames the count of such packets in a row grows, and
the one after `MaxNonRetransmittableAcks` of them gets a PING; a retransmittable packet resets
it. -/
def addPing (frames : List Frame) : List Frame × packetPacker :=
  if !HasRetransmittableFrames frames then
    if p.numNonRetransmittableAcks ≥ MaxNonRetransmittableAcks then
      (frames ++ [.ping], { p with numNonRetransmittableAcks := 0 })
    else (frames, { p with numNonRetransmittableAcks := p.numNonRetransmittableAcks + 1 })
  else (frames, { p with numNonRetransmittableAcks := 0 })

def PackPacket (e : ε) : Except packerError (Option packedPacket × packetPacker × ε) := do
  let (packet, e) ← p.maybePackCryptoPacket env e
  if let some packet := packet then return (some packet, p, e)
  let (encLevel, sealer) := env.GetSealer e
  let header := p.getHeader env e encLevel
  let headerLen ← orPanicWith "VarIntLen: value doesn\x27t fit into 62 bits" header.GetLength
  let maxSize := p.maxPacketSize - sealer.Overhead.toUInt64 - headerLen
  let (frames, e) ← composeNextPacket env e maxSize
  -- check if we have enough frames to send
  if frames.length = 0 then return (none, p, e)
  let (frames, p) := p.addPing frames
  let (packet, e) ← p.writeAndSealPacket env e header frames encLevel sealer
  pure (some packet, p, e)

def ChangeDestConnectionID (connID : List UInt8) : packetPacker :=
  { p with destConnID := connID }

def SetToken (token : List UInt8) : packetPacker :=
  { p with token }

/-- `HandleTransportParameters`, of which the packer reads the maximum packet size. -/
def HandleTransportParameters (MaxPacketSize : UInt64) : packetPacker :=
  if MaxPacketSize ≠ 0 then { p with maxPacketSize := min p.maxPacketSize MaxPacketSize } else p

/-! ### Retransmissions -/

/-- The frames of a packet to retransmit as `PackRetransmission` sorts them: the STREAM frames, each
given its data length, and the others, CRYPTO frames among them, as control frames. -/
def sortFrames : List Frame → List Frame × List StreamFrame
  | [] => ([], [])
  | .stream sf :: fs => ((sortFrames fs).1, { sf with DataLenPresent := true } :: (sortFrames fs).2)
  | f :: fs => (f :: (sortFrames fs).1, (sortFrames fs).2)

/-- What is left of the STREAM frames to retransmit: a round for each frame and for each byte. -/
def streamWork (streamFrames : List StreamFrame) : Nat :=
  (streamFrames.map fun f => f.Data.length + 1).sum

/-- The second loop of a packet of `PackRetransmission`: STREAM frames while more than
`MinStreamFrameSize` bytes are left. Each frame is sized without its data length; one that does
not fit whole is split, and what is left of it stays first, with its data length. A frame added
whole is counted with its data length. -/
def packStreamFrames (maxSize : UInt64) (streamFrames : List StreamFrame) (frames : List Frame)
    (length : UInt64) : Except packerError (List StreamFrame × List Frame × UInt64) :=
  match streamFrames with
  | [] => pure ([], frames, length)
  | frame :: rest =>
    if length + MinStreamFrameSize < maxSize then
      match h : ({ frame with DataLenPresent := false } : StreamFrame).MaybeSplitOffFrame
          (maxSize - length) with
      | .error err => throw (.write err)
      | .ok (some sf, frame') =>
        match sf.Length with
        | none => throw (.panic "VarIntLen: value doesn\x27t fit into 62 bits")
        | some L => packStreamFrames maxSize ({ frame' with DataLenPresent := true } :: rest)
            (frames ++ [.stream sf]) (length + L)
      | .ok (none, frame') =>
        match ({ frame' with DataLenPresent := true } : StreamFrame).Length with
        | none => throw (.panic "VarIntLen: value doesn\x27t fit into 62 bits")
        | some L => packStreamFrames maxSize rest
            (frames ++ [.stream { frame' with DataLenPresent := true }]) (length + L)
    else pure (streamFrames, frames, length)
termination_by streamWork streamFrames
decreasing_by
  · -- a split takes at least one byte off the frame
    obtain ⟨n, -, hn0, hle, -, rfl⟩ := StreamFrame.MaybeSplitOffFrame_some h
    have hn : n.toNat ≠ 0 := fun h0 => hn0 (UInt64.toNat_inj.mp (by rw [h0]; rfl))
    simp only [streamWork, List.map_cons, List.sum_cons, List.length_drop] at hle ⊢
    omega
  · simp only [streamWork, List.map_cons, List.sum_cons]
    omega

/-- The frames a run of `packStreamFrames` appends come after those it was given, and each of them
takes at least one round off the work left. -/
theorem packStreamFrames_progress {maxSize : UInt64} {streamFrames : List StreamFrame}
    {frames : List Frame} {length : UInt64} {r : List StreamFrame × List Frame × UInt64}
    (h : packStreamFrames maxSize streamFrames frames length = .ok r) :
    ∃ added, r.2.1 = frames ++ added ∧ streamWork r.1 + added.length ≤ streamWork streamFrames := by
  fun_induction packStreamFrames maxSize streamFrames frames length generalizing r with
  | case1 frames length =>
    obtain rfl := Except.ok.inj h
    exact ⟨[], by simp, by simp [streamWork]⟩
  | case2 | case3 | case5 => cases h
  | case4 frames length frame rest hroom sf frame' hsplit L hL ih =>
    obtain ⟨added, hr, hwork⟩ := ih h
    obtain ⟨n, -, hn0, hle, -, rfl⟩ := StreamFrame.MaybeSplitOffFrame_some hsplit
    have hn : n.toNat ≠ 0 := fun h0 => hn0 (UInt64.toNat_inj.mp (by rw [h0]; rfl))
    refine ⟨.stream sf :: added, by rw [hr]; simp, ?_⟩
    simp only [streamWork, List.map_cons, List.sum_cons, List.length_drop,
      List.length_cons] at hwork hle ⊢
    omega
  | case6 frames length frame rest hroom frame' hnone L hL ih =>
    obtain ⟨added, hr, hwork⟩ := ih h
    refine ⟨.stream { frame' with DataLenPresent := true } :: added, by rw [hr]; simp, ?_⟩
    simp only [streamWork, List.map_cons, List.sum_cons, List.length_cons] at hwork ⊢
    omega
  | case7 frames length frame rest hroom =>
    obtain rfl := Except.ok.inj h
    exact ⟨[], by simp, by simp⟩

/-- The work left of a retransmission: a round for each control frame, and the work of its STREAM
frames. -/
def retransmissionWork (controlFrames : List Frame) (streamFrames : List StreamFrame) : Nat :=
  controlFrames.length + streamWork streamFrames

/-- The loop of `PackRetransmission`: a packet each round, with the control frames that fit and
then STREAM frames, until no frame is left. The last frame of a packet drops its data length, and a
round that packed no frame panics on that. -/
def packRetransmissionLoop (e : ε) (encLevel : EncryptionLevel) (sealer : Sealer)
    (controlFrames : List Frame) (streamFrames : List StreamFrame) (packets : List packedPacket) :
    Except packerError (List packedPacket × ε) :=
  if controlFrames = [] ∧ streamFrames = [] then pure (packets, e)
  else
    let header := p.getHeader env e encLevel
    match header.GetLength with
    | none => throw (.panic "VarIntLen: value doesn\x27t fit into 62 bits")
    | some headerLen =>
      let maxSize := p.maxPacketSize - sealer.Overhead.toUInt64 - headerLen
      match hc : framerI.appendControlFramesLoop maxSize controlFrames [] 0 with
      | none => throw (.panic "VarIntLen: value doesn\x27t fit into 62 bits")
      | some (frames, length, controlFrames') =>
        match hs : packStreamFrames maxSize streamFrames frames length with
        | .error err => throw err
        | .ok (streamFrames', frames, _) =>
          match hl : frames.getLast? with
          | none => throw (.panic "index out of range [-1]")
          | some last =>
            match p.writeAndSealPacket env e header
                (frames.dropLast ++ [setDataLenPresent false last]) encLevel sealer with
            | .error err => throw err
            | .ok (packet, e) =>
              packRetransmissionLoop e encLevel sealer controlFrames' streamFrames'
                (packets ++ [packet])
termination_by retransmissionWork controlFrames streamFrames
decreasing_by
  -- the round packed some frame: a control frame, or a STREAM frame that took work off
  obtain ⟨taken, -, hsplit, hframes, -, -, -⟩ := framerI.appendControlFramesLoop_spec hc
  obtain ⟨added, hadded, hwork⟩ := packStreamFrames_progress hs
  dsimp only at hsplit hframes hadded hwork
  have hne : taken.length + added.length ≠ 0 := by
    intro h0
    have hnil : frames = [] := by
      rw [hadded, hframes, List.length_eq_zero_iff.mp (by omega : taken.length = 0),
        List.length_eq_zero_iff.mp (by omega : added.length = 0)]
      rfl
    rw [hnil] at hl
    cases hl
  have hlen := congrArg List.length hsplit
  simp only [List.length_append] at hlen
  simp only [retransmissionWork] at hwork ⊢
  omega

def PackRetransmission (e : ε) (packet : Packet) : Except packerError (List packedPacket × ε) :=
  let (controlFrames, streamFrames) := sortFrames packet.Frames
  let encLevel := packet.EncryptionLevel
  match env.GetSealerWithEncryptionLevel e encLevel with
  | none => throw (.noSealer encLevel)
  | some sealer => p.packRetransmissionLoop env e encLevel sealer controlFrames streamFrames []

end packetPacker

end QuicGo
