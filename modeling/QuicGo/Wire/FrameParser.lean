import QuicGo.Wire.FrameCodec

/-! `frameParser` (`internal/wire/frame_parser.go`) and the `Frame` interface. `ParseNext` skips
PADDING bytes and hands the frame that follows to `parseFrame`, which dispatches on its type byte
and reports every error as `qerr.InvalidFrameData`. -/
namespace QuicGo.Wire
open QuicGo.Utils QuicGo.Lib QuicGo.Protocol

/-- `frameParser`. Its version is passed to the parsers, none of which reads it. -/
structure frameParser where
  ackDelayExponent : UInt8
  deriving DecidableEq, Repr

def NewFrameParser : frameParser := ⟨0⟩

namespace frameParser

def SetAckDelayExponent (p : frameParser) (exp : UInt8) : frameParser :=
  { p with ackDelayExponent := exp }

/-- `frameParser.parseFrame`: the STREAM frames are the type bytes `0x8` to `0xf`; outside 1-RTT
packets an ACK frame has the default delay exponent. -/
def parseFrame (p : frameParser) (typeByte : UInt8) (encLevel : EncryptionLevel) :
    Reader Frame :=
  tryCatch
    (if typeByte &&& 0xf8 = 0x8 then parseStreamFrame
    else
      match typeByte with
      | 0x1 => parsePingFrame
      | 0x2 | 0x3 =>
        let ackDelayExponent :=
          if encLevel ≠ .Encryption1RTT then DefaultAckDelayExponent else p.ackDelayExponent
        Frame.ack <$> parseAckFrame ackDelayExponent.toNat
      | 0x4 => parseResetStreamFrame
      | 0x5 => parseStopSendingFrame
      | 0x6 => parseCryptoFrame
      | 0x7 => parseNewTokenFrame
      | 0x10 => parseMaxDataFrame
      | 0x11 => parseMaxStreamDataFrame
      | 0x12 | 0x13 => parseMaxStreamsFrame
      | 0x14 => parseDataBlockedFrame
      | 0x15 => parseStreamDataBlockedFrame
      | 0x16 | 0x17 => parseStreamsBlockedFrame
      | 0x18 => parseNewConnectionIDFrame
      | 0x19 => parseRetireConnectionIDFrame
      | 0x1a => parsePathChallengeFrame
      | 0x1b => parsePathResponseFrame
      | 0x1c | 0x1d => parseConnectionCloseFrame
      | _ => throw (.unknownTypeByte typeByte))
    fun err => throw (.invalidFrameData err)

/-- `frameParser.ParseNext`: the next frame, or none at the end of the packet. The type byte is
read, and unread before `parseFrame`. -/
def ParseNext (p : frameParser) (encLevel : EncryptionLevel) : Reader (Option Frame) := fun
  | [] => .ok (none, [])
  | typeByte :: r =>
    -- a PADDING frame
    if typeByte = 0x0 then p.ParseNext encLevel r
    else (some <$> p.parseFrame typeByte encLevel).run (typeByte :: r)

end frameParser

namespace Frame

/-- `Frame.Write` -/
def Write : Frame → Writer
  | .ack f => f.Write
  | .connectionClose f => f.Write
  | .crypto f => f.Write
  | .dataBlocked DataLimit => DataBlockedFrame.Write DataLimit
  | .maxData ByteOffset => MaxDataFrame.Write ByteOffset
  | .maxStreamData StreamID ByteOffset => MaxStreamDataFrame.Write StreamID ByteOffset
  | .maxStreams f => f.Write
  | .newConnectionID f => f.Write
  | .newToken Token => NewTokenFrame.Write Token
  | .pathChallenge Data => PathChallengeFrame.Write Data
  | .pathResponse Data => PathResponseFrame.Write Data
  | .ping => PingFrame.Write
  | .resetStream f => f.Write
  | .retireConnectionID SequenceNumber => RetireConnectionIDFrame.Write SequenceNumber
  | .stopSending f => f.Write
  | .streamDataBlocked StreamID DataLimit => StreamDataBlockedFrame.Write StreamID DataLimit
  | .stream f => f.Write
  | .streamsBlocked f => f.Write

/-- `Frame.Length`, `none` where the method panics. -/
def Length : Frame → Option UInt64
  | .ack f => f.Length
  | .connectionClose f => f.Length
  | .crypto f => f.Length
  | .dataBlocked DataLimit => DataBlockedFrame.Length DataLimit
  | .maxData ByteOffset => MaxDataFrame.Length ByteOffset
  | .maxStreamData StreamID ByteOffset => MaxStreamDataFrame.Length StreamID ByteOffset
  | .maxStreams f => f.Length
  | .newConnectionID f => f.Length
  | .newToken Token => NewTokenFrame.Length Token
  | .pathChallenge _ => some PathChallengeFrame.Length
  | .pathResponse _ => some PathResponseFrame.Length
  | .ping => some PingFrame.Length
  | .resetStream f => f.Length
  | .retireConnectionID SequenceNumber => RetireConnectionIDFrame.Length SequenceNumber
  | .stopSending f => f.Length
  | .streamDataBlocked StreamID DataLimit => StreamDataBlockedFrame.Length StreamID DataLimit
  | .stream f => f.Length
  | .streamsBlocked f => f.Length

/-- The values that `Write` writes as varints, the lengths of byte strings included. Those of an
ACK frame are derived from its ranges, and bounded by the hypotheses of `parseAckFrame_Write`
instead. -/
def varInts : Frame → List Nat
  | .ack _ => []
  | .connectionClose f => [f.ReasonPhrase.length]
  | .crypto f => [f.Offset.toNat, f.Data.length]
  | .dataBlocked DataLimit => [DataLimit.toNat]
  | .maxData ByteOffset => [ByteOffset.toNat]
  | .maxStreamData StreamID ByteOffset => [StreamID, ByteOffset.toNat]
  | .maxStreams f => [f.MaxStreams]
  | .newConnectionID f => [f.SequenceNumber]
  | .newToken Token => [Token.length]
  | .pathChallenge _ | .pathResponse _ | .ping => []
  | .resetStream f => [f.StreamID, f.ByteOffset.toNat]
  | .retireConnectionID SequenceNumber => [SequenceNumber]
  | .stopSending f => [f.StreamID]
  | .streamDataBlocked StreamID DataLimit => [StreamID, DataLimit.toNat]
  | .stream f => [f.StreamID, f.Offset.toNat, f.Data.length]
  | .streamsBlocked f => [f.StreamLimit]

/-- The length check of `NewConnectionIDFrame.Write`. -/
def connIDLenValid : Frame → Bool
  | .newConnectionID f => decide (4 ≤ f.ConnectionID.length ∧ f.ConnectionID.length ≤ 18)
  | _ => true

/-- What `Write` needs to write a frame as its parser reads it: every value it writes as a varint
below `2^62`, and a connection ID of 4 to 18 bytes. -/
def Encodable (f : Frame) : Prop :=
  (∀ v ∈ f.varInts, v < 2 ^ 62) ∧ f.connIDLenValid = true

instance (f : Frame) : Decidable f.Encodable :=
  inferInstanceAs (Decidable ((∀ v ∈ f.varInts, v < 2 ^ 62) ∧ f.connIDLenValid = true))

end Frame

/-! ### Parsing what `Write` writes -/

namespace frameParser

variable (p : frameParser) (encLevel : EncryptionLevel)

theorem ParseNext_padding (k : Nat) (s : List UInt8) :
    (p.ParseNext encLevel).run (List.replicate k 0 ++ s) = (p.ParseNext encLevel).run s := by
  induction k with
  | zero => rfl
  | succ k ih =>
    rw [List.replicate_succ, List.cons_append, ← ih]
    rfl

/-- A frame that `parseFrame` reads from its type byte on is what `ParseNext` returns, after any
number of PADDING bytes. -/
theorem ParseNext_decodes {t : UInt8} (ht : t ≠ 0) {l : List UInt8} {f : Frame}
    (hd : Decodes (p.parseFrame t encLevel) (t :: l) f) (k : Nat) :
    Decodes (p.ParseNext encLevel) (List.replicate k 0 ++ t :: l) (some f) := by
  intro rest
  rw [List.append_assoc, ParseNext_padding, List.cons_append]
  show (if t = 0 then _ else _) = _
  rw [if_neg ht]
  exact (hd.map some) rest

end frameParser

/-- Every frame other than ACK and STREAM that `Write` writes as its parser reads it starts with a
type byte other than PADDING, on which `parseFrame` dispatches to that parser, and is `Length`
bytes long. -/
theorem Frame.tagged (p : frameParser) (encLevel : EncryptionLevel) {f : Frame}
    (hf : f.Encodable) (hack : ∀ a, f ≠ .ack a) (hstream : ∀ s, f ≠ .stream s) :
    ∃ t L, t ≠ 0 ∧ f.Length = some L ∧ Tagged f.Write (p.parseFrame t encLevel) t f L.toNat := by
  obtain ⟨hv, hc⟩ := hf
  cases f with
  | ack a => exact absurd rfl (hack a)
  | stream s => exact absurd rfl (hstream s)
  | ping => exact ⟨0x1, _, by decide, rfl, PingFrame.tagged.congr fun _ hd => hd.tryCatch⟩
  | connectionClose f =>
    obtain ⟨L, hL, hT⟩ := ConnectionCloseFrame.tagged (hv f.ReasonPhrase.length (by simp [Frame.varInts]))
    cases h : f.IsApplicationError
    · rw [h, if_neg Bool.false_ne_true] at hT
      exact ⟨0x1c, L, by decide, hL, hT.congr fun _ hd => hd.tryCatch⟩
    · rw [h, if_pos rfl] at hT
      exact ⟨0x1d, L, by decide, hL, hT.congr fun _ hd => hd.tryCatch⟩
  | crypto f =>
    obtain ⟨L, hL, hT⟩ := CryptoFrame.tagged (hv f.Offset.toNat (by simp [Frame.varInts]))
      (hv f.Data.length (by simp [Frame.varInts]))
    exact ⟨0x6, L, by decide, hL, hT.congr fun _ hd => hd.tryCatch⟩
  | dataBlocked DataLimit =>
    obtain ⟨L, hL, hT⟩ := DataBlockedFrame.tagged (hv DataLimit.toNat (by simp [Frame.varInts]))
    exact ⟨0x14, L, by decide, hL, hT.congr fun _ hd => hd.tryCatch⟩
  | maxData ByteOffset =>
    obtain ⟨L, hL, hT⟩ := MaxDataFrame.tagged (hv ByteOffset.toNat (by simp [Frame.varInts]))
    exact ⟨0x10, L, by decide, hL, hT.congr fun _ hd => hd.tryCatch⟩
  | maxStreamData StreamID ByteOffset =>
    obtain ⟨L, hL, hT⟩ := MaxStreamDataFrame.tagged (hv StreamID (by simp [Frame.varInts]))
      (hv ByteOffset.toNat (by simp [Frame.varInts]))
    exact ⟨0x11, L, by decide, hL, hT.congr fun _ hd => hd.tryCatch⟩
  | maxStreams f =>
    obtain ⟨L, hL, hT⟩ := MaxStreamsFrame.tagged (hv f.MaxStreams (by simp [Frame.varInts]))
    cases h : f.Type
    · rw [h, if_neg (by decide)] at hT
      exact ⟨0x13, L, by decide, hL, hT.congr fun _ hd => hd.tryCatch⟩
    · rw [h, if_pos rfl] at hT
      exact ⟨0x12, L, by decide, hL, hT.congr fun _ hd => hd.tryCatch⟩
  | newConnectionID f =>
    have hlen : 4 ≤ f.ConnectionID.length ∧ f.ConnectionID.length ≤ 18 :=
      of_decide_eq_true hc
    obtain ⟨L, hL, hT⟩ := NewConnectionIDFrame.tagged (hv f.SequenceNumber (by simp [Frame.varInts]))
      hlen.1 hlen.2
    exact ⟨0x18, L, by decide, hL, hT.congr fun _ hd => hd.tryCatch⟩
  | newToken Token =>
    obtain ⟨L, hL, hT⟩ := NewTokenFrame.tagged (hv Token.length (by simp [Frame.varInts]))
    exact ⟨0x7, L, by decide, hL, hT.congr fun _ hd => hd.tryCatch⟩
  | pathChallenge Data =>
    exact ⟨0x1a, _, by decide, rfl, (PathChallengeFrame.tagged Data).congr fun _ hd => hd.tryCatch⟩
  | pathResponse Data =>
    exact ⟨0x1b, _, by decide, rfl, (PathResponseFrame.tagged Data).congr fun _ hd => hd.tryCatch⟩
  | resetStream f =>
    obtain ⟨L, hL, hT⟩ := ResetStreamFrame.tagged (hv f.StreamID (by simp [Frame.varInts]))
      (hv f.ByteOffset.toNat (by simp [Frame.varInts]))
    exact ⟨0x4, L, by decide, hL, hT.congr fun _ hd => hd.tryCatch⟩
  | retireConnectionID SequenceNumber =>
    obtain ⟨L, hL, hT⟩ := RetireConnectionIDFrame.tagged (hv SequenceNumber (by simp [Frame.varInts]))
    exact ⟨0x19, L, by decide, hL, hT.congr fun _ hd => hd.tryCatch⟩
  | stopSending f =>
    obtain ⟨L, hL, hT⟩ := StopSendingFrame.tagged (hv f.StreamID (by simp [Frame.varInts]))
    exact ⟨0x5, L, by decide, hL, hT.congr fun _ hd => hd.tryCatch⟩
  | streamDataBlocked StreamID DataLimit =>
    obtain ⟨L, hL, hT⟩ := StreamDataBlockedFrame.tagged (hv StreamID (by simp [Frame.varInts]))
      (hv DataLimit.toNat (by simp [Frame.varInts]))
    exact ⟨0x15, L, by decide, hL, hT.congr fun _ hd => hd.tryCatch⟩
  | streamsBlocked f =>
    obtain ⟨L, hL, hT⟩ := StreamsBlockedFrame.tagged (hv f.StreamLimit (by simp [Frame.varInts]))
    cases h : f.Type
    · rw [h, if_neg (by decide)] at hT
      exact ⟨0x17, L, by decide, hL, hT.congr fun _ hd => hd.tryCatch⟩
    · rw [h, if_pos rfl] at hT
      exact ⟨0x16, L, by decide, hL, hT.congr fun _ hd => hd.tryCatch⟩

/-- Every frame other than ACK and STREAM whose varints are below `2^62` and whose connection ID
has 4 to 18 bytes: `Write` writes `Length` bytes, from which `ParseNext`, after any number of
PADDING bytes, reads back the frame and stops at the end of its encoding. -/
theorem ParseNext_Write (p : frameParser) (encLevel : EncryptionLevel) {f : Frame}
    (hf : f.Encodable) (hack : ∀ a, f ≠ .ack a) (hstream : ∀ s, f ≠ .stream s) (k : Nat) :
    ∃ L bytes, f.Length = some L ∧ Emits f.Write bytes ∧ bytes.length = L.toNat ∧
      Decodes (p.ParseNext encLevel) (List.replicate k 0 ++ bytes) (some f) := by
  obtain ⟨t, L, ht, hL, l, hw, hl, hd⟩ := Frame.tagged p encLevel hf hack hstream
  refine ⟨L, t :: l, hL, hw, ?_, p.ParseNext_decodes encLevel ht hd k⟩
  rw [List.length_cons, hl]

theorem ParseNext_Write_newConnectionID :
    (Frame.newConnectionID ⟨1, [1, 2, 3, 4], Vector.replicate 16 7⟩).Encodable ∧
      (∀ a, Frame.newConnectionID ⟨1, [1, 2, 3, 4], Vector.replicate 16 7⟩ ≠ .ack a) ∧
      (∀ s, Frame.newConnectionID ⟨1, [1, 2, 3, 4], Vector.replicate 16 7⟩ ≠ .stream s) ∧
      ∃ L bytes, (Frame.newConnectionID ⟨1, [1, 2, 3, 4], Vector.replicate 16 7⟩).Length = some L ∧
        Emits (Frame.newConnectionID ⟨1, [1, 2, 3, 4], Vector.replicate 16 7⟩).Write bytes ∧
        bytes.length = L.toNat ∧
        Decodes (NewFrameParser.ParseNext .Encryption1RTT) (List.replicate 2 0 ++ bytes)
          (some (Frame.newConnectionID ⟨1, [1, 2, 3, 4], Vector.replicate 16 7⟩)) :=
  ⟨by decide, fun _ => nofun, fun _ => nofun,
    ParseNext_Write NewFrameParser .Encryption1RTT (by decide) (by intro _ h; cases h)
      (by intro _ h; cases h) 2⟩

end QuicGo.Wire
