import Mathlib.Data.UInt
import Mathlib.Tactic.Ring

/-! Basic types of `internal/protocol`: encryption levels, packet types, perspectives and stream
IDs. Packet numbers and stream IDs, `uint64` in the source, are `Nat`: the code keeps them below
`2^62`, and where its arithmetic can wrap, as in `MaxStreamID`, the model reduces modulo `2^64`. -/
namespace QuicGo.Protocol

/-- `protocol.MaxByteCount`, the maximum value of a `ByteCount` -/
def MaxByteCount : UInt64 := 2 ^ 62 - 1

set_option maxRecDepth 10000 in
theorem MaxByteCount_toNat : MaxByteCount.toNat = 2 ^ 62 - 1 := rfl

/-- `protocol.MaxReceivePacketSize`: ethernet's 1500 bytes less the IPv6 and UDP headers -/
def MaxReceivePacketSize : UInt64 := 1452

/-- `protocol.MaxAckDelayExponent`, the largest ack delay exponent a peer may announce -/
def MaxAckDelayExponent : Nat := 20

/-- `protocol.DefaultAckDelayExponent` -/
def DefaultAckDelayExponent : UInt8 := 3

/-- `protocol.MinRemoteIdleTimeout`, five seconds in nanoseconds -/
def MinRemoteIdleTimeout : Int := 5 * 1000000000

/-- `protocol.EncryptionLevel` -/
inductive EncryptionLevel where
  | EncryptionUnspecified
  | EncryptionInitial
  | EncryptionHandshake
  | Encryption1RTT
  deriving DecidableEq, Repr, Inhabited

/-- `protocol.PacketType` -/
inductive PacketType where
  | PacketTypeNone
  | PacketTypeInitial
  | PacketTypeRetry
  | PacketTypeHandshake
  | PacketType0RTT
  deriving DecidableEq, Repr, Inhabited

/-- `protocol.Perspective` -/
inductive Perspective where
  | PerspectiveServer
  | PerspectiveClient
  deriving DecidableEq, Repr, Inhabited

open Perspective

/-- The perspective of the peer. -/
def Perspective.Opposite : Perspective → Perspective
  | PerspectiveServer => PerspectiveClient
  | PerspectiveClient => PerspectiveServer

/-- `protocol.StreamType` -/
inductive StreamType where
  | StreamTypeUni
  | StreamTypeBidi
  deriving DecidableEq, Repr, Inhabited

open StreamType

/-- Whether the client or the server opened the stream. -/
def StreamID.InitiatedBy (s : Nat) : Perspective :=
  if s % 2 = 0 then PerspectiveClient else PerspectiveServer

/-- Whether the stream is unidirectional or bidirectional. -/
def StreamID.Type (s : Nat) : StreamType :=
  if s % 4 ≥ 2 then StreamTypeUni else StreamTypeBidi

/-- How many streams of the class of `s` lie at or below `s`. -/
def StreamID.StreamNum (s : Nat) : Nat :=
  s / 4 + 1

/-- The highest stream ID a peer may open when it may open `numStreams` streams; the
`uint64` product wraps modulo `2^64`. -/
def MaxStreamID (stype : StreamType) (numStreams : Nat) (pers : Perspective) : Nat :=
  if numStreams = 0 then 0
  else
    let first : Nat :=
      match stype, pers with
      | StreamTypeBidi, PerspectiveClient => 0
      | StreamTypeBidi, PerspectiveServer => 1
      | StreamTypeUni, PerspectiveClient => 2
      | StreamTypeUni, PerspectiveServer => 3
    (first + 4 * (numStreams - 1)) % 2 ^ 64

/-- The first valid stream ID of a class. -/
def FirstStream (stype : StreamType) (pers : Perspective) : Nat :=
  MaxStreamID stype 1 pers

@[simp] theorem FirstStream_bidi_client : FirstStream StreamTypeBidi PerspectiveClient = 0 := rfl
@[simp] theorem FirstStream_bidi_server : FirstStream StreamTypeBidi PerspectiveServer = 1 := rfl
@[simp] theorem FirstStream_uni_client : FirstStream StreamTypeUni PerspectiveClient = 2 := rfl
@[simp] theorem FirstStream_uni_server : FirstStream StreamTypeUni PerspectiveServer = 3 := rfl

theorem FirstStream_lt_four (stype : StreamType) (pers : Perspective) :
    FirstStream stype pers < 4 := by
  cases stype <;> cases pers <;> decide

@[simp] theorem MaxStreamID_zero (stype : StreamType) (pers : Perspective) :
    MaxStreamID stype 0 pers = 0 := rfl

theorem MaxStreamID_succ (stype : StreamType) (n : Nat) (pers : Perspective) :
    MaxStreamID stype (n + 1) pers = (FirstStream stype pers + 4 * n) % 2 ^ 64 := by
  cases stype <;> cases pers <;> simp [MaxStreamID, FirstStream]

theorem MaxStreamID_succ_of_lt (stype : StreamType) (n : Nat) (pers : Perspective)
    (hn : n < 2 ^ 61) : MaxStreamID stype (n + 1) pers = FirstStream stype pers + 4 * n := by
  have hf := FirstStream_lt_four stype pers
  rw [MaxStreamID_succ]
  exact Nat.mod_eq_of_lt (by omega)

end QuicGo.Protocol
