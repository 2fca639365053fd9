import QuicGo.Protocol.Types

/-! The frame types of `internal/wire`, with the accessors of `AckFrame` and `AckRange` that the
ack handlers use. Byte slices are lists of bytes; fixed-size arrays are vectors. -/
namespace QuicGo.Wire
open QuicGo.Protocol

/-- `wire.AckRange`: the packet numbers `Smallest ..= Largest`. -/
structure AckRange where
  Smallest : Nat
  Largest : Nat
  deriving DecidableEq, Repr, Inhabited

/-- The number of packets in the range. -/
def AckRange.Len (r : AckRange) : Nat :=
  r.Largest - r.Smallest + 1

/-- `wire.AckFrame`. The ranges are ordered from the highest to the lowest. -/
structure AckFrame where
  AckRanges : List AckRange
  DelayTime : Int
  deriving DecidableEq, Repr, Inhabited

namespace AckFrame

/-- `LargestAcked` indexes `AckRanges[0]`; on a frame without ranges the Go code panics, which
the model returns as `none`. -/
def LargestAcked (f : AckFrame) : Option Nat :=
  f.AckRanges.head?.map (·.Largest)

/-- `LowestAcked` indexes the last range, with the same panic on an empty frame. -/
def LowestAcked (f : AckFrame) : Option Nat :=
  f.AckRanges.getLast?.map (·.Smallest)

/-- Whether the frame reports any missing packets. -/
def HasMissingRanges (f : AckFrame) : Bool :=
  f.AckRanges.length > 1

/-- Consecutive ranges (highest first) leave a gap of at least one packet number. -/
def rangesSeparated : List AckRange → Bool
  | [] => true
  | [_] => true
  | r₁ :: r₂ :: rs => decide (r₂.Smallest < r₁.Smallest) && decide (r₂.Largest + 1 < r₁.Smallest) &&
      rangesSeparated (r₂ :: rs)

/-- `validateAckRanges`: at least one range, every range well formed, and the ranges strictly
descending with gaps between them. -/
def validateAckRanges (f : AckFrame) : Bool :=
  !f.AckRanges.isEmpty && f.AckRanges.all (fun r => decide (r.Smallest ≤ r.Largest)) &&
    rangesSeparated f.AckRanges

/-- `sort.Search` over the ranges, as a linear search for the first index whose range starts at
or below `p`. The source's binary search returns the same index when the ranges are in descending
order, as in every frame that passes `validateAckRanges`; on other lists the two may differ. -/
def searchRanges (p : Nat) : List AckRange → Nat
  | [] => 0
  | r :: rs => if p ≥ r.Smallest then 0 else searchRanges p rs + 1

/-- `AcksPacket`: the first range (highest first) that starts at or below `p`, found by
`searchRanges` where the source uses `sort.Search`, acks `p` when `p` does not exceed its end. -/
def AcksPacket (f : AckFrame) (p : Nat) : Option Bool := do
  let lowest ← f.LowestAcked
  let largest ← f.LargestAcked
  if p < lowest ∨ p > largest then return false
  let i := searchRanges p f.AckRanges
  return decide (p ≤ (f.AckRanges.getD i default).Largest)

end AckFrame

/-- `wire.StreamFrame` -/
structure StreamFrame where
  StreamID : Nat
  FinBit : Bool
  DataLenPresent : Bool
  Offset : UInt64
  Data : List UInt8
  deriving DecidableEq, Repr, Inhabited

/-- `DataLen` is the length of the frame's data. -/
def StreamFrame.DataLen (f : StreamFrame) : UInt64 :=
  f.Data.length.toUInt64

/-- `wire.CryptoFrame` -/
structure CryptoFrame where
  Offset : UInt64
  Data : List UInt8
  deriving DecidableEq, Repr, Inhabited

/-- `wire.MaxStreamsFrame` -/
structure MaxStreamsFrame where
  «Type» : StreamType
  MaxStreams : Nat
  deriving DecidableEq, Repr, Inhabited

/-- `wire.StreamsBlockedFrame` -/
structure StreamsBlockedFrame where
  «Type» : StreamType
  StreamLimit : Nat
  deriving DecidableEq, Repr, Inhabited

/-- `wire.ResetStreamFrame` -/
structure ResetStreamFrame where
  StreamID : Nat
  ErrorCode : UInt16
  ByteOffset : UInt64
  deriving DecidableEq, Repr, Inhabited

/-- `wire.StopSendingFrame` -/
structure StopSendingFrame where
  StreamID : Nat
  ErrorCode : UInt16
  deriving DecidableEq, Repr, Inhabited

/-- `wire.ConnectionCloseFrame`. A Go `string` holds any bytes, so the reason phrase is a list
of bytes. -/
structure ConnectionCloseFrame where
  IsApplicationError : Bool
  ErrorCode : UInt16
  ReasonPhrase : List UInt8
  deriving DecidableEq, Repr, Inhabited

/-- `wire.NewConnectionIDFrame` -/
structure NewConnectionIDFrame where
  SequenceNumber : Nat
  ConnectionID : List UInt8
  StatelessResetToken : Vector UInt8 16
  deriving DecidableEq, Repr

/-- The implementations of the `wire.Frame` interface. -/
inductive Frame where
  | ack (f : AckFrame)
  | connectionClose (f : ConnectionCloseFrame)
  | crypto (f : CryptoFrame)
  | dataBlocked (DataLimit : UInt64)
  | maxData (ByteOffset : UInt64)
  | maxStreamData (StreamID : Nat) (ByteOffset : UInt64)
  | maxStreams (f : MaxStreamsFrame)
  | newConnectionID (f : NewConnectionIDFrame)
  | newToken (Token : List UInt8)
  | pathChallenge (Data : Vector UInt8 8)
  | pathResponse (Data : Vector UInt8 8)
  | ping
  | resetStream (f : ResetStreamFrame)
  | retireConnectionID (SequenceNumber : Nat)
  | stopSending (f : StopSendingFrame)
  | streamDataBlocked (StreamID : Nat) (DataLimit : UInt64)
  | stream (f : StreamFrame)
  | streamsBlocked (f : StreamsBlockedFrame)
  deriving DecidableEq, Repr

end QuicGo.Wire
