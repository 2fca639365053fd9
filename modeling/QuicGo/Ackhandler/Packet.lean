import QuicGo.Wire.Frames

/-! The packets of `internal/ackhandler` and the packet number generator of a packet number
space. The private fields of `Packet` carry the Go zero values as defaults, so that
`{ PacketNumber := .., .. }` is the packet that `ToAckHandlerPacket` builds. -/
namespace QuicGo.Ackhandler
open QuicGo.Protocol QuicGo.Wire

/-- `ackhandler.Packet`. `SendTime` is a time in nanoseconds. -/
structure Packet where
  PacketNumber : Nat
  PacketType : PacketType
  Frames : List Frame
  Length : UInt64
  EncryptionLevel : EncryptionLevel
  SendTime : Int
  largestAcked : Nat := 0
  canBeRetransmitted : Bool := false
  includedInBytesInFlight : Bool := false
  retransmittedAs : List Nat := []
  isRetransmission : Bool := false
  retransmissionOf : Nat := 0
  deriving Repr, Inhabited

/-- Only ACK frames are not retransmittable. -/
def IsFrameRetransmittable : Frame → Bool
  | .ack _ => false
  | _ => true

def stripNonRetransmittableFrames (fs : List Frame) : List Frame :=
  fs.filter IsFrameRetransmittable

def HasRetransmittableFrames (fs : List Frame) : Bool :=
  fs.any IsFrameRetransmittable

theorem stripNonRetransmittableFrames_ne_nil_iff (fs : List Frame) :
    stripNonRetransmittableFrames fs ≠ [] ↔ HasRetransmittableFrames fs = true := by
  simp [stripNonRetransmittableFrames, HasRetransmittableFrames, List.filter_eq_nil_iff]

/-- `protocol.MaxTrackedSkippedPackets` -/
def MaxTrackedSkippedPackets : Nat := 10

/-- `protocol.SkipPacketAveragePeriodLength` -/
def SkipPacketAveragePeriodLength : Nat := 500

/-- `packetNumberGenerator`: `history` holds the skipped packet numbers that are still
tracked. The random numbers of `getRandomNumber` are inputs of the operations that draw
them. -/
structure packetNumberGenerator where
  averagePeriod : Nat
  next : Nat
  nextToSkip : Nat
  history : List Nat
  deriving Repr, DecidableEq

namespace packetNumberGenerator

/-- The next skip lies at least two packet numbers ahead, so that two consecutive packet
numbers are never skipped; `math.MaxUint16 / 2` is the integer constant `32767`. -/
def generateNewSkip (p : packetNumberGenerator) (num : UInt16) : packetNumberGenerator :=
  let skip := num.toNat * (p.averagePeriod - 1) / (65535 / 2)
  { p with nextToSkip := p.next + 2 + skip }

def newPacketNumberGenerator (initial averagePeriod : Nat) (num : UInt16) :
    packetNumberGenerator :=
  generateNewSkip ⟨averagePeriod, initial, 0, []⟩ num

def Peek (p : packetNumberGenerator) : Nat :=
  p.next

/-- `Pop` returns the current packet number; when the following one is the number to skip,
it is recorded in `history` (dropping the oldest beyond `MaxTrackedSkippedPackets`) and a new
skip is drawn with `num`. -/
def Pop (p : packetNumberGenerator) (num : UInt16) : Nat × packetNumberGenerator :=
  let next := p.next
  let p := { p with next := p.next + 1 }
  if p.next = p.nextToSkip then
    let history := if p.history.length + 1 > MaxTrackedSkippedPackets then p.history.tail
      else p.history
    let p := { p with history := history ++ [p.next], next := p.next + 1 }
    (next, p.generateNewSkip num)
  else (next, p)

/-- `Validate` rejects an ACK that acknowledges a skipped packet number. `AcksPacket` panics on
a frame without ranges, which `ReceivedAck` has already ruled out. -/
def Validate (p : packetNumberGenerator) (ack : AckFrame) : Option Bool :=
  p.history.allM fun pn => (ack.AcksPacket pn).map (!·)

theorem Pop_fst (p : packetNumberGenerator) (num : UInt16) : (p.Pop num).1 = p.Peek := by
  simp only [Pop, Peek]
  split <;> rfl

theorem Peek_lt_Pop (p : packetNumberGenerator) (num : UInt16) : p.Peek < (p.Pop num).2.Peek := by
  simp only [Pop, Peek, generateNewSkip]
  split <;> (dsimp only; omega)

end packetNumberGenerator

end QuicGo.Ackhandler
