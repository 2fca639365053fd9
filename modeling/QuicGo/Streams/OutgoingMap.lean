import Mathlib.Data.List.AList
import QuicGo.Wire.Frames

/-! `outgoingItemsMap` of `streams_map_outgoing_generic.go`: the streams this endpoint opens, up
to the stream ID the peer allows. The limit is a stream ID together with a `maxStreamSet` flag,
since stream ID `0` is itself a valid ID. -/
namespace QuicGo.Streams
open QuicGo.Protocol QuicGo.Wire

/-- The state of an `outgoingItemsMap`; `queuedFrames` records the STREAMS_BLOCKED frames handed
to `queueStreamIDBlocked`, oldest first. -/
structure outgoingItemsMap (item : Type) where
  streams : AList (fun _ : Nat => item)
  nextStream : Nat
  maxStream : Nat
  maxStreamSet : Bool
  blockedSent : Bool
  closeErr : Option String
  queuedFrames : List StreamsBlockedFrame

namespace outgoingItemsMap

variable {item : Type} (streamTypeGeneric : StreamType) (newStream : Nat → item)

def errTooManyOpenStreams : String := "too many open streams"

def newOutgoingItemsMap (nextStream : Nat) : outgoingItemsMap item where
  streams := ∅
  nextStream := nextStream
  maxStream := 0
  maxStreamSet := false
  blockedSent := false
  closeErr := none
  queuedFrames := []

/-- `openStreamImpl`. A call that hits the limit queues one STREAMS_BLOCKED frame for the current
limit, unless one was sent already, and fails with `errTooManyOpenStreams`; the state it leaves
is returned in both cases. -/
def openStreamImpl (m : outgoingItemsMap item) : Except String item × outgoingItemsMap item :=
  match m.closeErr with
  | some err => (.error err, m)
  | none =>
    if !m.maxStreamSet || m.nextStream > m.maxStream then
      if !m.blockedSent then
        (.error errTooManyOpenStreams,
          { m with
            blockedSent := true
            queuedFrames := m.queuedFrames ++
              [{ «Type» := streamTypeGeneric
                 StreamLimit := if m.maxStreamSet then StreamID.StreamNum m.maxStream else 0 }] })
      else (.error errTooManyOpenStreams, m)
    else
      let s := newStream m.nextStream
      (.ok s, { m with streams := m.streams.insert m.nextStream s, nextStream := m.nextStream + 4 })

/-- `OpenStream` is one attempt; its error is wrapped in `streamOpenErr`, which keeps the
message. `OpenStreamSync` repeats the same attempt each time it is woken up. -/
def OpenStream (m : outgoingItemsMap item) : Except String item × outgoingItemsMap item :=
  openStreamImpl streamTypeGeneric newStream m

def GetStream (m : outgoingItemsMap item) (id : Nat) : Except String (Option item) :=
  if id ≥ m.nextStream then .error s!"peer attempted to open stream {id}"
  else .ok (m.streams.lookup id)

def DeleteStream (m : outgoingItemsMap item) (id : Nat) : Except String (outgoingItemsMap item) :=
  if id ∉ m.streams then .error s!"Tried to delete unknown stream {id}"
  else .ok { m with streams := m.streams.erase id }

/-- `SetMaxStream` only ever raises the limit, and re-arms the STREAMS_BLOCKED frame. -/
def SetMaxStream (m : outgoingItemsMap item) (id : Nat) : outgoingItemsMap item :=
  if !m.maxStreamSet || id > m.maxStream then
    { m with maxStream := id, maxStreamSet := true, blockedSent := false }
  else m

def CloseWithError (m : outgoingItemsMap item) (err : String) : outgoingItemsMap item :=
  { m with closeErr := some err }

/-- The calls on the map: limits arrive as `SetMaxStream (MaxStreamID stype n pers)` from the
transport parameters and MAX_STREAMS frames. -/
inductive Event where
  | setMaxStream (n : Nat)
  | openStream
  | delete (id : Nat)

/-- One call; an attempt to open that fails still changes the state. -/
def step (stype : StreamType) (pers : Perspective) (m : outgoingItemsMap item) :
    Event → Option (outgoingItemsMap item)
  | .setMaxStream n => some (SetMaxStream m (MaxStreamID stype n pers))
  | .openStream => some (OpenStream streamTypeGeneric newStream m).2
  | .delete id => (DeleteStream m id).toOption

/-- With the limit `MaxStreamID stype 0 pers = 0`, a client may still open bidirectional stream
`0`: the peer's limit of zero streams lets one stream through. -/
theorem OpenStream_opens_stream_zero_at_limit_zero :
    let m : outgoingItemsMap item :=
      SetMaxStream (newOutgoingItemsMap (FirstStream .StreamTypeBidi .PerspectiveClient))
        (MaxStreamID .StreamTypeBidi 0 .PerspectiveClient)
    (OpenStream streamTypeGeneric newStream m).1 = .ok (newStream 0) ∧
      (OpenStream streamTypeGeneric newStream m).2.streams.keys.length = 1 := by
  simp [OpenStream, openStreamImpl, SetMaxStream, newOutgoingItemsMap]

end outgoingItemsMap

end QuicGo.Streams
