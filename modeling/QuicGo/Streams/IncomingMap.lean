import Mathlib.Data.List.AList
import Mathlib.Data.Finset.Insert
import QuicGo.Wire.Frames

/-! `incomingItemsMap` of `streams_map_incoming_generic.go`: the streams a peer opens, the limit
it may open up to, and the MAX_STREAMS frames that raise the limit when streams are deleted.
The genny template parameters, the stream type and the stream constructor, are parameters. -/
namespace QuicGo.Streams
open QuicGo.Protocol QuicGo.Wire

/-- The state of an `incomingItemsMap`. The Go map of streams is an association list; the
`queueMaxStreamID` callback is recorded as the list of frames it was handed, oldest first. -/
structure incomingItemsMap (item : Type) where
  streams : AList (fun _ : Nat => item)
  streamsToDelete : Finset Nat
  nextStreamToAccept : Nat
  nextStreamToOpen : Nat
  maxStream : Nat
  maxNumStreams : Nat
  closeErr : Option String
  queuedFrames : List MaxStreamsFrame

namespace incomingItemsMap

variable {item : Type} (streamTypeGeneric : StreamType) (newStream : Nat → item)

def newIncomingItemsMap (nextStreamToAccept initialMaxStreamID maxNumStreams : Nat) :
    incomingItemsMap item where
  streams := ∅
  streamsToDelete := ∅
  nextStreamToAccept := nextStreamToAccept
  nextStreamToOpen := nextStreamToAccept
  maxStream := initialMaxStreamID
  maxNumStreams := maxNumStreams
  closeErr := none
  queuedFrames := []

/-- The loop of `GetOrOpenStream` that creates the `count` streams `newID, newID + 4, ...`. -/
def openStreams (streams : AList (fun _ : Nat => item)) : Nat → Nat → AList (fun _ : Nat => item)
  | _, 0 => streams
  | newID, count + 1 => openStreams (streams.insert newID (newStream newID)) (newID + 4) count

/-- `deleteStream`: a stream that was not accepted yet is only marked; otherwise it is removed
and the peer is allowed one more stream. -/
def deleteStream (m : incomingItemsMap item) (id : Nat) : Except String (incomingItemsMap item) :=
  if id ∉ m.streams then .error s!"Tried to delete unknown stream {id}"
  else if id ≥ m.nextStreamToAccept then
    if id ∈ m.streamsToDelete then .error s!"Tried to delete stream {id} multiple times"
    else .ok { m with streamsToDelete := insert id m.streamsToDelete }
  else
    let streams := m.streams.erase id
    if m.maxNumStreams > streams.keys.length then
      let numNewStreams := m.maxNumStreams - streams.keys.length
      -- the `uint64` sum wraps modulo 2^64
      let maxStream := (m.nextStreamToOpen + (numNewStreams - 1) * 4) % 2 ^ 64
      .ok { m with streams := streams, maxStream := maxStream,
                   queuedFrames := m.queuedFrames ++
                     [{ «Type» := streamTypeGeneric, MaxStreams := StreamID.StreamNum maxStream }] }
    else .ok { m with streams := streams }

def DeleteStream (m : incomingItemsMap item) (id : Nat) : Except String (incomingItemsMap item) :=
  deleteStream streamTypeGeneric m id

/-- `AcceptStream` blocks until the next stream exists or the map is closed; a call that would
block forever is `none`. -/
def AcceptStream (m : incomingItemsMap item) :
    Option (Except String (item × incomingItemsMap item)) :=
  match m.closeErr with
  | some err => some (.error err)
  | none =>
    let id := m.nextStreamToAccept
    match m.streams.lookup id with
    | none => none
    | some str =>
      let m := { m with nextStreamToAccept := m.nextStreamToAccept + 4 }
      -- a stream completed before it was accepted is deleted now
      if id ∈ m.streamsToDelete then
        let m := { m with streamsToDelete := m.streamsToDelete.erase id }
        some ((deleteStream streamTypeGeneric m id).map fun m => (str, m))
      else some (.ok (str, m))

/-- `GetOrOpenStream`: streams below `nextStreamToOpen` are looked up (a stream waiting to be
deleted is reported as absent); a new ID opens it and every lower stream of its class. -/
def GetOrOpenStream (m : incomingItemsMap item) (id : Nat) :
    Except String (Option item × incomingItemsMap item) :=
  if id > m.maxStream then
    .error s!"peer tried to open stream {id} (current limit: {m.maxStream})"
  else if id < m.nextStreamToOpen then
    .ok (if id ∈ m.streamsToDelete then none else m.streams.lookup id, m)
  else
    let streams := openStreams newStream m.streams m.nextStreamToOpen
      ((id - m.nextStreamToOpen) / 4 + 1)
    .ok (streams.lookup id, { m with streams := streams, nextStreamToOpen := id + 4 })

def CloseWithError (m : incomingItemsMap item) (err : String) : incomingItemsMap item :=
  { m with closeErr := some err }

/-- The calls the session makes on the map. -/
inductive Event where
  | getOrOpen (id : Nat)
  | accept
  | delete (id : Nat)

/-- One call; a call that fails or blocks is no transition. -/
def step (m : incomingItemsMap item) : Event → Option (incomingItemsMap item)
  | .getOrOpen id => (GetOrOpenStream newStream m id).toOption.map Prod.snd
  | .accept => (AcceptStream streamTypeGeneric m).bind fun r => r.toOption.map Prod.snd
  | .delete id => (DeleteStream streamTypeGeneric m id).toOption

/-- The peer names streams of the map's class, by IDs parsed from varints. -/
def admissible (first : Nat) : incomingItemsMap item → Event → Prop
  | _, .getOrOpen id => id % 4 = first ∧ id < 2 ^ 62
  | _, _ => True

instance (first : Nat) (m : incomingItemsMap item) :
    (e : Event) → Decidable (admissible first m e)
  | .getOrOpen id => inferInstanceAs (Decidable (id % 4 = first ∧ id < 2 ^ 62))
  | .accept => inferInstanceAs (Decidable True)
  | .delete _ => inferInstanceAs (Decidable True)

/-- With a limit of zero streams, `MaxStreamID` still names stream `0`, so a server whose
configuration allows no incoming bidirectional streams lets the client open stream `0`. -/
theorem GetOrOpenStream_opens_stream_zero_at_limit_zero :
    let m : incomingItemsMap item := newIncomingItemsMap
      (FirstStream .StreamTypeBidi .PerspectiveClient) (MaxStreamID .StreamTypeBidi 0 .PerspectiveClient) 0
    ∃ m', GetOrOpenStream newStream m 0 = .ok (some (newStream 0), m') ∧
      m'.streams.keys.length = 1 ∧ m'.maxNumStreams = 0 := by
  simp [GetOrOpenStream, newIncomingItemsMap, openStreams, AList.lookup, AList.singleton_entries]

end incomingItemsMap

end QuicGo.Streams
