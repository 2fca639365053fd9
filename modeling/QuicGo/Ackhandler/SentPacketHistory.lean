import Mathlib.Data.List.AList
import QuicGo.Ackhandler.Packet

/-! `sentPacketHistory`: the retransmittable packets of one packet number space in the order they
were sent. The linked list of `PacketList` is a list of element identities, and `elements` gives the
value each element holds; `packetMap` and `firstOutstanding` point at elements the way the Go
pointers do. -/
namespace QuicGo.Ackhandler

/-- The errors and panics of the ack handler, one constructor per error the source creates. -/
inductive AckhandlerError where
  /-- `qerr.Error(qerr.InvalidAckData, ErrorMessage)` -/
  | InvalidAckData (ErrorMessage : String)
  /-- the BUG of `determineNewlyAckedPackets` -/
  | ackedWrongPacket (pn smallest largest : Nat)
  /-- the BUG of `stopRetransmissionsFor` -/
  | retransmissionNotFound (r pn : Nat)
  /-- the BUG of `queuePacketForRetransmission` -/
  | alreadyQueued (pn : Nat)
  /-- `MarkCannotBeRetransmitted` of an unknown packet number -/
  | markedPacketNotFound (pn : Nat)
  /-- `Remove` of an unknown packet number -/
  | removedPacketNotFound (pn : Nat)
  /-- `DequeueProbePacket` without an outstanding packet -/
  | noOutstandingPackets
  /-- a Go panic, which ends the connection -/
  | panic (msg : String)
  deriving DecidableEq, Repr

/-- The `%#x` rendering of a packet number. -/
def hexPacketNumber (n : Nat) : String :=
  "0x" ++ String.ofList (Nat.toDigits 16 n)

/-- The texts of the errors, as the source formats them. -/
def AckhandlerError.Error : AckhandlerError → String
  | .InvalidAckData msg => "InvalidAckData: " ++ msg
  | .ackedWrongPacket pn smallest largest =>
    "BUG: ackhandler would have acked wrong packet " ++ hexPacketNumber pn ++
      ", while evaluating range " ++ hexPacketNumber smallest ++ " -> " ++ hexPacketNumber largest
  | .retransmissionNotFound r pn =>
    "sent packet handler BUG: marking packet as not retransmittable " ++ toString r ++
      " (retransmission of " ++ toString pn ++ ") not found in history"
  | .alreadyQueued pn =>
    "sent packet handler BUG: packet " ++ toString pn ++ " already queued for retransmission"
  | .markedPacketNotFound pn => "sent packet history: packet " ++ toString pn ++ " not found"
  | .removedPacketNotFound pn => "packet " ++ toString pn ++ " not found in sent packet history"
  | .noOutstandingPackets => "cannot dequeue a probe packet. No outstanding packets"
  | .panic msg => msg

/-- The errors that the source marks as bugs, and the lookups of the history that the handler
expects to succeed. -/
def AckhandlerError.IsBug : AckhandlerError → Prop
  | .ackedWrongPacket .. | .retransmissionNotFound .. | .alreadyQueued _
  | .markedPacketNotFound _ | .removedPacketNotFound _ => True
  | _ => False

@[ext]
structure sentPacketHistory where
  packetList : List Nat
  packetMap : AList (fun _ : Nat => Nat)
  numOutstandingPackets : Int
  firstOutstanding : Option Nat
  elements : Nat → Packet
  nextElement : Nat

namespace sentPacketHistory

def newSentPacketHistory : sentPacketHistory :=
  ⟨[], ∅, 0, none, fun _ => default, 0⟩

/-- `PushBack` allocates a new element holding a copy of the packet. -/
def sentPacketImpl (h : sentPacketHistory) (p : Packet) : sentPacketHistory × Nat :=
  let el := h.nextElement
  ({ packetList := h.packetList ++ [el]
     packetMap := h.packetMap.insert p.PacketNumber el
     numOutstandingPackets :=
       if p.canBeRetransmitted then h.numOutstandingPackets + 1 else h.numOutstandingPackets
     firstOutstanding := h.firstOutstanding.or (some el)
     elements := Function.update h.elements el p
     nextElement := el + 1 }, el)

def SentPacket (h : sentPacketHistory) (p : Packet) : sentPacketHistory :=
  (h.sentPacketImpl p).1

/-- A write through a pointer to an element. -/
def setElement (h : sentPacketHistory) (el : Nat) (f : Packet → Packet) : sentPacketHistory :=
  { h with elements := Function.update h.elements el (f (h.elements el)) }

/-- When the retransmitted packet is no longer in the history, the retransmissions are stored
as ordinary packets; otherwise they are linked to it both ways. -/
def SentPacketsAsRetransmission (h : sentPacketHistory) (packets : List Packet)
    (retransmissionOf : Nat) : sentPacketHistory :=
  match h.packetMap.lookup retransmissionOf with
  | none => packets.foldl (fun h p => h.SentPacket p) h
  | some retransmission =>
    let h := h.setElement retransmission fun v =>
      { v with retransmittedAs := packets.map (·.PacketNumber) }
    packets.foldl (fun h packet =>
      let (h, el) := h.sentPacketImpl packet
      h.setElement el fun v => { v with isRetransmission := true, retransmissionOf }) h

/-- The pointer to the element of a packet number. -/
def GetPacket (h : sentPacketHistory) (p : Nat) : Option Nat :=
  h.packetMap.lookup p

/-- `Iterate` hands each element, front to back, to the callback, which returns whether to
continue; its error ends the iteration. -/
def Iterate {σ ε : Type} (h : sentPacketHistory) (cb : σ → Nat → Packet → Except ε (Bool × σ))
    (s : σ) : Except ε σ :=
  go h.packetList s
where
  go : List Nat → σ → Except ε σ
    | [], s => .ok s
    | el :: rest, s => do
      let (cont, s) ← cb s el (h.elements el)
      if cont then go rest s else .ok s

def FirstOutstanding (h : sentPacketHistory) : Option Nat :=
  h.firstOutstanding

/-- The elements that follow `el` in the list, the chain of `Next()`; empty when `el` is not
in the list. -/
def nextElements (el : Nat) : List Nat → List Nat
  | [] => []
  | x :: xs => if x = el then xs else nextElements el xs

/-- The source calls it only when `firstOutstanding` is set; on `nil` it would dereference a
nil pointer. -/
def readjustFirstOutstanding (h : sentPacketHistory) : sentPacketHistory :=
  match h.firstOutstanding with
  | none => h
  | some fo =>
    { h with
      firstOutstanding :=
        (nextElements fo h.packetList).find? fun el => (h.elements el).canBeRetransmitted }

/-- The decrement of `numOutstandingPackets` for a packet leaving the outstanding ones, with
the panic of the source when it would become negative. -/
def decrementOutstanding (h : sentPacketHistory) (v : Packet) : Except AckhandlerError Int :=
  if v.canBeRetransmitted then
    if h.numOutstandingPackets - 1 < 0 then .error (.panic "numOutstandingHandshakePackets negative")
    else .ok (h.numOutstandingPackets - 1)
  else .ok h.numOutstandingPackets

def MarkCannotBeRetransmitted (h : sentPacketHistory) (pn : Nat) :
    Except AckhandlerError sentPacketHistory :=
  match h.packetMap.lookup pn with
  | none => .error (.markedPacketNotFound pn)
  | some el => do
    let num ← h.decrementOutstanding (h.elements el)
    let h := { h.setElement el fun v => { v with canBeRetransmitted := false } with
      numOutstandingPackets := num }
    pure (if h.firstOutstanding = some el then h.readjustFirstOutstanding else h)

def Len (h : sentPacketHistory) : Nat :=
  h.packetMap.keys.length

def Remove (h : sentPacketHistory) (p : Nat) : Except AckhandlerError sentPacketHistory :=
  match h.packetMap.lookup p with
  | none => .error (.removedPacketNotFound p)
  | some el => do
    let h := if h.firstOutstanding = some el then h.readjustFirstOutstanding else h
    let num ← h.decrementOutstanding (h.elements el)
    pure { h with
      numOutstandingPackets := num
      packetList := h.packetList.erase el
      packetMap := h.packetMap.erase p }

def HasOutstandingPackets (h : sentPacketHistory) : Bool :=
  decide (h.numOutstandingPackets > 0)

end sentPacketHistory

end QuicGo.Ackhandler
