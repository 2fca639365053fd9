import QuicGo.Ackhandler.SentPacketHistory

/-! `sentPacketHandler`: the sent-packet side of loss recovery. The handler keeps one
`packetNumberSpace` per encryption level, the queue of packets to retransmit and the bytes in
flight. -/
namespace QuicGo.Ackhandler
open QuicGo.Protocol QuicGo.Wire sentPacketHistory packetNumberGenerator

structure packetNumberSpace where
  history : sentPacketHistory
  pns : packetNumberGenerator
  largestAcked : Nat
  largestSent : Nat

def newPacketNumberSpace (initialPN : Nat) (num : UInt16) : packetNumberSpace :=
  ⟨newSentPacketHistory, newPacketNumberGenerator initialPN SkipPacketAveragePeriodLength num, 0, 0⟩

structure sentPacketHandler where
  initialPackets : packetNumberSpace
  handshakePackets : packetNumberSpace
  oneRTTPackets : packetNumberSpace
  lowestNotConfirmedAcked : Nat
  retransmissionQueue : List Packet
  bytesInFlight : UInt64
  handshakeComplete : Bool
  numProbesToSend : Int
  lossTime : Option Int
  droppedErrors : List AckhandlerError

/-- `NewSentPacketHandler`, with the random numbers drawn by the three packet number
generators. -/
def NewSentPacketHandler (initialPacketNumber : Nat) (num₁ num₂ num₃ : UInt16) :
    sentPacketHandler where
  initialPackets := newPacketNumberSpace initialPacketNumber num₁
  handshakePackets := newPacketNumberSpace 0 num₂
  oneRTTPackets := newPacketNumberSpace 0 num₃
  lowestNotConfirmedAcked := 0
  retransmissionQueue := []
  bytesInFlight := 0
  handshakeComplete := false
  numProbesToSend := 0
  lossTime := none
  droppedErrors := []

/-- The outcome of an iteration whose callback cannot fail. -/
def iterateAll {σ : Type} (h : sentPacketHistory) (cb : σ → Nat → Packet → Bool × σ) (s : σ) : σ :=
  match h.Iterate (fun s el p => (.ok (cb s el p) : Except Empty (Bool × σ))) s with
  | .ok s => s
  | .error e => nomatch e

/-- The callback that collects every element. -/
def collectAll (ps : List Nat) (el : Nat) (_ : Packet) : Bool × List Nat :=
  (true, ps ++ [el])

/-- The callback that collects the elements that can still be retransmitted. -/
def collectRetransmittable (ps : List Nat) (el : Nat) (p : Packet) : Bool × List Nat :=
  (true, if p.canBeRetransmitted then ps ++ [el] else ps)

/-- What kind of packets may be sent. -/
inductive SendMode where
  | SendNone
  | SendAck
  | SendRetransmission
  | SendPTO
  | SendAny
  deriving DecidableEq, Repr

/-- `protocol.MaxOutstandingSentPackets` -/
def MaxOutstandingSentPackets : Nat := 2 * 1000

/-- `protocol.MaxTrackedSentPackets` -/
def MaxTrackedSentPackets : Nat := MaxOutstandingSentPackets * 5 / 4

namespace sentPacketHandler

def getPacketNumberSpace (h : sentPacketHandler) :
    EncryptionLevel → Except AckhandlerError packetNumberSpace
  | .EncryptionInitial => .ok h.initialPackets
  | .EncryptionHandshake => .ok h.handshakePackets
  | .Encryption1RTT => .ok h.oneRTTPackets
  | .EncryptionUnspecified => .error (.panic "invalid packet number space")

/-- The write-back of a space that `getPacketNumberSpace` returned. -/
def setPacketNumberSpace (h : sentPacketHandler) :
    EncryptionLevel → packetNumberSpace → sentPacketHandler
  | .EncryptionInitial, s => { h with initialPackets := s }
  | .EncryptionHandshake, s => { h with handshakePackets := s }
  | .Encryption1RTT, s => { h with oneRTTPackets := s }
  | .EncryptionUnspecified, _ => h

/-- A call whose error the source ignores: the error goes to the ghost log, and a panic still
ends the connection. -/
def ignoreError (h : sentPacketHandler) :
    Except AckhandlerError sentPacketHandler → Except AckhandlerError sentPacketHandler
  | .ok h' => .ok h'
  | .error (.panic msg) => .error (.panic msg)
  | .error e => .ok { h with droppedErrors := h.droppedErrors ++ [e] }

/-- The `largestAcked` of a packet: that of its ACK frame when the first frame is one, where
`LargestAcked` panics on a frame without ranges. -/
def ackLargestAcked (packet : Packet) : Except AckhandlerError Nat :=
  match packet.Frames.head? with
  | some (.ack ackFrame) =>
    match ackFrame.LargestAcked with
    | some l => pure l
    | none => throw (.panic "index out of range")
  | _ => pure packet.largestAcked

/-- `sentPacketImpl` returns the stored form of the packet and whether it is
retransmittable. -/
def sentPacketImpl (h : sentPacketHandler) (packet : Packet) :
    Except AckhandlerError (sentPacketHandler × Packet × Bool) := do
  let pnSpace ← h.getPacketNumberSpace packet.EncryptionLevel
  let h := h.setPacketNumberSpace packet.EncryptionLevel
    { pnSpace with largestSent := packet.PacketNumber }
  let largestAcked ← ackLargestAcked packet
  let packet := { packet with
    largestAcked := largestAcked
    Frames := stripNonRetransmittableFrames packet.Frames }
  let isRetransmittable := !packet.Frames.isEmpty
  if isRetransmittable then
    let packet := { packet with includedInBytesInFlight := true, canBeRetransmitted := true }
    pure ({ h with
      bytesInFlight := h.bytesInFlight + packet.Length
      numProbesToSend := if h.numProbesToSend > 0 then h.numProbesToSend - 1 else h.numProbesToSend },
      packet, true)
  else
    pure (h, packet, false)

def SentPacket (h : sentPacketHandler) (packet : Packet) :
    Except AckhandlerError sentPacketHandler := do
  let (h, packet, isRetransmittable) ← h.sentPacketImpl packet
  if isRetransmittable then
    let pnSpace ← h.getPacketNumberSpace packet.EncryptionLevel
    pure (h.setPacketNumberSpace packet.EncryptionLevel
      { pnSpace with history := pnSpace.history.SentPacket packet })
  else
    pure h

/-- The retransmittable packets go to the space of the first one; `p[0]` panics when there is
none. -/
def SentPacketsAsRetransmission (h : sentPacketHandler) (packets : List Packet)
    (retransmissionOf : Nat) : Except AckhandlerError sentPacketHandler := do
  let (h, p) ← packets.foldlM (fun (h, p) packet => do
    let (h, packet, isRetransmittable) ← h.sentPacketImpl packet
    pure (h, if isRetransmittable then p ++ [packet] else p)) (h, [])
  let some first := p.head? | throw (.panic "index out of range")
  let pnSpace ← h.getPacketNumberSpace first.EncryptionLevel
  pure (h.setPacketNumberSpace first.EncryptionLevel
    { pnSpace with history := pnSpace.history.SentPacketsAsRetransmission p retransmissionOf })

/-- The inner loop of `determineNewlyAckedPackets`: move to the next higher ACK range while the
packet lies above the current one and a higher range exists. -/
def advanceRange (ranges : List AckRange) (pn : Nat) (ackRangeIndex : Nat) : Nat :=
  if h : pn > (ranges.getD (ranges.length - 1 - ackRangeIndex) default).Largest ∧
      ackRangeIndex < ranges.length - 1 then
    advanceRange ranges pn (ackRangeIndex + 1)
  else ackRangeIndex
termination_by ranges.length - 1 - ackRangeIndex
decreasing_by omega

/-- The callback of `determineNewlyAckedPackets`; its state is the range index and the acked
elements. -/
def ackedCallback (ackFrame : AckFrame) (lowestAcked largestAcked : Nat) :
    Nat × List Nat → Nat → Packet → Except AckhandlerError (Bool × (Nat × List Nat))
  | (ackRangeIndex, ackedPackets), el, p =>
    if p.PacketNumber < lowestAcked then .ok (true, (ackRangeIndex, ackedPackets))
    else if p.PacketNumber > largestAcked then .ok (false, (ackRangeIndex, ackedPackets))
    else if ackFrame.HasMissingRanges then
      let ranges := ackFrame.AckRanges
      let ackRangeIndex := advanceRange ranges p.PacketNumber ackRangeIndex
      let ackRange := ranges.getD (ranges.length - 1 - ackRangeIndex) default
      if p.PacketNumber ≥ ackRange.Smallest then
        if p.PacketNumber > ackRange.Largest then
          .error (.ackedWrongPacket p.PacketNumber ackRange.Smallest ackRange.Largest)
        else .ok (true, (ackRangeIndex, ackedPackets ++ [el]))
      else .ok (true, (ackRangeIndex, ackedPackets))
    else .ok (true, (ackRangeIndex, ackedPackets ++ [el]))

def determineNewlyAckedPackets (h : sentPacketHandler) (ackFrame : AckFrame)
    (encLevel : EncryptionLevel) : Except AckhandlerError (List Nat) := do
  let pnSpace ← h.getPacketNumberSpace encLevel
  let some lowestAcked := ackFrame.LowestAcked | throw (.panic "index out of range")
  let some largestAcked := ackFrame.LargestAcked | throw (.panic "index out of range")
  let (_, ackedPackets) ←
    pnSpace.history.Iterate (ackedCallback ackFrame lowestAcked largestAcked) (0, [])
  pure ackedPackets

/-- The body of the loop of `stopRetransmissionsFor` over the retransmissions of packet `pn`,
given the recursive call: an error ends the loop, and the errors of the recursive call, which
the source ignores, are collected unless it panicked. -/
def stopRetransmissionsStep
    (stop : sentPacketHistory → Nat → List Nat →
      sentPacketHistory × List AckhandlerError × Option AckhandlerError) (pn : Nat) :
    sentPacketHistory × List AckhandlerError × Option AckhandlerError → Nat →
      sentPacketHistory × List AckhandlerError × Option AckhandlerError
  | (history, dropped, err), r =>
    if err.isSome then (history, dropped, err)
    else match history.GetPacket r with
      | none => (history, dropped, some (.retransmissionNotFound r pn))
      | some el =>
        let packet := history.elements el
        match stop history packet.PacketNumber packet.retransmittedAs with
        | (history, dropped', some (.panic msg)) => (history, dropped ++ dropped', some (.panic msg))
        | (history, dropped', err') => (history, dropped ++ dropped' ++ err'.toList, none)

/-- `stopRetransmissionsFor` on the packet with number `pn` whose `retransmittedAs` the caller
read. It returns the history, the errors of the recursive calls (which the source ignores) and
its own error. The recursion of the source has no bound; its depth is at most the number of
packets in the history unless the links form a cycle, where the source overflows its stack,
so the model runs out of `fuel` exactly there. -/
def stopRetransmissionsFor :
    Nat → sentPacketHistory → Nat → List Nat →
      sentPacketHistory × List AckhandlerError × Option AckhandlerError
  | 0, history, _, _ => (history, [], some (.panic "stack overflow"))
  | fuel + 1, history, pn, retransmittedAs =>
    match history.MarkCannotBeRetransmitted pn with
    | .error e => (history, [], some e)
    | .ok history =>
      retransmittedAs.foldl (stopRetransmissionsStep (stopRetransmissionsFor fuel) pn)
        (history, [], none)

/-- The block of `onPacketAcked` that removes an acknowledged retransmission from the
`retransmittedAs` of the packet it retransmits, when that packet is still in the history. -/
def unlinkFromParent (history : sentPacketHistory) (p : Packet) : sentPacketHistory :=
  if p.isRetransmission then
    match history.GetPacket p.retransmissionOf with
    | none => history
    | some parent => history.setElement parent fun v =>
        { v with retransmittedAs :=
            if v.retransmittedAs.length = 1 then [] else v.retransmittedAs.filter (· ≠ p.PacketNumber) }
  else history

/-- `onPacketAcked` for the packet behind element `el` of the space of `encLevel`. -/
def onPacketAcked (h : sentPacketHandler) (encLevel : EncryptionLevel) (el : Nat) :
    Except AckhandlerError sentPacketHandler := do
  let p := (← h.getPacketNumberSpace encLevel).history.elements el
  let pnSpace ← h.getPacketNumberSpace p.EncryptionLevel
  if (pnSpace.history.GetPacket p.PacketNumber).isNone then return h
  let history := unlinkFromParent pnSpace.history p
  let h := h.setPacketNumberSpace p.EncryptionLevel { pnSpace with history }
  let h := if p.includedInBytesInFlight then { h with bytesInFlight := h.bytesInFlight - p.Length }
    else h
  -- the write to the parent is seen through `p` when `p` is its own parent
  let retransmittedAs := ((← h.getPacketNumberSpace encLevel).history.elements el).retransmittedAs
  let (history, dropped, err) :=
    stopRetransmissionsFor (history.Len + 1) history p.PacketNumber retransmittedAs
  let h := { h.setPacketNumberSpace p.EncryptionLevel { pnSpace with history } with
    droppedErrors := h.droppedErrors ++ dropped }
  if let some e := err then throw e
  let history ← history.Remove p.PacketNumber
  pure (h.setPacketNumberSpace p.EncryptionLevel { pnSpace with history })

/-- `queuePacketForRetransmission` for element `el` of the space of `encLevel`. -/
def queuePacketForRetransmission (h : sentPacketHandler) (encLevel : EncryptionLevel)
    (el : Nat) : Except AckhandlerError sentPacketHandler := do
  let pnSpace ← h.getPacketNumberSpace encLevel
  let p := pnSpace.history.elements el
  if !p.canBeRetransmitted then throw (.alreadyQueued p.PacketNumber)
  let history ← pnSpace.history.MarkCannotBeRetransmitted p.PacketNumber
  let h := h.setPacketNumberSpace encLevel { pnSpace with history }
  pure { h with retransmissionQueue := h.retransmissionQueue ++ [history.elements el] }

/-- The callback of `detectLostPackets`; its state is the lost elements and `lossTime`. -/
def lostCallback (now : Int) (encLevel : EncryptionLevel) (largestAcked : Nat)
    (delayUntilLost : Int) : List Nat × Option Int → Nat → Packet → Bool × (List Nat × Option Int)
  | (lostPackets, lossTime), el, packet =>
    if packet.PacketNumber > largestAcked then (false, (lostPackets, lossTime))
    else
      let timeSinceSent := now - packet.SendTime
      if timeSinceSent > delayUntilLost then (true, (lostPackets ++ [el], lossTime))
      else if lossTime.isNone ∧ encLevel = .Encryption1RTT then
        (true, (lostPackets, some (now + (delayUntilLost - timeSinceSent))))
      else (true, (lostPackets, lossTime))

/-- One lost packet: its bytes leave the bytes in flight, it is queued if it can still be
retransmitted, and it leaves the history (an error of `Remove` is ignored by the source). -/
def onPacketLost (encLevel : EncryptionLevel) (h : sentPacketHandler) (el : Nat) :
    Except AckhandlerError sentPacketHandler := do
  let p := (← h.getPacketNumberSpace encLevel).history.elements el
  let h := if p.includedInBytesInFlight then { h with bytesInFlight := h.bytesInFlight - p.Length }
    else h
  let h ← if p.canBeRetransmitted then h.queuePacketForRetransmission encLevel el else pure h
  let pnSpace ← h.getPacketNumberSpace encLevel
  h.ignoreError ((pnSpace.history.Remove p.PacketNumber).map fun history =>
    h.setPacketNumberSpace encLevel { pnSpace with history })

def detectLostPackets (h : sentPacketHandler) (now : Int) (encLevel : EncryptionLevel)
    (delayUntilLost : Int) : Except AckhandlerError sentPacketHandler := do
  let h := if encLevel = .Encryption1RTT then { h with lossTime := none } else h
  let pnSpace ← h.getPacketNumberSpace encLevel
  let (lostPackets, lossTime) := iterateAll pnSpace.history
    (lostCallback now encLevel pnSpace.largestAcked delayUntilLost) ([], h.lossTime)
  let h := { h with lossTime }
  lostPackets.foldlM (onPacketLost encLevel) h

/-- `ReceivedAck`; `withPacketNumber` is unused by the source as well. -/
def ReceivedAck (h : sentPacketHandler) (ackFrame : AckFrame) (_withPacketNumber : Nat)
    (encLevel : EncryptionLevel) (rcvTime delayUntilLost : Int) :
    Except AckhandlerError sentPacketHandler := do
  let pnSpace ← h.getPacketNumberSpace encLevel
  let some largestAcked := ackFrame.LargestAcked | throw (.panic "index out of range")
  if largestAcked > pnSpace.largestSent then
    throw (.InvalidAckData "Received ACK for an unsent packet")
  let pnSpace := { pnSpace with largestAcked := max pnSpace.largestAcked largestAcked }
  let h := h.setPacketNumberSpace encLevel pnSpace
  let some valid := pnSpace.pns.Validate ackFrame | throw (.panic "index out of range")
  if !valid then throw (.InvalidAckData "Received an ACK for a skipped packet number")
  let ackedPackets ← h.determineNewlyAckedPackets ackFrame encLevel
  if ackedPackets.isEmpty then return h
  let h ← ackedPackets.foldlM (fun h el => do
    let p := (← h.getPacketNumberSpace encLevel).history.elements el
    let h := if p.largestAcked ≠ 0 ∧ encLevel = .Encryption1RTT then
        { h with lowestNotConfirmedAcked := max h.lowestNotConfirmedAcked (p.largestAcked + 1) }
      else h
    h.onPacketAcked encLevel el) h
  h.detectLostPackets rcvTime encLevel delayUntilLost

def GetLowestPacketNotConfirmedAcked (h : sentPacketHandler) : Nat :=
  h.lowestNotConfirmedAcked

def hasOutstandingCryptoPackets (h : sentPacketHandler) : Bool :=
  h.initialPackets.history.HasOutstandingPackets || h.handshakePackets.history.HasOutstandingPackets

def hasOutstandingPackets (h : sentPacketHandler) : Bool :=
  h.oneRTTPackets.history.HasOutstandingPackets || h.hasOutstandingCryptoPackets

def queueAllPacketsForRetransmission (h : sentPacketHandler) (encLevel : EncryptionLevel) :
    Except AckhandlerError sentPacketHandler := do
  let pnSpace ← h.getPacketNumberSpace encLevel
  let packets := iterateAll pnSpace.history collectRetransmittable []
  packets.foldlM (fun h el => h.queuePacketForRetransmission encLevel el) h

def queueCryptoPacketsForRetransmission (h : sentPacketHandler) :
    Except AckhandlerError sentPacketHandler := do
  let h ← h.queueAllPacketsForRetransmission .EncryptionInitial
  h.queueAllPacketsForRetransmission .EncryptionHandshake

/-- `onVerifiedAlarm`; `now` stands for `time.Now()`. -/
def onVerifiedAlarm (h : sentPacketHandler) (now delayUntilLost : Int) :
    Except AckhandlerError sentPacketHandler :=
  if h.hasOutstandingCryptoPackets then h.queueCryptoPacketsForRetransmission
  else if h.lossTime.isSome then h.detectLostPackets now .Encryption1RTT delayUntilLost
  else pure { h with numProbesToSend := h.numProbesToSend + 2 }

def OnAlarm (h : sentPacketHandler) (now delayUntilLost : Int) :
    Except AckhandlerError sentPacketHandler :=
  if h.hasOutstandingPackets then h.onVerifiedAlarm now delayUntilLost else pure h

def DequeuePacketForRetransmission (h : sentPacketHandler) : Option Packet × sentPacketHandler :=
  match h.retransmissionQueue with
  | [] => (none, h)
  | packet :: queue => (some packet, { h with retransmissionQueue := queue })

def DequeueProbePacket (h : sentPacketHandler) :
    Except AckhandlerError (Option Packet × sentPacketHandler) := do
  let pnSpace ← h.getPacketNumberSpace .Encryption1RTT
  let h ← if h.retransmissionQueue.isEmpty then
      match pnSpace.history.FirstOutstanding with
      | none => throw .noOutstandingPackets
      | some p => h.queuePacketForRetransmission .Encryption1RTT p
    else pure h
  pure h.DequeuePacketForRetransmission

def PopPacketNumber (h : sentPacketHandler) (encLevel : EncryptionLevel) (num : UInt16) :
    Except AckhandlerError (Nat × sentPacketHandler) := do
  let pnSpace ← h.getPacketNumberSpace encLevel
  let (pn, pns) := pnSpace.pns.Pop num
  pure (pn, h.setPacketNumberSpace encLevel { pnSpace with pns })

/-- Removing the crypto packets of one space; the errors of `Remove` are ignored. -/
def dropSpace (encLevel : EncryptionLevel) (h : sentPacketHandler) :
    Except AckhandlerError sentPacketHandler := do
  let pnSpace ← h.getPacketNumberSpace encLevel
  let cryptoPackets := iterateAll pnSpace.history collectAll []
  cryptoPackets.foldlM (fun h el => do
    let pnSpace ← h.getPacketNumberSpace encLevel
    h.ignoreError ((pnSpace.history.Remove (pnSpace.history.elements el).PacketNumber).map
      fun history => h.setPacketNumberSpace encLevel { pnSpace with history })) h

def SetHandshakeComplete (h : sentPacketHandler) : Except AckhandlerError sentPacketHandler := do
  let queue := h.retransmissionQueue.filter (·.EncryptionLevel = .Encryption1RTT)
  let h ← dropSpace .EncryptionInitial h
  let h ← dropSpace .EncryptionHandshake h
  pure { h with retransmissionQueue := queue, handshakeComplete := true }

/-- `ResetForRetry`, with the random numbers of the old generator's `Pop` and of the new
generator. -/
def ResetForRetry (h : sentPacketHandler) (num₁ num₂ : UInt16) : sentPacketHandler :=
  let h := { h with bytesInFlight := 0 }
  let packets := iterateAll h.initialPackets.history collectRetransmittable []
  let (pn, _) := h.initialPackets.pns.Pop num₁
  { h with
    retransmissionQueue :=
      h.retransmissionQueue ++ packets.map h.initialPackets.history.elements
    initialPackets := newPacketNumberSpace pn num₂ }

/-- `SendMode`, with the congestion window as an input. -/
def SendMode (h : sentPacketHandler) (congestionWindow : UInt64) : QuicGo.Ackhandler.SendMode :=
  let numTrackedPackets := h.retransmissionQueue.length + h.initialPackets.history.Len +
    h.handshakePackets.history.Len + h.oneRTTPackets.history.Len
  if numTrackedPackets ≥ MaxTrackedSentPackets then .SendNone
  else if h.numProbesToSend > 0 then .SendPTO
  else if h.bytesInFlight > congestionWindow then .SendAck
  else if !h.retransmissionQueue.isEmpty then .SendRetransmission
  else if numTrackedPackets ≥ MaxOutstandingSentPackets then .SendAck
  else .SendAny

/-- The calls the session makes on the handler. -/
inductive Event where
  | sentPacket (packet : Packet)
  | sentPacketsAsRetransmission (packets : List Packet) (retransmissionOf : Nat)
  | receivedAck (ackFrame : AckFrame) (withPacketNumber : Nat) (encLevel : EncryptionLevel)
      (rcvTime delayUntilLost : Int)
  | onAlarm (now delayUntilLost : Int)
  | dequeuePacketForRetransmission
  | dequeueProbePacket
  | setHandshakeComplete
  | resetForRetry (num₁ num₂ : UInt16)
  | popPacketNumber (encLevel : EncryptionLevel) (num : UInt16)

def handle (h : sentPacketHandler) : Event → Except AckhandlerError sentPacketHandler
  | .sentPacket packet => h.SentPacket packet
  | .sentPacketsAsRetransmission packets retransmissionOf =>
    h.SentPacketsAsRetransmission packets retransmissionOf
  | .receivedAck ackFrame pn encLevel rcvTime delayUntilLost =>
    h.ReceivedAck ackFrame pn encLevel rcvTime delayUntilLost
  | .onAlarm now delayUntilLost => h.OnAlarm now delayUntilLost
  | .dequeuePacketForRetransmission => pure h.DequeuePacketForRetransmission.2
  | .dequeueProbePacket => (·.2) <$> h.DequeueProbePacket
  | .setHandshakeComplete => h.SetHandshakeComplete
  | .resetForRetry num₁ num₂ => pure (h.ResetForRetry num₁ num₂)
  | .popPacketNumber encLevel num => (·.2) <$> h.PopPacketNumber encLevel num

/-- A returned error ends the connection, and with it the run. -/
def step (h : sentPacketHandler) (e : Event) : Option sentPacketHandler :=
  (h.handle e).toOption

end sentPacketHandler

end QuicGo.Ackhandler
