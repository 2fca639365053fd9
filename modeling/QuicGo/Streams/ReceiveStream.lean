import QuicGo.Streams.FrameSorter
import QuicGo.Flowcontrol.FlowController
import QuicGo.Wire.Frames
import QuicGo.Lib.Reachable
import QuicGo.Lib.Except

/-! `receiveStream`: the receive half of a stream. The stream's flow controller is a field; the
connection's flow controller, which all streams share, and the calls the stream makes on its
`streamSender` form the `streamEnv` that the operations pass on. -/
namespace QuicGo.Streams
open QuicGo.Protocol QuicGo.Wire QuicGo.Flowcontrol QuicGo.Lib

/-- The errors that `Read` returns. -/
inductive readError where
  /-- `io.EOF` -/
  | EOF
  /-- "Read on stream %d canceled with error code %d" -/
  | canceled (streamID : Nat) (errorCode : UInt16)
  /-- `streamCanceledError`: "Stream %d was reset with error code %d" -/
  | reset (streamID : Nat) (errorCode : UInt16)
  /-- the error that `closeForShutdown` was called with -/
  | shutdown (err : String)
  /-- "BUG: bytesRead (%d) > len(p) (%d) in stream.Read" -/
  | bytesReadBeyondBuffer (bytesRead len : Nat)
  /-- "BUG: readPosInFrame (%d) > frame.DataLen (%d) in stream.Read" -/
  | readPosBeyondFrame (readPosInFrame dataLen : Nat)
  deriving DecidableEq, Repr

/-- The errors of `handleStreamFrame`. -/
inductive streamFrameError where
  | flowControl (e : flowControlError)
  | frameSorter (e : frameSorterError)
  deriving DecidableEq, Repr

/-- The calls that a receive stream makes on its `streamSender`. -/
inductive senderCall where
  | queueControlFrame (f : Frame)
  | onStreamCompleted (streamID : Nat)
  deriving DecidableEq, Repr

/-- What a stream shares with its connection: the connection's flow controller and the calls
made on the stream's sender, oldest first. -/
structure streamEnv where
  connection : connectionFlowController
  senderCalls : List senderCall
  deriving DecidableEq, Repr

/-- The fields of `receiveStream`; `currentFrame` is `none` where the source's slice is nil. -/
structure receiveStream where
  streamID : Nat
  frameQueue : frameSorter
  readOffset : UInt64
  finalOffset : UInt64
  currentFrame : Option (List UInt8)
  currentFrameIsLast : Bool
  readPosInFrame : Nat
  closeForShutdownErr : Option readError
  cancelReadErr : Option readError
  resetRemotelyErr : Option readError
  closedForShutdown : Bool
  finRead : Bool
  canceledRead : Bool
  resetRemotely : Bool
  flowController : streamFlowController
  deriving DecidableEq, Repr

/-- How one pass of the loop of `readImpl` ends: `Read` returns, waits on `readChan`, or the loop
goes round again with the bytes read so far. -/
inductive readPass where
  | returned (completed : Bool) (data : List UInt8) (err : Option readError)
  | blocked
  | next (data : List UInt8)
  deriving DecidableEq, Repr

namespace receiveStream

def newReceiveStream (streamID : Nat) (flowController : streamFlowController) :
    receiveStream where
  streamID
  frameQueue := frameSorter.newFrameSorter
  readOffset := 0
  finalOffset := MaxByteCount
  currentFrame := none
  currentFrameIsLast := false
  readPosInFrame := 0
  closeForShutdownErr := none
  cancelReadErr := none
  resetRemotelyErr := none
  closedForShutdown := false
  finRead := false
  canceledRead := false
  resetRemotely := false
  flowController

def dequeueNextFrame (s : receiveStream) : receiveStream :=
  let ((offset, frame), frameQueue) := s.frameQueue.Pop
  { s with
    frameQueue
    currentFrame := frame
    currentFrameIsLast := decide (offset + (frame.getD []).length.toUInt64 ≥ s.finalOffset)
    readPosInFrame := 0 }

/-- The start of each pass of the read loop: a new frame is dequeued once the current one is
used up. -/
def dequeueIfDone (s : receiveStream) : receiveStream :=
  if s.currentFrame.isNone ∨ s.readPosInFrame ≥ (s.currentFrame.getD []).length then
    s.dequeueNextFrame
  else s

/-- The flow controllers learn of `m` bytes read, unless a RESET_STREAM was received: the
controller then already knows the final offset of the stream. -/
def addBytesRead (s : receiveStream) (connection : connectionFlowController) (m : Nat)
    (now : Int) : receiveStream × connectionFlowController :=
  if !s.resetRemotely then
    let (fc, connection) := s.flowController.AddBytesRead connection m.toUInt64 now
    ({ s with flowController := fc }, connection)
  else (s, connection)

/-- The inner loop of `readImpl`, which stops waiting on errors and waits until there is a frame,
and the copy after it. `data` holds the bytes read so far, `len` is the length of the buffer. -/
def readFrom (s : receiveStream) (connection : connectionFlowController) (len : Nat) (now : Int)
    (data : List UInt8) : readPass × receiveStream × connectionFlowController :=
  -- stop waiting on errors
  if s.closedForShutdown then (.returned false data s.closeForShutdownErr, s, connection)
  else if s.canceledRead then (.returned false data s.cancelReadErr, s, connection)
  else if s.resetRemotely then (.returned false data s.resetRemotelyErr, s, connection)
  else if s.currentFrame.isNone ∧ !s.currentFrameIsLast then (.blocked, s, connection)
  else if data.length > len then
    (.returned false data (some (.bytesReadBeyondBuffer data.length len)), s, connection)
  else
    let frame := s.currentFrame.getD []
    if s.readPosInFrame > frame.length then
      (.returned false data (some (.readPosBeyondFrame s.readPosInFrame frame.length)), s,
        connection)
    else
      let m := min (len - data.length) (frame.length - s.readPosInFrame)
      let data := data ++ (frame.drop s.readPosInFrame).take m
      let s := { s with
        readPosInFrame := s.readPosInFrame + m
        readOffset := s.readOffset + m.toUInt64 }
      let r := s.addBytesRead connection m now
      if r.1.readPosInFrame ≥ frame.length ∧ r.1.currentFrameIsLast then
        (.returned true data (some .EOF), { r.1 with finRead := true }, r.2)
      else (.next data, r.1, r.2)

@[simp] theorem addBytesRead_frameQueue (s : receiveStream) (connection : connectionFlowController)
    (m : Nat) (now : Int) : (s.addBytesRead connection m now).1.frameQueue = s.frameQueue := by
  unfold addBytesRead; split <;> rfl

@[simp] theorem addBytesRead_readPosInFrame (s : receiveStream)
    (connection : connectionFlowController) (m : Nat) (now : Int) :
    (s.addBytesRead connection m now).1.readPosInFrame = s.readPosInFrame := by
  unfold addBytesRead; split <;> rfl

@[simp] theorem addBytesRead_currentFrameIsLast (s : receiveStream)
    (connection : connectionFlowController) (m : Nat) (now : Int) :
    (s.addBytesRead connection m now).1.currentFrameIsLast = s.currentFrameIsLast := by
  unfold addBytesRead; split <;> rfl

theorem readFrom_next {s s' : receiveStream} {connection connection' : connectionFlowController}
    {len : Nat} {now : Int} {data data' : List UInt8}
    (h : s.readFrom connection len now data = (.next data', s', connection')) :
    s'.frameQueue = s.frameQueue ∧ ∃ f, s.currentFrame = some f ∧ data.length ≤ len ∧
      data'.length = data.length + min (len - data.length) (f.length - s.readPosInFrame) := by
  unfold readFrom at h
  dsimp only at h
  split_ifs at h <;>
    simp only [Prod.mk.injEq, reduceCtorEq, readPass.next.injEq, false_and] at h
  obtain ⟨rfl, rfl, -⟩ := h
  refine ⟨by simp, ?_⟩
  cases hf : s.currentFrame with
  | none => simp_all
  | some f =>
    refine ⟨f, rfl, by omega, ?_⟩
    simp only [Option.getD_some, List.length_append, List.length_take, List.length_drop]
    omega

/-- The measure of the read loop: each pass that goes round again copies a byte or takes a frame
off the queue. -/
theorem readFrom_dequeueIfDone_lt {s s' : receiveStream}
    {connection connection' : connectionFlowController} {len : Nat} {now : Int}
    {data data' : List UInt8} (hlen : data.length < len)
    (h : s.dequeueIfDone.readFrom connection len now data = (.next data', s', connection')) :
    len - data'.length + s'.frameQueue.queue.length <
      len - data.length + s.frameQueue.queue.length := by
  obtain ⟨hq, f, hf, -, hdata⟩ := readFrom_next h
  rw [hq]
  unfold dequeueIfDone at hf hdata ⊢
  split_ifs at hf hdata ⊢ with hdone
  · have hlt : s.dequeueNextFrame.frameQueue.queue.length < s.frameQueue.queue.length :=
      frameSorter.Pop_queue_length_lt (by simpa [dequeueNextFrame] using hf)
    omega
  · have hpos : s.readPosInFrame < f.length := by simp_all
    omega

theorem dequeueNextFrame_frameQueue_length_le (s : receiveStream) :
    s.dequeueNextFrame.frameQueue.queue.length ≤ s.frameQueue.queue.length :=
  frameSorter.Pop_queue_length_le s.frameQueue

/-- The outer loop of `readImpl`, from the bytes read so far. -/
def readLoop (s : receiveStream) (connection : connectionFlowController) (len : Nat) (now : Int)
    (data : List UInt8) : readPass × receiveStream × connectionFlowController :=
  if hlen : data.length < len then
    let s₁ := s.dequeueIfDone
    if s₁.currentFrame.isNone ∧ data ≠ [] then (.returned false data s₁.closeForShutdownErr, s₁,
      connection)
    else
      match h : s₁.readFrom connection len now data with
      | (.next data', s', connection') => readLoop s' connection' len now data'
      | r => r
  else (.returned false data none, s, connection)
termination_by len - data.length + s.frameQueue.queue.length
decreasing_by exact readFrom_dequeueIfDone_lt hlen h

/-- `readImpl` with a buffer of length `len`. -/
def readImpl (s : receiveStream) (connection : connectionFlowController) (len : Nat) (now : Int) :
    readPass × receiveStream × connectionFlowController :=
  if s.finRead then (.returned false [] (some .EOF), s, connection)
  else if s.canceledRead then (.returned false [] s.cancelReadErr, s, connection)
  else if s.resetRemotely then (.returned false [] s.resetRemotelyErr, s, connection)
  else if s.closedForShutdown then (.returned false [] s.closeForShutdownErr, s, connection)
  else s.readLoop connection len now []

/-- A `Read` waiting on `readChan` goes on once it is signalled: it dequeues a frame if it has
none, and runs its inner loop again with nothing read. -/
def readWake (s : receiveStream) (connection : connectionFlowController) (len : Nat) (now : Int) :
    readPass × receiveStream × connectionFlowController :=
  let s := if s.currentFrame.isNone then s.dequeueNextFrame else s
  match s.readFrom connection len now [] with
  | (.next data, s', connection') => s'.readLoop connection' len now data
  | r => r

/-- `streamCompleted`: the connection gets back the credit for the bytes not read, and the
sender learns that the receive half is done. -/
def streamCompleted (s : receiveStream) (env : streamEnv) (now : Int) : streamEnv where
  connection := if !s.finRead then s.flowController.Abandon env.connection now else env.connection
  senderCalls := env.senderCalls ++ [.onStreamCompleted s.streamID]

/-- `Read`, or its resumption by `readWake`, reports completion when it reaches the end. -/
def finishRead (env : streamEnv) (now : Int) :
    readPass × receiveStream × connectionFlowController → readPass × receiveStream × streamEnv
  | (p, s, connection) =>
    let env := { env with connection }
    match p with
    | .returned true _ _ => (p, s, s.streamCompleted env now)
    | _ => (p, s, env)

def Read (s : receiveStream) (env : streamEnv) (len : Nat) (now : Int) :
    readPass × receiveStream × streamEnv :=
  finishRead env now (s.readImpl env.connection len now)

def cancelReadImpl (s : receiveStream) (env : streamEnv) (errorCode : UInt16) :
    Bool × receiveStream × streamEnv :=
  if s.finRead ∨ s.canceledRead ∨ s.resetRemotely then (false, s, env)
  else
    let s := { s with canceledRead := true, cancelReadErr := some (.canceled s.streamID errorCode) }
    let env := { env with
      senderCalls := env.senderCalls ++ [.queueControlFrame (.stopSending ⟨s.streamID, errorCode⟩)] }
    -- we are done with this stream if the final offset was already received
    (decide (s.finalOffset ≠ MaxByteCount), s, env)

def CancelRead (s : receiveStream) (env : streamEnv) (errorCode : UInt16) (now : Int) :
    receiveStream × streamEnv :=
  let (completed, s, env) := s.cancelReadImpl env errorCode
  (s, if completed then s.streamCompleted env now else env)

def handleStreamFrameImpl (s : receiveStream) (env : streamEnv) (frame : StreamFrame) :
    Except streamFrameError (Bool × receiveStream × streamEnv) := do
  let maxOffset := frame.Offset + frame.DataLen
  let (fc, connection) ← (s.flowController.UpdateHighestReceived env.connection maxOffset
    frame.FinBit).mapError .flowControl
  let s := { s with flowController := fc }
  let env := { env with connection }
  let s := if frame.FinBit then { s with finalOffset := maxOffset } else s
  if s.canceledRead then return (frame.FinBit, s, env)
  let frameQueue ← (s.frameQueue.Push frame.Data frame.Offset).mapError .frameSorter
  return (false, { s with frameQueue }, env)

def handleStreamFrame (s : receiveStream) (env : streamEnv) (frame : StreamFrame) (now : Int) :
    Except streamFrameError (receiveStream × streamEnv) := do
  let (completed, s, env) ← s.handleStreamFrameImpl env frame
  return (s, if completed then s.streamCompleted env now else env)

def handleResetStreamFrameImpl (s : receiveStream) (env : streamEnv) (frame : ResetStreamFrame) :
    Except flowControlError (Bool × receiveStream × streamEnv) := do
  if s.closedForShutdown then return (false, s, env)
  let (fc, connection) ← s.flowController.UpdateHighestReceived env.connection frame.ByteOffset
    true
  let s := { s with flowController := fc, finalOffset := frame.ByteOffset }
  let env := { env with connection }
  -- ignore duplicate RESET_STREAM frames for this stream (after checking their final offset)
  if s.resetRemotely then return (false, s, env)
  return (true,
    { s with resetRemotely := true, resetRemotelyErr := some (.reset s.streamID frame.ErrorCode) },
    env)

def handleResetStreamFrame (s : receiveStream) (env : streamEnv) (frame : ResetStreamFrame)
    (now : Int) : Except flowControlError (receiveStream × streamEnv) := do
  let (completed, s, env) ← s.handleResetStreamFrameImpl env frame
  return (s, if completed then s.streamCompleted env now else env)

@[simp] theorem streamCompleted_senderCalls (s : receiveStream) (env : streamEnv) (now : Int) :
    (s.streamCompleted env now).senderCalls = env.senderCalls ++ [.onStreamCompleted s.streamID] :=
  rfl

theorem streamCompleted_connection {s : receiveStream} (h : s.finRead = false) (env : streamEnv)
    (now : Int) : (s.streamCompleted env now).connection = s.flowController.Abandon env.connection now := by
  simp [streamCompleted, h]

/-- After `CancelRead`, a STREAM frame with the FIN bit at the final offset already received passes
flow control and reports completion again: `handleStreamFrameImpl` returns the frame's FIN bit as
soon as the read side is canceled. -/
theorem handleStreamFrameImpl_fin_after_cancelRead {s : receiveStream} {frame : StreamFrame}
    (hc : s.canceledRead = true) (hrf : s.flowController.receivedFinalOffset = true)
    (hF : s.finalOffset = s.flowController.highestReceived) (hfin : frame.FinBit = true)
    (hoff : frame.Offset + frame.DataLen = s.finalOffset) (env : streamEnv) :
    s.handleStreamFrameImpl env frame = .ok (true, s, env) := by
  have hupd := s.flowController.UpdateHighestReceived_final_again env.connection hrf
  rw [← hF, ← hoff] at hupd
  have hs : { s with finalOffset := frame.Offset + frame.DataLen } = s := by
    rw [hoff]
  simp [handleStreamFrameImpl, hupd, hfin, Except.mapError, hs]
  simp [hc]
  rfl

theorem handleStreamFrame_fin_after_cancelRead {s : receiveStream} {frame : StreamFrame}
    (hc : s.canceledRead = true) (hrf : s.flowController.receivedFinalOffset = true)
    (hF : s.finalOffset = s.flowController.highestReceived) (hfin : frame.FinBit = true)
    (hoff : frame.Offset + frame.DataLen = s.finalOffset) (env : streamEnv) (now : Int) :
    s.handleStreamFrame env frame now = .ok (s, s.streamCompleted env now) := by
  simp only [handleStreamFrame, handleStreamFrameImpl_fin_after_cancelRead hc hrf hF hfin hoff]
  rfl

/-- `closeForShutdown` closes the stream abruptly; the peer is not informed. -/
def closeForShutdown (s : receiveStream) (err : String) : receiveStream :=
  { s with closedForShutdown := true, closeForShutdownErr := some (.shutdown err) }

end receiveStream

/-- A receive stream in its connection, with the one goroutine that reads from it: the length of
the buffer of a `Read` that waits on `readChan`, and what each `Read` returned, oldest first. -/
structure receiveState where
  stream : receiveStream
  env : streamEnv
  pendingRead : Option Nat
  reads : List (List UInt8 × Option readError)
  deriving DecidableEq, Repr

/-- The calls on one receive stream. `wake` resumes a `Read` that waits on `readChan`; `now` is the
time the flow controllers read. -/
inductive receiveEvent where
  | streamFrame (frame : StreamFrame) (now : Int)
  | resetStreamFrame (frame : ResetStreamFrame) (now : Int)
  | read (len : Nat) (now : Int)
  | wake (now : Int)
  | cancelRead (errorCode : UInt16) (now : Int)
  | closeForShutdown (err : String)
  deriving DecidableEq, Repr

namespace receiveState
open receiveStream

/-- A stream as the streams map creates it, in a connection that has received nothing. -/
def init (stream : receiveStream) (connection : connectionFlowController) : receiveState :=
  ⟨stream, ⟨connection, []⟩, none, []⟩

/-- The state after a `Read` or its resumption: a `Read` that waits keeps its buffer length. -/
def afterRead (st : receiveState) (len : Nat) :
    readPass × receiveStream × streamEnv → receiveState
  | (.returned _ data err, s, env) =>
    { st with stream := s, env := env, pendingRead := none, reads := st.reads ++ [(data, err)] }
  | (_, s, env) => { st with stream := s, env := env, pendingRead := some len }

/-- One call on the stream; an error of a frame handler closes the connection and ends the run. -/
def step (st : receiveState) : receiveEvent → Option receiveState
  | .streamFrame frame now => (st.stream.handleStreamFrame st.env frame now).toOption.map
      fun (s, env) => { st with stream := s, env := env }
  | .resetStreamFrame frame now => (st.stream.handleResetStreamFrame st.env frame now).toOption.map
      fun (s, env) => { st with stream := s, env := env }
  | .read len now => some (st.afterRead len (st.stream.Read st.env len now))
  | .wake now => st.pendingRead.map fun len =>
      st.afterRead len (finishRead st.env now (st.stream.readWake st.env.connection len now))
  | .cancelRead errorCode now =>
      let (s, env) := st.stream.CancelRead st.env errorCode now
      some { st with stream := s, env := env }
  | .closeForShutdown err => some { st with stream := st.stream.closeForShutdown err }

/-- The calls of a run: frames and RESET_STREAM frames agree with the final offset `F`, and the
one reader calls `Read` only when no `Read` of its waits. -/
def Admissible (F : UInt64) (st : receiveState) : receiveEvent → Prop
  | .streamFrame frame _ => frame.Offset + frame.DataLen ≤ F ∧
      (frame.FinBit → frame.Offset + frame.DataLen = F)
  | .resetStreamFrame frame _ => frame.ByteOffset = F
  | .read _ _ => st.pendingRead = none
  | _ => True

instance (F : UInt64) (st : receiveState) : (e : receiveEvent) → Decidable (Admissible F st e)
  | .streamFrame _ _ => inferInstanceAs (Decidable (_ ∧ _))
  | .resetStreamFrame _ _ => inferInstanceAs (Decidable (_ = _))
  | .read _ _ => inferInstanceAs (Decidable (_ = _))
  | .wake _ => instDecidableTrue
  | .cancelRead _ _ => instDecidableTrue
  | .closeForShutdown _ => instDecidableTrue

/-- The number of times the receive half reported completion. -/
def completions (st : receiveState) : Nat :=
  st.env.senderCalls.countP fun c => c = .onStreamCompleted st.stream.streamID

@[simp] theorem completions_streamCompleted (st : receiveState) (now : Int) :
    { st with env := st.stream.streamCompleted st.env now }.completions = st.completions + 1 := by
  simp [completions, List.countP_append]

theorem step_fin_after_cancelRead {st : receiveState} {frame : StreamFrame}
    (hc : st.stream.canceledRead = true)
    (hrf : st.stream.flowController.receivedFinalOffset = true)
    (hF : st.stream.finalOffset = st.stream.flowController.highestReceived)
    (hfin : frame.FinBit = true) (hoff : frame.Offset + frame.DataLen = st.stream.finalOffset)
    (now : Int) :
    st.step (.streamFrame frame now) = some { st with env := st.stream.streamCompleted st.env now } := by
  simp only [step, handleStreamFrame_fin_after_cancelRead hc hrf hF hfin hoff]
  rfl

/-- Once the read side is canceled and the final offset received, every retransmission of the FIN
frame reports completion once more and credits the connection once more with the bytes the stream
received and did not read, while the connection's highest received offset stays where it is. -/
theorem run_fin_after_cancelRead {st : receiveState} {frame : StreamFrame}
    (hc : st.stream.canceledRead = true)
    (hrf : st.stream.flowController.receivedFinalOffset = true)
    (hF : st.stream.finalOffset = st.stream.flowController.highestReceived)
    (hnr : st.stream.finRead = false) (hfin : frame.FinBit = true)
    (hoff : frame.Offset + frame.DataLen = st.stream.finalOffset) (n : Nat) (now : Int) :
    ∃ st', run step (Admissible st.stream.finalOffset) st
        (List.replicate n (.streamFrame frame now)) = some st' ∧
      st'.completions = st.completions + n ∧
      st'.env.connection.bytesRead = st.env.connection.bytesRead +
        n.toUInt64 * (st.stream.flowController.highestReceived - st.stream.flowController.bytesRead) ∧
      st'.env.connection.highestReceived = st.env.connection.highestReceived := by
  induction n generalizing st with
  | zero => exact ⟨st, rfl, rfl, by simp, rfl⟩
  | succ n ih =>
    have hadm : Admissible st.stream.finalOffset st (.streamFrame frame now) :=
      ⟨hoff ▸ UInt64.le_refl _, fun _ => hoff⟩
    obtain ⟨st', hrun, hcomp, hread, hhigh⟩ :=
      @ih { st with env := st.stream.streamCompleted st.env now } hc hrf hF hnr hoff
    dsimp only at hread hhigh
    refine ⟨st', ?_, ?_, ?_, ?_⟩
    · simp only [List.replicate_succ, run, if_pos hadm, step_fin_after_cancelRead hc hrf hF hfin hoff,
        Option.bind_some]
      exact hrun
    · rw [hcomp, completions_streamCompleted]
      omega
    · have hsucc : (n + 1).toUInt64 = n.toUInt64 + 1 := UInt64.ofNat_add n 1
      rw [hread, streamCompleted_connection hnr, streamFlowController.Abandon_bytesRead, hsucc,
        UInt64.succ_mul]
      ac_rfl
    · rw [hhigh, streamCompleted_connection hnr, streamFlowController.Abandon_highestReceived]

end receiveState

/-- The ten bytes of data a peer sends on stream 0, a bidirectional stream it opened. -/
def peerData : StreamFrame := ⟨0, false, true, 0, List.replicate 10 0⟩

/-- The FIN bit of stream 0, alone, at offset 10. -/
def peerFin : StreamFrame := ⟨0, true, true, 10, []⟩

/-- Stream 0 with receive windows of 100 bytes for it and its connection. -/
def freshStream : receiveState :=
  receiveState.init
    (receiveStream.newReceiveStream 0 (streamFlowController.NewStreamFlowController 0 100 100 0))
    (connectionFlowController.NewConnectionFlowController 100 100)

/-- The data arrives, the application cancels reading, the FIN bit arrives, and the peer
retransmits the packet with the FIN bit. -/
def finAfterCancel : List receiveEvent :=
  [.streamFrame peerData 0, .cancelRead 0 0, .streamFrame peerFin 0, .streamFrame peerFin 0]

set_option maxRecDepth 10000 in
/-- The receive half reports completion twice, and the connection counts 20 bytes read of the 10
it received. -/
theorem CancelRead_fin_retransmitted_completes_twice :
    ∃ st, run receiveState.step (receiveState.Admissible 10) freshStream finAfterCancel = some st ∧
      st.completions = 2 ∧ st.env.connection.bytesRead = 20 ∧
      st.env.connection.highestReceived = 10 := by
  have hrun : run receiveState.step (receiveState.Admissible 10) freshStream finAfterCancel =
      some _ := rfl
  exact ⟨_, hrun, rfl, rfl, rfl⟩

set_option maxRecDepth 10000 in
/-- After the first three calls, two more copies of the FIN frame report completion twice more. -/
theorem fin_retransmitted_after_cancelRead :
    ∃ st, run receiveState.step (receiveState.Admissible 10) freshStream (finAfterCancel.take 3) =
        some st ∧
      ∃ st', run receiveState.step (receiveState.Admissible st.stream.finalOffset) st
          (List.replicate 2 (.streamFrame peerFin 0)) = some st' ∧
        st'.completions = st.completions + 2 ∧
        st'.env.connection.bytesRead = st.env.connection.bytesRead +
          (2 : Nat).toUInt64 *
            (st.stream.flowController.highestReceived - st.stream.flowController.bytesRead) ∧
        st'.env.connection.highestReceived = st.env.connection.highestReceived := by
  have hrun : run receiveState.step (receiveState.Admissible 10) freshStream
      (finAfterCancel.take 3) = some _ := rfl
  exact ⟨_, hrun, receiveState.run_fin_after_cancelRead rfl rfl rfl rfl rfl rfl 2 0⟩

end QuicGo.Streams
