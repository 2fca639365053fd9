import QuicGo.Streams.ReceiveStream
import QuicGo.Wire.FrameCodec
import QuicGo.Lib.List

/-! `sendStream`: the send half of a stream. The stream's flow controller is a field; the
connection's flow controller and the calls the stream makes on its `streamSender` form the
`streamEnv` of the receive half. -/
namespace QuicGo.Streams
open QuicGo.Protocol QuicGo.Wire QuicGo.Flowcontrol QuicGo.Lib

/-- The errors that `Write` and `Close` return. -/
inductive writeError where
  /-- "write on closed stream %d" -/
  | writeOnClosed (streamID : Nat)
  /-- "Close called for canceled stream %d" -/
  | closeCanceled (streamID : Nat)
  /-- "Write on stream %d canceled with error code %d" -/
  | canceled (streamID : Nat) (errorCode : UInt16)
  /-- `streamCanceledError`: "Stream %d was reset with error code %d" -/
  | reset (streamID : Nat) (errorCode : UInt16)
  /-- the error that `closeForShutdown` was called with -/
  | shutdown (err : String)
  deriving DecidableEq, Repr

/-- `errorCodeStopping`, the error code of the RESET_STREAM frame sent in reply to
STOP_SENDING -/
def errorCodeStopping : UInt16 := 0

/-- The fields of `sendStream`; `dataForWriting` is `none` where the source's slice is nil. -/
structure sendStream where
  streamID : Nat
  writeOffset : UInt64
  cancelWriteErr : Option writeError
  closeForShutdownErr : Option writeError
  closedForShutdown : Bool
  finishedWriting : Bool
  canceledWrite : Bool
  finSent : Bool
  dataForWriting : Option (List UInt8)
  flowController : streamFlowController
  deriving DecidableEq, Repr

/-- How a pass of the loop of `Write` ends: `Write` returns the bytes written and its error, or
waits on `writeChan`. -/
inductive writePass where
  | returned (n : Nat) (err : Option writeError)
  | blocked
  deriving DecidableEq, Repr

namespace sendStream

def newSendStream (streamID : Nat) (flowController : streamFlowController) : sendStream where
  streamID
  writeOffset := 0
  cancelWriteErr := none
  closeForShutdownErr := none
  closedForShutdown := false
  finishedWriting := false
  canceledWrite := false
  finSent := false
  dataForWriting := none
  flowController

/-- A pass of the loop of `Write`, for a buffer of `len` bytes: `Write` returns once the data
was taken, the write canceled or the stream closed for shutdown. -/
def writeLoop (s : sendStream) (len : Nat) : writePass :=
  let bytesWritten := len - (s.dataForWriting.getD []).length
  if s.dataForWriting.isNone || s.canceledWrite || s.closedForShutdown then
    if let some err := s.closeForShutdownErr then .returned bytesWritten (some err)
    else if let some err := s.cancelWriteErr then .returned bytesWritten (some err)
    else .returned bytesWritten none
  else .blocked

def Write (s : sendStream) (p : List UInt8) : writePass × sendStream :=
  if s.finishedWriting then (.returned 0 (some (.writeOnClosed s.streamID)), s)
  else if s.canceledWrite then (.returned 0 s.cancelWriteErr, s)
  else if let some err := s.closeForShutdownErr then (.returned 0 (some err), s)
  else if p.length = 0 then (.returned 0 none, s)
  else
    let s := { s with dataForWriting := some p }
    (s.writeLoop p.length, s)

/-- `getDataForWriting` takes at most `maxBytes` of the data, within the flow control windows,
and says if the FIN bit goes with them. -/
def getDataForWriting (s : sendStream) (connection : connectionFlowController)
    (maxBytes : UInt64) : (List UInt8 × Bool) × sendStream × connectionFlowController :=
  match s.dataForWriting with
  | none => (([], s.finishedWriting && !s.finSent), s, connection)
  | some data =>
    let maxBytes := min maxBytes (s.flowController.SendWindowSize connection)
    if maxBytes = 0 then (([], false), s, connection)
    else
      let (ret, dataForWriting) :=
        if data.length > maxBytes.toNat then
          (data.take maxBytes.toNat, some (data.drop maxBytes.toNat))
        else (data, none)
      let (flowController, connection) :=
        s.flowController.AddBytesSent connection ret.length.toUInt64
      let s := { s with
        dataForWriting, writeOffset := s.writeOffset + ret.length.toUInt64, flowController }
      ((ret, s.finishedWriting && s.dataForWriting.isNone && !s.finSent), s, connection)

/-- `popStreamFrameImpl` returns whether the stream completed, the frame, and whether it has
more data to send; `none` is a panic of `MaxDataLen`. -/
def popStreamFrameImpl (s : sendStream) (env : streamEnv) (maxBytes : UInt64) :
    Option ((Bool × Option StreamFrame × Bool) × sendStream × streamEnv) := do
  if s.canceledWrite || s.closeForShutdownErr.isSome then return ((false, none, false), s, env)
  let frame : StreamFrame :=
    { StreamID := s.streamID, FinBit := false, DataLenPresent := true, Offset := s.writeOffset,
      Data := [] }
  let maxDataLen ← frame.MaxDataLen maxBytes
  -- a STREAM frame must have at least one byte of data
  if maxDataLen = 0 then return ((false, none, s.dataForWriting.isSome), s, env)
  let ((Data, FinBit), s, connection) := s.getDataForWriting env.connection maxDataLen
  let env := { env with connection }
  let frame := { frame with Data, FinBit }
  if Data.length = 0 && !FinBit then
    -- no data for writing, or blocked by the stream's or the connection's flow control
    if s.dataForWriting.isNone then return ((false, none, false), s, env)
    let ((isBlocked, offset), flowController) := s.flowController.IsNewlyBlocked
    let s := { s with flowController }
    if isBlocked then
      return ((false, none, false), s, { env with
        senderCalls := env.senderCalls ++ [.queueControlFrame (.streamDataBlocked s.streamID offset)] })
    return ((false, none, true), s, env)
  let s := if FinBit then { s with finSent := true } else s
  return ((FinBit, some frame, s.dataForWriting.isSome), s, env)

/-- The call `onStreamCompleted` that follows an operation that completed the send half. -/
def reportCompleted (s : sendStream) (env : streamEnv) (completed : Bool) : streamEnv :=
  if completed then { env with senderCalls := env.senderCalls ++ [.onStreamCompleted s.streamID] }
  else env

@[simp] theorem reportCompleted_connection (s : sendStream) (env : streamEnv) (completed : Bool) :
    (s.reportCompleted env completed).connection = env.connection := by
  unfold reportCompleted
  split <;> rfl

/-- `popStreamFrame` returns the next frame, of at most `maxBytes` bytes, and whether the stream
has more data to send. -/
def popStreamFrame (s : sendStream) (env : streamEnv) (maxBytes : UInt64) :
    Option ((Option StreamFrame × Bool) × sendStream × streamEnv) := do
  let ((completed, frame, hasMoreData), s, env) ← s.popStreamFrameImpl env maxBytes
  return ((frame, hasMoreData), s, s.reportCompleted env completed)

def Close (s : sendStream) : Except writeError sendStream :=
  if s.canceledWrite then throw (.closeCanceled s.streamID)
  else pure { s with finishedWriting := true }

def cancelWriteImpl (s : sendStream) (env : streamEnv) (errorCode : UInt16)
    (writeErr : writeError) : Bool × sendStream × streamEnv :=
  if s.canceledWrite || s.finishedWriting then (false, s, env)
  else
    let s := { s with canceledWrite := true, cancelWriteErr := some writeErr }
    (true, s, { env with senderCalls := env.senderCalls ++
      [.queueControlFrame (.resetStream ⟨s.streamID, errorCode, s.writeOffset⟩)] })

def CancelWrite (s : sendStream) (env : streamEnv) (errorCode : UInt16) : sendStream × streamEnv :=
  let (completed, s, env) := s.cancelWriteImpl env errorCode (.canceled s.streamID errorCode)
  (s, s.reportCompleted env completed)

def handleStopSendingFrame (s : sendStream) (env : streamEnv) (frame : StopSendingFrame) :
    sendStream × streamEnv :=
  let (completed, s, env) :=
    s.cancelWriteImpl env errorCodeStopping (.reset s.streamID frame.ErrorCode)
  (s, s.reportCompleted env completed)

def handleMaxStreamDataFrame (s : sendStream) (ByteOffset : UInt64) : sendStream :=
  { s with flowController := s.flowController.UpdateSendWindow ByteOffset }

/-- `closeForShutdown` closes the stream abruptly, without a FIN or a RESET_STREAM. -/
def closeForShutdown (s : sendStream) (err : String) : sendStream :=
  { s with closedForShutdown := true, closeForShutdownErr := some (.shutdown err) }

/-! ### Taking data within the flow control windows -/

/-- The bytes sent stay within the stream's and the connection's send windows; the connection
counts the stream's bytes among its own. -/
structure Windows (s : sendStream) (connection : connectionFlowController) : Prop where
  bytesSent : s.flowController.bytesSent = s.writeOffset
  streamWindow : s.writeOffset ≤ s.flowController.sendWindow
  connectionWindow : connection.bytesSent ≤ connection.sendWindow
  shared : s.writeOffset.toNat ≤ connection.bytesSent.toNat

/-- What a call of `getDataForWriting` did: it took `ret` off the front of the data, at most
`maxBytes` bytes, counted them in both windows, and changed no field but the data, the write
offset and the flow controller. -/
structure Took (s : sendStream) (connection : connectionFlowController) (maxBytes : UInt64)
    (ret : List UInt8) (fin : Bool) (s' : sendStream) (connection' : connectionFlowController) :
    Prop where
  data : ret ++ s'.dataForWriting.getD [] = s.dataForWriting.getD []
  le : ret.length ≤ maxBytes.toNat
  writeOffset : s'.writeOffset.toNat = s.writeOffset.toNat + ret.length
  windows : Windows s' connection'
  nonempty : s'.dataForWriting ≠ some []
  fin : fin = true → s'.dataForWriting = none ∧ s.finishedWriting = true ∧ s.finSent = false
  frame : ∃ dataForWriting writeOffset flowController,
    s' = { s with dataForWriting, writeOffset, flowController }
  idle : ret = [] → s' = s ∧ connection' = connection

theorem Took.of_idle {s : sendStream} {connection : connectionFlowController} {maxBytes : UInt64}
    {fin : Bool} (hw : Windows s connection) (hne : s.dataForWriting ≠ some [])
    (hfin : fin = true → s.dataForWriting = none ∧ s.finishedWriting = true ∧ s.finSent = false) :
    Took s connection maxBytes [] fin s connection :=
  ⟨rfl, Nat.zero_le _, rfl, hw, hne, hfin, ⟨_, _, _, rfl⟩, fun _ => ⟨rfl, rfl⟩⟩

theorem SendWindowSize_toNat {s : sendStream} {connection : connectionFlowController}
    (hw : Windows s connection) :
    (s.flowController.SendWindowSize connection).toNat =
      min (s.flowController.sendWindow.toNat - s.writeOffset.toNat)
        (connection.sendWindow.toNat - connection.bytesSent.toNat) := by
  have hstream : s.flowController.bytesSent ≤ s.flowController.sendWindow :=
    hw.bytesSent ▸ hw.streamWindow
  rw [streamFlowController.SendWindowSize, UInt64.toNat_min,
    baseFlowController.sendWindowSize_toNat hstream, connectionFlowController.SendWindowSize,
    baseFlowController.sendWindowSize_toNat hw.connectionWindow, hw.bytesSent]

/-- Taking `ret` off the front of the data, within what the windows allow, as the last branch
of `getDataForWriting` does. -/
theorem Took.of_take {s : sendStream} {connection : connectionFlowController} {maxBytes : UInt64}
    {data ret : List UInt8} {rest : Option (List UInt8)} (hw : Windows s connection)
    (hd : s.dataForWriting = some data) (hret : ret ++ rest.getD [] = data)
    (hrest : rest ≠ some []) (hpos : ret ≠ [])
    (hle : ret.length ≤ (min maxBytes (s.flowController.SendWindowSize connection)).toNat) :
    Took s connection maxBytes ret (s.finishedWriting && rest.isNone && !s.finSent)
      { s with
        dataForWriting := rest
        writeOffset := s.writeOffset + ret.length.toUInt64
        flowController := (s.flowController.AddBytesSent connection ret.length.toUInt64).1 }
      (s.flowController.AddBytesSent connection ret.length.toUInt64).2 := by
  have hsize := SendWindowSize_toNat hw
  have hmin := UInt64.toNat_min maxBytes (s.flowController.SendWindowSize connection)
  have hlen : ret.length.toUInt64.toNat = ret.length := by
    have h64 := (min maxBytes (s.flowController.SendWindowSize connection)).toNat_lt
    simp only [Nat.toUInt64_eq, UInt64.toNat_ofNat']
    omega
  have hstream : s.flowController.bytesSent ≤ s.flowController.sendWindow :=
    hw.bytesSent ▸ hw.streamWindow
  obtain ⟨hsb, hsw⟩ := baseFlowController.AddBytesSent_within hstream
    (n := ret.length.toUInt64) (by
      rw [UInt64.le_iff_toNat_le, baseFlowController.sendWindowSize_toNat hstream, hlen,
        hw.bytesSent]
      omega)
  obtain ⟨hcb, hcw⟩ := baseFlowController.AddBytesSent_within hw.connectionWindow
    (n := ret.length.toUInt64) (by
      rw [UInt64.le_iff_toNat_le, baseFlowController.sendWindowSize_toNat hw.connectionWindow, hlen]
      omega)
  change (s.flowController.bytesSent + _).toNat = _ at hsb
  change s.flowController.bytesSent + _ ≤ _ at hsw
  change (connection.bytesSent + _).toNat = _ at hcb
  rw [hw.bytesSent, hlen] at hsb
  rw [hw.bytesSent] at hsw
  rw [hlen] at hcb
  refine ⟨by rw [hd, Option.getD_some, hret], by omega, hsb, ⟨?_, hsw, hcw, ?_⟩, hrest,
    fun hfin => ?_, ⟨_, _, _, rfl⟩, fun h => absurd h hpos⟩
  · show s.flowController.bytesSent + _ = _
    rw [hw.bytesSent]
  · have hshared := hw.shared
    change (s.writeOffset + _).toNat ≤ (connection.bytesSent + _).toNat
    omega
  · simp only [Bool.and_eq_true, Option.isNone_iff_eq_none, Bool.not_eq_eq_eq_not,
      Bool.not_true] at hfin
    exact ⟨hfin.1.2, hfin.1.1, hfin.2⟩

theorem getDataForWriting_spec {s s' : sendStream} {connection connection' : connectionFlowController}
    {maxBytes : UInt64} {ret : List UInt8} {fin : Bool} (hw : Windows s connection)
    (hne : s.dataForWriting ≠ some [])
    (h : s.getDataForWriting connection maxBytes = ((ret, fin), s', connection')) :
    Took s connection maxBytes ret fin s' connection' := by
  suffices hr : let r := s.getDataForWriting connection maxBytes
      Took s connection maxBytes r.1.1 r.1.2 r.2.1 r.2.2 by
    rw [h] at hr
    exact hr
  unfold getDataForWriting
  cases hd : s.dataForWriting with
  | none =>
    refine Took.of_idle hw hne fun hfin => ?_
    simp only [Bool.and_eq_true, Bool.not_eq_eq_eq_not, Bool.not_true] at hfin
    exact ⟨hd, hfin⟩
  | some data =>
    dsimp only
    split_ifs with hzero hsplit
    · exact Took.of_idle hw hne (fun h => absurd h Bool.false_ne_true)
    · have hk : (min maxBytes (s.flowController.SendWindowSize connection)).toNat ≠ 0 :=
        fun h => hzero (UInt64.toNat_inj.mp h)
      refine Took.of_take hw hd (List.take_append_drop _ _) ?_ ?_ (List.length_take_le _ _)
      · simp only [ne_eq, Option.some.injEq, List.drop_eq_nil_iff]
        omega
      · simp only [ne_eq, List.take_eq_nil_iff, not_or]
        exact ⟨hk, by rintro rfl; simp at hsplit⟩
    · refine Took.of_take hw hd (List.append_nil data) (by simp) (fun h => hne (h ▸ hd)) ?_
      show data.length ≤ _
      omega

/-- A `Write` on a stream that was neither canceled nor closed for shutdown: an error once the
stream was closed, nothing for an empty buffer, and otherwise the buffer handed over and a wait. -/
theorem Write_eq {s : sendStream} (hc : s.canceledWrite = false)
    (hsd : s.closeForShutdownErr = none) (hcl : s.closedForShutdown = false) (p : List UInt8) :
    s.Write p =
      if s.finishedWriting then (.returned 0 (some (.writeOnClosed s.streamID)), s)
      else if p = [] then (.returned 0 none, s)
      else (.blocked, { s with dataForWriting := some p }) := by
  unfold Write writeLoop
  simp only [hc, hsd, hcl, Bool.false_eq_true, if_false, List.length_eq_zero_iff,
    Option.isNone_some, Bool.or_self]

theorem writeLoop_eq_blocked_iff {s : sendStream} (hc : s.canceledWrite = false)
    (hcl : s.closedForShutdown = false) (len : Nat) :
    s.writeLoop len = .blocked ↔ s.dataForWriting.isSome := by
  unfold writeLoop
  cases hd : s.dataForWriting <;> simp [hc, hcl]
  split <;> (try split) <;> simp

theorem Close_eq {s : sendStream} (hc : s.canceledWrite = false) :
    s.Close = .ok { s with finishedWriting := true } := by
  simp only [Close, hc, Bool.false_eq_true, if_false]
  rfl

theorem Windows.of_eq {s s' : sendStream} {connection : connectionFlowController}
    (hw : Windows s connection) (ho : s'.writeOffset = s.writeOffset)
    (hf : s'.flowController = s.flowController) : Windows s' connection :=
  ⟨by rw [hf, ho]; exact hw.bytesSent, by rw [ho, hf]; exact hw.streamWindow,
    hw.connectionWindow, by rw [ho]; exact hw.shared⟩

theorem Windows.of_flowController {s : sendStream} {connection : connectionFlowController}
    {flowController : streamFlowController} (hw : Windows s connection)
    (hb : flowController.bytesSent = s.flowController.bytesSent)
    (hs : s.flowController.sendWindow ≤ flowController.sendWindow) :
    Windows { s with flowController } connection :=
  ⟨hb.trans hw.bytesSent, UInt64.le_trans hw.streamWindow hs, hw.connectionWindow, hw.shared⟩

theorem Windows.of_connection {s : sendStream} {connection connection' : connectionFlowController}
    (hw : Windows s connection) (hb : connection'.bytesSent = connection.bytesSent)
    (hs : connection.sendWindow ≤ connection'.sendWindow) : Windows s connection' :=
  ⟨hw.bytesSent, hw.streamWindow, hb ▸ UInt64.le_trans hw.connectionWindow hs, hb ▸ hw.shared⟩

/-! ### Popping a frame -/

theorem popStreamFrame_cases {s s' : sendStream} {env env' : streamEnv} {maxBytes : UInt64}
    {frame : Option StreamFrame} {hasMoreData : Bool} (hc : s.canceledWrite = false)
    (hsd : s.closeForShutdownErr = none) (hw : Windows s env.connection)
    (hne : s.dataForWriting ≠ some [])
    (h : s.popStreamFrame env maxBytes = some ((frame, hasMoreData), s', env')) :
    (frame = none ∧ (∃ flowController, s' = { s with flowController } ∧
        flowController.bytesSent = s.flowController.bytesSent ∧
        flowController.sendWindow = s.flowController.sendWindow) ∧
      (env' = env ∨ ∃ f, env' = { env with senderCalls := env.senderCalls ++ [.queueControlFrame f] })) ∨
    (∃ m ret fin s₁ connection₁,
      StreamFrame.MaxDataLen ⟨s.streamID, false, true, s.writeOffset, []⟩ maxBytes = some m ∧
      m ≠ 0 ∧ s.getDataForWriting env.connection m = ((ret, fin), s₁, connection₁) ∧
      (ret ≠ [] ∨ fin = true) ∧ frame = some ⟨s.streamID, fin, true, s.writeOffset, ret⟩ ∧
      s' = (if fin then { s₁ with finSent := true } else s₁) ∧
      env' = s₁.reportCompleted { env with connection := connection₁ } fin) := by
  unfold popStreamFrame popStreamFrameImpl at h
  simp only [hc, hsd, Option.isSome_none, Bool.or_false, Bool.false_eq_true, if_false] at h
  cases hm : StreamFrame.MaxDataLen ⟨s.streamID, false, true, s.writeOffset, []⟩ maxBytes with
  | none => simp [hm] at h
  | some m =>
    rw [hm] at h
    by_cases hm0 : m = 0
    · simp only [hm0, if_true, Option.bind_eq_bind, Option.bind_some, Option.pure_def,
        Option.some.injEq, Prod.mk.injEq] at h
      obtain ⟨⟨rfl, -⟩, rfl, rfl⟩ := h
      exact .inl ⟨rfl, ⟨_, rfl, rfl, rfl⟩, .inl rfl⟩
    · rcases hg : s.getDataForWriting env.connection m with ⟨⟨ret, fin⟩, s₁, connection₁⟩
      have ht := getDataForWriting_spec hw hne hg
      simp only [hm0, if_false, hg, Option.bind_eq_bind, Option.bind_some, Option.pure_def] at h
      by_cases hidle : ret = [] ∧ fin = false
      · obtain ⟨rfl, rfl⟩ := hidle
        obtain ⟨rfl, rfl⟩ := ht.idle rfl
        simp only [List.length_nil, decide_true, Bool.not_false, Bool.and_self, if_true] at h
        split_ifs at h <;>
          simp only [Option.bind_some, Option.some.injEq, Prod.mk.injEq] at h <;>
          obtain ⟨⟨rfl, -⟩, rfl, rfl⟩ := h
        · exact .inl ⟨rfl, ⟨_, rfl, rfl, rfl⟩, .inl rfl⟩
        · exact .inl ⟨rfl, ⟨_, rfl, by simp, by simp⟩, .inr ⟨_, rfl⟩⟩
        · exact .inl ⟨rfl, ⟨_, rfl, by simp, by simp⟩, .inl rfl⟩
      · have hsend : ret ≠ [] ∨ fin = true := by
          rw [Bool.eq_false_iff] at hidle
          tauto
        have hcond : (decide (ret.length = 0) && !fin) = false := by
          rcases hsend with hne | hf
          · simp [hne]
          · simp [hf]
        simp only [hcond, Bool.false_eq_true, if_false, Option.bind_some, Option.some.injEq,
          Prod.mk.injEq] at h
        obtain ⟨⟨rfl, -⟩, rfl, rfl⟩ := h
        refine .inr ⟨m, ret, fin, s₁, connection₁, rfl, hm0, hg, hsend, rfl, rfl, ?_⟩
        cases fin <;> rfl

theorem getDataForWriting_length_le (s : sendStream) (connection : connectionFlowController)
    (maxBytes : UInt64) : (s.getDataForWriting connection maxBytes).1.1.length ≤ maxBytes.toNat := by
  unfold getDataForWriting
  cases s.dataForWriting with
  | none => simp
  | some data =>
    have hmin : (min maxBytes (s.flowController.SendWindowSize connection)).toNat ≤
        maxBytes.toNat := by
      simp [UInt64.toNat_min]
    simp only
    split_ifs with h0 hlong
    · simp
    · simp only [List.length_take]
      omega
    · simp only [gt_iff_lt, not_lt] at hlong ⊢
      omega

/-- Every frame that `popStreamFrame` returns for a size of at most 16385 bytes fits that size,
whatever the stream's state. -/
theorem popStreamFrame_fits {s s' : sendStream} {env env' : streamEnv} {maxBytes : UInt64}
    {sf : StreamFrame} {more : Bool} (hmax : maxBytes ≤ 16385)
    (h : s.popStreamFrame env maxBytes = some ((some sf, more), s', env')) :
    ∃ L, sf.Length = some L ∧ L ≤ maxBytes := by
  unfold popStreamFrame popStreamFrameImpl at h
  by_cases hstop : (s.canceledWrite || s.closeForShutdownErr.isSome) = true
  · simp [hstop] at h
  simp only [hstop, Bool.false_eq_true, if_false] at h
  cases hm : StreamFrame.MaxDataLen ⟨s.streamID, false, true, s.writeOffset, []⟩ maxBytes with
  | none => simp [hm] at h
  | some m =>
    by_cases hm0 : m = 0
    · simp [hm, hm0] at h
    have hle := s.getDataForWriting_length_le env.connection m
    rcases hg : s.getDataForWriting env.connection m with ⟨⟨ret, fin⟩, s₁, connection₁⟩
    rw [hg] at hle
    simp only [hm, hm0, if_false, hg, Option.bind_eq_bind, Option.bind_some, Option.pure_def] at h
    split_ifs at h <;> simp only [Option.bind_some, Option.some.injEq, Prod.mk.injEq,
      reduceCtorEq, false_and] at h <;>
    obtain ⟨⟨rfl, -⟩, -⟩ := h <;>
    exact StreamFrame.Length_le_of_MaxDataLen (f := ⟨s.streamID, fin, true, s.writeOffset, ret⟩)
      hmax hm hm0 hle

end sendStream

/-- A send stream in its connection, with the one goroutine that writes to it: the buffer of a
`Write` that waits, what each `Write` returned, the bytes that `Write` handed to the stream, and
the frames that `popStreamFrame` returned with the size each was popped with, oldest first. -/
structure sendState where
  stream : sendStream
  env : streamEnv
  pendingWrite : Option (List UInt8)
  writes : List (Nat × Option writeError)
  written : List UInt8
  frames : List (UInt64 × StreamFrame)
  deriving DecidableEq, Repr

/-- The calls on one send stream: the application's `Write`, the resumption of a `Write` that
waits, `Close` and `CancelWrite`; the framer's `popStreamFrame`; the MAX_STREAM_DATA,
MAX_DATA and STOP_SENDING frames of the peer; and `closeForShutdown`. -/
inductive sendEvent where
  | write (p : List UInt8)
  | wake
  | popStreamFrame (maxBytes : UInt64)
  | maxStreamDataFrame (ByteOffset : UInt64)
  | maxDataFrame (ByteOffset : UInt64)
  | close
  | cancelWrite (errorCode : UInt16)
  | stopSendingFrame (frame : StopSendingFrame)
  | closeForShutdown (err : String)
  deriving DecidableEq, Repr

namespace sendState
open sendStream

/-- A new stream with a new flow controller, in a connection whose controller is given. -/
def init (streamID : Nat) (receiveWindow maxReceiveWindow initialSendWindow : UInt64)
    (connection : connectionFlowController) : sendState :=
  ⟨newSendStream streamID (streamFlowController.NewStreamFlowController streamID receiveWindow
    maxReceiveWindow initialSendWindow), ⟨connection, []⟩, none, [], [], []⟩

/-- The state after a pass of the loop of a waiting `Write`. -/
def afterWake (st : sendState) : writePass → sendState
  | .returned n err => { st with pendingWrite := none, writes := st.writes ++ [(n, err)] }
  | .blocked => st

/-- One call on the stream; a panic of `popStreamFrame` ends the run. -/
def step (st : sendState) : sendEvent → Option sendState
  | .write p =>
    match st.stream.Write p with
    | (.returned n err, s) => some { st with stream := s, writes := st.writes ++ [(n, err)] }
    | (.blocked, s) => some { st with stream := s, pendingWrite := some p, written := st.written ++ p }
  | .wake => st.pendingWrite.map fun p => st.afterWake (st.stream.writeLoop p.length)
  | .popStreamFrame maxBytes => (st.stream.popStreamFrame st.env maxBytes).map
      fun ((frame, _), s, env) =>
        { st with stream := s, env, frames := st.frames ++ (frame.map (maxBytes, ·)).toList }
  | .maxStreamDataFrame ByteOffset =>
    some { st with stream := st.stream.handleMaxStreamDataFrame ByteOffset }
  | .maxDataFrame ByteOffset =>
    some { st with env := { st.env with connection := st.env.connection.UpdateSendWindow ByteOffset } }
  | .close =>
    match st.stream.Close with
    | .ok s => some { st with stream := s }
    | .error _ => some st
  | .cancelWrite errorCode =>
    let (s, env) := st.stream.CancelWrite st.env errorCode
    some { st with stream := s, env }
  | .stopSendingFrame frame =>
    let (s, env) := st.stream.handleStopSendingFrame st.env frame
    some { st with stream := s, env }
  | .closeForShutdown err => some { st with stream := st.stream.closeForShutdown err }

/-- The calls of a run without cancellation: the one writer calls `Write` only when no `Write`
of its waits, and the framer asks for frames of at most `MaxReceivePacketSize` bytes. -/
def Admissible (st : sendState) : sendEvent → Prop
  | .write _ => st.pendingWrite = none
  | .popStreamFrame maxBytes => maxBytes ≤ MaxReceivePacketSize
  | .cancelWrite _ | .stopSendingFrame _ | .closeForShutdown _ => False
  | _ => True

instance (st : sendState) : (e : sendEvent) → Decidable (Admissible st e)
  | .write _ => inferInstanceAs (Decidable (_ = _))
  | .popStreamFrame _ => inferInstanceAs (Decidable (_ ≤ _))
  | .wake | .maxStreamDataFrame _ | .maxDataFrame _ | .close => instDecidableTrue
  | .cancelWrite _ | .stopSendingFrame _ | .closeForShutdown _ => instDecidableFalse

/-- The number of times the send half reported completion. -/
def completions (st : sendState) : Nat :=
  st.env.senderCalls.countP fun c => c = .onStreamCompleted st.stream.streamID

/-- The data of the frames returned so far, in order. -/
def sent (st : sendState) : List UInt8 :=
  st.frames.flatMap (·.2.Data)

/-- What holds along every run without cancellation: the frames tile the bytes written from
offset 0 and the data not yet sent follows them; the write offset is where they end and stays
within both windows; each frame fits its size; and the one frame with the FIN bit, once sent, is
the last one and was reported as the completion of the stream. -/
structure Inv (st : sendState) : Prop where
  canceledWrite : st.stream.canceledWrite = false
  closeForShutdownErr : st.stream.closeForShutdownErr = none
  closedForShutdown : st.stream.closedForShutdown = false
  nonempty : st.stream.dataForWriting ≠ some []
  idle : st.pendingWrite = none → st.stream.dataForWriting = none
  contiguous : Contiguous (fun q : UInt64 × StreamFrame => q.2.Offset.toNat) (·.2.Data) 0 st.frames
  data : st.sent ++ st.stream.dataForWriting.getD [] = st.written
  writeOffset : st.stream.writeOffset.toNat = st.sent.length
  windows : st.stream.Windows st.env.connection
  fits : ∀ q ∈ st.frames, ∃ L, q.2.Length = some L ∧ L ≤ q.1
  finBits : st.frames.countP (·.2.FinBit) = if st.stream.finSent then 1 else 0
  completions : st.completions = if st.stream.finSent then 1 else 0
  beforeLast : ∀ q ∈ st.frames.dropLast, q.2.FinBit = false
  finSent : st.stream.finSent = true → st.stream.dataForWriting = none ∧ st.stream.finishedWriting = true

theorem Inv.init (streamID : Nat) (receiveWindow maxReceiveWindow initialSendWindow : UInt64)
    {connection : connectionFlowController} (hc : connection.bytesSent ≤ connection.sendWindow) :
    Inv (init streamID receiveWindow maxReceiveWindow initialSendWindow connection) where
  canceledWrite := rfl
  closeForShutdownErr := rfl
  closedForShutdown := rfl
  nonempty := nofun
  idle _ := rfl
  contiguous := trivial
  data := rfl
  writeOffset := rfl
  windows := ⟨rfl, UInt64.zero_le, hc, Nat.zero_le _⟩
  fits _ hq := absurd hq List.not_mem_nil
  finBits := rfl
  completions := rfl
  beforeLast _ hq := absurd hq List.not_mem_nil
  finSent := Bool.noConfusion

theorem Inv.setWrites {st : sendState} (hi : Inv st) (writes : List (Nat × Option writeError)) :
    Inv { st with writes } :=
  ⟨hi.1, hi.2, hi.3, hi.4, hi.5, hi.6, hi.7, hi.8, hi.9, hi.10, hi.11, hi.12, hi.13, hi.14⟩

theorem Inv.finSent_eq_false {st : sendState} (hi : Inv st) (h : st.stream.finishedWriting = false) :
    st.stream.finSent = false := by
  cases hf : st.stream.finSent
  · rfl
  · simp [(hi.finSent hf).2] at h

theorem Inv.write {st st' : sendState} {p : List UInt8} (hi : Inv st)
    (hidle : st.pendingWrite = none) (h : st.step (.write p) = some st') : Inv st' := by
  have hnone := hi.idle hidle
  simp only [step, Write_eq hi.canceledWrite hi.closeForShutdownErr hi.closedForShutdown] at h
  split_ifs at h with hfin hp
  · obtain rfl := Option.some.inj h
    exact hi.setWrites _
  · obtain rfl := Option.some.inj h
    exact hi.setWrites _
  · obtain rfl := Option.some.inj h
    have hsent : st.sent = st.written := by simpa [hnone] using hi.data
    have hfs := hi.finSent_eq_false (Bool.eq_false_iff.mpr hfin)
    refine ⟨hi.canceledWrite, hi.closeForShutdownErr, hi.closedForShutdown, by simpa using hp,
      nofun, hi.contiguous, ?_, hi.writeOffset, hi.windows.of_eq rfl rfl, hi.fits, hi.finBits,
      hi.completions,
      hi.beforeLast, fun h => absurd (hfs ▸ h) Bool.false_ne_true⟩
    show st.sent ++ p = st.written ++ p
    rw [hsent]

theorem Inv.wake {st st' : sendState} (hi : Inv st) (h : st.step .wake = some st') : Inv st' := by
  simp only [step] at h
  obtain ⟨p, -, rfl⟩ := Option.map_eq_some_iff.mp h
  unfold afterWake
  split
  · rename_i n err hloop
    have hnone : st.stream.dataForWriting = none := by
      have hdone := (writeLoop_eq_blocked_iff hi.canceledWrite hi.closedForShutdown p.length).not.mp
        (by rw [hloop]; exact writePass.noConfusion)
      simpa using hdone
    exact ⟨hi.1, hi.2, hi.3, hi.4, fun _ => hnone, hi.6, hi.7, hi.8, hi.9, hi.10, hi.11, hi.12, hi.13,
      hi.14⟩
  · exact hi

theorem Inv.maxStreamDataFrame {st : sendState} (hi : Inv st) (ByteOffset : UInt64) :
    Inv { st with stream := st.stream.handleMaxStreamDataFrame ByteOffset } :=
  ⟨hi.1, hi.2, hi.3, hi.4, hi.5, hi.6, hi.7, hi.8,
    hi.windows.of_flowController (baseFlowController.UpdateSendWindow_bytesSent _ _)
      (baseFlowController.le_UpdateSendWindow _ _),
    hi.10, hi.11, hi.12, hi.13, hi.14⟩

theorem Inv.maxDataFrame {st : sendState} (hi : Inv st) (ByteOffset : UInt64) :
    Inv { st with env := { st.env with connection := st.env.connection.UpdateSendWindow ByteOffset } } :=
  ⟨hi.1, hi.2, hi.3, hi.4, hi.5, hi.6, hi.7, hi.8,
    hi.windows.of_connection (baseFlowController.UpdateSendWindow_bytesSent _ _)
      (baseFlowController.le_UpdateSendWindow _ _),
    hi.10, hi.11, hi.12, hi.13, hi.14⟩

/-- The step of a `popStreamFrame` that returned a frame: the data that `getDataForWriting`
took, at the write offset, with the FIN bit if the stream was closed and its data is all sent. -/
theorem Inv.popFrame {st : sendState} {maxBytes m : UInt64} {ret : List UInt8} {fin : Bool}
    {s₁ : sendStream} {connection₁ : connectionFlowController} (hi : Inv st)
    (hmax : maxBytes ≤ MaxReceivePacketSize)
    (hm : StreamFrame.MaxDataLen ⟨st.stream.streamID, false, true, st.stream.writeOffset, []⟩
      maxBytes = some m) (hm0 : m ≠ 0)
    (hg : st.stream.getDataForWriting st.env.connection m = ((ret, fin), s₁, connection₁))
    (hsend : ret ≠ [] ∨ fin = true) :
    Inv { st with
      stream := if fin then { s₁ with finSent := true } else s₁
      env := s₁.reportCompleted { st.env with connection := connection₁ } fin
      frames := st.frames ++ [(maxBytes, ⟨st.stream.streamID, fin, true, st.stream.writeOffset, ret⟩)] } := by
  have ht := getDataForWriting_spec hi.windows hi.nonempty hg
  obtain ⟨d, w, fc, rfl⟩ := ht.frame
  have hfs : st.stream.finSent = false := by
    rcases hsend with hret | hfin
    · have hsome : st.stream.dataForWriting ≠ none := fun hn => by
        have hdata := ht.data
        rw [hn, Option.getD_none, List.append_eq_nil_iff] at hdata
        exact hret hdata.1
      cases hf : st.stream.finSent
      · rfl
      · exact absurd (hi.finSent hf).1 hsome
    · exact (ht.fin hfin).2.2
  have hnofin : ∀ q ∈ st.frames, q.2.FinBit = false := by
    have hzero := hi.finBits
    simp only [hfs, Bool.false_eq_true, if_false, List.countP_eq_zero] at hzero
    simpa using hzero
  have hstream :
      (if fin then
        { st.stream with
          dataForWriting := d
          writeOffset := w
          flowController := fc
          finSent := true }
      else { st.stream with dataForWriting := d, writeOffset := w, flowController := fc }) =
      { st.stream with dataForWriting := d, writeOffset := w, flowController := fc, finSent := fin } := by
    cases fin
    · rw [if_neg Bool.false_ne_true, ← hfs]
    · rfl
  have hcomp : st.completions = 0 := by rw [hi.completions, hfs, if_neg Bool.false_ne_true]
  rw [hstream]
  refine ⟨hi.1, hi.2, hi.3, ht.nonempty, fun hp => ?_, ?_, ?_, ?_, ?_, ?_, ?_, ?_, ?_,
    fun hfin => ⟨(ht.fin hfin).1, (ht.fin hfin).2.1⟩⟩
  · have hdata := ht.data
    rw [hi.idle hp, Option.getD_none, List.append_eq_nil_iff] at hdata
    cases d with
    | none => rfl
    | some rest => exact absurd (congrArg some hdata.2) ht.nonempty
  · exact hi.contiguous.snoc (by rw [Nat.zero_add]; exact hi.writeOffset)
  · show List.flatMap _ (st.frames ++ [_]) ++ d.getD [] = st.written
    rw [List.flatMap_append, List.flatMap_singleton, List.append_assoc, ht.data]
    exact hi.data
  · show w.toNat = (List.flatMap _ (st.frames ++ [_])).length
    rw [List.flatMap_append, List.flatMap_singleton, List.length_append, ht.writeOffset,
      hi.writeOffset]
    rfl
  · simp only [reportCompleted_connection]
    exact ht.windows.of_eq rfl rfl
  · intro q hq
    rcases List.mem_append.mp hq with hq | hq
    · exact hi.fits q hq
    · obtain rfl := List.mem_singleton.mp hq
      exact StreamFrame.Length_le_of_MaxDataLen (UInt64.le_trans hmax (by decide)) hm hm0 ht.le
  · rw [List.countP_append, List.countP_eq_zero.mpr (by simpa using hnofin)]
    cases fin <;> rfl
  · show List.countP _ (st.stream.reportCompleted _ fin).senderCalls = _
    unfold reportCompleted
    cases fin
    · exact hcomp
    · simp only [if_true, List.countP_append]
      change st.completions + _ = 1
      rw [hcomp]
      simp
  · rw [List.dropLast_concat]
    exact hnofin

theorem Inv.popStreamFrame {st st' : sendState} {maxBytes : UInt64} (hi : Inv st)
    (hmax : maxBytes ≤ MaxReceivePacketSize) (h : st.step (.popStreamFrame maxBytes) = some st') :
    Inv st' := by
  simp only [step] at h
  obtain ⟨⟨⟨frame, more⟩, s', env'⟩, hpop, rfl⟩ := Option.map_eq_some_iff.mp h
  rcases popStreamFrame_cases hi.canceledWrite hi.closeForShutdownErr hi.windows hi.nonempty hpop with
    ⟨rfl, ⟨fc, rfl, hb, hs⟩, henv⟩ | ⟨m, ret, fin, s₁, connection₁, hm, hm0, hg, hsend, rfl, rfl, rfl⟩
  · simp only [Option.map_none, Option.toList_none, List.append_nil]
    have hconn : env'.connection = st.env.connection := by
      rcases henv with rfl | ⟨f, rfl⟩ <;> rfl
    have hcomp : env'.senderCalls.countP (fun c => c = .onStreamCompleted st.stream.streamID) =
        st.completions := by
      rcases henv with rfl | ⟨f, rfl⟩
      · rfl
      · simp [sendState.completions, List.countP_append]
    refine ⟨hi.1, hi.2, hi.3, hi.4, hi.5, hi.6, hi.7, hi.8, ?_, hi.10, hi.11, hcomp.trans hi.12,
      hi.13, hi.14⟩
    rw [show ({ st with stream := { st.stream with flowController := fc }, env := env' } : sendState).env.connection =
      st.env.connection from hconn]
    exact hi.windows.of_flowController hb (hs ▸ UInt64.le_refl _)
  · exact hi.popFrame hmax hm hm0 hg hsend

theorem Inv.close {st st' : sendState} (hi : Inv st) (h : st.step .close = some st') : Inv st' := by
  simp only [step, Close_eq hi.canceledWrite, Option.some.injEq] at h
  subst h
  exact ⟨hi.1, hi.2, hi.3, hi.4, hi.5, hi.6, hi.7, hi.8, hi.windows.of_eq rfl rfl, hi.10, hi.11,
    hi.12, hi.13, fun hf => ⟨(hi.finSent hf).1, rfl⟩⟩

theorem Inv.step {st st' : sendState} {e : sendEvent} (hi : Inv st) (he : Admissible st e)
    (h : st.step e = some st') : Inv st' := by
  cases e with
  | write p => exact hi.write he h
  | wake => exact hi.wake h
  | popStreamFrame maxBytes => exact hi.popStreamFrame he h
  | maxStreamDataFrame ByteOffset =>
    obtain rfl := Option.some.inj h
    exact hi.maxStreamDataFrame ByteOffset
  | maxDataFrame ByteOffset =>
    obtain rfl := Option.some.inj h
    exact hi.maxDataFrame ByteOffset
  | close => exact hi.close h
  | cancelWrite | stopSendingFrame | closeForShutdown => exact he.elim

/-- Along every run without cancellation, with frame sizes up to `MaxReceivePacketSize`: the
frames tile the bytes written from offset 0, and the data not yet sent follows them, so that
they carry all of it when no `Write` waits; each frame fits the size it was popped with; the write offset stays within the stream's and the
connection's send windows; at most one frame carries the FIN bit, and it is the last one; it
was sent exactly when the stream reported its completion, and then the frames carry all the
bytes written and the FIN frame ends at their number. -/
theorem popStreamFrame_frames {streamID : Nat}
    {receiveWindow maxReceiveWindow initialSendWindow : UInt64}
    {connection : connectionFlowController} (hc : connection.bytesSent ≤ connection.sendWindow)
    {es : List sendEvent} {st : sendState}
    (hr : run step Admissible
      (init streamID receiveWindow maxReceiveWindow initialSendWindow connection) es = some st) :
    Contiguous (fun q : UInt64 × StreamFrame => q.2.Offset.toNat) (·.2.Data) 0 st.frames ∧
      st.sent ++ st.stream.dataForWriting.getD [] = st.written ∧
      (st.pendingWrite = none → st.sent = st.written) ∧
      (∀ q ∈ st.frames, ∃ L, q.2.Length = some L ∧ L ≤ q.1) ∧
      st.stream.writeOffset ≤ st.stream.flowController.sendWindow ∧
      st.stream.writeOffset ≤ st.env.connection.sendWindow ∧
      st.frames.countP (·.2.FinBit) = st.completions ∧ st.completions ≤ 1 ∧
      (∀ q ∈ st.frames.dropLast, q.2.FinBit = false) ∧
      (st.completions = 1 → st.sent = st.written ∧
        ∃ q ∈ st.frames.getLast?, q.2.FinBit = true ∧
          q.2.Offset.toNat + q.2.Data.length = st.written.length) := by
  have hi : Inv st := run_preserves (fun _ _ _ hi he h => hi.step he h) (Inv.init _ _ _ _ hc) hr
  have hwin := hi.windows
  refine ⟨hi.contiguous, hi.data, fun hp => by simpa [hi.idle hp] using hi.data, hi.fits,
    hwin.streamWindow, ?_,
    by rw [hi.finBits, hi.completions], by rw [hi.completions]; split <;> omega, hi.beforeLast,
    fun h1 => ?_⟩
  · rw [UInt64.le_iff_toNat_le]
    exact hwin.shared.trans (UInt64.le_iff_toNat_le.mp hwin.connectionWindow)
  · have hfin : st.stream.finSent = true := by
      rw [hi.completions] at h1
      cases hf : st.stream.finSent
      · simp [hf] at h1
      · rfl
    have hsent : st.sent = st.written := by simpa [(hi.finSent hfin).1] using hi.data
    have hone : st.frames.countP (·.2.FinBit) = 1 := by rw [hi.finBits, hfin, if_pos rfl]
    obtain ⟨pre, q, hframes⟩ : ∃ pre q, st.frames = pre ++ [q] := by
      rcases List.eq_nil_or_concat st.frames with hnil | hcons
      · simp [hnil] at hone
      · simpa only [List.concat_eq_append] using hcons
    have hpre : pre.countP (·.2.FinBit) = 0 := by
      have hbefore := hi.beforeLast
      rw [hframes, List.dropLast_concat] at hbefore
      exact List.countP_eq_zero.mpr (by simpa using hbefore)
    have hq : q.2.FinBit = true := by
      rw [hframes, List.countP_append, hpre] at hone
      simpa using hone
    refine ⟨hsent, q, by simp [hframes], hq, ?_⟩
    have hend := (hframes ▸ hi.contiguous).end_last
    rw [hend, ← hframes, Nat.zero_add, ← hsent]
    rfl

end sendState

/-- Stream 0, with send windows of 1000 bytes, in a connection whose send window the peer has
yet to open. -/
def freshSendStream : sendState :=
  sendState.init 0 100 100 1000 (connectionFlowController.NewConnectionFlowController 100 100)

/-- The peer opens the connection's window, the application writes three bytes, which go out,
and closes the stream; the FIN bit goes out alone, at offset 3. -/
def writeThenClose : List sendEvent :=
  [.maxDataFrame 1000, .write [1, 2, 3], .popStreamFrame MaxReceivePacketSize, .wake, .close,
    .popStreamFrame MaxReceivePacketSize]

theorem popStreamFrame_frames_writeThenClose :
    (connectionFlowController.NewConnectionFlowController 100 100).bytesSent ≤
        (connectionFlowController.NewConnectionFlowController 100 100).sendWindow ∧
      ∃ st, run sendState.step sendState.Admissible freshSendStream writeThenClose = some st ∧
        st.completions = 1 ∧ ∃ q ∈ st.frames.getLast?, q.2.FinBit = true ∧
          q.2.Offset.toNat + q.2.Data.length = st.written.length := by
  have hc : (connectionFlowController.NewConnectionFlowController 100 100).bytesSent ≤
      (connectionFlowController.NewConnectionFlowController 100 100).sendWindow := by decide
  have hrun : run sendState.step sendState.Admissible freshSendStream writeThenClose = some _ := rfl
  obtain ⟨-, -, -, -, -, -, -, -, -, hfin⟩ := sendState.popStreamFrame_frames hc hrun
  exact ⟨hc, _, hrun, rfl, (hfin rfl).2⟩

/-- The same run, ended by `Close`: the data went out, and no frame carries the FIN bit. -/
theorem close_last_without_fin :
    ∃ st, run sendState.step sendState.Admissible freshSendStream writeThenClose.dropLast = some st ∧
      st.stream.finishedWriting = true ∧ st.frames.length = 1 ∧
      st.frames.countP (·.2.FinBit) = 0 :=
  ⟨_, rfl, rfl, rfl, rfl⟩

end QuicGo.Streams
