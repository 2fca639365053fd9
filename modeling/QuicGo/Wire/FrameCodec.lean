import QuicGo.Wire.AckFrameCodec

/-! The wire format of the frames other than ACK (`internal/wire/*_frame.go`). Each frame type has
its `parse…Frame`, which reads the type byte again and then the fields, its `Write` and its
`Length`, each under the name of the Go function it models. -/
namespace QuicGo.Wire
open QuicGo.Utils QuicGo.Lib QuicGo.Protocol

/-- `if err == io.ErrUnexpectedEOF { return nil, io.EOF }`: a short read is reported as the end of
the data. -/
def eofOnUnexpected {α : Type} (d : Reader α) : Reader α :=
  tryCatch d fun err => if err = .ErrUnexpectedEOF then throw .EOF else throw err

/-- `protocol.ReadConnectionID` -/
def ReadConnectionID (len : Nat) : Reader (List UInt8) :=
  if len = 0 then pure [] else eofOnUnexpected (ReadFull len)

theorem ReadConnectionID_reads (len : Nat) : Reads (fun _ => True) (ReadConnectionID len) := by
  unfold ReadConnectionID eofOnUnexpected
  exact .ite (.pure trivial) (.tryCatch (ReadFull_reads len) fun _ => .ite (.throw _) (.throw _))

/-! ### PING -/

def parsePingFrame : Reader Frame := do
  let _ ← ReadByte
  pure .ping

def PingFrame.Write : Writer :=
  WriteByte 0x1

def PingFrame.Length : UInt64 := 1

/-! ### A type byte and a varint -/

/-- The frames of a type byte and a varint, as their `Write` writes them. -/
def writeVarIntFrame (typeByte : UInt8) (v : Nat) : Writer := do
  WriteByte typeByte
  WriteVarInt v

/-- The frames of a type byte and a varint, as their `Length` counts them. -/
def lengthVarIntFrame (v : Nat) : Option UInt64 := do
  pure (1 + (← VarIntLen v))

/-- The frames of a type byte and a varint, as their parser reads them into the frame `mk`
builds. -/
def readVarIntFrame (mk : Nat → Frame) : Reader Frame := do
  let _ ← ReadByte
  let v ← ReadVarInt
  pure (mk v)

def parseMaxDataFrame : Reader Frame :=
  readVarIntFrame fun byteOffset => .maxData (UInt64.ofNat byteOffset)

def MaxDataFrame.Write (ByteOffset : UInt64) : Writer :=
  writeVarIntFrame 0x10 ByteOffset.toNat

def MaxDataFrame.Length (ByteOffset : UInt64) : Option UInt64 :=
  lengthVarIntFrame ByteOffset.toNat

def parseDataBlockedFrame : Reader Frame :=
  readVarIntFrame fun offset => .dataBlocked (UInt64.ofNat offset)

def DataBlockedFrame.Write (DataLimit : UInt64) : Writer :=
  writeVarIntFrame 0x14 DataLimit.toNat

def DataBlockedFrame.Length (DataLimit : UInt64) : Option UInt64 :=
  lengthVarIntFrame DataLimit.toNat

def parseRetireConnectionIDFrame : Reader Frame :=
  readVarIntFrame fun seq => .retireConnectionID seq

def RetireConnectionIDFrame.Write (SequenceNumber : Nat) : Writer :=
  writeVarIntFrame 0x19 SequenceNumber

def RetireConnectionIDFrame.Length (SequenceNumber : Nat) : Option UInt64 :=
  lengthVarIntFrame SequenceNumber

/-! ### A type byte and two varints -/

/-- The frames of a type byte and two varints, as their `Write` writes them. -/
def writeTwoVarIntFrame (typeByte : UInt8) (v₁ v₂ : Nat) : Writer := do
  WriteByte typeByte
  WriteVarInt v₁
  WriteVarInt v₂

/-- The frames of a type byte and two varints, as their `Length` counts them. -/
def lengthTwoVarIntFrame (v₁ v₂ : Nat) : Option UInt64 := do
  pure (1 + (← VarIntLen v₁) + (← VarIntLen v₂))

/-- The frames of a type byte and two varints, as their parser reads them into the frame `mk`
builds. -/
def readTwoVarIntFrame (mk : Nat → Nat → Frame) : Reader Frame := do
  let _ ← ReadByte
  let v₁ ← ReadVarInt
  let v₂ ← ReadVarInt
  pure (mk v₁ v₂)

def parseMaxStreamDataFrame : Reader Frame :=
  readTwoVarIntFrame fun sid offset => .maxStreamData sid (UInt64.ofNat offset)

def MaxStreamDataFrame.Write (StreamID : Nat) (ByteOffset : UInt64) : Writer :=
  writeTwoVarIntFrame 0x11 StreamID ByteOffset.toNat

def MaxStreamDataFrame.Length (StreamID : Nat) (ByteOffset : UInt64) : Option UInt64 :=
  lengthTwoVarIntFrame StreamID ByteOffset.toNat

def parseStreamDataBlockedFrame : Reader Frame :=
  readTwoVarIntFrame fun sid offset => .streamDataBlocked sid (UInt64.ofNat offset)

def StreamDataBlockedFrame.Write (StreamID : Nat) (DataLimit : UInt64) : Writer :=
  writeTwoVarIntFrame 0x15 StreamID DataLimit.toNat

def StreamDataBlockedFrame.Length (StreamID : Nat) (DataLimit : UInt64) : Option UInt64 :=
  lengthTwoVarIntFrame StreamID DataLimit.toNat

/-! ### A type byte that says the stream type, and a varint -/

/-- The frames whose type byte is `bidiByte` for bidirectional streams and `uniByte` for
unidirectional ones, followed by a varint, as their `Write` writes them. -/
def writeStreamTypeFrame (bidiByte uniByte : UInt8) (t : StreamType) (v : Nat) : Writer := do
  match t with
  | .StreamTypeBidi => WriteByte bidiByte
  | .StreamTypeUni => WriteByte uniByte
  WriteVarInt v

/-- The same frames as their parser reads them into the frame `mk` builds. Any type byte other
than `bidiByte` leaves the zero value of `protocol.StreamType`, `StreamTypeUni`. -/
def readStreamTypeFrame (bidiByte : UInt8) (mk : StreamType → Nat → Frame) : Reader Frame := do
  let typeByte ← ReadByte
  let t := if typeByte = bidiByte then StreamType.StreamTypeBidi else StreamType.StreamTypeUni
  let v ← ReadVarInt
  pure (mk t v)

def parseMaxStreamsFrame : Reader Frame :=
  readStreamTypeFrame 0x12 fun t streamID => .maxStreams ⟨t, streamID⟩

def MaxStreamsFrame.Write (f : MaxStreamsFrame) : Writer :=
  writeStreamTypeFrame 0x12 0x13 f.Type f.MaxStreams

def MaxStreamsFrame.Length (f : MaxStreamsFrame) : Option UInt64 :=
  lengthVarIntFrame f.MaxStreams

def parseStreamsBlockedFrame : Reader Frame :=
  readStreamTypeFrame 0x16 fun t streamLimit => .streamsBlocked ⟨t, streamLimit⟩

def StreamsBlockedFrame.Write (f : StreamsBlockedFrame) : Writer :=
  writeStreamTypeFrame 0x16 0x17 f.Type f.StreamLimit

def StreamsBlockedFrame.Length (f : StreamsBlockedFrame) : Option UInt64 :=
  lengthVarIntFrame f.StreamLimit

/-! ### A type byte and eight bytes -/

/-- The frames of a type byte and eight bytes of data, as their `Write` writes them. -/
def writeDataFrame (typeByte : UInt8) (Data : Vector UInt8 8) : Writer := do
  WriteByte typeByte
  Utils.Write Data.toList

/-- The same frames as their parser reads them into the frame `mk` builds. -/
def readDataFrame (mk : Vector UInt8 8 → Frame) : Reader Frame := do
  let _ ← ReadByte
  let Data ← eofOnUnexpected (ReadArray 8)
  pure (mk Data)

def parsePathChallengeFrame : Reader Frame :=
  readDataFrame .pathChallenge

def PathChallengeFrame.Write (Data : Vector UInt8 8) : Writer :=
  writeDataFrame 0x1a Data

def PathChallengeFrame.Length : UInt64 := 1 + 8

def parsePathResponseFrame : Reader Frame :=
  readDataFrame .pathResponse

def PathResponseFrame.Write (Data : Vector UInt8 8) : Writer :=
  writeDataFrame 0x1b Data

def PathResponseFrame.Length : UInt64 := 1 + 8

/-! ### RESET_STREAM and STOP_SENDING -/

def parseResetStreamFrame : Reader Frame := do
  let _ ← ReadByte
  let sid ← ReadVarInt
  let errorCode ← BigEndian.ReadUint16
  let bo ← ReadVarInt
  pure (.resetStream ⟨sid, errorCode, UInt64.ofNat bo⟩)

def ResetStreamFrame.Write (f : ResetStreamFrame) : Writer := do
  WriteByte 0x4
  WriteVarInt f.StreamID
  BigEndian.WriteUint16 f.ErrorCode
  WriteVarInt f.ByteOffset.toNat

def ResetStreamFrame.Length (f : ResetStreamFrame) : Option UInt64 := do
  pure (1 + (← VarIntLen f.StreamID) + 2 + (← VarIntLen f.ByteOffset.toNat))

def parseStopSendingFrame : Reader Frame := do
  let _ ← ReadByte
  let streamID ← ReadVarInt
  let errorCode ← BigEndian.ReadUint16
  pure (.stopSending ⟨streamID, errorCode⟩)

def StopSendingFrame.Length (f : StopSendingFrame) : Option UInt64 := do
  pure (1 + (← VarIntLen f.StreamID) + 2)

def StopSendingFrame.Write (f : StopSendingFrame) : Writer := do
  WriteByte 0x5
  WriteVarInt f.StreamID
  BigEndian.WriteUint16 f.ErrorCode

/-! ### CRYPTO and NEW_TOKEN -/

/-- `parseCryptoFrame`. No data leaves `Data` nil. -/
def parseCryptoFrame : Reader Frame := do
  let _ ← ReadByte
  let offset ← ReadVarInt
  let dataLen ← ReadVarInt
  if dataLen > (← Len) then throw .EOF
  let Data ← if dataLen ≠ 0 then ReadFull dataLen else pure []
  pure (.crypto ⟨UInt64.ofNat offset, Data⟩)

def CryptoFrame.Write (f : CryptoFrame) : Writer := do
  WriteByte 0x6
  WriteVarInt f.Offset.toNat
  WriteVarInt f.Data.length
  Utils.Write f.Data

def CryptoFrame.Length (f : CryptoFrame) : Option UInt64 := do
  pure (1 + (← VarIntLen f.Offset.toNat) + (← VarIntLen f.Data.length) + UInt64.ofNat f.Data.length)

/-- `CryptoFrame.MaxDataLen` returns the most data that a frame of at most `maxSize` bytes can
carry. -/
def CryptoFrame.MaxDataLen (f : CryptoFrame) (maxSize : UInt64) : Option UInt64 := do
  -- pretend that the data size will be 1 byte, and adjust below if it takes 2
  let headerLen := 1 + (← VarIntLen f.Offset.toNat) + 1
  if headerLen > maxSize then return 0
  let mut maxDataLen := maxSize - headerLen
  if (← VarIntLen maxDataLen.toNat) ≠ 1 then maxDataLen := maxDataLen - 1
  return maxDataLen

def parseNewTokenFrame : Reader Frame := do
  let _ ← ReadByte
  let tokenLen ← ReadVarInt
  if (← Len) < tokenLen then throw .EOF
  let token ← ReadFull tokenLen
  pure (.newToken token)

def NewTokenFrame.Write (Token : List UInt8) : Writer := do
  WriteByte 0x7
  WriteVarInt Token.length
  Utils.Write Token

def NewTokenFrame.Length (Token : List UInt8) : Option UInt64 := do
  pure (1 + (← VarIntLen Token.length) + UInt64.ofNat Token.length)

/-! ### NEW_CONNECTION_ID -/

def parseNewConnectionIDFrame : Reader Frame := do
  let _ ← ReadByte
  let seq ← ReadVarInt
  let connIDLen ← ReadByte
  if connIDLen < 4 || connIDLen > 18 then throw (.invalidConnectionIDLength connIDLen.toNat)
  let connID ← ReadConnectionID connIDLen.toNat
  let StatelessResetToken ← eofOnUnexpected (ReadArray 16)
  pure (.newConnectionID ⟨seq, connID, StatelessResetToken⟩)

def NewConnectionIDFrame.Write (f : NewConnectionIDFrame) : Writer := do
  WriteByte 0x18
  WriteVarInt f.SequenceNumber
  let connIDLen := f.ConnectionID.length
  if connIDLen < 4 || connIDLen > 18 then throw (.invalidConnectionIDLength connIDLen)
  WriteByte (UInt8.ofNat connIDLen)
  Utils.Write f.ConnectionID
  Utils.Write f.StatelessResetToken.toList

def NewConnectionIDFrame.Length (f : NewConnectionIDFrame) : Option UInt64 := do
  pure (1 + (← VarIntLen f.SequenceNumber) + 1 + UInt64.ofNat f.ConnectionID.length + 16)

/-! ### CONNECTION_CLOSE -/

/-- `parseConnectionCloseFrame`. A transport error carries the type of the frame that caused
it, which is read and dropped. -/
def parseConnectionCloseFrame : Reader Frame := do
  let typeByte ← ReadByte
  let IsApplicationError := typeByte == 0x1d
  let ec ← BigEndian.ReadUint16
  if !IsApplicationError then
    let _ ← ReadVarInt
  let reasonPhraseLen ← ReadVarInt
  if reasonPhraseLen > (← Len) then throw .EOF
  let reasonPhrase ← ReadFull reasonPhraseLen
  pure (.connectionClose ⟨IsApplicationError, ec, reasonPhrase⟩)

def ConnectionCloseFrame.Length (f : ConnectionCloseFrame) : Option UInt64 := do
  let length := 1 + 2 + (← VarIntLen f.ReasonPhrase.length) + UInt64.ofNat f.ReasonPhrase.length
  -- for the frame type
  pure (if !f.IsApplicationError then length + 1 else length)

/-- `ConnectionCloseFrame.Write`. A transport error is written with frame type 0. -/
def ConnectionCloseFrame.Write (f : ConnectionCloseFrame) : Writer := do
  if f.IsApplicationError then WriteByte 0x1d else WriteByte 0x1c
  BigEndian.WriteUint16 f.ErrorCode
  if !f.IsApplicationError then WriteVarInt 0
  WriteVarInt f.ReasonPhrase.length
  Utils.Write f.ReasonPhrase

/-! ### STREAM -/

/-- `parseStreamFrame`. Without a data length the data runs to the end of the packet. -/
def parseStreamFrame : Reader Frame := do
  let typeByte ← ReadByte
  let hasOffset := typeByte &&& 0x4 > 0
  let FinBit := typeByte &&& 0x1 > 0
  let DataLenPresent := typeByte &&& 0x2 > 0
  let streamID ← ReadVarInt
  let Offset ← if hasOffset then UInt64.ofNat <$> ReadVarInt else pure 0
  let dataLen ← if DataLenPresent then do
      let dataLen ← ReadVarInt
      if dataLen > (← Len) then throw .EOF
      pure dataLen
    else Len
  let Data ← if dataLen ≠ 0 then ReadFull dataLen else pure []
  let frame : StreamFrame := ⟨streamID, FinBit, DataLenPresent, Offset, Data⟩
  if frame.Offset + frame.DataLen > MaxByteCount then throw .dataOverflowsMaximumOffset
  pure (.stream frame)

def StreamFrame.Write (f : StreamFrame) : Writer := do
  if f.Data.length = 0 && !f.FinBit then throw .emptyStreamFrame
  let mut typeByte : UInt8 := 0x8
  if f.FinBit then typeByte := typeByte ^^^ 0x1
  let hasOffset := f.Offset ≠ 0
  if f.DataLenPresent then typeByte := typeByte ^^^ 0x2
  if hasOffset then typeByte := typeByte ^^^ 0x4
  WriteByte typeByte
  WriteVarInt f.StreamID
  if hasOffset then WriteVarInt f.Offset.toNat
  if f.DataLenPresent then WriteVarInt f.DataLen.toNat
  Utils.Write f.Data

def StreamFrame.Length (f : StreamFrame) : Option UInt64 := do
  let mut length := 1 + (← VarIntLen f.StreamID)
  if f.Offset ≠ 0 then length := length + (← VarIntLen f.Offset.toNat)
  if f.DataLenPresent then length := length + (← VarIntLen f.DataLen.toNat)
  return length + f.DataLen

/-- `MaxDataLen` returns the most data that a frame of at most `maxSize` bytes can carry. -/
def StreamFrame.MaxDataLen (f : StreamFrame) (maxSize : UInt64) : Option UInt64 := do
  let mut headerLen := 1 + (← VarIntLen f.StreamID)
  if f.Offset ≠ 0 then headerLen := headerLen + (← VarIntLen f.Offset.toNat)
  -- pretend that the data size will be 1 byte, and adjust below if it takes 2
  if f.DataLenPresent then headerLen := headerLen + 1
  if headerLen > maxSize then return 0
  let mut maxDataLen := maxSize - headerLen
  if f.DataLenPresent then
    if (← VarIntLen maxDataLen.toNat) ≠ 1 then maxDataLen := maxDataLen - 1
  return maxDataLen

/-- `MaybeSplitOffFrame` splits off the front of `f` as a frame of at most `maxSize` bytes. It
returns that frame, or `none` when `f` fits as it is, together with what is left of `f`. Slicing
the data beyond its length panics. -/
def StreamFrame.MaybeSplitOffFrame (f : StreamFrame) (maxSize : UInt64) :
    Except Error (Option StreamFrame × StreamFrame) :=
  match f.Length with
  | none => throw (.panic "VarIntLen: value doesn\x27t fit into 62 bits")
  | some length =>
    if maxSize ≥ length then pure (none, f)
    else match f.MaxDataLen maxSize with
    | none => throw (.panic "VarIntLen: value doesn\x27t fit into 62 bits")
    | some n =>
      if n = 0 then throw .tooSmall
      else if n.toNat > f.Data.length then throw (.panic "slice bounds out of range")
      else
        let newFrame : StreamFrame :=
          { FinBit := false
            StreamID := f.StreamID
            Offset := f.Offset
            Data := f.Data.take n.toNat
            DataLenPresent := f.DataLenPresent }
        pure (some newFrame, { f with Data := f.Data.drop n.toNat, Offset := f.Offset + n })

/-! ### Round trips -/

theorem le_maxVarInt8 {v : Nat} (hv : v < 2 ^ 62) : v ≤ maxVarInt8 := by
  unfold maxVarInt8
  omega

theorem varInt_roundTrip {v : Nat} (hv : v < 2 ^ 62) :
    ∃ L, VarIntLen v = some L ∧ L.toNat ≤ 8 ∧ RoundTrip (WriteVarInt v) ReadVarInt v L.toNat := by
  obtain ⟨L, hL, hrt⟩ := ReadVarInt_roundTrip (le_maxVarInt8 hv)
  exact ⟨L, hL, VarIntLen_le hL, hrt⟩

theorem ReadFull_roundTrip (p : List UInt8) :
    RoundTrip (Utils.Write p) (eofOnUnexpected (ReadFull p.length)) p p.length :=
  ⟨p, Write_emits p, rfl, (ReadFull_decodes p).tryCatch⟩

theorem ReadArray_roundTrip {n : Nat} (v : Vector UInt8 n) :
    RoundTrip (Utils.Write v.toList) (eofOnUnexpected (ReadArray n)) v n :=
  ⟨v.toList, Write_emits _, v.length_toList, (ReadArray_decodes v).tryCatch⟩

theorem PingFrame.tagged :
    Tagged PingFrame.Write parsePingFrame 0x1 Frame.ping PingFrame.Length.toNat :=
  ⟨[], WriteByte_emits 0x1, rfl, (ReadByte_decodes 0x1).bind (Decodes.pure Frame.ping)⟩

theorem varIntFrame_tagged (typeByte : UInt8) (mk : Nat → Frame) {v : Nat} (hv : v < 2 ^ 62) :
    ∃ L, lengthVarIntFrame v = some L ∧
      Tagged (writeVarIntFrame typeByte v) (readVarIntFrame mk) typeByte (mk v) L.toNat := by
  obtain ⟨Lv, hLv, h8, hrt⟩ := varInt_roundTrip hv
  have hlen : (1 + Lv).toNat = Lv.toNat + 1 := by
    simp only [UInt64.toNat_add, UInt64.reduceToNat]
    omega
  refine ⟨1 + Lv, by simp only [lengthVarIntFrame, hLv, Option.bind_eq_bind, Option.bind_some,
    Option.pure_def], ?_⟩
  rw [hlen]
  exact Tagged.bind (WriteByte_emits typeByte) (ReadByte_decodes typeByte) (hrt.bind_pure mk)

theorem MaxDataFrame.tagged {ByteOffset : UInt64} (h : ByteOffset.toNat < 2 ^ 62) :
    ∃ L, MaxDataFrame.Length ByteOffset = some L ∧
      Tagged (MaxDataFrame.Write ByteOffset) parseMaxDataFrame 0x10 (.maxData ByteOffset) L.toNat := by
  have hT := varIntFrame_tagged 0x10 (fun b => .maxData (UInt64.ofNat b)) h
  rwa [UInt64.ofNat_toNat] at hT

theorem DataBlockedFrame.tagged {DataLimit : UInt64} (h : DataLimit.toNat < 2 ^ 62) :
    ∃ L, DataBlockedFrame.Length DataLimit = some L ∧
      Tagged (DataBlockedFrame.Write DataLimit) parseDataBlockedFrame 0x14 (.dataBlocked DataLimit)
        L.toNat := by
  have hT := varIntFrame_tagged 0x14 (fun b => .dataBlocked (UInt64.ofNat b)) h
  rwa [UInt64.ofNat_toNat] at hT

theorem RetireConnectionIDFrame.tagged {SequenceNumber : Nat} (h : SequenceNumber < 2 ^ 62) :
    ∃ L, RetireConnectionIDFrame.Length SequenceNumber = some L ∧
      Tagged (RetireConnectionIDFrame.Write SequenceNumber) parseRetireConnectionIDFrame 0x19
        (.retireConnectionID SequenceNumber) L.toNat :=
  varIntFrame_tagged 0x19 _ h

theorem twoVarIntFrame_tagged (typeByte : UInt8) (mk : Nat → Nat → Frame) {v₁ v₂ : Nat}
    (h₁ : v₁ < 2 ^ 62) (h₂ : v₂ < 2 ^ 62) :
    ∃ L, lengthTwoVarIntFrame v₁ v₂ = some L ∧
      Tagged (writeTwoVarIntFrame typeByte v₁ v₂) (readTwoVarIntFrame mk) typeByte (mk v₁ v₂)
        L.toNat := by
  obtain ⟨L₁, hL₁, h8₁, hrt₁⟩ := varInt_roundTrip h₁
  obtain ⟨L₂, hL₂, h8₂, hrt₂⟩ := varInt_roundTrip h₂
  have hlen : (1 + L₁ + L₂).toNat = L₁.toNat + L₂.toNat + 1 := by
    simp only [UInt64.toNat_add, UInt64.reduceToNat]
    omega
  refine ⟨1 + L₁ + L₂, by simp only [lengthTwoVarIntFrame, hL₁, hL₂, Option.bind_eq_bind,
    Option.bind_some, Option.pure_def], ?_⟩
  rw [hlen]
  refine Tagged.bind (WriteByte_emits typeByte) (ReadByte_decodes typeByte) (hrt₁.bind ?_)
  exact hrt₂.bind_pure (mk v₁)

theorem MaxStreamDataFrame.tagged {StreamID : Nat} {ByteOffset : UInt64} (hs : StreamID < 2 ^ 62)
    (hb : ByteOffset.toNat < 2 ^ 62) :
    ∃ L, MaxStreamDataFrame.Length StreamID ByteOffset = some L ∧
      Tagged (MaxStreamDataFrame.Write StreamID ByteOffset) parseMaxStreamDataFrame 0x11
        (.maxStreamData StreamID ByteOffset) L.toNat := by
  have hT := twoVarIntFrame_tagged 0x11 (fun s b => .maxStreamData s (UInt64.ofNat b)) hs hb
  rwa [UInt64.ofNat_toNat] at hT

theorem StreamDataBlockedFrame.tagged {StreamID : Nat} {DataLimit : UInt64}
    (hs : StreamID < 2 ^ 62) (hd : DataLimit.toNat < 2 ^ 62) :
    ∃ L, StreamDataBlockedFrame.Length StreamID DataLimit = some L ∧
      Tagged (StreamDataBlockedFrame.Write StreamID DataLimit) parseStreamDataBlockedFrame 0x15
        (.streamDataBlocked StreamID DataLimit) L.toNat := by
  have hT := twoVarIntFrame_tagged 0x15 (fun s d => .streamDataBlocked s (UInt64.ofNat d)) hs hd
  rwa [UInt64.ofNat_toNat] at hT

theorem streamTypeFrame_tagged {bidiByte uniByte : UInt8} (hne : uniByte ≠ bidiByte)
    (mk : StreamType → Nat → Frame) (t : StreamType) {v : Nat} (hv : v < 2 ^ 62) :
    ∃ L, lengthVarIntFrame v = some L ∧
      Tagged (writeStreamTypeFrame bidiByte uniByte t v) (readStreamTypeFrame bidiByte mk)
        (if t = .StreamTypeBidi then bidiByte else uniByte) (mk t v) L.toNat := by
  obtain ⟨Lv, hLv, h8, hrt⟩ := varInt_roundTrip hv
  have hlen : (1 + Lv).toNat = Lv.toNat + 1 := by
    simp only [UInt64.toNat_add, UInt64.reduceToNat]
    omega
  refine ⟨1 + Lv, by simp only [lengthVarIntFrame, hLv, Option.bind_eq_bind, Option.bind_some,
    Option.pure_def], ?_⟩
  rw [hlen]
  cases t with
  | StreamTypeBidi =>
    refine Tagged.bind (WriteByte_emits bidiByte) (ReadByte_decodes bidiByte) ?_
    simp only [if_true]
    exact hrt.bind_pure (mk .StreamTypeBidi)
  | StreamTypeUni =>
    refine Tagged.bind (WriteByte_emits uniByte) (ReadByte_decodes uniByte) ?_
    simp only [if_neg hne]
    exact hrt.bind_pure (mk .StreamTypeUni)

theorem MaxStreamsFrame.tagged {f : MaxStreamsFrame} (h : f.MaxStreams < 2 ^ 62) :
    ∃ L, f.Length = some L ∧
      Tagged f.Write parseMaxStreamsFrame (if f.Type = .StreamTypeBidi then 0x12 else 0x13)
        (.maxStreams f) L.toNat :=
  streamTypeFrame_tagged (by decide) (fun t v => .maxStreams ⟨t, v⟩) f.Type h

theorem StreamsBlockedFrame.tagged {f : StreamsBlockedFrame} (h : f.StreamLimit < 2 ^ 62) :
    ∃ L, f.Length = some L ∧
      Tagged f.Write parseStreamsBlockedFrame (if f.Type = .StreamTypeBidi then 0x16 else 0x17)
        (.streamsBlocked f) L.toNat :=
  streamTypeFrame_tagged (by decide) (fun t v => .streamsBlocked ⟨t, v⟩) f.Type h

theorem dataFrame_tagged (typeByte : UInt8) (mk : Vector UInt8 8 → Frame) (Data : Vector UInt8 8) :
    Tagged (writeDataFrame typeByte Data) (readDataFrame mk) typeByte (mk Data)
      (1 + 8 : UInt64).toNat := by
  exact Tagged.bind (WriteByte_emits typeByte) (ReadByte_decodes typeByte)
    ((ReadArray_roundTrip Data).bind_pure mk)

theorem PathChallengeFrame.tagged (Data : Vector UInt8 8) :
    Tagged (PathChallengeFrame.Write Data) parsePathChallengeFrame 0x1a (.pathChallenge Data)
      PathChallengeFrame.Length.toNat :=
  dataFrame_tagged 0x1a _ Data

theorem PathResponseFrame.tagged (Data : Vector UInt8 8) :
    Tagged (PathResponseFrame.Write Data) parsePathResponseFrame 0x1b (.pathResponse Data)
      PathResponseFrame.Length.toNat :=
  dataFrame_tagged 0x1b _ Data

theorem ResetStreamFrame.tagged {f : ResetStreamFrame} (hs : f.StreamID < 2 ^ 62)
    (hb : f.ByteOffset.toNat < 2 ^ 62) :
    ∃ L, f.Length = some L ∧ Tagged f.Write parseResetStreamFrame 0x4 (.resetStream f) L.toNat := by
  obtain ⟨Ls, hLs, h8s, hrs⟩ := varInt_roundTrip hs
  obtain ⟨Lb, hLb, h8b, hrb⟩ := varInt_roundTrip hb
  have hlen : (1 + Ls + 2 + Lb).toNat = Ls.toNat + (2 + Lb.toNat) + 1 := by
    simp only [UInt64.toNat_add, UInt64.reduceToNat]
    omega
  refine ⟨1 + Ls + 2 + Lb, by simp only [Length, hLs, hLb, Option.bind_eq_bind, Option.bind_some,
    Option.pure_def], ?_⟩
  rw [hlen]
  have hval : Frame.resetStream ⟨f.StreamID, f.ErrorCode, UInt64.ofNat f.ByteOffset.toNat⟩ =
      .resetStream f := by
    rw [UInt64.ofNat_toNat]
  rw [← hval]
  refine Tagged.bind (WriteByte_emits 0x4) (ReadByte_decodes 0x4) (hrs.bind ?_)
  exact (BigEndian.ReadUint16_roundTrip f.ErrorCode).bind (hrb.bind_pure _)

theorem StopSendingFrame.tagged {f : StopSendingFrame} (hs : f.StreamID < 2 ^ 62) :
    ∃ L, f.Length = some L ∧ Tagged f.Write parseStopSendingFrame 0x5 (.stopSending f) L.toNat := by
  obtain ⟨Ls, hLs, h8s, hrs⟩ := varInt_roundTrip hs
  have hlen : (1 + Ls + 2).toNat = Ls.toNat + 2 + 1 := by
    simp only [UInt64.toNat_add, UInt64.reduceToNat]
    omega
  refine ⟨1 + Ls + 2, by simp only [Length, hLs, Option.bind_eq_bind, Option.bind_some,
    Option.pure_def], ?_⟩
  rw [hlen]
  refine Tagged.bind (WriteByte_emits 0x5) (ReadByte_decodes 0x5) (hrs.bind ?_)
  exact (BigEndian.ReadUint16_roundTrip f.ErrorCode).bind_pure _

theorem readData_decodes {α : Type} (k : List UInt8 → Reader α) {Data : List UInt8} {a : α}
    (hk : Decodes (k Data) [] a) :
    Decodes (if Data.length ≠ 0 then ReadFull Data.length >>= k else pure [] >>= k) Data a := by
  by_cases hz : Data.length = 0
  · rw [if_neg (not_not.mpr hz)]
    obtain rfl := List.length_eq_zero_iff.mp hz
    exact (Decodes.pure []).bind hk
  · rw [if_pos hz]
    have hd := (ReadFull_decodes Data).bind hk
    rwa [List.append_nil] at hd

theorem CryptoFrame.tagged {f : CryptoFrame} (ho : f.Offset.toNat < 2 ^ 62)
    (hl : f.Data.length < 2 ^ 62) :
    ∃ L, f.Length = some L ∧ Tagged f.Write parseCryptoFrame 0x6 (.crypto f) L.toNat := by
  obtain ⟨Lo, hLo, h8o, hro⟩ := varInt_roundTrip ho
  obtain ⟨Ll, hLl, h8l, hrl⟩ := varInt_roundTrip hl
  have hlen : (1 + Lo + Ll + UInt64.ofNat f.Data.length).toNat =
      Lo.toNat + (Ll.toNat + f.Data.length) + 1 := by
    simp only [UInt64.toNat_add, UInt64.toNat_ofNat', UInt64.reduceToNat]
    omega
  refine ⟨1 + Lo + Ll + UInt64.ofNat f.Data.length, by simp only [Length, hLo, hLl,
    Option.bind_eq_bind, Option.bind_some, Option.pure_def], ?_⟩
  have hval : Frame.crypto ⟨UInt64.ofNat f.Offset.toNat, f.Data⟩ = .crypto f := by
    rw [UInt64.ofNat_toNat]
  rw [hlen, ← hval]
  refine Tagged.bind (WriteByte_emits 0x6) (ReadByte_decodes 0x6) (hro.bind (hrl.bind ?_))
  refine ⟨f.Data, Write_emits f.Data, rfl, Len_bind_decodes fun m hm => ?_⟩
  dsimp only
  rw [if_neg (by omega)]
  exact readData_decodes _ (Decodes.pure _)

theorem NewTokenFrame.tagged {Token : List UInt8} (hl : Token.length < 2 ^ 62) :
    ∃ L, NewTokenFrame.Length Token = some L ∧
      Tagged (NewTokenFrame.Write Token) parseNewTokenFrame 0x7 (.newToken Token) L.toNat := by
  obtain ⟨Ll, hLl, h8l, hrl⟩ := varInt_roundTrip hl
  have hlen : (1 + Ll + UInt64.ofNat Token.length).toNat = Ll.toNat + Token.length + 1 := by
    simp only [UInt64.toNat_add, UInt64.toNat_ofNat', UInt64.reduceToNat]
    omega
  refine ⟨1 + Ll + UInt64.ofNat Token.length, by simp only [NewTokenFrame.Length, hLl,
    Option.bind_eq_bind, Option.bind_some, Option.pure_def], ?_⟩
  rw [hlen]
  refine Tagged.bind (WriteByte_emits 0x7) (ReadByte_decodes 0x7) (hrl.bind ?_)
  refine ⟨Token, Write_emits Token, rfl, Len_bind_decodes fun m hm => ?_⟩
  dsimp only
  rw [if_neg (by omega)]
  exact (ReadFull_decodes Token).bind_pure Frame.newToken

theorem NewConnectionIDFrame.tagged {f : NewConnectionIDFrame} (hs : f.SequenceNumber < 2 ^ 62)
    (hc : 4 ≤ f.ConnectionID.length) (hc' : f.ConnectionID.length ≤ 18) :
    ∃ L, f.Length = some L ∧
      Tagged f.Write parseNewConnectionIDFrame 0x18 (.newConnectionID f) L.toNat := by
  obtain ⟨Ls, hLs, h8s, hrs⟩ := varInt_roundTrip hs
  have hlen : (1 + Ls + 1 + UInt64.ofNat f.ConnectionID.length + 16).toNat =
      Ls.toNat + (1 + (f.ConnectionID.length + 16)) + 1 := by
    simp only [UInt64.toNat_add, UInt64.toNat_ofNat', UInt64.reduceToNat]
    omega
  refine ⟨1 + Ls + 1 + UInt64.ofNat f.ConnectionID.length + 16, by simp only [Length, hLs,
    Option.bind_eq_bind, Option.bind_some, Option.pure_def], ?_⟩
  rw [hlen]
  refine Tagged.bind (WriteByte_emits 0x18) (ReadByte_decodes 0x18) (hrs.bind ?_)
  have hw : ¬(decide (f.ConnectionID.length < 4) || decide (f.ConnectionID.length > 18)) = true := by
    simp only [Bool.or_eq_true, decide_eq_true_eq]
    omega
  have hb : (UInt8.ofNat f.ConnectionID.length).toNat = f.ConnectionID.length := by
    rw [ofNat_toNat]
    omega
  have hr : ¬(decide (UInt8.ofNat f.ConnectionID.length < 4) ||
      decide (UInt8.ofNat f.ConnectionID.length > 18)) = true := by
    simp only [Bool.or_eq_true, decide_eq_true_eq, gt_iff_lt, UInt8.lt_iff_toNat_lt, hb,
      UInt8.reduceToNat]
    omega
  rw [if_neg hw]
  refine (WriteByte_roundTrip (UInt8.ofNat f.ConnectionID.length)).bind ?_
  dsimp only
  rw [if_neg hr, hb, ReadConnectionID, if_neg (by omega)]
  exact (ReadFull_roundTrip f.ConnectionID).bind
    ((ReadArray_roundTrip f.StatelessResetToken).bind_pure _)

theorem ConnectionCloseFrame.tagged {f : ConnectionCloseFrame} (hl : f.ReasonPhrase.length < 2 ^ 62) :
    ∃ L, f.Length = some L ∧
      Tagged f.Write parseConnectionCloseFrame (if f.IsApplicationError then 0x1d else 0x1c)
        (.connectionClose f) L.toNat := by
  obtain ⟨Ll, hLl, h8l, hrl⟩ := varInt_roundTrip hl
  obtain ⟨IsApplicationError, ErrorCode, ReasonPhrase⟩ := f
  dsimp only at hl hLl hrl
  cases IsApplicationError with
  | true =>
    have hlen : (1 + 2 + Ll + UInt64.ofNat ReasonPhrase.length).toNat =
        2 + (Ll.toNat + ReasonPhrase.length) + 1 := by
      simp only [UInt64.toNat_add, UInt64.toNat_ofNat', UInt64.reduceToNat]
      omega
    refine ⟨1 + 2 + Ll + UInt64.ofNat ReasonPhrase.length, by simp only [Length, hLl,
      Option.bind_eq_bind, Option.bind_some, Option.pure_def, Bool.not_true, Bool.false_eq_true,
      if_false], ?_⟩
    rw [hlen]
    dsimp only [Write, parseConnectionCloseFrame]
    simp only [↓reduceIte, Bool.not_true, Bool.false_eq_true]
    refine Tagged.bind (WriteByte_emits 0x1d) (ReadByte_decodes 0x1d) ?_
    have happ : ((0x1d : UInt8) == 0x1d) = true := rfl
    simp only [happ, Bool.not_true, Bool.false_eq_true, ↓reduceIte]
    refine (BigEndian.ReadUint16_roundTrip ErrorCode).bind (hrl.bind ?_)
    refine ⟨ReasonPhrase, Write_emits ReasonPhrase, rfl, Len_bind_decodes fun m hm => ?_⟩
    rw [if_neg (by omega)]
    exact (ReadFull_decodes ReasonPhrase).bind_pure _
  | false =>
    have hrt0 : RoundTrip (WriteVarInt 0) ReadVarInt 0 1 := by
      obtain ⟨L0, hL0, -, hrt0⟩ := varInt_roundTrip (show 0 < 2 ^ 62 by norm_num)
      obtain rfl : (1 : UInt64) = L0 := Option.some.inj hL0
      exact hrt0
    have hlen : (1 + 2 + Ll + UInt64.ofNat ReasonPhrase.length + 1).toNat =
        2 + (1 + (Ll.toNat + ReasonPhrase.length)) + 1 := by
      simp only [UInt64.toNat_add, UInt64.toNat_ofNat', UInt64.reduceToNat]
      omega
    refine ⟨1 + 2 + Ll + UInt64.ofNat ReasonPhrase.length + 1, by simp only [Length, hLl,
      Option.bind_eq_bind, Option.bind_some, Option.pure_def, Bool.not_false, if_true], ?_⟩
    rw [hlen]
    dsimp only [Write, parseConnectionCloseFrame]
    simp only [↓reduceIte, Bool.not_false, Bool.false_eq_true]
    refine Tagged.bind (WriteByte_emits 0x1c) (ReadByte_decodes 0x1c) ?_
    have happ : ((0x1c : UInt8) == 0x1d) = false := rfl
    simp only [happ, Bool.not_false, ↓reduceIte]
    refine (BigEndian.ReadUint16_roundTrip ErrorCode).bind (hrt0.bind (hrl.bind ?_))
    refine ⟨ReasonPhrase, Write_emits ReasonPhrase, rfl, Len_bind_decodes fun m hm => ?_⟩
    rw [if_neg (by omega)]
    exact (ReadFull_decodes ReasonPhrase).bind_pure _

/-! ### The round trip of a STREAM frame

A frame with a data length is read back from any stream and leaves what follows; one without
is read back from its bytes alone. -/

/-- The type byte `StreamFrame.Write` computes: `0x8` with the FIN, LEN and OFF bits. -/
def StreamFrame.typeByte (f : StreamFrame) : UInt8 :=
  let tb : UInt8 := if f.FinBit then 0x8 ^^^ 0x1 else 0x8
  let tb := if f.DataLenPresent then tb ^^^ 0x2 else tb
  if f.Offset ≠ 0 then tb ^^^ 0x4 else tb

theorem StreamFrame.typeByte_flags (f : StreamFrame) :
    (f.typeByte &&& 0x4 > 0) = (f.Offset ≠ 0) ∧ (f.typeByte &&& 0x1 > 0) = (f.FinBit = true) ∧
      (f.typeByte &&& 0x2 > 0) = (f.DataLenPresent = true) := by
  unfold typeByte
  by_cases hO : f.Offset = 0 <;> cases f.FinBit <;> cases f.DataLenPresent <;> simp [hO] <;> decide

/-- `Write` on a frame it accepts: the type byte, the stream ID, the offset unless it is 0, the
data length if present, and the data. -/
theorem StreamFrame.Write_eq (f : StreamFrame) (hne : 0 < f.Data.length ∨ f.FinBit = true) :
    f.Write = (do
      WriteByte f.typeByte
      WriteVarInt f.StreamID
      if f.Offset ≠ 0 then WriteVarInt f.Offset.toNat
      if f.DataLenPresent then WriteVarInt f.DataLen.toNat
      Utils.Write f.Data) := by
  have hc : ¬((f.Data.length = 0 && !f.FinBit) = true) := by
    rcases hne with h | h
    · simp [Nat.pos_iff_ne_zero.mp h]
    · simp [h]
  unfold Write typeByte
  rw [if_neg hc]
  by_cases hO : f.Offset = 0 <;> cases f.FinBit <;> cases f.DataLenPresent <;> simp [hO]

section RoundTrip
variable {f : StreamFrame} {ls lo ld : List UInt8}

/-- The bytes of a STREAM frame, from the bytes of its three varints. -/
def StreamFrame.bytes (f : StreamFrame) (ls lo ld : List UInt8) : List UInt8 :=
  f.typeByte :: (ls ++ ((if f.Offset ≠ 0 then lo else []) ++
    ((if f.DataLenPresent then ld else []) ++ f.Data)))

theorem StreamFrame.Write_emits (hne : 0 < f.Data.length ∨ f.FinBit = true)
    (hws : Emits (WriteVarInt f.StreamID) ls) (hwo : Emits (WriteVarInt f.Offset.toNat) lo)
    (hwd : Emits (WriteVarInt f.DataLen.toNat) ld) : Emits f.Write (f.bytes ls lo ld) := by
  rw [Write_eq f hne, bytes, ← List.singleton_append]
  refine (WriteByte_emits _).bind (hws.bind ?_)
  by_cases hO : f.Offset = 0
  case' pos => rw [if_neg (not_not.mpr hO), if_neg (not_not.mpr hO), List.nil_append]
  case' neg =>
    rw [if_pos hO, if_pos hO]
    refine hwo.bind ?_
  all_goals
    dsimp only
    cases hD : f.DataLenPresent
    · simp only [Bool.false_eq_true, if_false, List.nil_append]
      exact Utils.Write_emits _
    · simp only [if_true]
      exact hwd.bind (Utils.Write_emits _)

theorem StreamFrame.not_overflows (hmax : f.Offset.toNat + f.Data.length ≤ MaxByteCount.toNat) :
    ¬ f.Offset + f.Data.length.toUInt64 > MaxByteCount := by
  have hlen : f.Data.length.toUInt64.toNat = f.Data.length := by
    rw [Nat.toUInt64_eq, UInt64.toNat_ofNat', Nat.mod_eq_of_lt]
    rw [MaxByteCount_toNat] at hmax
    omega
  rw [gt_iff_lt, UInt64.not_lt, UInt64.le_iff_toNat_le, UInt64.toNat_add, hlen]
  rw [MaxByteCount_toNat] at hmax ⊢
  omega

theorem StreamFrame.decodes_of_dataLenPresent (hD : f.DataLenPresent = true)
    (hmax : f.Offset.toNat + f.Data.length ≤ MaxByteCount.toNat)
    (hds : Decodes ReadVarInt ls f.StreamID) (hdo : Decodes ReadVarInt lo f.Offset.toNat)
    (hdd : Decodes ReadVarInt ld f.Data.length) :
    Decodes parseStreamFrame (f.bytes ls lo ld) (.stream f) := by
  obtain ⟨h4, h1, h2⟩ := typeByte_flags f
  have hf : (⟨f.StreamID, f.FinBit, true, f.Offset, f.Data⟩ : StreamFrame) = f := by
    cases f
    simp_all
  rw [bytes, if_pos hD, ← List.singleton_append]
  unfold parseStreamFrame
  refine (ReadByte_decodes f.typeByte).bind ?_
  simp only [h4, h1, h2, hD, decide_true, Bool.decide_eq_true, if_true]
  refine hds.bind ?_
  by_cases hO : f.Offset = 0
  case' pos =>
    rw [if_neg (not_not.mpr hO), if_neg (not_not.mpr hO)]
    refine (Decodes.pure (0 : UInt64)).bind ?_
    rw [← hO]
  case' neg =>
    rw [if_pos hO, if_pos hO]
    refine (hdo.map _).bind ?_
    rw [UInt64.ofNat_toNat]
  all_goals
    refine hdd.bind (Len_bind_decodes fun m hm => ?_)
    rw [if_neg (by omega), pure_bind]
    refine readData_decodes _ ?_
    simp only [DataLen, not_overflows hmax, if_false, hf]
    exact Decodes.pure _

/-- Without a data length, the parser reads the frame back from exactly its bytes, the data
running to their end. -/
theorem StreamFrame.decodesAll_of_not_dataLenPresent (hD : f.DataLenPresent = false)
    (hmax : f.Offset.toNat + f.Data.length ≤ MaxByteCount.toNat)
    (hds : Decodes ReadVarInt ls f.StreamID) (hdo : Decodes ReadVarInt lo f.Offset.toNat) :
    DecodesAll parseStreamFrame (f.bytes ls lo ld) (.stream f) := by
  obtain ⟨h4, h1, h2⟩ := typeByte_flags f
  have hf : (⟨f.StreamID, f.FinBit, false, f.Offset, f.Data⟩ : StreamFrame) = f := by
    cases f
    simp_all
  rw [bytes, hD, ← List.singleton_append]
  simp only [Bool.false_eq_true, if_false, List.nil_append]
  unfold parseStreamFrame
  refine (ReadByte_decodes f.typeByte).bind_all ?_
  simp only [h4, h1, h2, hD, decide_false, Bool.decide_eq_true, Bool.false_eq_true, if_false]
  refine hds.bind_all ?_
  by_cases hO : f.Offset = 0
  case' pos =>
    rw [if_neg (not_not.mpr hO), if_neg (not_not.mpr hO)]
    refine (Decodes.pure (0 : UInt64)).bind_all ?_
    rw [← hO]
  case' neg =>
    rw [if_pos hO, if_pos hO]
    refine (hdo.map _).bind_all ?_
    rw [UInt64.ofNat_toNat]
  all_goals
    unfold DecodesAll
    rw [StateT.run_bind, Len_run, Except.ok_bind]
    dsimp only
    by_cases hz : f.Data.length = 0
    · have hnil := List.length_eq_zero_iff.mp hz
      have hno := not_overflows hmax
      rw [if_neg (not_not.mpr hz), pure_bind]
      rw [hnil] at hf hno ⊢
      simp only [DataLen, hno, if_false, hf]
      rfl
    · have hread : (ReadFull f.Data.length).run f.Data = .ok (f.Data, []) := by
        have := ReadFull_decodes f.Data []
        rwa [List.append_nil] at this
      rw [if_pos hz, StateT.run_bind, hread, Except.ok_bind]
      simp only [DataLen, not_overflows hmax, if_false, hf]
      rfl

end RoundTrip

/-! ### The size of a STREAM frame -/

/-- The bytes of a STREAM frame before its data length: the type byte, the stream ID and the
offset unless it is 0. -/
def StreamFrame.headerLen (f : StreamFrame) : Option UInt64 := do
  let mut length := 1 + (← VarIntLen f.StreamID)
  if f.Offset ≠ 0 then length := length + (← VarIntLen f.Offset.toNat)
  return length

theorem StreamFrame.headerLen_bounds {f : StreamFrame} {H : UInt64} (h : f.headerLen = some H) :
    2 ≤ H.toNat ∧ H.toNat ≤ 17 := by
  unfold headerLen at h
  cases ha : VarIntLen f.StreamID with
  | none => simp [ha] at h
  | some a =>
    have ha8 := VarIntLen_le ha
    have ha1 := VarIntLen_pos ha
    simp only [ha, Option.bind_eq_bind, Option.bind_some, Option.pure_def] at h
    split_ifs at h
    · cases hb : VarIntLen f.Offset.toNat with
      | none => simp [hb] at h
      | some b =>
        have hb8 := VarIntLen_le hb
        have hb1 := VarIntLen_pos hb
        simp only [hb, Option.bind_some, Option.some.injEq] at h
        subst h
        simp only [UInt64.toNat_add, UInt64.reduceToNat]
        omega
    · obtain rfl := Option.some.inj h
      simp only [UInt64.toNat_add, UInt64.reduceToNat]
      omega

theorem StreamFrame.Length_eq (f : StreamFrame) : f.Length = f.headerLen.bind fun H =>
    if f.DataLenPresent then (VarIntLen f.DataLen.toNat).bind fun c => some (H + c + f.DataLen)
    else some (H + f.DataLen) := by
  unfold Length headerLen
  cases VarIntLen f.StreamID with
  | none => rfl
  | some a =>
    simp only [Option.bind_eq_bind, Option.bind_some, Option.pure_def]
    split_ifs
    all_goals first | rfl | cases VarIntLen f.Offset.toNat <;> rfl

theorem StreamFrame.MaxDataLen_eq (f : StreamFrame) (maxSize : UInt64) :
    f.MaxDataLen maxSize = f.headerLen.bind fun H =>
      if f.DataLenPresent then
        if H + 1 > maxSize then some 0
        else (VarIntLen (maxSize - (H + 1)).toNat).bind fun c =>
          if c ≠ 1 then some (maxSize - (H + 1) - 1) else some (maxSize - (H + 1))
      else if H > maxSize then some 0 else some (maxSize - H) := by
  unfold MaxDataLen headerLen
  cases VarIntLen f.StreamID with
  | none => rfl
  | some a =>
    by_cases ho : f.Offset ≠ 0
    · cases VarIntLen f.Offset.toNat <;> cases f.DataLenPresent <;> simp [ho]
    · cases f.DataLenPresent <;> simp [ho]

/-! The data length of a STREAM frame with `DataLenPresent` and of a CRYPTO frame is counted as
one byte first, and a second byte is taken off the data when the room left takes more than one
byte. That is enough as long as the data length takes at most two bytes, up to `maxVarInt2`;
beyond it the length takes four bytes and the frame overshoots `maxSize` by two. -/

/-- The adjusted room of `MaxDataLen`, after `H` bytes and one for the data length. -/
def adjustedDataLen (H maxSize : UInt64) : Option UInt64 :=
  if H + 1 > maxSize then some 0
  else (VarIntLen (maxSize - (H + 1)).toNat).bind fun c =>
    if c ≠ 1 then some (maxSize - (H + 1) - 1) else some (maxSize - (H + 1))

/-- A non-zero adjusted room is all that is left after the header when it takes one byte, and
one byte less otherwise. -/
theorem adjustedDataLen_spec {H maxSize n : UInt64} (hH : H.toNat ≤ 17)
    (hm : adjustedDataLen H maxSize = some n) (hn0 : n ≠ 0) :
    H.toNat + 1 ≤ maxSize.toNat ∧
      (n.toNat = maxSize.toNat - (H.toNat + 1) ∧ maxSize.toNat - (H.toNat + 1) ≤ maxVarInt1 ∨
        n.toNat + 1 = maxSize.toNat - (H.toNat + 1) ∧
          maxVarInt1 < maxSize.toNat - (H.toNat + 1)) := by
  unfold adjustedDataLen at hm
  split_ifs at hm with hgt
  · exact absurd (Option.some.inj hm).symm hn0
  have hle : H + 1 ≤ maxSize := UInt64.not_lt.mp hgt
  have hsub : (maxSize - (H + 1)).toNat = maxSize.toNat - (H.toNat + 1) := by
    rw [UInt64.toNat_sub_of_le _ _ hle]
    simp only [UInt64.toNat_add, UInt64.reduceToNat]
    omega
  have hle' : H.toNat + 1 ≤ maxSize.toNat := by
    have := UInt64.le_iff_toNat_le.mp hle
    simp only [UInt64.toNat_add, UInt64.reduceToNat] at this
    omega
  refine ⟨hle', ?_⟩
  cases hv : VarIntLen (maxSize - (H + 1)).toNat with
  | none => simp [hv] at hm
  | some c =>
    simp only [hv, Option.bind_some] at hm
    by_cases hc : c = 1
    · rw [if_neg (not_not.mpr hc)] at hm
      left
      refine ⟨by rw [← Option.some.inj hm, hsub], ?_⟩
      rw [← hsub]
      exact le_maxVarInt1_of_VarIntLen (hc ▸ hv)
    · rw [if_pos hc] at hm
      right
      have hbig : maxVarInt1 < (maxSize - (H + 1)).toNat := by
        by_contra hsmall
        exact hc (Option.some.inj (hv.symm.trans (VarIntLen_of_le_maxVarInt1 (Nat.not_lt.mp hsmall))))
      have h1 : 1 ≤ maxSize - (H + 1) := by
        rw [UInt64.le_iff_toNat_le]
        unfold maxVarInt1 at hbig
        simp only [UInt64.reduceToNat]
        omega
      refine ⟨?_, hsub ▸ hbig⟩
      rw [← Option.some.inj hm, UInt64.toNat_sub_of_le _ _ h1, hsub]
      simp only [UInt64.reduceToNat]
      unfold maxVarInt1 at hbig
      omega

/-- Data of at most the adjusted room, whose length takes at most two bytes, fits with its
length after `H` bytes; with exactly that much data the frame misses `maxSize` by at most one
byte. -/
theorem fits_of_adjustedDataLen {H maxSize n : UInt64} {d : Nat} (hH : H.toNat ≤ 17)
    (hm : adjustedDataLen H maxSize = some n) (hn0 : n ≠ 0) (hn : n.toNat ≤ maxVarInt2)
    (hd : d ≤ n.toNat) :
    ∃ c, VarIntLen d = some c ∧ H.toNat + c.toNat + d ≤ maxSize.toNat ∧
      (d = n.toNat → maxSize.toNat ≤ H.toNat + c.toNat + d + 1) := by
  obtain ⟨hle, hroom⟩ := adjustedDataLen_spec hH hm hn0
  obtain ⟨c, hc, hc1, hc2⟩ := VarIntLen_le_two (le_trans hd hn)
  refine ⟨c, hc, ?_⟩
  rcases hroom with ⟨hnv, hsmall⟩ | ⟨hnv, _⟩
  · have hc1' : c = 1 := by
      have hd1 : d ≤ maxVarInt1 := by omega
      exact Option.some.inj ((hc.symm.trans (VarIntLen_of_le_maxVarInt1 hd1)))
    subst hc1'
    simp only [UInt64.reduceToNat]
    omega
  · omega

theorem StreamFrame.MaxDataLen_eq_adjusted (f : StreamFrame) (maxSize : UInt64) :
    f.MaxDataLen maxSize = f.headerLen.bind fun H =>
      if f.DataLenPresent then adjustedDataLen H maxSize
      else if H > maxSize then some 0 else some (maxSize - H) :=
  MaxDataLen_eq f maxSize

/-- Data of at most the length that `MaxDataLen` returns fits `maxSize` with the frame's header,
as long as that length takes at most two bytes as a varint; with exactly that much data the frame
misses `maxSize` by at most one byte. -/
theorem StreamFrame.Length_of_MaxDataLen {f : StreamFrame} {maxSize n : UInt64}
    (hm : f.MaxDataLen maxSize = some n) (hn0 : n ≠ 0) (hn : n.toNat ≤ maxVarInt2)
    (hd : f.Data.length ≤ n.toNat) :
    ∃ L, f.Length = some L ∧ L ≤ maxSize ∧
      (f.Data.length = n.toNat → maxSize.toNat ≤ L.toNat + 1) := by
  rw [MaxDataLen_eq_adjusted] at hm
  rw [Length_eq]
  cases hH : f.headerLen with
  | none => simp [hH] at hm
  | some H =>
    have hH17 := (headerLen_bounds hH).2
    have hdl : f.DataLen.toNat = f.Data.length := by
      have hn64 := n.toNat_lt
      simp only [DataLen, Nat.toUInt64_eq, UInt64.toNat_ofNat']
      omega
    have hmax := maxSize.toNat_lt
    simp only [hH, Option.bind_some] at hm ⊢
    cases hp : f.DataLenPresent
    · simp only [hp, Bool.false_eq_true, if_false] at hm ⊢
      split_ifs at hm with hgt
      · exact absurd (Option.some.inj hm).symm hn0
      have hHle : H.toNat ≤ maxSize.toNat := UInt64.le_iff_toNat_le.mp (UInt64.not_lt.mp hgt)
      have hnv : n.toNat = maxSize.toNat - H.toNat := by
        rw [← Option.some.inj hm, UInt64.toNat_sub_of_le _ _ (UInt64.not_lt.mp hgt)]
      clear hgt hm
      have hsum : (H + f.DataLen).toNat = H.toNat + f.Data.length := by
        rw [UInt64.toNat_add, hdl]
        omega
      refine ⟨_, rfl, ?_, fun _ => ?_⟩
      · rw [UInt64.le_iff_toNat_le, hsum]
        omega
      · rw [hsum]
        omega
    · simp only [hp, if_true] at hm ⊢
      obtain ⟨c, hc, hle, hge⟩ := fits_of_adjustedDataLen hH17 hm hn0 hn hd
      rw [hdl, hc, Option.bind_some]
      have hsum : (H + c + f.DataLen).toNat = H.toNat + c.toNat + f.Data.length := by
        rw [UInt64.toNat_add, UInt64.toNat_add, hdl]
        omega
      refine ⟨_, rfl, ?_, fun h => ?_⟩
      · rw [UInt64.le_iff_toNat_le, hsum]
        exact hle
      · rw [hsum]
        exact hge h

/-- A STREAM frame whose data fits what `MaxDataLen` allows, for a size up to 16385 bytes, is
no longer than that size: the data length then takes two bytes at most, and the one byte taken
off the data makes room for the second. -/
theorem StreamFrame.Length_le_of_MaxDataLen {f : StreamFrame} {maxSize m : UInt64}
    (hmax : maxSize ≤ 16385) (hm : f.MaxDataLen maxSize = some m) (hm0 : m ≠ 0)
    (hd : f.Data.length ≤ m.toNat) : ∃ L, f.Length = some L ∧ L ≤ maxSize := by
  have hmax' : maxSize.toNat ≤ 16385 := UInt64.le_iff_toNat_le.mp hmax
  have hm2 : m.toNat ≤ maxVarInt2 := by
    rw [MaxDataLen_eq_adjusted] at hm
    cases hH : f.headerLen with
    | none => simp [hH] at hm
    | some H =>
      obtain ⟨hH2, hH17⟩ := headerLen_bounds hH
      simp only [hH, Option.bind_some] at hm
      unfold maxVarInt2
      split_ifs at hm with hp hgt
      · have := adjustedDataLen_spec hH17 hm hm0
        omega
      · exact absurd (Option.some.inj hm).symm hm0
      · rw [← Option.some.inj hm, UInt64.toNat_sub_of_le _ _ (UInt64.not_lt.mp hgt)]
        omega
  obtain ⟨L, hL, hle, -⟩ := Length_of_MaxDataLen hm hm0 hm2 hd
  exact ⟨L, hL, hle⟩

theorem CryptoFrame.MaxDataLen_eq (f : CryptoFrame) (maxSize : UInt64) :
    f.MaxDataLen maxSize = (VarIntLen f.Offset.toNat).bind fun v => adjustedDataLen (1 + v) maxSize := by
  unfold MaxDataLen adjustedDataLen
  cases VarIntLen f.Offset.toNat with
  | none => rfl
  | some v =>
    simp only [Option.bind_eq_bind, Option.bind_some, Option.pure_def]

theorem CryptoFrame.Length_of_MaxDataLen {f : CryptoFrame} {maxSize n : UInt64}
    (hm : f.MaxDataLen maxSize = some n) (hn0 : n ≠ 0) (hn : n.toNat ≤ maxVarInt2)
    (hd : f.Data.length ≤ n.toNat) :
    ∃ L, f.Length = some L ∧ L ≤ maxSize ∧
      (f.Data.length = n.toNat → maxSize.toNat ≤ L.toNat + 1) := by
  rw [MaxDataLen_eq] at hm
  cases hv : VarIntLen f.Offset.toNat with
  | none => simp [hv] at hm
  | some v =>
    simp only [hv, Option.bind_some] at hm
    have hv8 := VarIntLen_le hv
    have hH : (1 + v).toNat = 1 + v.toNat := by
      simp only [UInt64.toNat_add, UInt64.reduceToNat]
      omega
    obtain ⟨c, hc, hle, hge⟩ := fits_of_adjustedDataLen (by omega) hm hn0 hn hd
    have hmax := maxSize.toNat_lt
    have hc8 := VarIntLen_le hc
    have hsum : (1 + v + c + UInt64.ofNat f.Data.length).toNat =
        (1 + v).toNat + c.toNat + f.Data.length := by
      rw [UInt64.toNat_add, UInt64.toNat_add, UInt64.toNat_ofNat', hH]
      omega
    refine ⟨1 + v + c + UInt64.ofNat f.Data.length, by simp only [Length, hv, hc,
      Option.bind_eq_bind, Option.bind_some, Option.pure_def], ?_, fun h => ?_⟩
    · rw [UInt64.le_iff_toNat_le, hsum]
      exact hle
    · rw [hsum]
      exact hge h

/-- `MaxDataLen` of a CRYPTO frame answers only for an offset that is a varint, and with at most
`maxSize` bytes. -/
theorem CryptoFrame.MaxDataLen_some {f : CryptoFrame} {maxSize n : UInt64}
    (h : f.MaxDataLen maxSize = some n) : f.Offset.toNat ≤ maxVarInt8 ∧ n ≤ maxSize := by
  rw [CryptoFrame.MaxDataLen_eq] at h
  cases hv : VarIntLen f.Offset.toNat with
  | none => simp [hv] at h
  | some v =>
    simp only [hv, Option.bind_some] at h
    refine ⟨le_maxVarInt8_of_VarIntLen hv, ?_⟩
    unfold adjustedDataLen at h
    split at h
    · rw [← Option.some.inj h]
      exact UInt64.zero_le
    · rename_i hgt
      have hle : 1 + v + 1 ≤ maxSize := UInt64.not_lt.mp hgt
      cases hc : VarIntLen (maxSize - (1 + v + 1)).toNat with
      | none => simp [hc] at h
      | some c =>
        simp only [hc, Option.bind_some] at h
        have hsub : maxSize - (1 + v + 1) ≤ maxSize := UInt64.sub_le hle
        split at h
        · rename_i hc1
          have hpos : (maxSize - (1 + v + 1)).toNat ≠ 0 := fun h0 => by
            rw [h0, VarIntLen_of_le_maxVarInt1 (by decide)] at hc
            exact hc1 (Option.some.inj hc).symm
          rw [← Option.some.inj h]
          refine UInt64.le_trans ?_ hsub
          rw [UInt64.le_iff_toNat_le, UInt64.toNat_sub_of_le _ _ (by
            rw [UInt64.le_iff_toNat_le]
            simp only [UInt64.reduceToNat]
            omega)]
          omega
        · rw [← Option.some.inj h]
          exact hsub

theorem CryptoFrame.MaxDataLen_isSome {f : CryptoFrame} {maxSize : UInt64}
    (ho : f.Offset.toNat ≤ maxVarInt8) (hm : maxSize.toNat ≤ maxVarInt8) :
    ∃ n, f.MaxDataLen maxSize = some n := by
  obtain ⟨v, hv⟩ := VarIntLen_isSome ho
  rw [CryptoFrame.MaxDataLen_eq, hv, Option.bind_some]
  unfold adjustedDataLen
  split
  · exact ⟨0, rfl⟩
  · rename_i hgt
    have hle : 1 + v + 1 ≤ maxSize := UInt64.not_lt.mp hgt
    obtain ⟨c, hc⟩ :=
      VarIntLen_isSome (le_trans (UInt64.le_iff_toNat_le.mp (UInt64.sub_le hle)) hm)
    rw [hc, Option.bind_some]
    split
    · exact ⟨_, rfl⟩
    · exact ⟨_, rfl⟩
/-- With room for the type byte, an offset of eight bytes and a byte of data length, `MaxDataLen`
of a CRYPTO frame leaves room for some data. -/
theorem CryptoFrame.MaxDataLen_pos {f : CryptoFrame} {maxSize n : UInt64}
    (h : f.MaxDataLen maxSize = some n) (hmax : 11 ≤ maxSize.toNat) : 0 < n.toNat := by
  rw [CryptoFrame.MaxDataLen_eq] at h
  cases hv : VarIntLen f.Offset.toNat with
  | none => simp [hv] at h
  | some v =>
    simp only [hv, Option.bind_some] at h
    have hv8 := VarIntLen_le hv
    have hH : (1 + v + 1).toNat = v.toNat + 2 := by
      simp only [UInt64.toNat_add, UInt64.reduceToNat]
      omega
    have hle : 1 + v + 1 ≤ maxSize := by
      rw [UInt64.le_iff_toNat_le, hH]
      omega
    have hroom : (maxSize - (1 + v + 1)).toNat = maxSize.toNat - (v.toNat + 2) := by
      rw [UInt64.toNat_sub_of_le _ _ hle, hH]
    unfold adjustedDataLen at h
    rw [if_neg (UInt64.not_lt.mpr hle)] at h
    cases hc : VarIntLen (maxSize - (1 + v + 1)).toNat with
    | none => simp [hc] at h
    | some c =>
      simp only [hc, Option.bind_some] at h
      split at h
      · rename_i hc1
        have hbig : maxVarInt1 < (maxSize - (1 + v + 1)).toNat := by
          by_contra hsmall
          exact hc1 (Option.some.inj (hc.symm.trans (VarIntLen_of_le_maxVarInt1 (Nat.not_lt.mp hsmall))))
        have h1 : 1 ≤ maxSize - (1 + v + 1) := by
          rw [UInt64.le_iff_toNat_le]
          unfold maxVarInt1 at hbig
          simp only [UInt64.reduceToNat]
          omega
        rw [← Option.some.inj h, UInt64.toNat_sub_of_le _ _ h1]
        unfold maxVarInt1 at hbig
        simp only [UInt64.reduceToNat]
        omega
      · rw [← Option.some.inj h, hroom]
        omega

/-- What `MaybeSplitOffFrame` does when it splits: it takes the first `MaxDataLen` bytes of the
data into a new frame at the same offset, and moves the offset of what is left past them. -/
theorem StreamFrame.MaybeSplitOffFrame_some {f g f' : StreamFrame} {maxSize : UInt64}
    (h : f.MaybeSplitOffFrame maxSize = .ok (some g, f')) :
    ∃ n, f.MaxDataLen maxSize = some n ∧ n ≠ 0 ∧ n.toNat ≤ f.Data.length ∧
      g = { FinBit := false, StreamID := f.StreamID, Offset := f.Offset,
            Data := f.Data.take n.toNat, DataLenPresent := f.DataLenPresent } ∧
      f' = { f with Data := f.Data.drop n.toNat, Offset := f.Offset + n } := by
  unfold MaybeSplitOffFrame at h
  cases hL : f.Length with
  | none => simp [hL] at h
  | some length =>
    simp only [hL] at h
    split_ifs at h with hfits
    · cases h
    · cases hn : f.MaxDataLen maxSize with
      | none => simp [hn] at h
      | some n =>
        simp only [hn] at h
        by_cases hn0 : n = 0
        · simp [hn0] at h
        by_cases hlen : n.toNat > f.Data.length
        · simp [hn0, hlen] at h
        rw [if_neg hn0, if_neg hlen] at h
        simp only [pure, Except.pure, Except.ok.injEq, Prod.mk.injEq, Option.some.injEq] at h
        exact ⟨n, rfl, hn0, Nat.not_lt.mp hlen, h.1.symm, h.2.symm⟩

theorem StreamFrame.MaybeSplitOffFrame_none {f f' : StreamFrame} {maxSize : UInt64}
    (h : f.MaybeSplitOffFrame maxSize = .ok (none, f')) :
    f' = f ∧ ∃ L, f.Length = some L ∧ L ≤ maxSize := by
  unfold MaybeSplitOffFrame at h
  cases hL : f.Length with
  | none => simp [hL] at h
  | some length =>
    simp only [hL] at h
    split_ifs at h with hfits
    · simp only [pure, Except.pure, Except.ok.injEq, Prod.mk.injEq] at h
      exact ⟨h.2.symm, length, rfl, hfits⟩
    · cases hn : f.MaxDataLen maxSize with
      | none => simp [hn] at h
      | some n =>
        simp only [hn] at h
        split_ifs at h
        simp [pure, Except.pure] at h

/-- When `MaybeSplitOffFrame` splits `f`, the frame it returns starts where `f` started, has no
FIN bit and is at most `maxSize` bytes long and at least one byte less, as long as its data length
takes at most two bytes; its data followed by what is left of `f` is the data of `f`, and what is
left starts after it, with the FIN bit of `f`. Every STREAM or CRYPTO frame that carries as much
data as `MaxDataLen` allows, no more than `maxVarInt2` bytes, fits `maxSize`. -/
theorem StreamFrame.MaybeSplitOffFrame_fits {f g f' : StreamFrame} {maxSize : UInt64}
    (h : f.MaybeSplitOffFrame maxSize = .ok (some g, f')) (hg : g.Data.length ≤ maxVarInt2) :
    (∃ L, g.Length = some L ∧ L ≤ maxSize ∧ maxSize.toNat ≤ L.toNat + 1) ∧
      g.Offset = f.Offset ∧ g.FinBit = false ∧ g.Data ++ f'.Data = f.Data ∧
      f'.Offset = f.Offset + g.DataLen ∧ f'.FinBit = f.FinBit ∧
      (∀ (s : StreamFrame) (size n : UInt64), s.MaxDataLen size = some n → n ≠ 0 →
        n.toNat ≤ maxVarInt2 → ∀ d : List UInt8, d.length = n.toNat →
          ∃ L, { s with Data := d }.Length = some L ∧ L ≤ size) ∧
      (∀ (c : CryptoFrame) (size n : UInt64), c.MaxDataLen size = some n → n ≠ 0 →
        n.toNat ≤ maxVarInt2 → ∀ d : List UInt8, d.length = n.toNat →
          ∃ L, { c with Data := d }.Length = some L ∧ L ≤ size) := by
  obtain ⟨n, hm, hn0, hlen, hgeq, rfl⟩ := MaybeSplitOffFrame_some h
  have hgl : g.Data.length = n.toNat := by
    rw [hgeq, List.length_take]
    omega
  have hgm : g.MaxDataLen maxSize = some n := by
    rw [hgeq, ← hm]
    rfl
  obtain ⟨L, hL, hle, hge⟩ := Length_of_MaxDataLen hgm hn0 (hgl ▸ hg) hgl.le
  subst hgeq
  refine ⟨⟨L, hL, hle, hge hgl⟩, rfl, rfl, List.take_append_drop _ _, ?_, rfl, ?_, ?_⟩
  · simp only [DataLen, hgl, Nat.toUInt64_eq, UInt64.ofNat_toNat]
  · intro s size n hs hn0 hn d hd
    exact (Length_of_MaxDataLen (f := { s with Data := d }) hs hn0 hn hd.le).imp
      fun _ hL => ⟨hL.1, hL.2.1⟩
  · intro c size n hc hn0 hn d hd
    exact (CryptoFrame.Length_of_MaxDataLen (f := { c with Data := d }) hc hn0 hn hd.le).imp
      fun _ hL => ⟨hL.1, hL.2.1⟩

/-- A frame of eight bytes split at five: the new frame carries two bytes of data. -/
theorem MaybeSplitOffFrame_fits_five :
    StreamFrame.MaybeSplitOffFrame ⟨0, false, true, 0, [1, 2, 3, 4, 5]⟩ 5 =
        .ok (some ⟨0, false, true, 0, [1, 2]⟩, ⟨0, false, true, 2, [3, 4, 5]⟩) ∧
      [(1 : UInt8), 2].length ≤ maxVarInt2 ∧
      ∃ L, StreamFrame.Length ⟨0, false, true, 0, [1, 2]⟩ = some L ∧ L ≤ 5 ∧ 5 ≤ L.toNat + 1 :=
  have h : StreamFrame.MaybeSplitOffFrame ⟨0, false, true, 0, [1, 2, 3, 4, 5]⟩ 5 =
      .ok (some ⟨0, false, true, 0, [1, 2]⟩, ⟨0, false, true, 2, [3, 4, 5]⟩) := rfl
  ⟨h, by decide, (StreamFrame.MaybeSplitOffFrame_fits h (by decide)).1⟩

/-- For every STREAM frame whose stream ID and offset are below `2^62`, whose end stays within
`MaxByteCount`, and which carries data or the FIN bit, `Write` writes `Length` bytes, from which
`parseStreamFrame` reads back the frame: followed by anything when the data length is present,
and as the whole input, the data running to its end, when it is not. -/
theorem StreamFrame.parseStreamFrame_Write {f : StreamFrame} (hs : f.StreamID < 2 ^ 62)
    (ho : f.Offset.toNat < 2 ^ 62) (hmax : f.Offset.toNat + f.Data.length ≤ MaxByteCount.toNat)
    (hne : 0 < f.Data.length ∨ f.FinBit = true) :
    ∃ l L, Emits f.Write l ∧ f.Length = some L ∧ l.length = L.toNat ∧
      (f.DataLenPresent = true → Decodes parseStreamFrame l (.stream f)) ∧
      (f.DataLenPresent = false → DecodesAll parseStreamFrame l (.stream f)) := by
  have hl : f.Data.length < 2 ^ 62 := by
    rw [MaxByteCount_toNat] at hmax
    omega
  have hdl : f.DataLen.toNat = f.Data.length := by
    simp only [DataLen, Nat.toUInt64_eq, UInt64.toNat_ofNat']
    omega
  obtain ⟨Ls, hLs, h8s, ls, hws, hls, hds⟩ := varInt_roundTrip hs
  obtain ⟨Lo, hLo, h8o, lo, hwo, hlo, hdo⟩ := varInt_roundTrip ho
  obtain ⟨Ld, hLd, h8d, ld, hwd, hld, hdd⟩ := varInt_roundTrip hl
  obtain ⟨L, hL, hlen⟩ : ∃ L, f.Length = some L ∧ (f.bytes ls lo ld).length = L.toNat := by
    rw [Length_eq]
    unfold headerLen
    simp only [hLs, hdl, hLd, Option.bind_eq_bind, Option.bind_some, Option.pure_def]
    by_cases hO : f.Offset = 0 <;> cases hD : f.DataLenPresent <;>
      simp [bytes, hO, hD, hLo, UInt64.toNat_add, hdl, hls, hlo, hld] <;> omega
  refine ⟨f.bytes ls lo ld, L, Write_emits hne hws hwo (hdl ▸ hwd), hL, hlen,
    fun hD => decodes_of_dataLenPresent hD hmax hds hdo hdd,
    fun hD => decodesAll_of_not_dataLenPresent hD hmax hds hdo⟩

/-- A frame with data, an offset and a data length: nine bytes, read back whatever follows. -/
theorem parseStreamFrame_Write_three_bytes :
    (5 : Nat) < 2 ^ 62 ∧ (7 : UInt64).toNat < 2 ^ 62 ∧
      (7 : UInt64).toNat + [1, 2, 3].length ≤ MaxByteCount.toNat ∧
      (0 < [(1 : UInt8), 2, 3].length ∨ true = true) ∧
      ∃ l L, Emits (StreamFrame.Write ⟨5, true, true, 7, [1, 2, 3]⟩) l ∧
        StreamFrame.Length ⟨5, true, true, 7, [1, 2, 3]⟩ = some L ∧ l.length = L.toNat :=
  ⟨by decide, by decide, by rw [MaxByteCount_toNat]; decide, .inl (by decide),
    (StreamFrame.parseStreamFrame_Write (f := ⟨5, true, true, 7, [1, 2, 3]⟩) (by decide) (by decide)
      (by rw [MaxByteCount_toNat]; decide) (.inl (by decide))).imp
      fun _ ⟨L, hw, hL, hl, _⟩ => ⟨L, hw, hL, hl⟩⟩


end QuicGo.Wire
