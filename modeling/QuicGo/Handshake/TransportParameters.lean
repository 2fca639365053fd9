import Mathlib.Data.List.Sort
import QuicGo.Wire.FrameCodec
import QuicGo.Protocol.Version

/-! The transport parameters of the TLS handshake (`internal/handshake/transport_parameters.go` and
`tls_extension.go`). `marshal` writes a list of parameters, each an identifier, a length and a
value, all numbers as varints. -/
namespace QuicGo.Handshake
open QuicGo.Utils QuicGo.Lib QuicGo.Protocol QuicGo.Wire QuicGo.Utils.BigEndian

/-! ### Identifiers and values -/

def originalConnectionIDParameterID : UInt16 := 0x0
def idleTimeoutParameterID : UInt16 := 0x1
def statelessResetTokenParameterID : UInt16 := 0x2
def maxPacketSizeParameterID : UInt16 := 0x3
def initialMaxDataParameterID : UInt16 := 0x4
def initialMaxStreamDataBidiLocalParameterID : UInt16 := 0x5
def initialMaxStreamDataBidiRemoteParameterID : UInt16 := 0x6
def initialMaxStreamDataUniParameterID : UInt16 := 0x7
def initialMaxStreamsBidiParameterID : UInt16 := 0x8
def initialMaxStreamsUniParameterID : UInt16 := 0x9
def ackDelayExponentParameterID : UInt16 := 0xa
def disableMigrationParameterID : UInt16 := 0xc

/-- `handshake.TransportParameters`, with the Go zero values as defaults. `IdleTimeout` is a
`time.Duration` in nanoseconds. -/
structure TransportParameters where
  InitialMaxStreamDataBidiLocal : UInt64 := 0
  InitialMaxStreamDataBidiRemote : UInt64 := 0
  InitialMaxStreamDataUni : UInt64 := 0
  InitialMaxData : UInt64 := 0
  AckDelayExponent : UInt8 := 0
  MaxPacketSize : UInt64 := 0
  MaxUniStreams : UInt64 := 0
  MaxBidiStreams : UInt64 := 0
  IdleTimeout : Int := 0
  DisableMigration : Bool := false
  StatelessResetToken : List UInt8 := []
  OriginalConnectionID : List UInt8 := []
  deriving DecidableEq, Repr, Inhabited

/-- The errors of the decoders. -/
inductive TransportParameterError where
  /-- "remaining length (%d) smaller than parameter length (%d)" -/
  | remainingLengthTooSmall (remaining paramLen : Nat)
  /-- "wrong length for disable_migration: %d (expected empty)" -/
  | wrongLengthDisableMigration (paramLen : Nat)
  /-- "client sent a stateless_reset_token" -/
  | clientSentStatelessResetToken
  /-- "wrong length for stateless_reset_token: %d (expected 16)" -/
  | wrongLengthStatelessResetToken (paramLen : Nat)
  /-- "client sent an original_connection_id" -/
  | clientSentOriginalConnectionID
  /-- "received duplicate transport parameter %#x" -/
  | duplicateTransportParameter (paramID : UInt16)
  /-- "should have read all data. Still have %d bytes" -/
  | notAllDataRead (remaining : Nat)
  /-- "error while reading transport parameter %d: %s" -/
  | errorWhileReading (paramID : UInt16) (err : Utils.Error)
  /-- "inconsistent transport parameter length for %d" -/
  | inconsistentLength (paramID : UInt16)
  /-- "invalid value for max_packet_size: %d (minimum 1200)" -/
  | invalidMaxPacketSize (val : Nat)
  /-- "invalid value for ack_delay_exponent: %d (maximum %d)" -/
  | invalidAckDelayExponent (val max : Nat)
  /-- "TransportParameter BUG: transport parameter %d not found" -/
  | parameterNotFound (paramID : UInt16)
  /-- "transport parameter data too short" -/
  | dataTooShort
  /-- "expected transport parameters to be %d bytes long, have %d" -/
  | wrongParametersLength (expected have_ : Nat)
  /-- "invalid length for version list: %d" -/
  | invalidVersionListLength (numVersions : Nat)
  deriving DecidableEq, Repr

/-- A `bytes.Reader` whose errors are those of the transport parameters. -/
abbrev ParamReader := StateT (List UInt8) (Except TransportParameterError)

/-- A read of the byte reader whose error the source wraps with `wrap`. -/
def wrapError {α : Type} (wrap : Utils.Error → TransportParameterError) (r : Reader α) :
    ParamReader α := fun s =>
  match r.run s with
  | .ok p => .ok p
  | .error e => .error (wrap e)

/-- A read whose error the source drops (`v, _ := ...`), keeping the zero value `zero`. -/
def ignoreError {α : Type} (zero : α) (r : Reader α) : ParamReader α := fun s =>
  match r.run s with
  | .ok p => .ok p
  | .error _ => .ok (zero, s)

/-- `uint64(d)` of an `int64`. -/
def toUint64 (d : Int) : Nat :=
  (d % 2 ^ 64).toNat

/-! ### Reading -/

/-- The identifiers whose value is one varint. `ackDelayExponentParameterID` falls through to
them. -/
def isNumericParameterID (paramID : UInt16) : Bool :=
  paramID = initialMaxStreamDataBidiLocalParameterID ||
    paramID = initialMaxStreamDataBidiRemoteParameterID ||
    paramID = initialMaxStreamDataUniParameterID || paramID = initialMaxDataParameterID ||
    paramID = initialMaxStreamsBidiParameterID || paramID = initialMaxStreamsUniParameterID ||
    paramID = idleTimeoutParameterID || paramID = maxPacketSizeParameterID

/-- The `switch` of `readNumericTransportParameter`: the value goes to the field of `paramID`,
after the checks of the maximum packet size and the ack delay exponent. -/
def TransportParameters.setNumericTransportParameter (p : TransportParameters) (paramID : UInt16)
    (val : Nat) : Except TransportParameterError TransportParameters :=
  if paramID = initialMaxStreamDataBidiLocalParameterID then
    pure { p with InitialMaxStreamDataBidiLocal := val.toUInt64 }
  else if paramID = initialMaxStreamDataBidiRemoteParameterID then
    pure { p with InitialMaxStreamDataBidiRemote := val.toUInt64 }
  else if paramID = initialMaxStreamDataUniParameterID then
    pure { p with InitialMaxStreamDataUni := val.toUInt64 }
  else if paramID = initialMaxDataParameterID then
    pure { p with InitialMaxData := val.toUInt64 }
  else if paramID = initialMaxStreamsBidiParameterID then
    pure { p with MaxBidiStreams := val.toUInt64 }
  else if paramID = initialMaxStreamsUniParameterID then
    pure { p with MaxUniStreams := val.toUInt64 }
  else if paramID = idleTimeoutParameterID then
    -- `time.Duration(val) * time.Second`, in `int64`
    pure { p with IdleTimeout := max MinRemoteIdleTimeout (toInt64 (toInt64 val * 1000000000)) }
  else if paramID = maxPacketSizeParameterID then
    if val < 1200 then throw (.invalidMaxPacketSize val)
    else pure { p with MaxPacketSize := val.toUInt64 }
  else if paramID = ackDelayExponentParameterID then
    if val > MaxAckDelayExponent then throw (.invalidAckDelayExponent val MaxAckDelayExponent)
    else pure { p with AckDelayExponent := val.toUInt8 }
  else throw (.parameterNotFound paramID)

/-- `TransportParameters.readNumericTransportParameter`: a varint that takes exactly
`expectedLen` bytes, stored in the field of `paramID`. -/
def TransportParameters.readNumericTransportParameter (p : TransportParameters)
    (paramID : UInt16) (expectedLen : Nat) : ParamReader TransportParameters := do
  let remainingLen := (← get).length
  let val ← wrapError (.errorWhileReading paramID) ReadVarInt
  if remainingLen - (← get).length ≠ expectedLen then throw (.inconsistentLength paramID)
  p.setNumericTransportParameter paramID val

/-- What the loop of `unmarshal` carries: the parameters read so far, the identifiers seen and
whether an ack delay exponent was among them. -/
structure UnmarshalState where
  p : TransportParameters
  parameterIDs : List UInt16
  readAckDelayExponent : Bool
  deriving DecidableEq, Repr

/-- One round of the loop of `unmarshal`: an identifier, a length and the value. Its two
`ReadUint16` never fail, as the loop runs only while four bytes are left. -/
def readTransportParameter (sentBy : Perspective) (st : UnmarshalState) :
    ParamReader UnmarshalState := do
  let paramID ← ignoreError 0 ReadUint16
  let paramLen ← ignoreError 0 ReadUint16
  let st := { st with parameterIDs := st.parameterIDs ++ [paramID] }
  if paramID = ackDelayExponentParameterID ∨ isNumericParameterID paramID then
    let st := if paramID = ackDelayExponentParameterID then { st with readAckDelayExponent := true }
      else st
    let p ← st.p.readNumericTransportParameter paramID paramLen.toNat
    pure { st with p }
  else
    let remaining := (← get).length
    if remaining < paramLen.toNat then throw (.remainingLengthTooSmall remaining paramLen.toNat)
    if paramID = disableMigrationParameterID then
      if paramLen ≠ 0 then throw (.wrongLengthDisableMigration paramLen.toNat)
      pure { st with p := { st.p with DisableMigration := true } }
    else if paramID = statelessResetTokenParameterID then
      if sentBy = .PerspectiveClient then throw .clientSentStatelessResetToken
      if paramLen ≠ 16 then throw (.wrongLengthStatelessResetToken paramLen.toNat)
      -- `r.Read(b)` into 16 bytes, of which at least 16 are left
      let b ← ignoreError [] (ReadFull 16)
      pure { st with p := { st.p with StatelessResetToken := b } }
    else if paramID = originalConnectionIDParameterID then
      if sentBy = .PerspectiveClient then throw .clientSentOriginalConnectionID
      let c ← ignoreError [] (ReadConnectionID paramLen.toNat)
      pure { st with p := { st.p with OriginalConnectionID := c } }
    else
      -- an unknown parameter is skipped
      modify (·.drop paramLen.toNat)
      pure st

/-- The loop `for r.Len() >= 4`. Each round reads at least four bytes, so as many rounds as
there are bytes always suffice; `fuel` counts them. -/
def unmarshalLoop (sentBy : Perspective) : Nat → UnmarshalState → ParamReader UnmarshalState
  | 0, st => pure st
  | fuel + 1, st => do
    if (← get).length ≥ 4 then unmarshalLoop sentBy fuel (← readTransportParameter sentBy st)
    else pure st

/-- The first identifier equal to the one after it in a list, the check of `unmarshal` on the
sorted identifiers. -/
def firstDuplicate : List UInt16 → Option UInt16
  | a :: b :: rest => if a = b then some a else firstDuplicate (b :: rest)
  | _ => none

/-- `TransportParameters.unmarshal`, into the parameters `p`. -/
def TransportParameters.unmarshal (p : TransportParameters) (data : List UInt8)
    (sentBy : Perspective) : Except TransportParameterError TransportParameters := do
  let (st, r) ← (unmarshalLoop sentBy data.length ⟨p, [], false⟩).run data
  let p := if st.readAckDelayExponent then st.p
    else { st.p with AckDelayExponent := DefaultAckDelayExponent }
  -- check that every transport parameter was sent at most once
  if let some paramID := firstDuplicate (st.parameterIDs.mergeSort (· ≤ ·)) then
    throw (.duplicateTransportParameter paramID)
  if r.length ≠ 0 then throw (.notAllDataRead r.length)
  pure p

/-! ### Writing -/

/-- A parameter whose value is one varint: its identifier, the varint's length and the varint. -/
def writeNumericTransportParameter (paramID : UInt16) (val : Nat) : Writer := do
  WriteUint16 paramID
  let len ← orPanic (errTooLarge val) (VarIntLen val)
  WriteUint16 len.toUInt16
  WriteVarInt val

/-- `TransportParameters.marshal`. The maximum packet size written is always
`MaxReceivePacketSize`, and the ack delay exponent only when it is not the default. -/
def TransportParameters.marshal (p : TransportParameters) : Writer := do
  writeNumericTransportParameter initialMaxStreamDataBidiLocalParameterID
    p.InitialMaxStreamDataBidiLocal.toNat
  writeNumericTransportParameter initialMaxStreamDataBidiRemoteParameterID
    p.InitialMaxStreamDataBidiRemote.toNat
  writeNumericTransportParameter initialMaxStreamDataUniParameterID p.InitialMaxStreamDataUni.toNat
  writeNumericTransportParameter initialMaxDataParameterID p.InitialMaxData.toNat
  writeNumericTransportParameter initialMaxStreamsBidiParameterID p.MaxBidiStreams.toNat
  writeNumericTransportParameter initialMaxStreamsUniParameterID p.MaxUniStreams.toNat
  -- `uint64(p.IdleTimeout / time.Second)`, Go's division truncating toward zero
  writeNumericTransportParameter idleTimeoutParameterID (toUint64 (p.IdleTimeout.tdiv 1000000000))
  writeNumericTransportParameter maxPacketSizeParameterID MaxReceivePacketSize.toNat
  if p.AckDelayExponent ≠ DefaultAckDelayExponent then
    writeNumericTransportParameter ackDelayExponentParameterID p.AckDelayExponent.toNat
  if p.DisableMigration then
    WriteUint16 disableMigrationParameterID
    WriteUint16 0
  if p.StatelessResetToken.length > 0 then
    WriteUint16 statelessResetTokenParameterID
    WriteUint16 p.StatelessResetToken.length.toUInt16
    Utils.Write p.StatelessResetToken
  if p.OriginalConnectionID.length > 0 then
    WriteUint16 originalConnectionIDParameterID
    WriteUint16 p.OriginalConnectionID.length.toUInt16
    Utils.Write p.OriginalConnectionID

/-! ### The TLS extensions -/

/-- `binary.BigEndian.Uint16` of the first two bytes. -/
def beUint16 (b : List UInt8) : UInt16 :=
  (b.getD 1 0).toUInt16 ||| (b.getD 0 0).toUInt16 <<< 8

/-- `binary.BigEndian.Uint32` of the first four bytes. -/
def beUint32 (b : List UInt8) : UInt32 :=
  (b.getD 3 0).toUInt32 ||| (b.getD 2 0).toUInt32 <<< 8 ||| (b.getD 1 0).toUInt32 <<< 16 |||
    (b.getD 0 0).toUInt32 <<< 24

/-- `binary.BigEndian.PutUint16(data[offset:offset+2], v)` -/
def putUint16 (data : List UInt8) (offset : Nat) (v : UInt16) : List UInt8 :=
  (data.set offset (v >>> 8).toUInt8).set (offset + 1) v.toUInt8

/-- `handshake.ClientHelloTransportParameters` -/
structure ClientHelloTransportParameters where
  InitialVersion : VersionNumber := 0
  Parameters : TransportParameters := {}
  deriving DecidableEq, Repr

/-- `ClientHelloTransportParameters.Marshal`: the length of the parameters is written over two
placeholder bytes once they are known. A panic of `marshal` is an error. -/
def ClientHelloTransportParameters.Marshal (p : ClientHelloTransportParameters) :
    Except Utils.Error (List UInt8) := do
  let lenOffset := 4
  let ((), data) ← (do
    WriteUint32 p.InitialVersion
    Utils.Write [0, 0]
    p.Parameters.marshal : Writer).run []
  pure (putUint16 data lenOffset (data.length - lenOffset - 2).toUInt16)

/-- `ClientHelloTransportParameters.Unmarshal`, into `p`. -/
def ClientHelloTransportParameters.Unmarshal (p : ClientHelloTransportParameters)
    (data : List UInt8) : Except TransportParameterError ClientHelloTransportParameters := do
  if data.length < 6 then throw .dataTooShort
  let p := { p with InitialVersion := beUint32 data }
  let paramsLen := (beUint16 (data.drop 4)).toNat
  let data := data.drop 6
  if data.length ≠ paramsLen then throw (.wrongParametersLength paramsLen data.length)
  let Parameters ← p.Parameters.unmarshal data .PerspectiveClient
  pure { p with Parameters }

/-- `handshake.EncryptedExtensionsTransportParameters` -/
structure EncryptedExtensionsTransportParameters where
  NegotiatedVersion : VersionNumber := 0
  SupportedVersions : List VersionNumber := []
  Parameters : TransportParameters := {}
  deriving DecidableEq, Repr

/-- `EncryptedExtensionsTransportParameters.Marshal`: the version list's length in bytes takes
one byte, `uint8(4 * len(p.SupportedVersions))`. -/
def EncryptedExtensionsTransportParameters.Marshal (p : EncryptedExtensionsTransportParameters) :
    Except Utils.Error (List UInt8) := do
  let ((), b) ← (do
    WriteUint32 p.NegotiatedVersion
    WriteByte (4 * p.SupportedVersions.length).toUInt8
    p.SupportedVersions.forM WriteUint32 : Writer).run []
  let lenOffset := b.length
  let ((), data) ← (do
    Utils.Write [0, 0]
    p.Parameters.marshal : Writer).run b
  pure (putUint16 data lenOffset (data.length - lenOffset - 2).toUInt16)

/-- The loop that reads `numVersions` versions. -/
def readVersionList : Nat → List UInt8 → List VersionNumber × List UInt8
  | 0, data => ([], data)
  | n + 1, data =>
    let (vs, rest) := readVersionList n (data.drop 4)
    (beUint32 data :: vs, rest)

/-- `EncryptedExtensionsTransportParameters.Unmarshal`, into `p`. -/
def EncryptedExtensionsTransportParameters.Unmarshal (p : EncryptedExtensionsTransportParameters)
    (data : List UInt8) :
    Except TransportParameterError EncryptedExtensionsTransportParameters := do
  if data.length < 5 then throw .dataTooShort
  let p := { p with NegotiatedVersion := beUint32 data }
  let numVersions := (data.getD 4 0).toNat
  if numVersions % 4 ≠ 0 then throw (.invalidVersionListLength numVersions)
  let numVersions := numVersions / 4
  let data := data.drop 5
  if data.length < 4 * numVersions + 2 then throw .dataTooShort
  let (SupportedVersions, data) := readVersionList numVersions data
  let p := { p with SupportedVersions }
  let paramsLen := (beUint16 data).toNat
  let data := data.drop 2
  if data.length ≠ paramsLen then throw (.wrongParametersLength paramsLen data.length)
  let Parameters ← p.Parameters.unmarshal data .PerspectiveServer
  pure { p with Parameters }

end QuicGo.Handshake
