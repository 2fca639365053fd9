import QuicGo.Protocol.PacketNumber
import QuicGo.Protocol.Version
import QuicGo.Wire.FrameCodec

/-! The packet header (`internal/wire/header.go`, `internal/wire/extended_header.go`). `ParseHeader`
reads the version independent part of a header, and `ParseExtended` the packet number and the rest
of it. -/
namespace QuicGo.Wire
open QuicGo.Utils QuicGo.Lib QuicGo.Protocol QuicGo.Utils.BigEndian

/-- `wire.Header`, the version independent part of the header. The field `Type` of the source is
`«Type»` here. -/
structure Header where
  Version : VersionNumber := 0
  SrcConnectionID : List UInt8 := []
  DestConnectionID : List UInt8 := []
  IsLongHeader : Bool := false
  «Type» : PacketType := .PacketTypeNone
  Length : UInt64 := 0
  Token : List UInt8 := []
  SupportedVersions : List VersionNumber := []
  OrigDestConnectionID : List UInt8 := []
  typeByte : UInt8 := 0
  parsedLen : UInt64 := 0
  deriving DecidableEq, Repr

/-- `wire.ExtendedHeader`, with the embedded `Header` as a field. Its own `typeByte` shadows the
one of the `Header`, as in the source. -/
structure ExtendedHeader where
  Header : Header
  typeByte : UInt8 := 0
  PacketNumberLen : PacketNumberLen := 0
  PacketNumber : UInt64 := 0
  KeyPhase : Int := 0
  deriving DecidableEq, Repr

/-! ### Parsing -/

/-- `Header.IsVersionNegotiation` -/
def Header.IsVersionNegotiation (h : Header) : Bool :=
  h.IsLongHeader && h.Version == 0

/-- `decodeSingleConnIDLen`: a connection ID length is sent less three, with zero for none. -/
def decodeSingleConnIDLen (enc : UInt8) : Nat :=
  if enc = 0 then 0 else enc.toNat + 3

/-- `decodeConnIDLen`: the lengths of the destination and the source connection ID. -/
def decodeConnIDLen (enc : UInt8) : Nat × Nat :=
  (decodeSingleConnIDLen (enc >>> 4), decodeSingleConnIDLen (enc &&& 0xf))

/-- The loop of `parseVersionNegotiationPacket`: one version for every four bytes, until none
are left. Each round reads four bytes or fails, so `fuel`, the number of bytes there are, is never
used up. -/
def readVersions : Nat → Reader (List VersionNumber)
  | 0 => pure []
  | fuel + 1 => do
    if (← get).length = 0 then return []
    let v ← tryCatch ReadUint32 fun _ => throw .InvalidVersionNegotiationPacket
    return v :: (← readVersions fuel)

/-- `Header.parseVersionNegotiationPacket` -/
def Header.parseVersionNegotiationPacket (h : Header) : Reader Header := do
  if (← get).length = 0 then throw .emptyVersionList
  let SupportedVersions ← readVersions (← get).length
  pure { h with SupportedVersions }

/-- The switch of `parseLongHeader` on bits 4 and 5 of the first byte; `t` is the type before. -/
def longHeaderType (typeByte : UInt8) (t : PacketType) : PacketType :=
  match (typeByte &&& 0x30) >>> 4 with
  | 0x0 => .PacketTypeInitial
  | 0x1 => .PacketType0RTT
  | 0x2 => .PacketTypeHandshake
  | 0x3 => .PacketTypeRetry
  | _ => t

/-- `Header.parseLongHeader` -/
def Header.parseLongHeader (h : Header) : Reader Header := do
  let v ← ReadUint32
  let h := { h with Version := v }
  if h.IsVersionNegotiation = false ∧ h.typeByte &&& (0x40 : UInt8) = 0 then throw .notAQUICPacket
  let connIDLenByte ← ReadByte
  let (dcil, scil) := decodeConnIDLen connIDLenByte
  let DestConnectionID ← ReadConnectionID dcil
  let SrcConnectionID ← ReadConnectionID scil
  let h := { h with DestConnectionID, SrcConnectionID }
  if h.Version = 0 then return ← h.parseVersionNegotiationPacket
  -- if we don't understand the version, we have no idea how to interpret the rest of the bytes
  if !IsSupportedVersion Protocol.SupportedVersions h.Version then return h
  let h := { h with «Type» := longHeaderType h.typeByte h.«Type» }
  if h.«Type» = .PacketTypeRetry then
    let odcil := decodeSingleConnIDLen (h.typeByte &&& 0xf)
    let OrigDestConnectionID ← ReadConnectionID odcil
    -- the token is the rest of the packet
    let Token ← ReadFull (← get).length
    return { h with OrigDestConnectionID, Token }
  let h ← if h.«Type» = .PacketTypeInitial then do
      let tokenLen ← ReadVarInt
      if tokenLen > (← get).length then throw .EOF
      let Token ← ReadFull tokenLen
      pure { h with Token }
    else pure h
  let pl ← ReadVarInt
  return { h with Length := UInt64.ofNat pl }

/-- `Header.parseShortHeader` -/
def Header.parseShortHeader (h : Header) (shortHeaderConnIDLen : Nat) : Reader Header := do
  let DestConnectionID ← ReadConnectionID shortHeaderConnIDLen
  pure { h with DestConnectionID }

def parseHeaderImpl (shortHeaderConnIDLen : Nat) : Reader Header := do
  let typeByte ← ReadByte
  let h : Header := { typeByte, IsLongHeader := typeByte &&& 0x80 > 0 }
  if !h.IsLongHeader then
    if h.typeByte &&& 0x40 = 0 then throw .notAQUICPacket
    return ← h.parseShortHeader shortHeaderConnIDLen
  h.parseLongHeader

/-- `ParseHeader`, which records how many bytes the header took. -/
def ParseHeader (shortHeaderConnIDLen : Nat) : Reader Header := do
  let startLen := (← get).length
  let h ← parseHeaderImpl shortHeaderConnIDLen
  let endLen := (← get).length
  pure { h with parsedLen := UInt64.ofNat (startLen - endLen) }

/-- `Header.toExtendedHeader` -/
def Header.toExtendedHeader (h : Header) : ExtendedHeader :=
  { Header := h }

/-- `ExtendedHeader.readPacketNumber`: the length is in the low two bits of the first byte. -/
def ExtendedHeader.readPacketNumber (h : ExtendedHeader) : Reader ExtendedHeader := do
  let PacketNumberLen := (h.typeByte &&& 0x3) + 1
  let pn ← ReadUintN PacketNumberLen
  pure { h with PacketNumberLen, PacketNumber := pn }

/-- `ExtendedHeader.parseLongHeader` -/
def ExtendedHeader.parseLongHeader (h : ExtendedHeader) : Reader ExtendedHeader := do
  if h.typeByte &&& 0xc ≠ 0 then throw .longHeaderReservedBits
  h.readPacketNumber

/-- `ExtendedHeader.parseShortHeader` -/
def ExtendedHeader.parseShortHeader (h : ExtendedHeader) : Reader ExtendedHeader := do
  if h.typeByte &&& 0x18 ≠ 0 then throw .shortHeaderReservedBits
  let h := { h with KeyPhase := ((h.typeByte &&& 0x4).toNat : Int) >>> (2 : Nat) }
  h.readPacketNumber

/-- `ExtendedHeader.parse`, from the first byte of the header. After reading that byte again,
`Seek(ParsedLen() - 1, io.SeekCurrent)` moves to where `ParseHeader` stopped: a header that
`ParseHeader` returned has read its first byte, so `parsedLen` is at least one and the seek moves
forward over the next `parsedLen - 1` bytes. -/
def ExtendedHeader.parse (h : ExtendedHeader) : Reader ExtendedHeader := do
  let typeByte ← ReadByte
  let h := { h with typeByte }
  modify (·.drop (h.Header.parsedLen.toNat - 1))
  if h.Header.IsLongHeader then h.parseLongHeader else h.parseShortHeader

/-- `Header.ParseExtended` -/
def Header.ParseExtended (h : Header) : Reader ExtendedHeader :=
  h.toExtendedHeader.parse

/-! ### Writing -/

def encodeSingleConnIDLen (id : List UInt8) : Except Error UInt8 :=
  let len := id.length
  if len = 0 then pure 0
  else if len < 4 ∨ len > 18 then throw (.invalidConnectionIDLengthBytes len)
  else pure (UInt8.ofNat (len - 3))

def encodeConnIDLen (dest src : List UInt8) : Except Error UInt8 := do
  let dcil ← encodeSingleConnIDLen dest
  let scil ← encodeSingleConnIDLen src
  pure (scil ||| dcil <<< 4)

/-- The switch of `writeLongHeader` on the packet type; a header without a type gets `0x0`. -/
def packetTypeBits : PacketType → UInt8
  | .PacketTypeInitial => 0x0
  | .PacketType0RTT => 0x1
  | .PacketTypeHandshake => 0x2
  | .PacketTypeRetry => 0x3
  | .PacketTypeNone => 0x0

/-- `ExtendedHeader.writePacketNumber` -/
def ExtendedHeader.writePacketNumber (h : ExtendedHeader) : Writer := do
  if h.PacketNumberLen = PacketNumberLenInvalid ∨ h.PacketNumberLen > PacketNumberLen4 then
    throw (.invalidPacketNumberLength h.PacketNumberLen)
  WriteUintN h.PacketNumberLen h.PacketNumber

/-- `ExtendedHeader.writeLongHeader` -/
def ExtendedHeader.writeLongHeader (h : ExtendedHeader) : Writer := do
  let packetType := packetTypeBits h.Header.«Type»
  let firstByte : UInt8 := (0xc0 : UInt8) ||| packetType <<< 4
  let firstByte ← if h.Header.«Type» = .PacketTypeRetry then do
      let odcil ← encodeSingleConnIDLen h.Header.OrigDestConnectionID
      pure (firstByte ||| odcil)
    else
      -- Retry packets don't have a packet number
      pure (firstByte ||| (h.PacketNumberLen - 1))
  WriteByte firstByte
  WriteUint32 h.Header.Version
  let connIDLen ← encodeConnIDLen h.Header.DestConnectionID h.Header.SrcConnectionID
  WriteByte connIDLen
  Write h.Header.DestConnectionID
  Write h.Header.SrcConnectionID
  if h.Header.«Type» = .PacketTypeRetry then
    Write h.Header.OrigDestConnectionID
    Write h.Header.Token
    return
  if h.Header.«Type» = .PacketTypeInitial then
    WriteVarInt h.Header.Token.length
    Write h.Header.Token
  WriteVarInt h.Header.Length.toNat
  h.writePacketNumber

/-- `ExtendedHeader.writeShortHeader`; the key phase is `KeyPhase << 2`, converted to a byte. -/
def ExtendedHeader.writeShortHeader (h : ExtendedHeader) : Writer := do
  let typeByte : UInt8 := (0x40 : UInt8) ||| (h.PacketNumberLen - 1)
  let typeByte := typeByte ||| UInt8.ofInt (h.KeyPhase * 4)
  WriteByte typeByte
  Write h.Header.DestConnectionID
  h.writePacketNumber

/-- `ExtendedHeader.Write` -/
def ExtendedHeader.Write (h : ExtendedHeader) : Writer :=
  if h.Header.IsLongHeader then h.writeLongHeader else h.writeShortHeader

/-- `ExtendedHeader.GetLength`; `VarIntLen` panics, as `none`, on a length of `2^62` or more. -/
def ExtendedHeader.GetLength (h : ExtendedHeader) : Option UInt64 := do
  if h.Header.IsLongHeader then
    let length : UInt64 := 1 + 4 + 1 +
      UInt64.ofNat (h.Header.DestConnectionID.length + h.Header.SrcConnectionID.length) +
      h.PacketNumberLen.toUInt64 + (← VarIntLen h.Header.Length.toNat)
    if h.Header.«Type» = .PacketTypeInitial then
      return length + (← VarIntLen h.Header.Token.length) + UInt64.ofNat h.Header.Token.length
    return length
  let length : UInt64 := UInt64.ofNat (1 + h.Header.DestConnectionID.length)
  return length + h.PacketNumberLen.toUInt64

/-! ### The first byte and the connection ID lengths -/

/-- The bits of a long header's first byte: the form, the fixed bit, the type, and below them
either the packet number length less one or, in a Retry packet, a connection ID length. -/
theorem longFirstByte_fin : ∀ t : Fin 4, ∀ p : Fin 16,
    let b := (0xc0 : UInt8) ||| UInt8.ofNat t <<< 4 ||| UInt8.ofNat p
    b &&& 0x80 > 0 ∧ b &&& (0x40 : UInt8) ≠ 0 ∧ (b &&& 0x30) >>> 4 = UInt8.ofNat t ∧
      b &&& 0xf = UInt8.ofNat p ∧ (p.val < 4 → b &&& 0xc = 0 ∧ b &&& 0x3 = UInt8.ofNat p) := by
  decide

/-- The bits of a short header's first byte: no long form, the fixed bit, no reserved bits, the
key phase, and the packet number length less one. -/
theorem shortFirstByte_fin : ∀ p : Fin 4, ∀ k : Fin 2,
    let b := (0x40 : UInt8) ||| UInt8.ofNat p ||| UInt8.ofInt (k.val * 4)
    ¬(b &&& 0x80 > 0) ∧ b &&& (0x40 : UInt8) ≠ 0 ∧ b &&& 0x18 = 0 ∧
      ((b &&& 0x4).toNat : Int) >>> (2 : Nat) = k.val ∧ b &&& 0x3 = UInt8.ofNat p := by
  decide

theorem decodeConnIDLen_fin : ∀ d s : Fin 16,
    decodeConnIDLen (UInt8.ofNat s ||| UInt8.ofNat d <<< 4) =
      (decodeSingleConnIDLen (UInt8.ofNat d), decodeSingleConnIDLen (UInt8.ofNat s)) := by
  decide

theorem packetTypeBits_lt (t : PacketType) : (packetTypeBits t).toNat < 4 := by
  cases t <;> decide

theorem longHeaderType_of_bits {t : PacketType} (ht : t ≠ .PacketTypeNone) {b : UInt8}
    (hb : (b &&& 0x30) >>> 4 = packetTypeBits t) (t' : PacketType) : longHeaderType b t' = t := by
  unfold longHeaderType
  rw [hb]
  cases t
  · exact absurd rfl ht
  all_goals rfl

theorem longFirstByte {t : PacketType} (ht : t ≠ .PacketTypeNone) {p : UInt8} (hp : p.toNat < 16) :
    let b := (0xc0 : UInt8) ||| packetTypeBits t <<< 4 ||| p
    b &&& 0x80 > 0 ∧ b &&& (0x40 : UInt8) ≠ 0 ∧ longHeaderType b .PacketTypeNone = t ∧
      b &&& 0xf = p ∧ (p.toNat < 4 → b &&& 0xc = 0 ∧ b &&& 0x3 = p) := by
  have h := longFirstByte_fin ⟨_, packetTypeBits_lt t⟩ ⟨p.toNat, hp⟩
  simp only [UInt8.ofNat_toNat] at h
  obtain ⟨h80, h40, h30, hf, hpn⟩ := h
  exact ⟨h80, h40, longHeaderType_of_bits ht h30 _, hf, hpn⟩

/-- The first byte `writeShortHeader` writes, read back by `parseHeaderImpl` and
`ExtendedHeader.parseShortHeader`. -/
theorem shortFirstByte {p : UInt8} (hp : p.toNat < 4) {k : Int} (hk : k = 0 ∨ k = 1) :
    let b := (0x40 : UInt8) ||| p ||| UInt8.ofInt (k * 4)
    ¬(b &&& 0x80 > 0) ∧ b &&& (0x40 : UInt8) ≠ 0 ∧ b &&& 0x18 = 0 ∧
      ((b &&& 0x4).toNat : Int) >>> (2 : Nat) = k ∧ b &&& 0x3 = p := by
  rcases hk with rfl | rfl
  · simpa only [UInt8.ofNat_toNat, Fin.val_zero, Nat.cast_zero] using
      shortFirstByte_fin ⟨p.toNat, hp⟩ 0
  · simpa only [UInt8.ofNat_toNat, Fin.val_one, Nat.cast_one] using
      shortFirstByte_fin ⟨p.toNat, hp⟩ 1

/-- The lengths a connection ID may have on the wire: none, or four to eighteen bytes. -/
def ConnIDLenValid (c : List UInt8) : Prop :=
  c.length = 0 ∨ (4 ≤ c.length ∧ c.length ≤ 18)

theorem encodeSingleConnIDLen_spec {c : List UInt8} (hc : ConnIDLenValid c) :
    ∃ e, encodeSingleConnIDLen c = .ok e ∧ e.toNat < 16 ∧ decodeSingleConnIDLen e = c.length := by
  unfold encodeSingleConnIDLen decodeSingleConnIDLen
  by_cases h0 : c.length = 0
  · exact ⟨0, by rw [if_pos h0]; rfl, by decide, by rw [h0]; rfl⟩
  · have hr : ¬(c.length < 4 ∨ c.length > 18) := by unfold ConnIDLenValid at hc; omega
    have he : (UInt8.ofNat (c.length - 3)).toNat = c.length - 3 := by
      rw [UInt8.toNat_ofNat']
      omega
    refine ⟨UInt8.ofNat (c.length - 3), by rw [if_neg h0, if_neg hr]; rfl, by omega, ?_⟩
    have hne : UInt8.ofNat (c.length - 3) ≠ 0 := fun h => by
      rw [h] at he
      exact absurd he (by simp only [UInt8.toNat_zero]; omega)
    rw [if_neg hne, he]
    omega

theorem encodeConnIDLen_spec {d s : List UInt8} (hd : ConnIDLenValid d) (hs : ConnIDLenValid s) :
    ∃ c, encodeConnIDLen d s = .ok c ∧ decodeConnIDLen c = (d.length, s.length) := by
  obtain ⟨ed, hed, hed16, hdd⟩ := encodeSingleConnIDLen_spec hd
  obtain ⟨es, hes, hes16, hds⟩ := encodeSingleConnIDLen_spec hs
  refine ⟨es ||| ed <<< 4, by rw [encodeConnIDLen, hed, hes]; rfl, ?_⟩
  have h := decodeConnIDLen_fin ⟨ed.toNat, hed16⟩ ⟨es.toNat, hes16⟩
  simp only [UInt8.ofNat_toNat] at h
  rw [h, hdd, hds]


instance : DecidablePred ConnIDLenValid := fun c =>
  inferInstanceAs (Decidable (c.length = 0 ∨ (4 ≤ c.length ∧ c.length ≤ 18)))

/-! ### Writing and reading back, piece by piece -/

theorem lift_ok_bind {α β : Type} (a : α) (f : α → Reader β) :
    (monadLift (Except.ok a : Except Error α) >>= f : Reader β) = f a :=
  rfl

theorem ReadConnectionID_decodes (c : List UInt8) : Decodes (ReadConnectionID c.length) c c := by
  unfold ReadConnectionID
  by_cases h0 : c.length = 0
  · rw [if_pos h0, List.eq_nil_of_length_eq_zero h0]
    exact Decodes.pure []
  · rw [if_neg h0]
    exact (ReadFull_decodes c).tryCatch

theorem readRest_decodesAll {α : Type} {f : List UInt8 → Reader α} {p : List UInt8} {b : α}
    (hf : DecodesAll (f p) [] b) : DecodesAll (get >>= fun r => ReadFull r.length >>= f) p b := by
  unfold DecodesAll at *
  rw [StateT.run_bind]
  change (ReadFull p.length >>= f).run p = _
  have hp := ReadFull_decodes p []
  rw [List.append_nil] at hp
  rw [StateT.run_bind, hp]
  exact hf

theorem writePacketNumber_roundTrip {h : ExtendedHeader} (hl : 1 ≤ h.PacketNumberLen.toNat ∧ h.PacketNumberLen.toNat ≤ 4)
    (hpn : h.PacketNumber.toNat < 2 ^ (8 * h.PacketNumberLen.toNat)) :
    RoundTrip h.writePacketNumber (ReadUintN h.PacketNumberLen) h.PacketNumber h.PacketNumberLen.toNat := by
  have hv : ¬(h.PacketNumberLen = PacketNumberLenInvalid ∨ h.PacketNumberLen > PacketNumberLen4) := by
    simp only [PacketNumberLenInvalid, PacketNumberLen4, gt_iff_lt, UInt8.lt_iff_toNat_lt, ← UInt8.toNat_inj, UInt8.reduceToNat]
    omega
  unfold ExtendedHeader.writePacketNumber
  rw [if_neg hv]
  exact ReadUintN_roundTrip (by omega) hpn

theorem writeLongHeader_emits {h : ExtendedHeader} (hr : h.Header.«Type» ≠ .PacketTypeRetry) {c : UInt8}
    (hc : encodeConnIDLen h.Header.DestConnectionID h.Header.SrcConnectionID = .ok c)
    {lT lL lpn : List UInt8} (hT : Emits (WriteVarInt h.Header.Token.length) lT)
    (hL : Emits (WriteVarInt h.Header.Length.toNat) lL) (hpn : Emits h.writePacketNumber lpn) :
    Emits h.writeLongHeader
      ([(0xc0 : UInt8) ||| packetTypeBits h.Header.«Type» <<< 4 ||| (h.PacketNumberLen - 1)] ++
        ([(h.Header.Version >>> 24).toUInt8, (h.Header.Version >>> 16).toUInt8,
          (h.Header.Version >>> 8).toUInt8, h.Header.Version.toUInt8] ++
        ([c] ++ (h.Header.DestConnectionID ++ (h.Header.SrcConnectionID ++
          ((if h.Header.«Type» = .PacketTypeInitial then lT ++ h.Header.Token else []) ++
            (lL ++ lpn))))))) := by
  unfold ExtendedHeader.writeLongHeader
  simp only [if_neg hr, pure_bind]
  rw [hc, lift_ok_bind]
  refine (WriteByte_emits _).bind ((Utils.Write_emits _).bind ((WriteByte_emits _).bind
    ((Utils.Write_emits _).bind ((Utils.Write_emits _).bind ?_))))
  by_cases hi : h.Header.«Type» = .PacketTypeInitial
  · rw [if_pos hi, if_pos hi, List.append_assoc]
    exact hT.bind ((Utils.Write_emits _).bind (hL.bind hpn))
  · rw [if_neg hi, if_neg hi, List.nil_append]
    exact hL.bind hpn

theorem writeLongHeader_emits_retry {h : ExtendedHeader} (hr : h.Header.«Type» = .PacketTypeRetry)
    {o c : UInt8} (ho : encodeSingleConnIDLen h.Header.OrigDestConnectionID = .ok o)
    (hc : encodeConnIDLen h.Header.DestConnectionID h.Header.SrcConnectionID = .ok c) :
    Emits h.writeLongHeader
      ([(0xc0 : UInt8) ||| packetTypeBits h.Header.«Type» <<< 4 ||| o] ++
        ([(h.Header.Version >>> 24).toUInt8, (h.Header.Version >>> 16).toUInt8,
          (h.Header.Version >>> 8).toUInt8, h.Header.Version.toUInt8] ++
        ([c] ++ (h.Header.DestConnectionID ++ (h.Header.SrcConnectionID ++
          (h.Header.OrigDestConnectionID ++ h.Header.Token)))))) := by
  unfold ExtendedHeader.writeLongHeader
  simp only [if_pos hr]
  rw [ho, lift_ok_bind, pure_bind, hc, lift_ok_bind]
  exact (WriteByte_emits _).bind ((Utils.Write_emits _).bind ((WriteByte_emits _).bind
    ((Utils.Write_emits _).bind ((Utils.Write_emits _).bind
      ((Utils.Write_emits _).bind (Utils.Write_emits _))))))

theorem writeShortHeader_emits {h : ExtendedHeader} {lpn : List UInt8}
    (hpn : Emits h.writePacketNumber lpn) :
    Emits h.writeShortHeader
      ([(0x40 : UInt8) ||| (h.PacketNumberLen - 1) ||| UInt8.ofInt (h.KeyPhase * 4)] ++
        (h.Header.DestConnectionID ++ lpn)) :=
  (WriteByte_emits _).bind ((Utils.Write_emits _).bind hpn)

/-- The bytes of a long header other than a Retry packet's, up to the packet number, read back
by `parseHeaderImpl`, given what the first byte, the version and the length byte say. -/
theorem parseHeaderImpl_long {b0 c : UInt8} {v : UInt32} {d s lT tok lL : List UInt8}
    {t : PacketType} {L : Nat} (n : Nat) (hlong : b0 &&& 0x80 > 0) (hfixed : b0 &&& (0x40 : UInt8) ≠ 0)
    (ht : longHeaderType b0 .PacketTypeNone = t) (hr : t ≠ .PacketTypeRetry) (hv0 : v ≠ 0)
    (hsup : IsSupportedVersion Protocol.SupportedVersions v = true)
    (hc : decodeConnIDLen c = (d.length, s.length))
    (hT : Decodes ReadVarInt lT tok.length) (hL : Decodes ReadVarInt lL L) :
    Decodes (parseHeaderImpl n)
      ([b0] ++ ([(v >>> 24).toUInt8, (v >>> 16).toUInt8, (v >>> 8).toUInt8, v.toUInt8] ++
        ([c] ++ (d ++ (s ++ ((if t = .PacketTypeInitial then lT ++ tok else []) ++ lL))))))
      { typeByte := b0, IsLongHeader := true, Version := v, DestConnectionID := d,
        SrcConnectionID := s, «Type» := t, Token := if t = .PacketTypeInitial then tok else [],
        Length := UInt64.ofNat L } := by
  unfold parseHeaderImpl
  refine (ReadByte_decodes b0).bind ?_
  simp only [hlong, decide_true, Bool.not_true, Bool.false_eq_true, if_false]
  unfold Header.parseLongHeader
  refine (ReadUint32_decodes v).bind ?_
  have hvn : ¬(Header.IsVersionNegotiation { Version := v, IsLongHeader := true, typeByte := b0 } =
      false ∧ b0 &&& (0x40 : UInt8) = 0) := fun h => hfixed h.2
  dsimp only
  rw [if_neg hvn]
  refine (ReadByte_decodes c).bind ?_
  rw [hc]
  refine (ReadConnectionID_decodes d).bind ((ReadConnectionID_decodes s).bind ?_)
  have hsup' : ¬(!IsSupportedVersion Protocol.SupportedVersions v) = true := by simp [hsup]
  rw [if_neg hv0, if_neg hsup', ht, if_neg hr]
  by_cases hi : t = .PacketTypeInitial
  · rw [if_pos hi, if_pos hi, if_pos hi, List.append_assoc]
    refine hT.bind (Decodes.length_guard _ (by simp) ((ReadFull_decodes tok).bind ?_))
    rw [pure_bind]
    exact hL.bind_pure _
  · rw [if_neg hi, if_neg hi, if_neg hi, List.nil_append, pure_bind]
    exact hL.bind_pure _

/-- The bytes of a Retry packet's header, read back by `parseHeaderImpl` to the end: its token is
the rest of the packet. -/
theorem parseHeaderImpl_retry {b0 c : UInt8} {v : UInt32} {d s orig : List UInt8} (n : Nat)
    (tok : List UInt8)
    (hlong : b0 &&& 0x80 > 0) (hfixed : b0 &&& (0x40 : UInt8) ≠ 0)
    (ht : longHeaderType b0 .PacketTypeNone = .PacketTypeRetry) (hv0 : v ≠ 0)
    (hsup : IsSupportedVersion Protocol.SupportedVersions v = true)
    (hc : decodeConnIDLen c = (d.length, s.length))
    (hod : decodeSingleConnIDLen (b0 &&& 0xf) = orig.length) :
    DecodesAll (parseHeaderImpl n)
      ([b0] ++ ([(v >>> 24).toUInt8, (v >>> 16).toUInt8, (v >>> 8).toUInt8, v.toUInt8] ++
        ([c] ++ (d ++ (s ++ (orig ++ tok))))))
      { typeByte := b0, IsLongHeader := true, Version := v, DestConnectionID := d,
        SrcConnectionID := s, «Type» := .PacketTypeRetry, OrigDestConnectionID := orig,
        Token := tok } := by
  unfold parseHeaderImpl
  refine (ReadByte_decodes b0).bind_all ?_
  simp only [hlong, decide_true, Bool.not_true, Bool.false_eq_true, if_false]
  unfold Header.parseLongHeader
  refine (ReadUint32_decodes v).bind_all ?_
  have hvn : ¬(Header.IsVersionNegotiation { Version := v, IsLongHeader := true, typeByte := b0 } =
      false ∧ b0 &&& (0x40 : UInt8) = 0) := fun h => hfixed h.2
  dsimp only
  rw [if_neg hvn]
  refine (ReadByte_decodes c).bind_all ?_
  rw [hc]
  refine (ReadConnectionID_decodes d).bind_all ((ReadConnectionID_decodes s).bind_all ?_)
  have hsup' : ¬(!IsSupportedVersion Protocol.SupportedVersions v) = true := by simp [hsup]
  rw [if_neg hv0, if_neg hsup', ht, if_pos rfl, hod]
  exact (ReadConnectionID_decodes orig).bind_all (readRest_decodesAll rfl)

/-- The bytes of a short header up to the packet number, read back by `parseHeaderImpl` when the
reader knows the length of the destination connection ID. -/
theorem parseHeaderImpl_short {b0 : UInt8} {d : List UInt8} (hshort : ¬(b0 &&& 0x80 > 0))
    (hfixed : b0 &&& (0x40 : UInt8) ≠ 0) :
    Decodes (parseHeaderImpl d.length) ([b0] ++ d) { typeByte := b0, DestConnectionID := d } := by
  unfold parseHeaderImpl
  refine (ReadByte_decodes b0).bind ?_
  simp only [hshort, decide_false, Bool.not_false, if_true]
  rw [if_neg hfixed]
  exact (ReadConnectionID_decodes d).bind_pure _

theorem ParseHeader_of_run {n : Nat} {l r : List UInt8} {H : Header}
    (h : (parseHeaderImpl n).run l = .ok (H, r)) :
    (ParseHeader n).run l = .ok ({ H with parsedLen := UInt64.ofNat (l.length - r.length) }, r) := by
  unfold ParseHeader
  simp only [StateT.run_bind, StateT.run_get, pure_bind]
  rw [h]
  rfl

/-! ### Every header takes at least its first byte

That is what makes the loop of `parsePacket` go on. -/

theorem readVersions_reads (fuel : Nat) : Reads (fun _ => True) (readVersions fuel) := by
  induction fuel with
  | zero => exact .pure trivial
  | succ fuel ih =>
    unfold readVersions
    refine Reads.get.bind fun _ _ => .ite (.pure trivial) ?_
    exact (ReadUint32_reads.tryCatch fun _ => .throw _).bind fun _ _ =>
      ih.bind fun _ _ => .pure trivial

theorem Header.parseVersionNegotiationPacket_reads (h : Header) :
    Reads (fun H => H.Length = h.Length) h.parseVersionNegotiationPacket := by
  unfold Header.parseVersionNegotiationPacket
  exact Reads.get.bind fun _ _ => .ite (.throw _)
    (Reads.get.bind fun _ _ => (readVersions_reads _).bind fun _ _ => .pure rfl)

/-- The length of the rest of the packet is read only for a version we support and a type other
than Retry; every other long header keeps the `Length` it had. -/
theorem Header.parseLongHeader_reads (h : Header) :
    Reads (fun H => H.Length = h.Length ∨ H.Length.toNat < 2 ^ 62) h.parseLongHeader := by
  unfold Header.parseLongHeader
  dsimp only
  refine ReadUint32_reads.bind fun v _ => .ite (.throw _) ?_
  refine ReadByte_reads.bind fun c _ => (ReadConnectionID_reads _).bind fun dcid _ =>
    (ReadConnectionID_reads _).bind fun scid _ => ?_
  refine .ite ((Header.parseVersionNegotiationPacket_reads _).mono fun _ => .inl)
    (.ite (.pure (.inl rfl)) (.ite ?_ ?_))
  · exact (ReadConnectionID_reads _).bind fun _ _ => Reads.get.bind fun _ _ =>
      (ReadFull_reads _).bind fun _ _ => .pure (.inl rfl)
  · have hlen : ∀ H : Header, Reads (fun H' => H'.Length = h.Length ∨ H'.Length.toNat < 2 ^ 62)
        (ReadVarInt >>= fun pl => pure { H with Length := UInt64.ofNat pl }) := by
      intro H
      refine ReadVarInt_reads.bind fun pl hpl => .pure (.inr ?_)
      rw [UInt64.toNat_ofNat', Nat.mod_eq_of_lt (by omega)]
      exact hpl
    refine .ite ?_ ((Reads.pure (P := fun _ => True) trivial).bind fun H _ => hlen H)
    exact ReadVarInt_reads.bind fun _ _ => Reads.get.bind fun _ _ => .ite (.throw _)
      ((ReadFull_reads _).bind fun _ _ =>
        (Reads.pure (P := fun _ => True) trivial).bind fun H _ => hlen H)

theorem Header.parseShortHeader_reads (h : Header) (n : Nat) :
    Reads (fun H => H.Length = h.Length) (h.parseShortHeader n) :=
  (ReadConnectionID_reads n).bind fun _ _ => .pure rfl

/-- `parseHeaderImpl` reads the first byte and then only consumes; it starts from a `Length` of
zero, which only the varint of a long header replaces. -/
theorem parseHeaderImpl_shrinks {n : Nat} {l r : List UInt8} {H : Header}
    (h : (parseHeaderImpl n).run l = .ok (H, r)) :
    r.length < l.length ∧ H.Length.toNat < 2 ^ 62 := by
  unfold parseHeaderImpl at h
  refine Reads.shrinks_bind (Q := fun H : Header => H.Length.toNat < 2 ^ 62) ReadByte_shrinks
    (fun b => ?_) h
  dsimp only
  refine .ite (.ite (.throw _) ((Header.parseShortHeader_reads _ _).mono ?_))
    ((Header.parseLongHeader_reads _).mono ?_)
  · intro H hH
    rw [hH]
    exact show (0 : UInt64).toNat < 2 ^ 62 by decide
  · rintro H (hH | hH)
    · rw [hH]
      exact show (0 : UInt64).toNat < 2 ^ 62 by decide
    · exact hH

/-- A header parsed from fewer than `2^64` bytes records that it took between one of them and
all of them, and the length it gives for the rest of its packet is below `2^62`. -/
theorem ParseHeader_lengths {n : Nat} {l r : List UInt8} {H : Header} (hl : l.length < 2 ^ 64)
    (h : (ParseHeader n).run l = .ok (H, r)) :
    1 ≤ H.parsedLen.toNat ∧ H.parsedLen.toNat ≤ l.length ∧ H.Length.toNat < 2 ^ 62 := by
  cases hi : (parseHeaderImpl n).run l with
  | error e =>
    unfold ParseHeader at h
    simp only [StateT.run_bind, StateT.run_get, pure_bind, hi] at h
    cases h
  | ok p =>
    rw [ParseHeader_of_run hi] at h
    cases h
    obtain ⟨hlt, hL⟩ := parseHeaderImpl_shrinks hi
    refine ⟨?_, ?_, hL⟩ <;> rw [UInt64.toNat_ofNat', Nat.mod_eq_of_lt (by omega)] <;> omega

/-- `ParseExtended` reads the first byte again, skips the rest of what `ParseHeader` read, and
reads the packet number whose length the first byte gives. -/
theorem ParseExtended_decodes {H : Header} {b0 : UInt8} {hdr pnb : List UInt8} {pn : UInt64}
    (hlen : H.parsedLen.toNat = hdr.length + 1)
    (hbits : if H.IsLongHeader then b0 &&& 0xc = 0 else b0 &&& 0x18 = 0)
    (hpn : Decodes (ReadUintN ((b0 &&& 0x3) + 1)) pnb pn) :
    Decodes H.ParseExtended (b0 :: (hdr ++ pnb))
      { Header := H, typeByte := b0, PacketNumberLen := (b0 &&& 0x3) + 1, PacketNumber := pn,
        KeyPhase := if H.IsLongHeader then 0 else ((b0 &&& 0x4).toNat : Int) >>> (2 : Nat) } := by
  intro rest
  unfold Header.ParseExtended ExtendedHeader.parse
  rw [List.cons_append, StateT.run_bind, ReadByte_run_cons, Except.ok_bind]
  dsimp only [Header.toExtendedHeader]
  have hdrop : List.drop (H.parsedLen.toNat - 1) (hdr ++ pnb ++ rest) = pnb ++ rest := by
    rw [hlen, Nat.add_sub_cancel, List.append_assoc, List.drop_left]
  rw [StateT.run_bind, StateT.run_modify, pure_bind, hdrop]
  cases hl : H.IsLongHeader
  · rw [if_neg Bool.false_ne_true]
    rw [hl, if_neg Bool.false_ne_true] at hbits
    unfold ExtendedHeader.parseShortHeader ExtendedHeader.readPacketNumber
    rw [if_neg (by simpa using hbits)]
    simp only [StateT.run_bind, hpn rest]
    rfl
  · rw [if_pos rfl]
    rw [hl, if_pos rfl] at hbits
    unfold ExtendedHeader.parseLongHeader ExtendedHeader.readPacketNumber
    rw [if_neg (by simpa using hbits)]
    simp only [StateT.run_bind, hpn rest]
    rfl
theorem GetLength_long {h : ExtendedHeader} (hlong : h.Header.IsLongHeader = true) {Ll Lt : UInt64}
    (hL : VarIntLen h.Header.Length.toNat = some Ll) (hT : VarIntLen h.Header.Token.length = some Lt)
    (hbound : 6 + h.Header.DestConnectionID.length + h.Header.SrcConnectionID.length +
      h.PacketNumberLen.toNat + Ll.toNat + (Lt.toNat + h.Header.Token.length) < 2 ^ 64) :
    h.GetLength = some (UInt64.ofNat (6 + h.Header.DestConnectionID.length +
      h.Header.SrcConnectionID.length + h.PacketNumberLen.toNat + Ll.toNat +
      (if h.Header.«Type» = .PacketTypeInitial then Lt.toNat + h.Header.Token.length else 0))) := by
  unfold ExtendedHeader.GetLength
  rw [if_pos hlong]
  rw [hL]
  simp only [Option.bind_eq_bind, Option.bind_some, Option.pure_def]
  have hd : (UInt64.ofNat (h.Header.DestConnectionID.length + h.Header.SrcConnectionID.length)).toNat =
      h.Header.DestConnectionID.length + h.Header.SrcConnectionID.length := by
    rw [UInt64.toNat_ofNat']
    omega
  have hp := h.PacketNumberLen.toNat_lt
  by_cases hi : h.Header.«Type» = .PacketTypeInitial
  · rw [if_pos hi, if_pos hi, hT, Option.bind_some, Option.some.injEq]
    apply UInt64.toNat_inj.mp
    simp only [UInt64.toNat_add, UInt64.toNat_ofNat', hd, UInt8.toNat_toUInt64, UInt64.reduceToNat]
    omega
  · rw [if_neg hi, if_neg hi, Option.some.injEq]
    apply UInt64.toNat_inj.mp
    simp only [UInt64.toNat_add, UInt64.toNat_ofNat', hd, UInt8.toNat_toUInt64, UInt64.reduceToNat]
    omega

/-- `GetLength` of a short header: the first byte, the destination connection ID and the packet
number. -/
theorem GetLength_short {h : ExtendedHeader} (hshort : h.Header.IsLongHeader = false) :
    h.GetLength = some (UInt64.ofNat (1 + h.Header.DestConnectionID.length + h.PacketNumberLen.toNat)) := by
  unfold ExtendedHeader.GetLength
  rw [if_neg (by rw [hshort]; exact Bool.false_ne_true)]
  have hp := h.PacketNumberLen.toNat_lt
  simp only [Option.pure_def, Option.some.injEq]
  apply UInt64.toNat_inj.mp
  simp only [UInt64.toNat_add, UInt64.toNat_ofNat', UInt8.toNat_toUInt64]
  omega

/-- The fields of `h` that its header form carries on the wire: a short header only its
destination connection ID; a long header its version, its connection IDs and its type, with the
token of an Initial or Retry packet, the original destination connection ID of a Retry packet,
and the length of any other. -/
def ExtendedHeader.carried (h : ExtendedHeader) : Wire.Header :=
  if h.Header.IsLongHeader then
    if h.Header.«Type» = .PacketTypeRetry then
      { IsLongHeader := true, Version := h.Header.Version,
        DestConnectionID := h.Header.DestConnectionID, SrcConnectionID := h.Header.SrcConnectionID,
        «Type» := .PacketTypeRetry, Token := h.Header.Token,
        OrigDestConnectionID := h.Header.OrigDestConnectionID }
    else
      { IsLongHeader := true, Version := h.Header.Version,
        DestConnectionID := h.Header.DestConnectionID, SrcConnectionID := h.Header.SrcConnectionID,
        «Type» := h.Header.«Type»,
        Token := if h.Header.«Type» = .PacketTypeInitial then h.Header.Token else [],
        Length := h.Header.Length }
  else { DestConnectionID := h.Header.DestConnectionID }

/-- The headers `Write` accepts and the parser reads back: connection IDs whose lengths the
header can encode, a packet number of one to four bytes that fits its length, a key phase bit,
and for a long header a supported version, a packet type, and a length and a token whose lengths
varints can carry. -/
structure ExtendedHeader.Valid (h : ExtendedHeader) : Prop where
  dest : ConnIDLenValid h.Header.DestConnectionID
  src : ConnIDLenValid h.Header.SrcConnectionID
  origDest : ConnIDLenValid h.Header.OrigDestConnectionID
  pnLen : 1 ≤ h.PacketNumberLen.toNat ∧ h.PacketNumberLen.toNat ≤ 4
  pn : h.PacketNumber.toNat < 2 ^ (8 * h.PacketNumberLen.toNat)
  keyPhase : h.KeyPhase = 0 ∨ h.KeyPhase = 1
  version : h.Header.IsLongHeader = true → h.Header.Version ∈ Protocol.SupportedVersions
  type : h.Header.IsLongHeader = true → h.Header.«Type» ≠ .PacketTypeNone
  length : h.Header.IsLongHeader = true → h.Header.Length.toNat < 2 ^ 62
  token : h.Header.IsLongHeader = true → h.Header.Token.length < 2 ^ 62

/-- What the receiver reads back from the bytes `l` written for `h`: `ParseHeader` returns exactly
the fields the header form carries, besides the first byte and `parsedLen`; unless `h` is a Retry
packet, `ParseExtended` reads all of `l` and returns the packet number, its length and, for a
short header, the key phase, `parsedLen` and the packet number length add up to `l`, and so does
`GetLength`. -/
def ExtendedHeader.ReadBack (h : ExtendedHeader) (l : List UInt8) : Prop :=
  ∃ H rest, (ParseHeader h.Header.DestConnectionID.length).run l = .ok (H, rest) ∧
    { H with typeByte := 0, parsedLen := 0 } = h.carried ∧
    (h.Header.IsLongHeader = false ∨ h.Header.«Type» ≠ .PacketTypeRetry →
      ∃ E, H.ParseExtended.run l = .ok (E, []) ∧ E.PacketNumberLen = h.PacketNumberLen ∧
        E.PacketNumber = h.PacketNumber ∧
        E.KeyPhase = (if h.Header.IsLongHeader then 0 else h.KeyPhase) ∧
        H.parsedLen.toNat + h.PacketNumberLen.toNat = l.length ∧
        h.GetLength = some (UInt64.ofNat l.length))

theorem ExtendedHeader.Valid.supported {h : ExtendedHeader} (hv : h.Valid) (hlong : h.Header.IsLongHeader = true) :
    h.Header.Version ≠ 0 ∧ IsSupportedVersion Protocol.SupportedVersions h.Header.Version = true := by
  have hver : h.Header.Version = VersionTLS := by
    simpa [Protocol.SupportedVersions] using hv.version hlong
  rw [hver]
  exact ⟨by decide, by decide⟩

theorem pnLen_pred {len : UInt8} (hl : 1 ≤ len.toNat ∧ len.toNat ≤ 4) :
    (len - 1).toNat < 4 ∧ (len - 1) + 1 = len := by
  have h1 : (len - 1).toNat = len.toNat - 1 := by
    rw [UInt8.toNat_sub, show (1 : UInt8).toNat = 1 from rfl]
    omega
  refine ⟨by omega, UInt8.toNat_inj.mp ?_⟩
  rw [UInt8.toNat_add, h1, show (1 : UInt8).toNat = 1 from rfl]
  omega

theorem ReadBack_long {h : ExtendedHeader} (hv : h.Valid) (hlong : h.Header.IsLongHeader = true)
    (hr : h.Header.«Type» ≠ .PacketTypeRetry) : ∃ l, Emits h.Write l ∧ h.ReadBack l := by
  obtain ⟨c, hce, hcd⟩ := encodeConnIDLen_spec hv.dest hv.src
  obtain ⟨LT, hLT, -, lT, hTe, hTl, hTd⟩ := varInt_roundTrip (hv.token hlong)
  obtain ⟨LL, hLL, -, lL, hLe, hLl, hLd⟩ := varInt_roundTrip (hv.length hlong)
  obtain ⟨lpn, hpe, hpl, hpd⟩ := writePacketNumber_roundTrip hv.pnLen hv.pn
  obtain ⟨hp4, hpred⟩ := pnLen_pred hv.pnLen
  obtain ⟨h80, h40, htype, -, hpn⟩ := longFirstByte (hv.type hlong) (p := h.PacketNumberLen - 1) (by omega)
  obtain ⟨hc0, hc3⟩ := hpn hp4
  obtain ⟨hv0, hsup⟩ := hv.supported hlong
  have hdec := parseHeaderImpl_long h.Header.DestConnectionID.length h80 h40 htype hr hv0 hsup hcd hTd hLd
  generalize hb0 : (0xc0 : UInt8) ||| packetTypeBits h.Header.«Type» <<< 4 ||| (h.PacketNumberLen - 1) = b0 at *
  generalize htok : (if h.Header.«Type» = .PacketTypeInitial then lT ++ h.Header.Token else []) = tokPart at *
  have hemits := writeLongHeader_emits hr hce hTe hLe hpe
  rw [hb0, htok] at hemits
  set X : List UInt8 := [(h.Header.Version >>> 24).toUInt8,
    (h.Header.Version >>> 16).toUInt8, (h.Header.Version >>> 8).toUInt8, h.Header.Version.toUInt8] ++
    ([c] ++ (h.Header.DestConnectionID ++ (h.Header.SrcConnectionID ++ (tokPart ++ lL)))) with hX
  have hrun := ParseHeader_of_run (hdec lpn)
  rw [List.singleton_append, List.cons_append] at hrun
  clear_value X
  have htokLen : tokPart.length =
      if h.Header.«Type» = .PacketTypeInitial then LT.toNat + h.Header.Token.length else 0 := by
    rw [← htok]
    split
    · rw [List.length_append, hTl]
    · rfl
  have hXlen : X.length = 5 + h.Header.DestConnectionID.length + h.Header.SrcConnectionID.length +
      tokPart.length + LL.toNat := by
    simp only [hX, List.length_append, List.length_cons, List.length_nil, hLl]
    omega
  have hd18 : h.Header.DestConnectionID.length ≤ 18 := by have := hv.dest; unfold ConnIDLenValid at this; omega
  have hs18 : h.Header.SrcConnectionID.length ≤ 18 := by have := hv.src; unfold ConnIDLenValid at this; omega
  have htok62 := hv.token hlong
  have hLL8 : LL.toNat ≤ 8 := VarIntLen_le hLL
  have hLT8 : LT.toNat ≤ 8 := VarIntLen_le hLT
  have hXbound : X.length + 1 < 2 ^ 64 := by
    rw [hXlen, htokLen]
    split <;> omega
  obtain ⟨H, hHrun, hHlen, hHlong, hHcarried⟩ : ∃ H : Header,
      (ParseHeader h.Header.DestConnectionID.length).run (b0 :: (X ++ lpn)) = .ok (H, lpn) ∧
        H.parsedLen.toNat = X.length + 1 ∧ H.IsLongHeader = true ∧
        { H with typeByte := 0, parsedLen := 0 } = h.carried := by
    refine ⟨_, hrun, ?_, rfl, ?_⟩
    · rw [UInt64.toNat_ofNat', List.length_cons, List.length_append]
      omega
    · unfold ExtendedHeader.carried
      rw [if_pos hlong, if_neg hr, UInt64.ofNat_toNat]
  refine ⟨b0 :: (X ++ lpn), ?_, H, lpn, hHrun, hHcarried, fun _ => ?_⟩
  · rw [ExtendedHeader.Write, if_pos hlong, hX]
    simpa only [List.append_assoc, List.singleton_append, List.cons_append, List.nil_append]
      using hemits
  have hpn' : Decodes (ReadUintN ((b0 &&& 0x3) + 1)) lpn h.PacketNumber := by
    rw [hc3, hpred]
    exact hpd
  have hE := ParseExtended_decodes hHlen (by rw [hHlong, if_pos rfl]; exact hc0) hpn' []
  rw [List.append_nil] at hE
  refine ⟨_, hE, by rw [hc3, hpred], rfl, by rw [hHlong, if_pos rfl, if_pos hlong], ?_, ?_⟩
  · rw [hHlen, List.length_cons, List.length_append, hpl]
    omega
  · have hpl4 := hv.pnLen
    rw [GetLength_long hlong hLL hLT (by omega), List.length_cons, List.length_append, hpl, hXlen,
      htokLen]
    congr 2
    split <;> omega

theorem ReadBack_retry {h : ExtendedHeader} (hv : h.Valid) (hlong : h.Header.IsLongHeader = true)
    (hr : h.Header.«Type» = .PacketTypeRetry) : ∃ l, Emits h.Write l ∧ h.ReadBack l := by
  obtain ⟨c, hce, hcd⟩ := encodeConnIDLen_spec hv.dest hv.src
  obtain ⟨o, hoe, ho16, hod⟩ := encodeSingleConnIDLen_spec hv.origDest
  obtain ⟨h80, h40, htype, hf, -⟩ := longFirstByte (hv.type hlong) ho16
  obtain ⟨hv0, hsup⟩ := hv.supported hlong
  have hemits := writeLongHeader_emits_retry hr hoe hce
  generalize hb0 : (0xc0 : UInt8) ||| packetTypeBits h.Header.«Type» <<< 4 ||| o = b0 at *
  rw [hr] at htype
  have hdec := parseHeaderImpl_retry h.Header.DestConnectionID.length h.Header.Token h80 h40
    htype hv0 hsup hcd (by rw [hf, hod])
  refine ⟨_, by rw [ExtendedHeader.Write, if_pos hlong]; exact hemits, _, [],
    ParseHeader_of_run hdec, ?_, fun hnr => ?_⟩
  · unfold ExtendedHeader.carried
    rw [if_pos hlong, if_pos hr]
  · rw [hlong, hr] at hnr
    simp at hnr

theorem ReadBack_short {h : ExtendedHeader} (hv : h.Valid) (hshort : h.Header.IsLongHeader = false) :
    ∃ l, Emits h.Write l ∧ h.ReadBack l := by
  obtain ⟨lpn, hpe, hpl, hpd⟩ := writePacketNumber_roundTrip hv.pnLen hv.pn
  obtain ⟨hp4, hpred⟩ := pnLen_pred hv.pnLen
  obtain ⟨h80, h40, h18, hkey, hc3⟩ := shortFirstByte hp4 hv.keyPhase
  have hemits := writeShortHeader_emits hpe
  generalize hb0 : (0x40 : UInt8) ||| (h.PacketNumberLen - 1) ||| UInt8.ofInt (h.KeyPhase * 4) = b0 at *
  have hrun := ParseHeader_of_run (parseHeaderImpl_short (d := h.Header.DestConnectionID) h80 h40 lpn)
  rw [List.singleton_append, List.cons_append] at hrun
  have hnotlong : ¬h.Header.IsLongHeader = true := by rw [hshort]; exact Bool.false_ne_true
  obtain ⟨H, hHrun, hHlen, hHlong, hHcarried⟩ : ∃ H : Header,
      (ParseHeader h.Header.DestConnectionID.length).run (b0 :: (h.Header.DestConnectionID ++ lpn)) =
        .ok (H, lpn) ∧ H.parsedLen.toNat = h.Header.DestConnectionID.length + 1 ∧
        H.IsLongHeader = false ∧ { H with typeByte := 0, parsedLen := 0 } = h.carried := by
    have hd18 : h.Header.DestConnectionID.length ≤ 18 := by
      have := hv.dest
      unfold ConnIDLenValid at this
      omega
    refine ⟨_, hrun, ?_, rfl, ?_⟩
    · rw [UInt64.toNat_ofNat', List.length_cons, List.length_append]
      omega
    · unfold ExtendedHeader.carried
      rw [if_neg hnotlong]
  refine ⟨b0 :: (h.Header.DestConnectionID ++ lpn), ?_, H, lpn, hHrun, hHcarried, fun _ => ?_⟩
  · rw [ExtendedHeader.Write, if_neg hnotlong]
    exact hemits
  have hpn' : Decodes (ReadUintN ((b0 &&& 0x3) + 1)) lpn h.PacketNumber := by
    rw [hc3, hpred]
    exact hpd
  have hE := ParseExtended_decodes hHlen (by rw [hHlong, if_neg Bool.false_ne_true]; exact h18) hpn' []
  rw [List.append_nil] at hE
  refine ⟨_, hE, by rw [hc3, hpred], rfl, ?_, ?_, ?_⟩
  · rw [hHlong, if_neg Bool.false_ne_true, if_neg hnotlong, hkey]
  · rw [hHlen, List.length_cons, List.length_append, hpl]
    omega
  · rw [GetLength_short hshort, List.length_cons, List.length_append, hpl]
    congr 2
    omega

/-- Every header the writer accepts is read back: `Write` succeeds, and the bytes it writes give
back the fields the header form carries (`ReadBack`). -/
theorem ExtendedHeader.ParseHeader_Write {h : ExtendedHeader} (hv : h.Valid) :
    ∃ l, Emits h.Write l ∧ h.ReadBack l := by
  cases hl : h.Header.IsLongHeader
  · exact ReadBack_short hv hl
  · by_cases hr : h.Header.«Type» = .PacketTypeRetry
    · exact ReadBack_retry hv hl hr
    · exact ReadBack_long hv hl hr

/-- An Initial packet with a token, read back. -/
theorem ParseHeader_Write_initial :
    let h : ExtendedHeader :=
      { Header :=
          { IsLongHeader := true, «Type» := .PacketTypeInitial, Version := VersionTLS,
            DestConnectionID := [1, 2, 3, 4], SrcConnectionID := [5, 6, 7, 8, 9],
            Token := [7, 7], Length := 300 },
        PacketNumberLen := 2, PacketNumber := 0x1234 }
    h.Valid ∧ ∃ l, Emits h.Write l ∧ h.ReadBack l :=
  have hv : ExtendedHeader.Valid
      { Header :=
          { IsLongHeader := true, «Type» := .PacketTypeInitial, Version := VersionTLS,
            DestConnectionID := [1, 2, 3, 4], SrcConnectionID := [5, 6, 7, 8, 9],
            Token := [7, 7], Length := 300 },
        PacketNumberLen := 2, PacketNumber := 0x1234 } :=
    ⟨by decide, by decide, by decide, by decide, by decide, by decide, fun _ => by decide,
      fun _ => by decide, fun _ => by decide, fun _ => by decide⟩
  ⟨hv, ExtendedHeader.ParseHeader_Write hv⟩

/-- A long header carries no key phase: a Handshake packet written with key phase 1 is parsed
with key phase 0. -/
theorem ParseExtended_long_KeyPhase :
    let h : ExtendedHeader :=
      { Header :=
          { IsLongHeader := true, «Type» := .PacketTypeHandshake, Version := VersionTLS,
            Length := 1 },
        PacketNumberLen := 1, KeyPhase := 1 }
    let l : List UInt8 := [0xe0, 0x51, 0x47, 0x4f, 0xff, 0x00, 0x01, 0x00]
    let H : Header :=
      { IsLongHeader := true, «Type» := .PacketTypeHandshake, Version := VersionTLS,
        Length := 1, typeByte := 0xe0, parsedLen := 7 }
    h.Valid ∧ h.Write.run [] = .ok (⟨⟩, l) ∧ (ParseHeader 0).run l = .ok (H, [0x00]) ∧
      H.ParseExtended.run l =
        .ok ({ Header := H, typeByte := 0xe0, PacketNumberLen := 1, KeyPhase := 0 }, []) :=
  ⟨⟨by decide, by decide, by decide, by decide, by decide, Or.inr rfl, fun _ => by decide,
      fun _ => by decide, fun _ => by decide, fun _ => by decide⟩, by decide, by decide, by decide⟩

end QuicGo.Wire
