import QuicGo.Wire.Header

/-! The Version Negotiation packet (`internal/wire/version_negotiation.go`).
`ComposeVersionNegotiation` writes a long header with version 0, a random first byte with the
long-header bit set, the two connection IDs, and the versions greased by `GetGreasedVersions`. -/
namespace QuicGo.Wire
open QuicGo.Utils QuicGo.Lib QuicGo.Protocol QuicGo.Utils.BigEndian

/-- `ComposeVersionNegotiation`: `r` is the random byte of the first byte, `posByte` and `b` are
the random bytes of `GetGreasedVersions`. The capacity the source gives the buffer is not
modelled. -/
def ComposeVersionNegotiation (destConnID srcConnID : List UInt8) (versions : List VersionNumber)
    (r posByte : UInt8) (b : UInt32) : Except Error (List UInt8) := do
  let greasedVersions := GetGreasedVersions versions posByte b
  let ((), buf) ← (do
    WriteByte (r ||| 0x80)
    WriteUint32 0
    let connIDLen ← encodeConnIDLen destConnID srcConnID
    WriteByte connIDLen
    Write destConnID
    Write srcConnID
    greasedVersions.forM WriteUint32 : Writer).run []
  pure buf

/-- The four bytes of a version, most significant first, as `WriteUint32` writes them. -/
def versionBytes (v : VersionNumber) : List UInt8 :=
  [(v >>> 24).toUInt8, (v >>> 16).toUInt8, (v >>> 8).toUInt8, v.toUInt8]

/-! ### Writing -/

/-- The packet `ComposeVersionNegotiation` writes for connection IDs whose lengths it encodes in
the byte `c`. -/
theorem ComposeVersionNegotiation_eq {d s : List UInt8} {c : UInt8}
    (hc : encodeConnIDLen d s = .ok c) (vs : List VersionNumber) (r posByte : UInt8)
    (b : UInt32) :
    ComposeVersionNegotiation d s vs r posByte b = .ok ([r ||| 0x80] ++ (versionBytes 0 ++
      ([c] ++ (d ++ (s ++ (GetGreasedVersions vs posByte b).flatMap versionBytes))))) := by
  have hrun : (do
      WriteByte (r ||| 0x80)
      WriteUint32 0
      WriteByte c
      Write d
      Write s
      (GetGreasedVersions vs posByte b).forM WriteUint32 : Writer).run [] =
      .ok (⟨⟩, [] ++ ([r ||| 0x80] ++ (versionBytes 0 ++ ([c] ++ (d ++ (s ++
        (GetGreasedVersions vs posByte b).flatMap versionBytes)))))) :=
    (WriteByte_emits _).bind ((Write_emits (versionBytes 0)).bind ((WriteByte_emits c).bind
      ((Write_emits d).bind ((Write_emits s).bind
        (Emits.forM (g := versionBytes) (fun _ => Write_emits _) _))))) []
  unfold ComposeVersionNegotiation
  simp only [hc, lift_ok_bind]
  rw [hrun]
  rfl

/-! ### Reading -/

/-- Four bytes for each version, read to the end: the loop reads them all back, with fuel for
each. -/
theorem readVersions_decodesAll :
    ∀ (vs : List VersionNumber) (fuel : Nat), vs.length ≤ fuel →
      DecodesAll (readVersions fuel) (vs.flatMap versionBytes) vs
  | [], 0, _ => rfl
  | [], _ + 1, _ => rfl
  | v :: vs, fuel + 1, h => by
    have htail : DecodesAll (do let l ← readVersions fuel; pure (v :: l))
        (vs.flatMap versionBytes) (v :: vs) := by
      have hrest := readVersions_decodesAll vs fuel (by simp at h; omega)
      unfold DecodesAll at hrest ⊢
      rw [StateT.run_bind, hrest]
      rfl
    have hne : (versionBytes v ++ vs.flatMap versionBytes).length ≠ 0 := by simp [versionBytes]
    unfold DecodesAll at htail ⊢
    rw [List.flatMap_cons, readVersions]
    simp only [StateT.run_bind, StateT.run_get, pure_bind]
    rw [if_neg hne]
    exact (Decodes.tryCatch (ReadUint32_decodes v)).bind_all htail

theorem parseVersionNegotiationPacket_decodesAll (h : Header) {vs : List VersionNumber}
    (hvs : vs ≠ []) :
    DecodesAll h.parseVersionNegotiationPacket (vs.flatMap versionBytes)
      { h with SupportedVersions := vs } := by
  have hlen : (vs.flatMap versionBytes).length = 4 * vs.length := by
    simp [versionBytes, List.length_flatMap, Nat.mul_comm]
  have hne : (vs.flatMap versionBytes).length ≠ 0 := by
    rw [hlen]
    exact Nat.mul_ne_zero (by decide) (fun h0 => hvs (List.eq_nil_of_length_eq_zero h0))
  have hread := readVersions_decodesAll vs _ (show vs.length ≤ (vs.flatMap versionBytes).length by
    omega)
  unfold DecodesAll at hread ⊢
  unfold Header.parseVersionNegotiationPacket
  simp only [StateT.run_bind, StateT.run_get, pure_bind]
  rw [if_neg hne]
  simp only [StateT.run_bind, StateT.run_get, pure_bind, hread]
  rfl

/-- A long header with version 0 is read as a Version Negotiation packet to its end, whether
the fixed bit of its first byte is set or not. -/
theorem parseHeaderImpl_versionNegotiation {b0 c : UInt8} {d s : List UInt8}
    {vs : List VersionNumber} (n : Nat) (hlong : b0 &&& 0x80 > 0)
    (hc : decodeConnIDLen c = (d.length, s.length)) (hvs : vs ≠ []) :
    DecodesAll (parseHeaderImpl n)
      ([b0] ++ (versionBytes 0 ++ ([c] ++ (d ++ (s ++ vs.flatMap versionBytes)))))
      { typeByte := b0, IsLongHeader := true, DestConnectionID := d, SrcConnectionID := s,
        SupportedVersions := vs } := by
  unfold parseHeaderImpl
  refine (ReadByte_decodes b0).bind_all ?_
  simp only [hlong, decide_true, Bool.not_true, Bool.false_eq_true, if_false]
  unfold Header.parseLongHeader
  refine (ReadUint32_decodes 0).bind_all ?_
  have hvn : ¬(Header.IsVersionNegotiation { Version := 0, IsLongHeader := true, typeByte := b0 } =
      false ∧ b0 &&& (0x40 : UInt8) = 0) := fun h => by
    simp [Header.IsVersionNegotiation] at h
  dsimp only
  rw [if_neg hvn]
  refine (ReadByte_decodes c).bind_all ?_
  rw [hc]
  refine (ReadConnectionID_decodes d).bind_all ((ReadConnectionID_decodes s).bind_all ?_)
  rw [if_pos rfl]
  exact parseVersionNegotiationPacket_decodesAll _ hvs

/-- Whatever the random draws, the Version Negotiation packet for connection IDs of valid
lengths and versions none of which is reserved is read back by `ParseHeader` as a long header
with version 0, the two connection IDs, and a version list from which `StripGreasedVersions`
gives back exactly the versions. -/
theorem ParseHeader_ComposeVersionNegotiation {d s : List UInt8} (hd : ConnIDLenValid d)
    (hs : ConnIDLenValid s) {vs : List VersionNumber}
    (hvs : ∀ v ∈ vs, IsReservedVersion v = false) (r posByte : UInt8) (b : UInt32) (n : Nat) :
    ∃ data h, ComposeVersionNegotiation d s vs r posByte b = .ok data ∧
      (ParseHeader n).run data = .ok (h, []) ∧ h.IsLongHeader = true ∧ h.Version = 0 ∧
      h.DestConnectionID = d ∧ h.SrcConnectionID = s ∧
      StripGreasedVersions h.SupportedVersions = vs := by
  obtain ⟨c, hc, hdc⟩ := encodeConnIDLen_spec hd hs
  have hlong : (r ||| 0x80) &&& 0x80 > 0 := by
    rw [gt_iff_lt, UInt8.lt_iff_toNat_lt, UInt8.toNat_and, UInt8.toNat_or]
    have hall : ∀ m < 256, 0 < (m ||| 128) &&& 128 := by decide +kernel
    exact hall _ r.toNat_lt
  have hne : GetGreasedVersions vs posByte b ≠ [] :=
    List.ne_nil_of_mem (mem_GetGreasedVersions.mpr (.inr rfl))
  have hparse := parseHeaderImpl_versionNegotiation n hlong hdc hne
  exact ⟨_, _, ComposeVersionNegotiation_eq hc vs r posByte b, ParseHeader_of_run hparse,
    rfl, rfl, rfl, rfl, StripGreasedVersions_GetGreasedVersions hvs posByte b⟩

theorem ParseHeader_ComposeVersionNegotiation_empty_ids :
    ConnIDLenValid [] ∧ (∀ v ∈ [VersionTLS], IsReservedVersion v = false) ∧
    ∃ data h, ComposeVersionNegotiation [] [] [VersionTLS] 0 1 0 = .ok data ∧
      (ParseHeader 0).run data = .ok (h, []) ∧ h.IsLongHeader = true ∧ h.Version = 0 ∧
      h.DestConnectionID = [] ∧ h.SrcConnectionID = [] ∧
      StripGreasedVersions h.SupportedVersions = [VersionTLS] :=
  have hvs : ∀ v ∈ [VersionTLS], IsReservedVersion v = false := fun v hv => by
    rw [List.mem_singleton.mp hv]
    rfl
  ⟨by decide, hvs, ParseHeader_ComposeVersionNegotiation (by decide) (by decide) hvs 0 1 0 0⟩

end QuicGo.Wire
