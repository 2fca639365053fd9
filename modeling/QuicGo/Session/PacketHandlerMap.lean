import QuicGo.Wire.Header

/-! Splitting a datagram into its coalesced packets (`packet_handler_map.go`, `buffer_pool.go`).
`parsePacket` parses the header at the front of the datagram. -/
namespace QuicGo
open Utils Lib Wire

/-- `packetBuffer`, with the count of packets that use it; its `Slice` is the datagram, which
`parsePacket` takes as its own argument. -/
structure packetBuffer where
  refCount : Int
  deriving DecidableEq, Repr

namespace packetBuffer

/-- `packetBuffer.Split` -/
def Split (b : packetBuffer) : packetBuffer :=
  { b with refCount := b.refCount + 1 }

/-- `packetBuffer.Release`, with `none` for the panic on a negative count. The check of the
slice's capacity is left out with the slice. -/
def Release (b : packetBuffer) : Option packetBuffer :=
  let b : packetBuffer := { b with refCount := b.refCount - 1 }
  if b.refCount < 0 then none else some b

end packetBuffer

/-- `getPacketBuffer`: a buffer of the pool, used by one packet. -/
def getPacketBuffer : packetBuffer :=
  { refCount := 1 }

/-- `receivedPacket`, with the header and the data of the packet. -/
structure receivedPacket where
  hdr : Header
  data : List UInt8
  deriving DecidableEq, Repr

/-- The errors of `parsePacket`. -/
inductive parsePacketError where
  /-- "error parsing header: %s" -/
  | errorParsingHeader (err : Error)
  /-- "coalesced packet has different destination connection ID: %s, expected %s" -/
  | differentDestConnectionID (got expected : List UInt8)
  /-- "packet length (%d bytes) is smaller than the expected length (%d bytes)" -/
  | packetLengthSmaller (got : Int) (expected : UInt64)
  deriving DecidableEq, Repr

/-- `packetHandlerMap`, with the one field `parsePacket` reads: the length of the connection IDs
of short headers. -/
structure packetHandlerMap where
  connIDLen : Nat

/-- The variables of the loop of `parsePacket`. -/
structure parseState where
  packets : List receivedPacket
  counter : Nat
  lastConnID : List UInt8
  buffer : packetBuffer
  data : List UInt8

namespace packetHandlerMap

/-- One round of the loop of `parsePacket`: the header at the front of `data`, its checks, and
the packet it begins, cut off the front. -/
def parseRound (h : packetHandlerMap) (s : parseState) : Except parsePacketError parseState := do
  let hdr ← match (ParseHeader h.connIDLen).run s.data with
    | .error err => throw (.errorParsingHeader err)
    | .ok (hdr, _) => pure hdr
  if s.counter > 0 ∧ hdr.DestConnectionID ≠ s.lastConnID then
    throw (.differentDestConnectionID hdr.DestConnectionID s.lastConnID)
  let (data, rest) ← if hdr.IsLongHeader then do
      if UInt64.ofNat s.data.length < hdr.parsedLen + hdr.Length then
        throw (.packetLengthSmaller (s.data.length - hdr.parsedLen.toNat) hdr.Length)
      let packetLen := (hdr.parsedLen + hdr.Length).toNat
      pure (s.data.take packetLen, s.data.drop packetLen)
    else pure (s.data, [])
  let buffer := if s.counter > 0 then s.buffer.Split else s.buffer
  pure { packets := s.packets ++ [{ hdr, data }], counter := s.counter + 1,
         lastConnID := hdr.DestConnectionID, buffer, data := rest }

/-- The loop of `parsePacket`, for `fuel` rounds at most: the packets, the error that ended it
if any, and the buffer. It is `none` when the fuel runs out, which the fuel of `parsePacket`, one
round more than there are bytes, never does. -/
def parseLoop (h : packetHandlerMap) :
    Nat → parseState → Option (List receivedPacket × Option parsePacketError × packetBuffer)
  | 0, _ => none
  | fuel + 1, s =>
    if s.data.length > 0 then
      match h.parseRound s with
      | .error err => some (s.packets, some err, s.buffer)
      | .ok s => h.parseLoop fuel s
    else some (s.packets, none, s.buffer)

/-- `packetHandlerMap.parsePacket` -/
def parsePacket (h : packetHandlerMap) (buffer : packetBuffer) (data : List UInt8) :
    Option (List receivedPacket × Option parsePacketError × packetBuffer) :=
  h.parseLoop (data.length + 1) { packets := [], counter := 0, lastConnID := [], buffer, data }

/-- `packetHandlerMap.handlePacket`, up to `handleParsedPackets`: the packets it hands on, and the
buffer, released when there are none. The error is only logged. -/
def handlePacket (h : packetHandlerMap) (buffer : packetBuffer) (data : List UInt8) :
    Option (List receivedPacket × packetBuffer) := do
  let (packets, _, buffer) ← h.parsePacket buffer data
  if packets.length = 0 then
    return ([], ← buffer.Release)
  return (packets, buffer)

/-! ### One round -/

/-- What a round that succeeds has done: it parsed a header, checked its connection ID against
the last one, and cut its packet off the front of the datagram, `ParsedLen + Length` bytes that
must be there for a long header, and all of it for a short one. -/
theorem parseRound_ok {h : packetHandlerMap} {s s' : parseState} (hr : h.parseRound s = .ok s') :
    ∃ hdr r piece rest, (ParseHeader h.connIDLen).run s.data = .ok (hdr, r) ∧
      (0 < s.counter → hdr.DestConnectionID = s.lastConnID) ∧
      ((hdr.IsLongHeader = true ∧ (hdr.parsedLen + hdr.Length).toNat ≤ s.data.length ∧
          piece = s.data.take (hdr.parsedLen + hdr.Length).toNat ∧
          rest = s.data.drop (hdr.parsedLen + hdr.Length).toNat) ∨
        (hdr.IsLongHeader = false ∧ piece = s.data ∧ rest = [])) ∧
      s' = { packets := s.packets ++ [⟨hdr, piece⟩], counter := s.counter + 1,
             lastConnID := hdr.DestConnectionID,
             buffer := if 0 < s.counter then s.buffer.Split else s.buffer, data := rest } := by
  unfold parseRound at hr
  cases hp : (ParseHeader h.connIDLen).run s.data with
  | error e => simp only [hp] at hr; cases hr
  | ok p =>
    obtain ⟨hdr, r⟩ := p
    simp only [hp, pure_bind] at hr
    by_cases hc : s.counter > 0 ∧ hdr.DestConnectionID ≠ s.lastConnID
    · rw [if_pos hc] at hr
      cases hr
    rw [if_neg hc] at hr
    have hid : 0 < s.counter → hdr.DestConnectionID = s.lastConnID :=
      fun h0 => not_not.mp fun hne => hc ⟨h0, hne⟩
    cases hlong : hdr.IsLongHeader
    · simp only [hlong, Bool.false_eq_true, if_false] at hr
      cases hr
      exact ⟨hdr, r, _, _, rfl, hid, .inr ⟨hlong, rfl, rfl⟩, rfl⟩
    · simp only [hlong, if_true] at hr
      by_cases hlt : UInt64.ofNat s.data.length < hdr.parsedLen + hdr.Length
      · rw [if_pos hlt] at hr
        cases hr
      rw [if_neg hlt] at hr
      cases hr
      have hle : (hdr.parsedLen + hdr.Length).toNat ≤ s.data.length := by
        have := UInt64.le_iff_toNat_le.mp (UInt64.not_lt.mp hlt)
        rw [UInt64.toNat_ofNat'] at this
        exact this.trans (Nat.mod_le _ _)
      exact ⟨hdr, r, _, _, rfl, hid, .inl ⟨hlong, hle, rfl, rfl⟩, rfl⟩
/-- What the rounds of `parsePacket` have made of the datagram `d`, begun with the buffer `b`. -/
structure Splits (d : List UInt8) (b : packetBuffer) (s : parseState) : Prop where
  /-- the packets are consecutive pieces of `d` from its start, and `data` is what follows -/
  pieces : (s.packets.map receivedPacket.data).flatten ++ s.data = d
  nonempty : ∀ p ∈ s.packets, p.data ≠ []
  long_length : ∀ p ∈ s.packets, p.hdr.IsLongHeader = true →
    p.data.length = p.hdr.parsedLen.toNat + p.hdr.Length.toNat
  connID : ∀ p ∈ s.packets, p.hdr.DestConnectionID = s.lastConnID
  /-- the packet of a short header took all that was left -/
  short_last : ∀ p ∈ s.packets, p.hdr.IsLongHeader = false → s.data = []
  long_init : ∀ p ∈ s.packets.dropLast, p.hdr.IsLongHeader = true
  counter : s.counter = s.packets.length
  /-- every packet after the first took one more reference -/
  refCount : s.buffer.refCount = b.refCount + (s.packets.length - 1 : Nat)

theorem Splits.start (d : List UInt8) (b : packetBuffer) :
    Splits d b { packets := [], counter := 0, lastConnID := [], buffer := b, data := d } where
  pieces := rfl
  nonempty := nofun
  long_length := nofun
  connID := nofun
  short_last := nofun
  long_init := nofun
  counter := rfl
  refCount := by simp

/-- The packet a round cuts: a nonempty front of the bytes left, of `ParsedLen + Length` bytes
for a long header, and all of them for a short one. The sum does not wrap: the header's length
is below `2^62` and what it parsed below `2^63`. -/
theorem cut_spec {hdr : Header} {data piece rest : List UInt8} (hl : data.length < 2 ^ 63)
    (hp1 : 1 ≤ hdr.parsedLen.toNat) (hp2 : hdr.parsedLen.toNat ≤ data.length)
    (hL : hdr.Length.toNat < 2 ^ 62)
    (hcut : (hdr.IsLongHeader = true ∧ (hdr.parsedLen + hdr.Length).toNat ≤ data.length ∧
          piece = data.take (hdr.parsedLen + hdr.Length).toNat ∧
          rest = data.drop (hdr.parsedLen + hdr.Length).toNat) ∨
        (hdr.IsLongHeader = false ∧ piece = data ∧ rest = [])) :
    piece ++ rest = data ∧ piece ≠ [] ∧
      (hdr.IsLongHeader = true → piece.length = hdr.parsedLen.toNat + hdr.Length.toNat) ∧
      (hdr.IsLongHeader = false → rest = []) := by
  rcases hcut with ⟨hlong, hle, rfl, rfl⟩ | ⟨hshort, rfl, rfl⟩
  · have hsum : (hdr.parsedLen + hdr.Length).toNat = hdr.parsedLen.toNat + hdr.Length.toNat := by
      rw [UInt64.toNat_add, Nat.mod_eq_of_lt (by omega)]
    have hlen : (data.take (hdr.parsedLen + hdr.Length).toNat).length =
        hdr.parsedLen.toNat + hdr.Length.toNat := by
      rw [List.length_take, Nat.min_eq_left hle, hsum]
    refine ⟨List.take_append_drop _ _, ?_, fun _ => hlen, fun h => by simp [hlong] at h⟩
    rw [← List.length_pos_iff, hlen]
    omega
  · refine ⟨List.append_nil _, ?_, fun h => by simp [hshort] at h, fun _ => rfl⟩
    rw [← List.length_pos_iff]
    omega

theorem Splits.round {h : packetHandlerMap} {d : List UInt8} {b : packetBuffer}
    {s s' : parseState} (hs : Splits d b s) (hd : d.length < 2 ^ 63) (hne : s.data ≠ [])
    (hr : h.parseRound s = .ok s') : Splits d b s' ∧ s'.data.length < s.data.length := by
  obtain ⟨hdr, r, piece, rest, hp, hid, hcut, rfl⟩ := parseRound_ok hr
  have hle : s.data.length ≤ d.length := by
    rw [← hs.pieces, List.length_append]
    omega
  obtain ⟨hp1, hp2, hL⟩ := ParseHeader_lengths (by omega) hp
  obtain ⟨hsplit, hpiece, hlong, hshort⟩ := cut_spec (by omega) hp1 hp2 hL hcut
  have hlongs : ∀ p ∈ s.packets, p.hdr.IsLongHeader = true := fun p hp =>
    Bool.not_eq_false _ |>.mp fun hf => hne (hs.short_last p hp hf)
  have hsame : ∀ p ∈ s.packets, p.hdr.DestConnectionID = hdr.DestConnectionID := by
    intro p hp
    have h0 : 0 < s.counter := by
      rw [hs.counter]
      exact List.length_pos_of_mem hp
    rw [hs.connID p hp, hid h0]
  refine ⟨⟨?_, ?_, ?_, ?_, ?_, ?_, ?_, ?_⟩, ?_⟩
  · simp only [List.map_append, List.flatten_append, List.map_cons, List.map_nil,
      List.flatten_cons, List.flatten_nil, List.append_nil, List.append_assoc, hsplit, hs.pieces]
  · simp only [List.mem_append, List.mem_singleton]
    rintro p (hp | rfl)
    · exact hs.nonempty p hp
    · exact hpiece
  · simp only [List.mem_append, List.mem_singleton]
    rintro p (hp | rfl)
    · exact hs.long_length p hp
    · exact hlong
  · simp only [List.mem_append, List.mem_singleton]
    rintro p (hp | rfl)
    · exact hsame p hp
    · rfl
  · simp only [List.mem_append, List.mem_singleton]
    rintro p (hp | rfl) hf
    · rw [hlongs p hp] at hf
      cases hf
    · exact hshort hf
  · rw [List.dropLast_concat]
    exact hlongs
  · simp [hs.counter]
  · have hc := hs.counter
    have hb := hs.refCount
    simp only [List.length_append, List.length_singleton]
    split_ifs with h0
    · simp only [packetBuffer.Split, hb]
      push_cast
      omega
    · simp only [hb]
      omega
  · show rest.length < s.data.length
    rw [← hsplit, List.length_append]
    have := List.length_pos_iff.mpr hpiece
    omega

/-! ### The loop -/

/-- From any state the rounds so far leave, and with more fuel than there are bytes left, the
loop returns the packets of a state that `Splits` too, with an error exactly when bytes are
left. -/
theorem parseLoop_splits {h : packetHandlerMap} {d : List UInt8} {b : packetBuffer}
    (hd : d.length < 2 ^ 63) :
    ∀ (fuel : Nat) (s : parseState), Splits d b s → s.data.length < fuel →
      ∃ s' err, h.parseLoop fuel s = some (s'.packets, err, s'.buffer) ∧ Splits d b s' ∧
        (err = none ↔ s'.data = []) := by
  intro fuel
  induction fuel with
  | zero =>
    intro s _ hf
    omega
  | succ fuel ih =>
    intro s hs hf
    unfold parseLoop
    by_cases hlen : s.data.length > 0
    · rw [if_pos hlen]
      have hne : s.data ≠ [] := List.ne_nil_of_length_pos hlen
      cases hr : h.parseRound s with
      | error err => exact ⟨s, some err, rfl, hs, by simp [hne]⟩
      | ok s₁ =>
        obtain ⟨hs₁, hlt⟩ := hs.round hd hne hr
        exact ih s₁ hs₁ (by omega)
    · rw [if_neg hlen]
      exact ⟨s, none, rfl, hs, by simpa using hlen⟩

/-- `packets` and `err` are what `parsePacket` may return for the datagram `d`: consecutive pieces
of `d` from its start, none of them empty, followed by the bytes left, which are none exactly
when there is no error; a long header's packet is `ParsedLen + Length` bytes, all the packets
share the first one's destination connection ID, and only the last may have a short header. -/
structure IsSplitOf (d : List UInt8) (packets : List receivedPacket)
    (err : Option parsePacketError) : Prop where
  pieces : ∃ rest, (packets.map receivedPacket.data).flatten ++ rest = d ∧ (err = none ↔ rest = [])
  nonempty : ∀ p ∈ packets, p.data ≠ []
  long_length : ∀ p ∈ packets, p.hdr.IsLongHeader = true →
    p.data.length = p.hdr.parsedLen.toNat + p.hdr.Length.toNat
  connID : ∀ p ∈ packets, ∀ q ∈ packets.head?, p.hdr.DestConnectionID = q.hdr.DestConnectionID
  short_last : ∀ p ∈ packets.dropLast, p.hdr.IsLongHeader = true

theorem Splits.isSplitOf {d : List UInt8} {b : packetBuffer} {s : parseState}
    {err : Option parsePacketError} (hs : Splits d b s) (herr : err = none ↔ s.data = []) :
    IsSplitOf d s.packets err where
  pieces := ⟨s.data, hs.pieces, herr⟩
  nonempty := hs.nonempty
  long_length := hs.long_length
  connID p hp q hq := by
    rw [hs.connID p hp, hs.connID q (List.mem_of_mem_head? hq)]
  short_last := hs.long_init

theorem parsePacket_splits (h : packetHandlerMap) (buffer : packetBuffer) {d : List UInt8}
    (hd : d.length < 2 ^ 63) :
    ∃ packets err buffer', h.parsePacket buffer d = some (packets, err, buffer') ∧
      IsSplitOf d packets err := by
  obtain ⟨s, err, hrun, hs, herr⟩ :=
    parseLoop_splits hd (d.length + 1) _ (Splits.start d buffer) (Nat.lt_succ_self _)
  exact ⟨s.packets, err, s.buffer, hrun, hs.isSplitOf herr⟩

/-- Two coalesced packets: a long header of a version we do not support, whose packet ends after
its connection IDs, then a short header with the same destination connection ID. -/
theorem parsePacket_splits_coalesced :
    let d : List UInt8 :=
      [0xc0, 0x0a, 0x0a, 0x0a, 0x0a, 0x11, 1, 2, 3, 4, 5, 6, 7, 8, 0x40, 1, 2, 3, 4, 0xff]
    d.length < 2 ^ 63 ∧
      (∃ packets err buffer', (⟨4⟩ : packetHandlerMap).parsePacket getPacketBuffer d =
        some (packets, err, buffer') ∧ IsSplitOf d packets err) ∧
      ((⟨4⟩ : packetHandlerMap).parsePacket getPacketBuffer d).map
        (fun r => (r.1.map (·.data.length), r.2.1, r.2.2)) = some ([14, 6], none, ⟨2⟩) := by
  intro d
  exact ⟨by decide, parsePacket_splits _ _ (by decide), by decide +kernel⟩

/-! ### The shared buffer -/

/-- Every packet `handlePacket` hands on holds one reference to the buffer of its datagram, taken
from the pool with one; a datagram without packets gives its buffer back with none. -/
theorem handlePacket_refCount (h : packetHandlerMap) {d : List UInt8} (hd : d.length < 2 ^ 63) :
    ∃ packets b, h.handlePacket getPacketBuffer d = some (packets, b) ∧
      b.refCount = packets.length := by
  obtain ⟨s, err, hrun, hs, -⟩ :=
    parseLoop_splits hd (d.length + 1) _ (Splits.start d getPacketBuffer) (Nat.lt_succ_self _)
  have hb := hs.refCount
  unfold handlePacket parsePacket
  rw [hrun, Option.bind_eq_bind, Option.bind_some]
  dsimp only
  by_cases h0 : s.packets.length = 0
  · rw [if_pos h0]
    refine ⟨[], { refCount := 0 }, ?_, rfl⟩
    simp [packetBuffer.Release, hb, h0, getPacketBuffer]
  · rw [if_neg h0]
    refine ⟨s.packets, s.buffer, rfl, ?_⟩
    rw [hb, show getPacketBuffer.refCount = 1 from rfl]
    omega

/-- The two packets of `parsePacket_splits_coalesced` hold the two references of their buffer. -/
theorem handlePacket_refCount_coalesced :
    let d : List UInt8 :=
      [0xc0, 0x0a, 0x0a, 0x0a, 0x0a, 0x11, 1, 2, 3, 4, 5, 6, 7, 8, 0x40, 1, 2, 3, 4, 0xff]
    d.length < 2 ^ 63 ∧ ∃ packets b, (⟨4⟩ : packetHandlerMap).handlePacket getPacketBuffer d =
      some (packets, b) ∧ b.refCount = packets.length := by
  intro d
  exact ⟨by decide, handlePacket_refCount _ (by decide)⟩

end packetHandlerMap
end QuicGo
