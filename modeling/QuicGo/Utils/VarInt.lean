import Mathlib.Tactic.Ring
import Mathlib.Tactic.SplitIfs
import QuicGo.Lib.Codec

/-! The byte readers and writers that the frame codecs use: `bytes.Reader` and `bytes.Buffer` of the
standard library, `utils.BigEndian`, and the QUIC variable-length integers of
`internal/utils/varint.go`. -/
namespace QuicGo.Utils
open QuicGo.Lib

/-- The `error` values that the byte readers and the frame codecs return. -/
inductive Error where
  /-- `io.EOF` -/
  | EOF
  /-- `io.ErrUnexpectedEOF` -/
  | ErrUnexpectedEOF
  /-- a panic, with its message -/
  | panic (msg : String)
  /-- "invalid first ACK range" -/
  | invalidFirstAckRange
  /-- `errInvalidAckRanges`: "AckFrame: ACK frame contains invalid ACK ranges" -/
  | invalidAckRanges
  /-- "invalid connection ID length: %d" -/
  | invalidConnectionIDLength (connIDLen : Nat)
  /-- "unknown type byte 0x%x" -/
  | unknownTypeByte (typeByte : UInt8)
  /-- "StreamFrame: attempting to write empty frame without FIN" -/
  | emptyStreamFrame
  /-- `qerr.Error(qerr.InvalidStreamData, "data overflows maximum offset")` -/
  | dataOverflowsMaximumOffset
  /-- `qerr.Error(qerr.InvalidFrameData, err.Error())` -/
  | invalidFrameData (err : Error)
  /-- "too small", of `StreamFrame.MaybeSplitOffFrame` -/
  | tooSmall
  /-- "invalid connection ID length: %d bytes", of `encodeSingleConnIDLen` -/
  | invalidConnectionIDLengthBytes (len : Nat)
  /-- "not a QUIC packet" -/
  | notAQUICPacket
  /-- "5th and 6th bit must be 0" -/
  | longHeaderReservedBits
  /-- "4th and 5th bit must be 0" -/
  | shortHeaderReservedBits
  /-- "invalid packet number length: %d" -/
  | invalidPacketNumberLength (len : UInt8)
  /-- `qerr.Error(qerr.InvalidVersionNegotiationPacket, "empty version list")` -/
  | emptyVersionList
  /-- `qerr.InvalidVersionNegotiationPacket` -/
  | InvalidVersionNegotiationPacket
  deriving DecidableEq, Repr

/-- A `bytes.Reader`: the state is the bytes not yet read. -/
abbrev Reader := StateT (List UInt8) (Except Error)

/-- A `bytes.Buffer` being written: the state is the bytes written so far. -/
abbrev Writer := StateT (List UInt8) (Except Error) PUnit

/-! ### Bytes -/

/-- `bytes.Reader.ReadByte` -/
def ReadByte : Reader UInt8 := fun
  | [] => .error .EOF
  | b :: r => .ok (b, r)

/-- `bytes.Reader.Len`: the number of bytes not yet read. -/
def Len : Reader Nat := fun r => .ok (r.length, r)

/-- `io.ReadFull` of `n` bytes: `io.EOF` when nothing is left, `io.ErrUnexpectedEOF` when some
but fewer than `n` bytes are left. -/
def ReadFull (n : Nat) : Reader (List UInt8) := fun r =>
  if n ≤ r.length then .ok (r.take n, r.drop n)
  else if r = [] then .error .EOF else .error .ErrUnexpectedEOF

/-- `io.ReadFull` into an array of `n` bytes, with the errors of `ReadFull`. -/
def ReadArray (n : Nat) : Reader (Vector UInt8 n) := fun r =>
  if h : n ≤ r.length then .ok (⟨(r.take n).toArray, by simp [h]⟩, r.drop n)
  else if r = [] then .error .EOF else .error .ErrUnexpectedEOF

/-- `bytes.Buffer.WriteByte` -/
def WriteByte (c : UInt8) : Writer := modify (· ++ [c])

/-- `bytes.Buffer.Write` -/
def Write (p : List UInt8) : Writer := modify (· ++ p)

@[simp] theorem ReadByte_run_cons (b : UInt8) (r : List UInt8) : ReadByte.run (b :: r) = .ok (b, r) :=
  rfl

@[simp] theorem ReadByte_run_nil : ReadByte.run [] = .error .EOF :=
  rfl

theorem ReadByte_decodes (b : UInt8) : Decodes ReadByte [b] b :=
  fun _ => rfl

theorem ReadFull_decodes (l : List UInt8) : Decodes (ReadFull l.length) l l := by
  intro rest
  simp [ReadFull, StateT.run]

theorem ReadByte_reads : Reads (fun _ => True) ReadByte := by
  intro l b r h
  cases l with
  | nil => cases h
  | cons c l =>
    cases h
    exact ⟨List.suffix_cons _ _, trivial⟩

theorem ReadByte_shrinks (l : List UInt8) (b : UInt8) (r : List UInt8)
    (h : ReadByte.run l = .ok (b, r)) : r.length < l.length := by
  cases l with
  | nil => cases h
  | cons c l =>
    cases h
    exact Nat.lt_succ_self _

theorem ReadFull_reads (n : Nat) : Reads (fun _ => True) (ReadFull n) := by
  intro l b r h
  change (if n ≤ l.length then _ else _) = _ at h
  split_ifs at h
  cases h
  exact ⟨List.drop_suffix n l, trivial⟩

theorem ReadArray_decodes {n : Nat} (v : Vector UInt8 n) : Decodes (ReadArray n) v.toList v := by
  intro rest
  have hlen : v.toList.length = n := v.length_toList
  have hle : n ≤ (v.toList ++ rest).length := by
    rw [List.length_append]
    omega
  simp only [StateT.run, ReadArray, dif_pos hle]
  congr 2
  · apply Vector.ext
    intro i hi
    simp only [Vector.getElem_mk, List.getElem_toArray, List.getElem_take,
      List.getElem_append_left (show i < v.toList.length by omega), Vector.getElem_toList]
  · exact List.drop_left' hlen

@[simp] theorem Len_run (s : List UInt8) : Len.run s = .ok (s.length, s) :=
  rfl

/-- A decoder that looks at how many bytes are left reads `l` as long as it does whenever at
least the bytes of `l` are left. -/
theorem Len_bind_decodes {α : Type} {k : Nat → Reader α} {l : List UInt8} {a : α}
    (hk : ∀ m, l.length ≤ m → Decodes (k m) l a) : Decodes (Len >>= k) l a := by
  intro rest
  rw [StateT.run_bind, Len_run, Except.ok_bind]
  exact hk _ (by rw [List.length_append]; omega) rest

theorem WriteByte_emits (c : UInt8) : Emits (WriteByte c) [c] :=
  fun _ => rfl

theorem Write_emits (p : List UInt8) : Emits (Write p) p :=
  fun _ => rfl

theorem WriteByte_roundTrip (c : UInt8) : RoundTrip (WriteByte c) ReadByte c 1 :=
  ⟨[c], WriteByte_emits c, rfl, ReadByte_decodes c⟩

theorem Write_roundTrip (p : List UInt8) : RoundTrip (Write p) (ReadFull p.length) p p.length :=
  ⟨p, Write_emits p, rfl, ReadFull_decodes p⟩

/-! ### Big endian -/

namespace BigEndian

/-- `utils.BigEndian.ReadUint16` -/
def ReadUint16 : Reader UInt16 := do
  let b2 ← ReadByte
  let b1 ← ReadByte
  pure (b1.toUInt16 + b2.toUInt16 <<< 8)

/-- `utils.BigEndian.WriteUint16` -/
def WriteUint16 (i : UInt16) : Writer :=
  Write [(i >>> 8).toUInt8, i.toUInt8]

theorem ReadUint16_decodes (i : UInt16) : Decodes ReadUint16 [(i >>> 8).toUInt8, i.toUInt8] i := by
  intro rest
  have hi : i.toUInt8.toUInt16 + (i >>> 8).toUInt8.toUInt16 <<< 8 = i := by
    apply UInt16.toNat_inj.mp
    have hlt := i.toNat_lt
    simp only [UInt16.toNat_add, UInt16.toNat_shiftLeft, UInt8.toNat_toUInt16,
      UInt16.toNat_toUInt8, UInt16.toNat_shiftRight, Nat.shiftLeft_eq, Nat.shiftRight_eq_div_pow]
    have h8 : (8 : UInt16).toNat % 16 = 8 := rfl
    rw [h8]
    omega
  simp only [ReadUint16, StateT.run_bind, List.cons_append, ReadByte_run_cons, Except.ok_bind,
    StateT.run_pure, hi]
  rfl

theorem ReadUint16_roundTrip (i : UInt16) : RoundTrip (WriteUint16 i) ReadUint16 i 2 :=
  ⟨_, Write_emits _, rfl, ReadUint16_decodes i⟩

/-- `utils.BigEndian.ReadUint32` -/
def ReadUint32 : Reader UInt32 := do
  let b4 ← ReadByte
  let b3 ← ReadByte
  let b2 ← ReadByte
  let b1 ← ReadByte
  pure (b1.toUInt32 + b2.toUInt32 <<< 8 + b3.toUInt32 <<< 16 + b4.toUInt32 <<< 24)

/-- `utils.BigEndian.WriteUint32` -/
def WriteUint32 (i : UInt32) : Writer :=
  Write [(i >>> 24).toUInt8, (i >>> 16).toUInt8, (i >>> 8).toUInt8, i.toUInt8]

theorem ReadUint32_decodes (i : UInt32) :
    Decodes ReadUint32 [(i >>> 24).toUInt8, (i >>> 16).toUInt8, (i >>> 8).toUInt8, i.toUInt8] i := by
  intro rest
  have hi : i.toUInt8.toUInt32 + (i >>> 8).toUInt8.toUInt32 <<< 8 +
      (i >>> 16).toUInt8.toUInt32 <<< 16 + (i >>> 24).toUInt8.toUInt32 <<< 24 = i := by
    apply UInt32.toNat_inj.mp
    have hlt := i.toNat_lt
    simp only [UInt32.toNat_add, UInt32.toNat_shiftLeft, UInt8.toNat_toUInt32,
      UInt32.toNat_toUInt8, UInt32.toNat_shiftRight, Nat.shiftLeft_eq, Nat.shiftRight_eq_div_pow]
    have h8 : (8 : UInt32).toNat % 32 = 8 := rfl
    have h16 : (16 : UInt32).toNat % 32 = 16 := rfl
    have h24 : (24 : UInt32).toNat % 32 = 24 := rfl
    rw [h8, h16, h24]
    omega
  simp only [ReadUint32, StateT.run_bind, List.cons_append, ReadByte_run_cons, Except.ok_bind,
    StateT.run_pure, hi]
  rfl

theorem ReadUint32_roundTrip (i : UInt32) : RoundTrip (WriteUint32 i) ReadUint32 i 4 :=
  ⟨_, Write_emits _, rfl, ReadUint32_decodes i⟩

theorem ReadUint32_reads : Reads (fun _ => True) ReadUint32 :=
  ReadByte_reads.bind fun _ _ => ReadByte_reads.bind fun _ _ => ReadByte_reads.bind fun _ _ =>
    ReadByte_reads.bind fun _ _ => .pure trivial

/-- The loop of `ReadUintN` from byte `i` on, with `k` bytes left and the value `res` so far. -/
def readUintNFrom (length : UInt8) : UInt8 → Nat → UInt64 → Reader UInt64
  | _, 0, res => pure res
  | i, k + 1, res => do
    let bt ← ReadByte
    readUintNFrom length (i + 1) k
      (res ^^^ UInt64.ofNat (bt.toNat <<< ((length - 1 - i) * 8).toNat))

/-- `utils.BigEndian.ReadUintN` -/
def ReadUintN (length : UInt8) : Reader UInt64 :=
  readUintNFrom length 0 length.toNat 0

/-- The loop of `WriteUintN`, from `j` down to one. -/
def writeUintNFrom (i : UInt64) : Nat → Writer
  | 0 => pure ⟨⟩
  | j + 1 => do
    WriteByte (UInt8.ofNat (i.toNat >>> (8 * UInt8.ofNat j).toNat))
    writeUintNFrom i j

/-- `utils.BigEndian.WriteUintN` -/
def WriteUintN (length : UInt8) (i : UInt64) : Writer :=
  writeUintNFrom i length.toNat

/-- The low `j` bytes of `x`, most significant first. -/
def beBytes (x : Nat) : Nat → List UInt8
  | 0 => []
  | j + 1 => UInt8.ofNat (x >>> (8 * j)) :: beBytes x j

@[simp] theorem length_beBytes (x j : Nat) : (beBytes x j).length = j := by
  induction j with
  | zero => rfl
  | succ j ih => rw [beBytes, List.length_cons, ih]

theorem writeUintNFrom_emits (i : UInt64) {j : Nat} (hj : j ≤ 32) :
    Emits (writeUintNFrom i j) (beBytes i.toNat j) := by
  induction j with
  | zero => exact Emits.pure
  | succ j ih =>
    have hs : (8 * UInt8.ofNat j).toNat = 8 * j := by
      rw [UInt8.toNat_mul, UInt8.toNat_ofNat', show (8 : UInt8).toNat = 8 from rfl]
      omega
    rw [writeUintNFrom, hs, beBytes, ← List.singleton_append]
    exact (WriteByte_emits _).bind (ih (by omega))

theorem or_mul_two_pow_eq_add {x i : Nat} (hx : x < 2 ^ i) (a : Nat) :
    x ||| a * 2 ^ i = a * 2 ^ i + x := by
  rw [Nat.or_comm, Nat.mul_comm, Nat.two_pow_add_eq_or_of_lt hx]

theorem two_pow_mul_xor_eq_add {b i : Nat} (hb : b < 2 ^ i) (a : Nat) :
    2 ^ i * a ^^^ b = 2 ^ i * a + b := by
  rw [Nat.two_pow_add_eq_or_of_lt hb]
  apply Nat.eq_of_testBit_eq
  intro j
  simp only [Nat.testBit_xor, Nat.testBit_or, Nat.testBit_two_pow_mul]
  by_cases hj : i ≤ j
  · have hbj : b.testBit j = false :=
      Nat.testBit_lt_two_pow (Nat.lt_of_lt_of_le hb (Nat.pow_le_pow_right (by decide) hj))
    simp [hj, hbj]
  · simp [hj]

theorem readUintNFrom_decodes {length i : UInt8} {k : Nat} (hlen : length.toNat ≤ 8)
    (hik : i.toNat + k = length.toNat) {res : UInt64} {a : Nat} (hres : res.toNat = 2 ^ (8 * k) * a)
    (ha : a < 2 ^ (8 * i.toNat)) (x : Nat) :
    Decodes (readUintNFrom length i k res) (beBytes x k)
      (UInt64.ofNat (2 ^ (8 * k) * a + x % 2 ^ (8 * k))) := by
  induction k generalizing i res a with
  | zero =>
    simp only [Nat.mul_zero, Nat.pow_zero, Nat.one_mul, Nat.mod_one, Nat.add_zero] at hres ⊢
    rw [← hres, UInt64.ofNat_toNat]
    exact Decodes.pure res
  | succ k ih =>
    have hk7 : k ≤ 7 := by omega
    have hshift : ((length - 1 - i) * 8).toNat = 8 * k := by
      rw [UInt8.toNat_mul, UInt8.toNat_sub, UInt8.toNat_sub, show (8 : UInt8).toNat = 8 from rfl,
        show (1 : UInt8).toNat = 1 from rfl]
      omega
    have hb : (UInt8.ofNat (x >>> (8 * k))).toNat = x / 2 ^ (8 * k) % 256 := by
      rw [UInt8.toNat_ofNat', Nat.shiftRight_eq_div_pow]
    generalize hb' : x / 2 ^ (8 * k) % 256 = b at hb
    have hb256 : b < 256 := hb' ▸ Nat.mod_lt _ (by decide)
    have hpow : 2 ^ (8 * (k + 1)) = 2 ^ (8 * k) * 256 := by
      rw [Nat.mul_succ, Nat.pow_add]
    have hB : b * 2 ^ (8 * k) < 2 ^ (8 * k) * 256 := by
      rw [Nat.mul_comm]
      exact Nat.mul_lt_mul_of_pos_left hb256 (Nat.two_pow_pos _)
    have hB64 : 2 ^ (8 * k) * 256 ≤ 2 ^ 64 := by
      rw [← hpow]
      exact Nat.pow_le_pow_right (by decide) (by omega)
    have hxor : (res ^^^ UInt64.ofNat ((UInt8.ofNat (x >>> (8 * k))).toNat <<<
        ((length - 1 - i) * 8).toNat)).toNat = 2 ^ (8 * k) * (256 * a + b) := by
      rw [UInt64.toNat_xor, hres, UInt64.toNat_ofNat', hshift, hb, Nat.shiftLeft_eq,
        Nat.mod_eq_of_lt (by omega), two_pow_mul_xor_eq_add (hpow ▸ hB), hpow]
      ring
    have hi1 : (i + 1).toNat = i.toNat + 1 := by
      rw [UInt8.toNat_add, show (1 : UInt8).toNat = 1 from rfl]
      omega
    have ha' : 256 * a + b < 2 ^ (8 * (i + 1).toNat) := by
      rw [hi1, Nat.mul_succ, Nat.pow_add]
      omega
    have hx : x % 2 ^ (8 * (k + 1)) = x % 2 ^ (8 * k) + 2 ^ (8 * k) * b := by
      rw [hpow, Nat.mod_mul, hb']
    rw [readUintNFrom, beBytes, ← List.singleton_append, hx, hpow]
    refine (ReadByte_decodes _).bind ?_
    have hval : 2 ^ (8 * k) * 256 * a + (x % 2 ^ (8 * k) + 2 ^ (8 * k) * b) =
        2 ^ (8 * k) * (256 * a + b) + x % 2 ^ (8 * k) := by ring
    rw [hval]
    exact ih (by omega) hxor ha'

theorem ReadUintN_roundTrip {length : UInt8} (hlen : length.toNat ≤ 8) {i : UInt64}
    (hi : i.toNat < 2 ^ (8 * length.toNat)) :
    RoundTrip (WriteUintN length i) (ReadUintN length) i length.toNat := by
  refine ⟨beBytes i.toNat length.toNat, writeUintNFrom_emits i (by omega), length_beBytes _ _, ?_⟩
  have h := readUintNFrom_decodes (i := 0) hlen (Nat.zero_add length.toNat)
    (show (0 : UInt64).toNat = 2 ^ (8 * length.toNat) * 0 by rfl) (Nat.two_pow_pos _) i.toNat
  rwa [Nat.mul_zero, Nat.zero_add, Nat.mod_eq_of_lt hi, UInt64.ofNat_toNat] at h

end BigEndian

/-! ### Variable-length integers -/

def maxVarInt1 : Nat := 63
def maxVarInt2 : Nat := 16383
def maxVarInt4 : Nat := 1073741823
def maxVarInt8 : Nat := 4611686018427387903

/-- `utils.ReadVarInt` -/
def ReadVarInt : Reader Nat := do
  let firstByte ← ReadByte
  -- the first two bits of the first byte encode the length
  let len := 1 <<< ((firstByte &&& 0xc0) >>> 6).toNat
  let b1 := firstByte &&& (0xff - 0xc0)
  if len = 1 then return b1.toNat
  let b2 ← ReadByte
  if len = 2 then return b2.toNat + b1.toNat <<< 8
  let b3 ← ReadByte
  let b4 ← ReadByte
  if len = 4 then return b4.toNat + b3.toNat <<< 8 + b2.toNat <<< 16 + b1.toNat <<< 24
  let b5 ← ReadByte
  let b6 ← ReadByte
  let b7 ← ReadByte
  let b8 ← ReadByte
  return b8.toNat + b7.toNat <<< 8 + b6.toNat <<< 16 + b5.toNat <<< 24 + b4.toNat <<< 32 +
    b3.toNat <<< 40 + b2.toNat <<< 48 + b1.toNat <<< 56

/-- The panic message of `WriteVarInt` and `VarIntLen`: "%#x doesn't fit into 62 bits". -/
def errTooLarge (i : Nat) : String :=
  "0x" ++ String.ofList (Nat.toDigits 16 i) ++ " doesn\x27t fit into 62 bits"

/-- `utils.WriteVarInt` -/
def WriteVarInt (i : Nat) : Writer :=
  if i ≤ maxVarInt1 then WriteByte (UInt8.ofNat i)
  else if i ≤ maxVarInt2 then Write [UInt8.ofNat (i >>> 8) ||| 0x40, UInt8.ofNat i]
  else if i ≤ maxVarInt4 then
    Write [UInt8.ofNat (i >>> 24) ||| 0x80, UInt8.ofNat (i >>> 16), UInt8.ofNat (i >>> 8),
      UInt8.ofNat i]
  else if i ≤ maxVarInt8 then
    Write [UInt8.ofNat (i >>> 56) ||| 0xc0, UInt8.ofNat (i >>> 48), UInt8.ofNat (i >>> 40),
      UInt8.ofNat (i >>> 32), UInt8.ofNat (i >>> 24), UInt8.ofNat (i >>> 16),
      UInt8.ofNat (i >>> 8), UInt8.ofNat i]
  else throw (.panic (errTooLarge i))

/-- `utils.VarIntLen`, a `protocol.ByteCount`; its panic is `none`. -/
def VarIntLen (i : Nat) : Option UInt64 :=
  if i ≤ maxVarInt1 then some 1
  else if i ≤ maxVarInt2 then some 2
  else if i ≤ maxVarInt4 then some 4
  else if i ≤ maxVarInt8 then some 8
  else none

section Bytes

theorem firstByte_len (b : UInt8) : ((b &&& 0xc0) >>> 6).toNat = b.toNat / 64 := by
  rw [UInt8.toNat_shiftRight, UInt8.toNat_and]
  have h192 : (0xc0 : UInt8).toNat = 192 := rfl
  have h6 : (6 : UInt8).toNat % 8 = 6 := rfl
  rw [h192, h6]
  have hall : ∀ m < 256, (m &&& 192) >>> 6 = m / 64 := by decide +kernel
  exact hall _ b.toNat_lt

theorem firstByte_value (b : UInt8) : (b &&& (0xff - 0xc0)).toNat = b.toNat % 64 := by
  rw [UInt8.toNat_and]
  have h63 : (0xff - 0xc0 : UInt8).toNat = 2 ^ 6 - 1 := rfl
  rw [h63, Nat.and_two_pow_sub_one_eq_mod]

theorem or_prefix_toNat (x : Nat) (c : UInt8) (hx : x < 64) (hc : c.toNat % 64 = 0) :
    (UInt8.ofNat x ||| c).toNat = c.toNat + x := by
  obtain ⟨k, hk⟩ : ∃ k, c.toNat = 2 ^ 6 * k := ⟨c.toNat / 64, by omega⟩
  rw [UInt8.toNat_or, UInt8.toNat_ofNat', Nat.mod_eq_of_lt (by omega), Nat.or_comm, hk,
    ← Nat.two_pow_add_eq_or_of_lt hx]

theorem firstByte_shift (x0 : UInt8) :
    1 <<< ((x0 &&& 0xc0) >>> 6).toNat = 2 ^ (x0.toNat / 64) := by
  rw [firstByte_len, Nat.one_shiftLeft]

theorem firstByte_class (x0 : UInt8) :
    x0.toNat / 64 = 0 ∨ x0.toNat / 64 = 1 ∨ x0.toNat / 64 = 2 ∨ x0.toNat / 64 = 3 := by
  have := x0.toNat_lt
  omega

theorem ofNat_toNat (i : Nat) : (UInt8.ofNat i).toNat = i % 256 :=
  UInt8.toNat_ofNat'

theorem and_63_eq_mod (n : Nat) : n &&& 63 = n % 64 :=
  Nat.and_two_pow_sub_one_eq_mod n 6

end Bytes

/-- Whatever its first byte says, `ReadVarInt` only reads bytes from the front, and what it reads
fits into 62 bits: the first byte keeps six of its bits. -/
theorem ReadVarInt_reads : Reads (· < 2 ^ 62) ReadVarInt := by
  unfold ReadVarInt
  refine ReadByte_reads.bind fun b1 _ => ?_
  have h1 : (b1 &&& (0xff - 0xc0)).toNat < 64 := by
    rw [firstByte_value]
    omega
  dsimp only
  refine .ite (.pure (by omega)) (ReadByte_reads.bind fun b2 _ => ?_)
  have h2 := b2.toNat_lt
  refine .ite (.pure ?_) (ReadByte_reads.bind fun b3 _ => ReadByte_reads.bind fun b4 _ => ?_)
  · simp only [Nat.shiftLeft_eq]
    omega
  have h3 := b3.toNat_lt
  have h4 := b4.toNat_lt
  refine .ite (.pure ?_) ?_
  · simp only [Nat.shiftLeft_eq]
    omega
  refine ReadByte_reads.bind fun b5 _ => ReadByte_reads.bind fun b6 _ =>
    ReadByte_reads.bind fun b7 _ => ReadByte_reads.bind fun b8 _ => .pure ?_
  have := b5.toNat_lt
  have := b6.toNat_lt
  have := b7.toNat_lt
  have := b8.toNat_lt
  simp only [Nat.shiftLeft_eq]
  omega

theorem ReadVarInt_one (x0 : UInt8) (r : List UInt8) (h : x0.toNat / 64 = 0) :
    ReadVarInt.run (x0 :: r) = .ok ((x0 &&& (0xff - 0xc0)).toNat, r) := by
  have hl : 1 <<< ((x0 &&& 0xc0) >>> 6).toNat = 1 :=
    (congrArg (1 <<< ·) ((firstByte_len x0).trans h)).trans rfl
  simp only [ReadVarInt, StateT.run_bind, ReadByte_run_cons, Except.ok_bind, hl, ↓reduceIte,
    StateT.run_pure, Except.pure_eq_ok]

theorem ReadVarInt_two (x0 x1 : UInt8) (r : List UInt8) (h : x0.toNat / 64 = 1) :
    ReadVarInt.run (x0 :: x1 :: r) = .ok (x1.toNat + (x0 &&& (0xff - 0xc0)).toNat <<< 8, r) := by
  have hl : 1 <<< ((x0 &&& 0xc0) >>> 6).toNat = 2 :=
    (congrArg (1 <<< ·) ((firstByte_len x0).trans h)).trans rfl
  simp only [ReadVarInt, StateT.run_bind, ReadByte_run_cons, Except.ok_bind, hl, Nat.reduceEqDiff,
    ↓reduceIte, StateT.run_pure, Except.pure_eq_ok]

theorem ReadVarInt_four (x0 x1 x2 x3 : UInt8) (r : List UInt8) (h : x0.toNat / 64 = 2) :
    ReadVarInt.run (x0 :: x1 :: x2 :: x3 :: r) = .ok (x3.toNat + x2.toNat <<< 8 +
      x1.toNat <<< 16 + (x0 &&& (0xff - 0xc0)).toNat <<< 24, r) := by
  have hl : 1 <<< ((x0 &&& 0xc0) >>> 6).toNat = 4 :=
    (congrArg (1 <<< ·) ((firstByte_len x0).trans h)).trans rfl
  simp only [ReadVarInt, StateT.run_bind, ReadByte_run_cons, Except.ok_bind, hl, Nat.reduceEqDiff,
    ↓reduceIte, StateT.run_pure, Except.pure_eq_ok]

theorem ReadVarInt_eight (x0 x1 x2 x3 x4 x5 x6 x7 : UInt8) (r : List UInt8)
    (h : x0.toNat / 64 = 3) :
    ReadVarInt.run (x0 :: x1 :: x2 :: x3 :: x4 :: x5 :: x6 :: x7 :: r) =
      .ok (x7.toNat + x6.toNat <<< 8 + x5.toNat <<< 16 + x4.toNat <<< 24 + x3.toNat <<< 32 +
        x2.toNat <<< 40 + x1.toNat <<< 48 + (x0 &&& (0xff - 0xc0)).toNat <<< 56, r) := by
  have hl : 1 <<< ((x0 &&& 0xc0) >>> 6).toNat = 8 :=
    (congrArg (1 <<< ·) ((firstByte_len x0).trans h)).trans rfl
  simp only [ReadVarInt, StateT.run_bind, ReadByte_run_cons, Except.ok_bind, hl, Nat.reduceEqDiff,
    ↓reduceIte, StateT.run_pure, Except.pure_eq_ok]

theorem ReadVarInt_short (x0 : UInt8) (r : List UInt8)
    (h : (x0 :: r).length < 2 ^ (x0.toNat / 64)) : ReadVarInt.run (x0 :: r) = .error .EOF := by
  have hl := firstByte_shift x0
  rcases firstByte_class x0 with hk | hk | hk | hk <;> simp only [hk, Nat.reducePow] at h hl
  · simp at h
  all_goals
    rcases r with _ | ⟨x1, _ | ⟨x2, _ | ⟨x3, _ | ⟨x4, _ | ⟨x5, _ | ⟨x6, _ | ⟨x7, r⟩⟩⟩⟩⟩⟩⟩ <;>
      simp only [ReadVarInt, StateT.run_bind, ReadByte_run_cons, ReadByte_run_nil,
        Except.ok_bind, hl, Nat.reduceEqDiff, ↓reduceIte, List.length_cons] at h ⊢
    all_goals first | rfl | omega

theorem ReadVarInt_long (x0 : UInt8) (r : List UInt8)
    (h : 2 ^ (x0.toNat / 64) ≤ (x0 :: r).length) :
    ∃ v, ReadVarInt.run (x0 :: r) = .ok (v, (x0 :: r).drop (2 ^ (x0.toNat / 64))) := by
  rcases firstByte_class x0 with hk | hk | hk | hk <;> simp only [hk, Nat.reducePow] at h ⊢
  · exact ⟨_, ReadVarInt_one x0 r hk⟩
  · rcases r with _ | ⟨x1, r⟩
    · simp at h
    · exact ⟨_, ReadVarInt_two x0 x1 r hk⟩
  · rcases r with _ | ⟨x1, _ | ⟨x2, _ | ⟨x3, r⟩⟩⟩
    case cons.cons.cons => exact ⟨_, ReadVarInt_four x0 x1 x2 x3 r hk⟩
    all_goals simp at h
  · rcases r with _ | ⟨x1, _ | ⟨x2, _ | ⟨x3, _ | ⟨x4, _ | ⟨x5, _ | ⟨x6, _ | ⟨x7, r⟩⟩⟩⟩⟩⟩⟩
    case cons.cons.cons.cons.cons.cons.cons =>
      exact ⟨_, ReadVarInt_eight x0 x1 x2 x3 x4 x5 x6 x7 r hk⟩
    all_goals simp at h

theorem length_of_ReadVarInt {x0 : UInt8} {r : List UInt8} {v : Nat}
    (h : ReadVarInt.run (x0 :: r) = .ok (v, [])) : (x0 :: r).length = 2 ^ (x0.toNat / 64) := by
  by_cases hn : 2 ^ (x0.toNat / 64) ≤ (x0 :: r).length
  · obtain ⟨v', hv'⟩ := ReadVarInt_long x0 r hn
    have hd : (x0 :: r).drop (2 ^ (x0.toNat / 64)) = [] := by
      rw [h] at hv'
      exact (Prod.mk.inj (Except.ok.inj hv')).2.symm
    have := List.length_eq_zero_iff.mpr hd
    rw [List.length_drop] at this
    omega
  · rw [ReadVarInt_short x0 r (by omega)] at h
    cases h

theorem VarIntLen_le {i : Nat} {L : UInt64} (h : VarIntLen i = some L) : L.toNat ≤ 8 := by
  unfold VarIntLen at h
  split_ifs at h <;> (obtain rfl := Option.some.inj h; decide)

theorem VarIntLen_pos {i : Nat} {L : UInt64} (h : VarIntLen i = some L) : 1 ≤ L.toNat := by
  unfold VarIntLen at h
  split_ifs at h <;> (obtain rfl := Option.some.inj h; decide)

theorem VarIntLen_of_le_maxVarInt1 {i : Nat} (h : i ≤ maxVarInt1) : VarIntLen i = some 1 := by
  rw [VarIntLen, if_pos h]

theorem VarIntLen_of_le_maxVarInt2 {i : Nat} (h1 : maxVarInt1 < i) (h2 : i ≤ maxVarInt2) :
    VarIntLen i = some 2 := by
  rw [VarIntLen, if_neg (Nat.not_le.mpr h1), if_pos h2]

theorem le_maxVarInt1_of_VarIntLen {i : Nat} (h : VarIntLen i = some 1) : i ≤ maxVarInt1 := by
  unfold VarIntLen at h
  split_ifs at h with h1
  · exact h1
  all_goals exact absurd (Option.some.inj h) (by decide)

theorem le_maxVarInt8_of_VarIntLen {i : Nat} {L : UInt64} (h : VarIntLen i = some L) :
    i ≤ maxVarInt8 := by
  unfold VarIntLen at h
  split_ifs at h with h1 h2 h4 h8
  · exact le_trans h1 (by decide)
  · exact le_trans h2 (by decide)
  · exact le_trans h4 (by decide)
  · exact h8

theorem VarIntLen_isSome {i : Nat} (h : i ≤ maxVarInt8) : ∃ L, VarIntLen i = some L := by
  unfold VarIntLen
  split_ifs
  · exact ⟨1, rfl⟩
  · exact ⟨2, rfl⟩
  · exact ⟨4, rfl⟩
  · exact ⟨8, rfl⟩

theorem VarIntLen_le_two {i : Nat} (h : i ≤ maxVarInt2) :
    ∃ c, VarIntLen i = some c ∧ 1 ≤ c.toNat ∧ c.toNat ≤ 2 := by
  by_cases h1 : i ≤ maxVarInt1
  · exact ⟨1, VarIntLen_of_le_maxVarInt1 h1, by decide, by decide⟩
  · exact ⟨2, VarIntLen_of_le_maxVarInt2 (Nat.not_le.mp h1) h, by decide, by decide⟩

/-- Every varint up to `maxVarInt8` is read back from what `WriteVarInt` writes, which is as
many bytes as `VarIntLen` says. -/
theorem ReadVarInt_roundTrip {i : Nat} (hi : i ≤ maxVarInt8) :
    ∃ L, VarIntLen i = some L ∧ RoundTrip (WriteVarInt i) ReadVarInt i L.toNat := by
  have hb : ∀ n, (UInt8.ofNat n).toNat = n % 256 := ofNat_toNat
  by_cases h1 : i ≤ maxVarInt1
  · refine ⟨1, by rw [VarIntLen, if_pos h1], [UInt8.ofNat i], ?_, rfl, fun rest => ?_⟩
    · simp only [WriteVarInt, if_pos h1]
      exact WriteByte_emits _
    · unfold maxVarInt1 at h1
      rw [List.singleton_append, ReadVarInt_one _ _ (by rw [hb]; omega), firstByte_value, hb]
      congr 3
      omega
  by_cases h2 : i ≤ maxVarInt2
  · refine ⟨2, by rw [VarIntLen, if_neg h1, if_pos h2],
      [UInt8.ofNat (i >>> 8) ||| 0x40, UInt8.ofNat i], ?_, rfl, fun rest => ?_⟩
    · simp only [WriteVarInt, if_neg h1, if_pos h2]
      exact Write_emits _
    · unfold maxVarInt1 maxVarInt2 at *
      have h0 := or_prefix_toNat (i >>> 8) 0x40 (by rw [Nat.shiftRight_eq_div_pow]; omega) rfl
      simp only [UInt8.reduceToNat] at h0
      rw [List.cons_append, List.cons_append, List.nil_append,
        ReadVarInt_two _ _ _ (by rw [h0]; omega), firstByte_value, h0, hb, Nat.shiftLeft_eq]
      congr 3
      omega
  by_cases h4 : i ≤ maxVarInt4
  · refine ⟨4, by rw [VarIntLen, if_neg h1, if_neg h2, if_pos h4], [UInt8.ofNat (i >>> 24) ||| 0x80,
      UInt8.ofNat (i >>> 16), UInt8.ofNat (i >>> 8), UInt8.ofNat i], ?_, rfl, fun rest => ?_⟩
    · simp only [WriteVarInt, if_neg h1, if_neg h2, if_pos h4]
      exact Write_emits _
    · unfold maxVarInt1 maxVarInt2 maxVarInt4 at *
      have h0 := or_prefix_toNat (i >>> 24) 0x80 (by rw [Nat.shiftRight_eq_div_pow]; omega) rfl
      simp only [UInt8.reduceToNat] at h0
      rw [List.cons_append, List.cons_append, List.cons_append, List.cons_append, List.nil_append,
        ReadVarInt_four _ _ _ _ _ (by rw [h0]; omega), firstByte_value, h0]
      simp only [hb, Nat.shiftRight_eq_div_pow, Nat.shiftLeft_eq]
      congr 3
      omega
  · refine ⟨8, by rw [VarIntLen, if_neg h1, if_neg h2, if_neg h4, if_pos hi],
      [UInt8.ofNat (i >>> 56) ||| 0xc0, UInt8.ofNat (i >>> 48), UInt8.ofNat (i >>> 40),
        UInt8.ofNat (i >>> 32), UInt8.ofNat (i >>> 24), UInt8.ofNat (i >>> 16),
        UInt8.ofNat (i >>> 8), UInt8.ofNat i], ?_, rfl, fun rest => ?_⟩
    · simp only [WriteVarInt, if_neg h1, if_neg h2, if_neg h4, if_pos hi]
      exact Write_emits _
    · unfold maxVarInt1 maxVarInt2 maxVarInt4 maxVarInt8 at *
      have h0 := or_prefix_toNat (i >>> 56) 0xc0 (by rw [Nat.shiftRight_eq_div_pow]; omega) rfl
      simp only [UInt8.reduceToNat] at h0
      simp only [List.cons_append, List.nil_append]
      rw [ReadVarInt_eight _ _ _ _ _ _ _ _ _ (by rw [h0]; omega), firstByte_value, h0]
      simp only [hb, Nat.shiftRight_eq_div_pow, Nat.shiftLeft_eq]
      congr 3
      omega

/-- The wire format of a varint: the bytes written for a value below `2^62` are as many as
`VarIntLen` says, with that length in the two top bits of the first, and read back to the value;
and on any bytes `ReadVarInt` consumes what the first byte says or returns `io.EOF`. -/
theorem varInt_wire_format {i : Nat} (hi : i < 2 ^ 62) :
    (∃ L b0 bs, VarIntLen i = some L ∧ Emits (WriteVarInt i) (b0 :: bs) ∧
      (b0 :: bs).length = L.toNat ∧ 2 ^ (b0.toNat / 64) = L.toNat ∧
      Decodes ReadVarInt (b0 :: bs) i) ∧
    ReadVarInt.run [] = .error .EOF ∧
    ∀ (x0 : UInt8) (r : List UInt8),
      (2 ^ (x0.toNat / 64) ≤ (x0 :: r).length →
        ∃ v, ReadVarInt.run (x0 :: r) = .ok (v, (x0 :: r).drop (2 ^ (x0.toNat / 64)))) ∧
      ((x0 :: r).length < 2 ^ (x0.toNat / 64) → ReadVarInt.run (x0 :: r) = .error .EOF) := by
  refine ⟨?_, rfl, fun x0 r => ⟨ReadVarInt_long x0 r, ReadVarInt_short x0 r⟩⟩
  obtain ⟨L, hL, l, hw, hlen, hd⟩ := ReadVarInt_roundTrip (i := i) (by unfold maxVarInt8; omega)
  have hpos : 0 < l.length := by
    have := VarIntLen_pos hL
    omega
  obtain ⟨b0, bs, rfl⟩ := List.exists_cons_of_length_pos hpos
  have hread : ReadVarInt.run (b0 :: bs) = .ok (i, []) := by
    simpa using hd []
  exact ⟨L, b0, bs, hL, hw, hlen, (length_of_ReadVarInt hread).symm.trans hlen, hd⟩

theorem varInt_wire_format_16384 : 16384 < 2 ^ 62 ∧
    ∃ L b0 bs, VarIntLen 16384 = some L ∧ Emits (WriteVarInt 16384) (b0 :: bs) ∧
      (b0 :: bs).length = L.toNat ∧ 2 ^ (b0.toNat / 64) = L.toNat ∧
      Decodes ReadVarInt (b0 :: bs) 16384 :=
  ⟨by decide, (varInt_wire_format (by decide)).1⟩

end QuicGo.Utils
