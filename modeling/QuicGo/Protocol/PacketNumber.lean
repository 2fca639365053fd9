import Mathlib.Data.Nat.Bitwise
import Mathlib.Algebra.Order.Group.Abs
import QuicGo.Protocol.Types

/-! Packet numbers on the wire (`internal/protocol/packet_number.go`). A packet number is sent
truncated to its low one to four bytes. -/
namespace QuicGo.Protocol

/-- `protocol.PacketNumberLen`, the number of bytes of a packet number on the wire -/
abbrev PacketNumberLen := UInt8

/-- `PacketNumberLenInvalid` is the default value and not a valid length. -/
def PacketNumberLenInvalid : PacketNumberLen := 0
def PacketNumberLen1 : PacketNumberLen := 1
def PacketNumberLen2 : PacketNumberLen := 2
def PacketNumberLen3 : PacketNumberLen := 3
def PacketNumberLen4 : PacketNumberLen := 4

/-- `delta`: the distance of two packet numbers. -/
def delta (a b : UInt64) : UInt64 :=
  if a < b then b - a else a - b

/-- `closestTo`: the one of `a` and `b` closer to `target`, `b` on a tie. -/
def closestTo (target a b : UInt64) : UInt64 :=
  if delta target a < delta target b then a else b

/-- `DecodePacketNumber`. A length other than one to four leaves `epochDelta` at 0. -/
def DecodePacketNumber (packetNumberLength : PacketNumberLen)
    (lastPacketNumber wirePacketNumber : UInt64) : UInt64 :=
  let epochDelta : UInt64 :=
    if packetNumberLength = PacketNumberLen1 then (1 : UInt64) <<< 8
    else if packetNumberLength = PacketNumberLen2 then (1 : UInt64) <<< 16
    else if packetNumberLength = PacketNumberLen3 then (1 : UInt64) <<< 24
    else if packetNumberLength = PacketNumberLen4 then (1 : UInt64) <<< 32
    else 0
  let epoch := lastPacketNumber &&& ~~~(epochDelta - 1)
  let prevEpochBegin := epoch - epochDelta
  let nextEpochBegin := epoch + epochDelta
  closestTo (lastPacketNumber + 1) (epoch + wirePacketNumber)
    (closestTo (lastPacketNumber + 1) (prevEpochBegin + wirePacketNumber)
      (nextEpochBegin + wirePacketNumber))

/-- `GetPacketNumberLengthForHeader` never chooses a single byte, which is too short in some
cases. -/
def GetPacketNumberLengthForHeader (packetNumber leastUnacked : UInt64) : PacketNumberLen :=
  let diff := packetNumber - leastUnacked
  if diff < (1 : UInt64) <<< (16 - 1) then PacketNumberLen2
  else if diff < (1 : UInt64) <<< (24 - 1) then PacketNumberLen3
  else PacketNumberLen4

/-! ### Distances and the closest candidate -/

theorem delta_toNat (a b : UInt64) :
    (delta a b).toNat = if a.toNat < b.toNat then b.toNat - a.toNat else a.toNat - b.toNat := by
  unfold delta
  by_cases h : a < b
  · rw [if_pos h, if_pos (UInt64.lt_iff_toNat_lt.mp h),
      UInt64.toNat_sub_of_le _ _ (UInt64.le_of_lt h)]
  · rw [if_neg h, if_neg (fun h' => h (UInt64.lt_iff_toNat_lt.mpr h')),
      UInt64.toNat_sub_of_le _ _ (UInt64.not_lt.mp h)]

/-- A candidate that is `p` itself or further from `t` than `p` is. -/
def NoCloser (t p c : UInt64) : Prop :=
  c = p ∨ (delta t p).toNat < (delta t c).toNat

theorem NoCloser.closestTo {t p a b : UInt64} (ha : NoCloser t p a) (hb : NoCloser t p b) :
    NoCloser t p (closestTo t a b) := by
  unfold QuicGo.Protocol.closestTo
  split
  · exact ha
  · exact hb

theorem closestTo_eq {t p a b : UInt64} (ha : NoCloser t p a) (hb : NoCloser t p b)
    (hab : a = p ∨ b = p) : closestTo t a b = p := by
  unfold closestTo
  rcases hab with rfl | rfl
  · split
    · rfl
    · rename_i hnlt
      rcases hb with rfl | hb
      · rfl
      · exact absurd (UInt64.lt_iff_toNat_lt.mpr hb) hnlt
  · split
    · rename_i hlt
      rcases ha with rfl | ha
      · rfl
      · exact absurd (UInt64.lt_iff_toNat_lt.mp hlt) (Nat.lt_asymm ha)
    · rfl

/-! ### Epochs -/

theorem land_two_pow_sub_two_pow {x k : Nat} (hx : x < 2 ^ 64) (hk : k ≤ 64) :
    x &&& (2 ^ 64 - 2 ^ k) = x / 2 ^ k * 2 ^ k := by
  apply Nat.eq_of_testBit_eq
  intro i
  have h1 : 2 ^ 64 - 2 ^ k = (2 ^ (64 - k) - 1) <<< k := by
    rw [Nat.shiftLeft_eq, Nat.sub_mul, one_mul, ← Nat.pow_add, Nat.sub_add_cancel hk]
  have h2 : x / 2 ^ k * 2 ^ k = (x >>> k) <<< k := by
    rw [Nat.shiftLeft_eq, Nat.shiftRight_eq_div_pow]
  rw [h1, h2, Nat.testBit_and, Nat.testBit_shiftLeft, Nat.testBit_shiftLeft,
    Nat.testBit_shiftRight, Nat.testBit_two_pow_sub_one]
  by_cases hik : k ≤ i
  · rw [Nat.add_sub_cancel' hik]
    by_cases hi : i < 64
    · simp [hik]
      omega
    · have hxi : x.testBit i = false :=
        Nat.testBit_lt_two_pow (lt_of_lt_of_le hx (Nat.pow_le_pow_right (by omega) (by omega)))
      simp [hxi]
  · simp [hik]

theorem epoch_toNat {L D : UInt64} {k : Nat} (hD : D.toNat = 2 ^ k) (hk : k ≤ 64) :
    (L &&& ~~~(D - 1)).toNat = L.toNat / 2 ^ k * 2 ^ k := by
  have h1 : (1 : UInt64) ≤ D := by
    rw [UInt64.le_iff_toNat_le, hD]
    exact Nat.one_le_two_pow
  have hmask : UInt64.size - 1 - (D - 1).toNat = 2 ^ 64 - 2 ^ k := by
    rw [UInt64.toNat_sub_of_le _ _ h1, hD]
    have := Nat.one_le_two_pow (n := k)
    simp only [UInt64.size, UInt64.reduceToNat]
    omega
  rw [UInt64.toNat_and, UInt64.toNat_not, hmask]
  exact land_two_pow_sub_two_pow L.toNat_lt hk

section Congruence
variable {D : Nat}

/-- Adding a multiple of `D` leaves a 64-bit number unchanged modulo `D`, for `D` dividing
`2^64`. -/
theorem toNat_add_mod_of_dvd (hD : D ∣ 2 ^ 64) {a b : UInt64} (ha : D ∣ a.toNat) :
    (a + b).toNat % D = b.toNat % D := by
  rw [UInt64.toNat_add, Nat.mod_mod_of_dvd _ hD, Nat.add_mod, Nat.mod_eq_zero_of_dvd ha,
    zero_add, Nat.mod_mod]

theorem dvd_toNat_add (hD : D ∣ 2 ^ 64) {a b : UInt64} (ha : D ∣ a.toNat) (hb : D ∣ b.toNat) :
    D ∣ (a + b).toNat := by
  rw [UInt64.toNat_add, Nat.dvd_mod_iff hD]
  exact Nat.dvd_add ha hb

theorem dvd_toNat_sub (hD : D ∣ 2 ^ 64) {a b : UInt64} (ha : D ∣ a.toNat) (hb : D ∣ b.toNat) :
    D ∣ (a - b).toNat := by
  rw [UInt64.toNat_sub, Nat.dvd_mod_iff hD]
  exact Nat.dvd_add (Nat.dvd_sub hD hb) ha

theorem add_le_of_mod_eq {x y : Nat} (hxy : x % D = y % D) (hlt : x < y) : x + D ≤ y := by
  have hdvd : D ∣ y - x := (Nat.modEq_iff_dvd' hlt.le).mp hxy
  have := Nat.le_of_dvd (by omega) hdvd
  omega

/-- A candidate that agrees with `p` modulo `D` is `p` or further from `t` than `p`, when `p`
lies within half of `D` from `t`. -/
theorem noCloser_of_mod_eq {t p c : UInt64} (hc : c.toNat % D = p.toNat % D)
    (hp : 2 * (delta t p).toNat < D) : NoCloser t p c := by
  by_cases hcp : c = p
  · exact .inl hcp
  right
  have hne : c.toNat ≠ p.toNat := fun h => hcp (UInt64.toNat_inj.mp h)
  rw [delta_toNat] at hp ⊢
  rw [delta_toNat]
  rcases Nat.lt_or_gt_of_ne hne with hlt | hlt
  · have := add_le_of_mod_eq hc hlt
    split_ifs at hp ⊢ <;> omega
  · have := add_le_of_mod_eq hc.symm hlt
    split_ifs at hp ⊢ <;> omega

/-- A number in `[base, base + D)`, with `base` a multiple of `D`, is `base` plus its
remainder. -/
theorem add_mod_eq_of_mem {base x : Nat} (hb : D ∣ base) (h1 : base ≤ x) (h2 : x < base + D) :
    base + x % D = x := by
  obtain ⟨m, rfl⟩ := hb
  have hx : x = (x - D * m) + D * m := by omega
  rw [hx, Nat.add_mul_mod_self_left, Nat.mod_eq_of_lt (by omega)]
  omega

end Congruence

/-! ### Decoding -/

/-- Decoding with an epoch of `2^k` bytes is exact for a packet number within half an epoch of the
next expected one, `L + 1`. -/
theorem decode_eq {k : Nat} (hk : 1 ≤ k) (hk' : k ≤ 32) {D L w pn : UInt64}
    (hD : D.toNat = 2 ^ k) (hw : w.toNat = pn.toNat % 2 ^ k) (hL : L.toNat + 1 < 2 ^ 64)
    (hclose : pn.toNat < L.toNat + 1 + 2 ^ (k - 1) ∧ L.toNat + 1 < pn.toNat + 2 ^ (k - 1)) :
    closestTo (L + 1) ((L &&& ~~~(D - 1)) + w)
      (closestTo (L + 1) ((L &&& ~~~(D - 1)) - D + w) ((L &&& ~~~(D - 1)) + D + w)) = pn := by
  set e := L &&& ~~~(D - 1) with he_def
  have he : e.toNat = L.toNat / 2 ^ k * 2 ^ k := epoch_toNat hD (by omega)
  have hhalf : 2 ^ k = 2 * 2 ^ (k - 1) := by
    rw [← Nat.pow_succ']
    congr 1
    omega
  have hdvd64 : 2 ^ k ∣ 2 ^ 64 := Nat.pow_dvd_pow 2 (by omega)
  have hedvd : 2 ^ k ∣ e.toNat := he ▸ Nat.dvd_mul_left _ _
  have hDdvd : 2 ^ k ∣ D.toNat := hD ▸ dvd_refl _
  have hT : (L + 1).toNat = L.toNat + 1 := by
    rw [UInt64.toNat_add, UInt64.toNat_one, Nat.mod_eq_of_lt hL]
  have hdm := Nat.div_add_mod' L.toNat (2 ^ k)
  have hmod := Nat.mod_lt L.toNat (Nat.two_pow_pos k)
  have hpn := pn.toNat_lt
  have hw' : w.toNat % 2 ^ k = pn.toNat % 2 ^ k := by rw [hw, Nat.mod_mod]
  have hnear : 2 * (delta (L + 1) pn).toNat < 2 ^ k := by
    rw [delta_toNat, hT]
    split_ifs <;> omega
  have hgood : ∀ c : UInt64, 2 ^ k ∣ c.toNat → NoCloser (L + 1) pn (c + w) := fun c hc =>
    noCloser_of_mod_eq ((toNat_add_mod_of_dvd hdvd64 hc).trans hw') hnear
  have h0 := hgood e hedvd
  have hprev := hgood (e - D) (dvd_toNat_sub hdvd64 hedvd hDdvd)
  have hnext := hgood (e + D) (dvd_toNat_add hdvd64 hedvd hDdvd)
  have hcand : e + w = pn ∨ e - D + w = pn ∨ e + D + w = pn := by
    have hr : ∀ base, 2 ^ k ∣ base → base ≤ pn.toNat → pn.toNat < base + 2 ^ k →
        base + pn.toNat % 2 ^ k = pn.toNat := fun _ => add_mod_eq_of_mem
    by_cases hlo : pn.toNat < e.toNat
    · right; left
      have hge : 2 ^ k ≤ e.toNat := Nat.le_of_dvd (by omega) hedvd
      have hx := hr _ (Nat.dvd_sub hedvd (dvd_refl _)) (by omega) (by omega)
      have hDe : D ≤ e := by rw [UInt64.le_iff_toNat_le, hD]; exact hge
      apply UInt64.toNat_inj.mp
      rw [UInt64.toNat_add, UInt64.toNat_sub_of_le _ _ hDe, hD, hw, hx, Nat.mod_eq_of_lt hpn]
    by_cases hhi : pn.toNat < e.toNat + 2 ^ k
    · left
      have hx := hr _ hedvd (by omega) hhi
      apply UInt64.toNat_inj.mp
      rw [UInt64.toNat_add, hw, hx, Nat.mod_eq_of_lt hpn]
    · right; right
      have hx := hr _ (Nat.dvd_add hedvd (dvd_refl _)) (by omega) (by omega)
      have hnowrap : e.toNat + 2 ^ k < 2 ^ 64 := by omega
      apply UInt64.toNat_inj.mp
      rw [UInt64.toNat_add, UInt64.toNat_add, hD, Nat.mod_eq_of_lt hnowrap, hw, hx,
        Nat.mod_eq_of_lt hpn]
  rcases hcand with hc | hc | hc
  · exact closestTo_eq h0 (hprev.closestTo hnext) (.inl hc)
  · exact closestTo_eq h0 (hprev.closestTo hnext) (.inr (closestTo_eq hprev hnext (.inl hc)))
  · exact closestTo_eq h0 (hprev.closestTo hnext) (.inr (closestTo_eq hprev hnext (.inr hc)))

/-- For the lengths one to four, `DecodePacketNumber` chooses among the candidates of an epoch of
`2^(8 * length)`. -/
theorem DecodePacketNumber_eq {l : PacketNumberLen} (hl : 1 ≤ l.toNat ∧ l.toNat ≤ 4)
    (L w : UInt64) : ∃ D : UInt64, D.toNat = 2 ^ (8 * l.toNat) ∧
      DecodePacketNumber l L w = closestTo (L + 1) ((L &&& ~~~(D - 1)) + w)
        (closestTo (L + 1) ((L &&& ~~~(D - 1)) - D + w) ((L &&& ~~~(D - 1)) + D + w)) := by
  have hcases : l = 1 ∨ l = 2 ∨ l = 3 ∨ l = 4 := by
    have : l.toNat = 1 ∨ l.toNat = 2 ∨ l.toNat = 3 ∨ l.toNat = 4 := by omega
    rcases this with h | h | h | h
    all_goals first
      | exact .inl (UInt8.toNat_inj.mp h)
      | exact .inr (.inl (UInt8.toNat_inj.mp h))
      | exact .inr (.inr (.inl (UInt8.toNat_inj.mp h)))
      | exact .inr (.inr (.inr (UInt8.toNat_inj.mp h)))
  rcases hcases with rfl | rfl | rfl | rfl
  · exact ⟨(1 : UInt64) <<< 8, rfl, rfl⟩
  · exact ⟨(1 : UInt64) <<< 16, rfl, rfl⟩
  · exact ⟨(1 : UInt64) <<< 24, rfl, rfl⟩
  · exact ⟨(1 : UInt64) <<< 32, rfl, rfl⟩

/-- The length the sender chooses leaves the packet number within half an epoch of every
number from the lowest unacknowledged one on, when they are less than `2^31` apart. -/
theorem GetPacketNumberLengthForHeader_spec {pn leastUnacked : UInt64}
    (hdiff : (pn - leastUnacked).toNat < 2 ^ 31) :
    2 ≤ (GetPacketNumberLengthForHeader pn leastUnacked).toNat ∧
      (GetPacketNumberLengthForHeader pn leastUnacked).toNat ≤ 4 ∧
      (pn - leastUnacked).toNat <
        2 ^ (8 * (GetPacketNumberLengthForHeader pn leastUnacked).toNat - 1) := by
  unfold GetPacketNumberLengthForHeader
  dsimp only
  split_ifs with h2 h3
  · have := UInt64.lt_iff_toNat_lt.mp h2
    exact ⟨by decide, by decide, by simpa [PacketNumberLen2] using this⟩
  · have := UInt64.lt_iff_toNat_lt.mp h3
    exact ⟨by decide, by decide, by simpa [PacketNumberLen3] using this⟩
  · exact ⟨by decide, by decide, by simpa [PacketNumberLen4] using hdiff⟩

/-- A packet number below `2^62` within `2^(8l-1)` of the next expected number `L + 1` is
decoded from its low `l` bytes; and for every packet number less than `2^31` after the lowest
unacknowledged one, the length `GetPacketNumberLengthForHeader` chooses leaves that margin, so
every receiver whose last packet number lies from just below the lowest unacknowledged one up to
before the packet number decodes it. -/
theorem DecodePacketNumber_truncated {l : PacketNumberLen} (hl : 1 ≤ l.toNat ∧ l.toNat ≤ 4)
    {L pn : UInt64} (hpn : pn.toNat < 2 ^ 62)
    (hclose : |(pn.toNat : ℤ) - (L.toNat + 1)| < 2 ^ (8 * l.toNat - 1)) :
    DecodePacketNumber l L (UInt64.ofNat (pn.toNat % 2 ^ (8 * l.toNat))) = pn ∧
      ∀ pn' lowestUnacked : UInt64, lowestUnacked ≤ pn' →
        (pn' - lowestUnacked).toNat < 2 ^ 31 →
        let l' := GetPacketNumberLengthForHeader pn' lowestUnacked
        (pn' - lowestUnacked).toNat < 2 ^ (8 * l'.toNat - 1) ∧
          ∀ L' : UInt64, lowestUnacked.toNat ≤ L'.toNat + 1 → L' < pn' →
            DecodePacketNumber l' L' (UInt64.ofNat (pn'.toNat % 2 ^ (8 * l'.toNat))) = pn' := by
  have htrunc : ∀ (k : Nat) (p : UInt64), k ≤ 32 →
      (UInt64.ofNat (p.toNat % 2 ^ k)).toNat = p.toNat % 2 ^ k := fun k p hk => by
    rw [UInt64.toNat_ofNat', Nat.mod_eq_of_lt]
    exact lt_of_lt_of_le (Nat.mod_lt _ (Nat.two_pow_pos k))
      (Nat.pow_le_pow_right (by omega) (by omega))
  refine ⟨?_, fun pn' lowestUnacked hle hdiff => ?_⟩
  · obtain ⟨D, hD, hdec⟩ :=
      DecodePacketNumber_eq hl L (UInt64.ofNat (pn.toNat % 2 ^ (8 * l.toNat)))
    rw [hdec]
    obtain ⟨M, hM⟩ : ∃ M : ℕ, 2 ^ (8 * l.toNat - 1) = M := ⟨_, rfl⟩
    have hMle : M ≤ 2 ^ 31 := hM ▸ Nat.pow_le_pow_right (by omega) (by omega)
    have hpow : (2 : ℤ) ^ (8 * l.toNat - 1) = M := by rw [← hM]; push_cast; rfl
    obtain ⟨h1, h2⟩ := abs_sub_lt_iff.mp (hpow ▸ hclose)
    exact decode_eq (by omega) (by omega) hD (htrunc _ _ (by omega)) (by omega)
      ⟨by rw [hM]; omega, by rw [hM]; omega⟩
  · obtain ⟨hlo, hhi, hmargin⟩ := GetPacketNumberLengthForHeader_spec hdiff
    refine ⟨hmargin, fun L' hL' hlt => ?_⟩
    have hlt' := UInt64.lt_iff_toNat_lt.mp hlt
    have hsub : (pn' - lowestUnacked).toNat = pn'.toNat - lowestUnacked.toNat :=
      UInt64.toNat_sub_of_le _ _ hle
    have hpn' := pn'.toNat_lt
    generalize GetPacketNumberLengthForHeader pn' lowestUnacked = l' at hlo hhi hmargin ⊢
    obtain ⟨D, hD, hdec⟩ :=
      DecodePacketNumber_eq ⟨by omega, hhi⟩ L' (UInt64.ofNat (pn'.toNat % 2 ^ (8 * l'.toNat)))
    rw [hdec]
    exact decode_eq (by omega) (by omega) hD (htrunc _ _ (by omega)) (by omega)
      ⟨by omega, by omega⟩

/-- The example of the QUIC transport draft: `0x9b32` received after `0xa82f30ea` is
`0xa82f9b32`. -/
theorem DecodePacketNumber_truncated_draft :
    (1 ≤ (2 : PacketNumberLen).toNat ∧ (2 : PacketNumberLen).toNat ≤ 4) ∧
      (0xa82f9b32 : UInt64).toNat < 2 ^ 62 ∧
      |((0xa82f9b32 : UInt64).toNat : ℤ) - ((0xa82f30ea : UInt64).toNat + 1)| <
        2 ^ (8 * (2 : PacketNumberLen).toNat - 1) ∧
      DecodePacketNumber 2 0xa82f30ea (UInt64.ofNat ((0xa82f9b32 : UInt64).toNat % 2 ^ (8 * 2))) =
        0xa82f9b32 :=
  ⟨by decide, by decide, by decide,
    (DecodePacketNumber_truncated (L := 0xa82f30ea) (by decide) (by decide) (by decide)).1⟩

end QuicGo.Protocol
