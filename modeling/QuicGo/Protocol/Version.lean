import Mathlib.Data.List.Basic
import Mathlib.Data.UInt

/-! The version numbers of `internal/protocol/version.go`. `ChooseSupportedVersion` picks the first
of our versions, in our order of preference, that the peer also lists. -/
namespace QuicGo.Protocol

/-- `protocol.VersionNumber` -/
abbrev VersionNumber := UInt32

def VersionTLS : VersionNumber := 0x51474fff

/-- `SupportedVersions` lists the versions that the server supports. -/
def SupportedVersions : List VersionNumber := [VersionTLS]

/-- `IsSupportedVersion` returns true if the server supports this version. -/
def IsSupportedVersion (supported : List VersionNumber) (v : VersionNumber) : Bool :=
  supported.any (· == v)

/-- `IsValidVersion` says if the version is known to quic-go. -/
def IsValidVersion (v : VersionNumber) : Bool :=
  v == VersionTLS || IsSupportedVersion SupportedVersions v

/-- `ChooseSupportedVersion` finds the best version in the overlap of ours and theirs; ours is
sorted by our preference. -/
def ChooseSupportedVersion : List VersionNumber → List VersionNumber → VersionNumber × Bool
  | [], _ => (0, false)
  | ourVer :: ours, theirs =>
    if theirs.any (· == ourVer) then (ourVer, true) else ChooseSupportedVersion ours theirs

/-- The reserved versions, the form `generateReservedVersion` produces and
`StripGreasedVersions` removes. -/
def IsReservedVersion (v : VersionNumber) : Bool :=
  v &&& 0x0f0f0f0f == 0x0a0a0a0a

/-- `generateReservedVersion`, from the four random bytes it reads. -/
def generateReservedVersion (b : UInt32) : VersionNumber :=
  (b ||| 0x0a0a0a0a) &&& 0xfafafafa

/-- `GetGreasedVersions` adds one reserved version number at a random position; `posByte` is
the random byte that picks the position and `b` the random bytes of the reserved version. -/
def GetGreasedVersions (supported : List VersionNumber) (posByte : UInt8) (b : UInt32) :
    List VersionNumber :=
  let randPos := posByte.toNat % (supported.length + 1)
  supported.take randPos ++ generateReservedVersion b :: supported.drop randPos

/-- `StripGreasedVersions` strips all greased versions from a slice of versions. -/
def StripGreasedVersions (versions : List VersionNumber) : List VersionNumber :=
  versions.filter fun v => v &&& 0x0f0f0f0f != 0x0a0a0a0a

@[simp] theorem IsSupportedVersion_iff (supported : List VersionNumber) (v : VersionNumber) :
    IsSupportedVersion supported v = true ↔ v ∈ supported := by
  simp [IsSupportedVersion]

private theorem or_and_self_uint32 (b a : UInt32) : (b ||| a) &&& a = a := by
  apply UInt32.toBitVec_inj.mp
  ext i
  simp only [UInt32.toBitVec_and, UInt32.toBitVec_or, BitVec.getElem_and, BitVec.getElem_or,
    Bool.and_eq_right_iff_imp, Bool.or_eq_true]
  exact Or.inr

theorem generateReservedVersion_reserved (b : UInt32) :
    IsReservedVersion (generateReservedVersion b) = true := by
  have hmask : (0xfafafafa : UInt32) &&& 0x0f0f0f0f = 0x0a0a0a0a := by decide
  simp only [IsReservedVersion, generateReservedVersion, UInt32.and_assoc, hmask,
    or_and_self_uint32, beq_self_eq_true]

@[simp] theorem mem_GetGreasedVersions {supported : List VersionNumber} {posByte : UInt8}
    {b v : UInt32} :
    v ∈ GetGreasedVersions supported posByte b ↔ v ∈ supported ∨ v = generateReservedVersion b := by
  have hsplit := List.take_append_drop (posByte.toNat % (supported.length + 1)) supported
  constructor
  · intro hv
    simp only [GetGreasedVersions, List.mem_append, List.mem_cons] at hv
    rcases hv with hv | rfl | hv
    · exact .inl (List.mem_of_mem_take hv)
    · exact .inr rfl
    · exact .inl (List.mem_of_mem_drop hv)
  · rintro (hv | rfl)
    · rw [← hsplit, List.mem_append] at hv
      simp only [GetGreasedVersions, List.mem_append, List.mem_cons]
      tauto
    · simp [GetGreasedVersions]

/-- Stripping the greased versions from a greased list of versions none of which is reserved
gives the list back, wherever the reserved version was put. -/
theorem StripGreasedVersions_GetGreasedVersions {supported : List VersionNumber}
    (hs : ∀ v ∈ supported, IsReservedVersion v = false) (posByte : UInt8) (b : UInt32) :
    StripGreasedVersions (GetGreasedVersions supported posByte b) = supported := by
  have hkeep : ∀ v, (v &&& 0x0f0f0f0f != 0x0a0a0a0a) = !IsReservedVersion v := fun _ => rfl
  have hsub : ∀ l : List VersionNumber, l.Sublist supported →
      l.filter (fun v => v &&& 0x0f0f0f0f != 0x0a0a0a0a) = l := by
    intro l hl
    refine List.filter_eq_self.mpr fun v hv => ?_
    rw [hkeep, hs v (hl.subset hv), Bool.not_false]
  have hg : (generateReservedVersion b &&& 0x0f0f0f0f != 0x0a0a0a0a) = false := by
    rw [hkeep, generateReservedVersion_reserved, Bool.not_true]
  unfold StripGreasedVersions GetGreasedVersions
  rw [List.filter_append, List.filter_cons_of_neg (by rw [hg]; exact Bool.false_ne_true),
    hsub _ (List.take_sublist _ _), hsub _ (List.drop_sublist _ _), List.take_append_drop]

theorem ChooseSupportedVersion_eq (ours theirs : List VersionNumber) :
    ChooseSupportedVersion ours theirs =
      match ours.find? (· ∈ theirs) with
      | some v => (v, true)
      | none => (0, false) := by
  induction ours with
  | nil => rfl
  | cons ourVer ours ih =>
    by_cases h : ourVer ∈ theirs
    · simp [ChooseSupportedVersion, h]
    · simp [ChooseSupportedVersion, h, ih]

theorem ChooseSupportedVersion_congr {ours theirs theirs' : List VersionNumber}
    (h : ∀ v ∈ ours, v ∈ theirs ↔ v ∈ theirs') :
    ChooseSupportedVersion ours theirs = ChooseSupportedVersion ours theirs' := by
  induction ours with
  | nil => rfl
  | cons ourVer ours ih =>
    have hhead := h ourVer List.mem_cons_self
    have htail := ih fun v hv => h v (List.mem_cons_of_mem _ hv)
    by_cases hmem : ourVer ∈ theirs
    · simp [ChooseSupportedVersion, hmem, hhead.mp hmem]
    · simp [ChooseSupportedVersion, hmem, mt hhead.mpr hmem, htail]

/-- A greased list leads to the same choice as the list it greases, for ours without reserved
versions: the version it adds is reserved. -/
theorem ChooseSupportedVersion_GetGreasedVersions {ours theirs : List VersionNumber}
    (hres : ∀ v ∈ ours, IsReservedVersion v = false) (posByte : UInt8) (b : UInt32) :
    ChooseSupportedVersion ours (GetGreasedVersions theirs posByte b) =
      ChooseSupportedVersion ours theirs := by
  apply ChooseSupportedVersion_congr
  intro v hv
  have hne : v ≠ generateReservedVersion b := by
    rintro rfl
    have hreserved := hres _ hv
    rw [generateReservedVersion_reserved] at hreserved
    cases hreserved
  simp [hne]

theorem ChooseSupportedVersion_cons_of_mem {ourVer : VersionNumber} {theirs : List VersionNumber}
    (ours : List VersionNumber) (h : ourVer ∈ theirs) :
    ChooseSupportedVersion (ourVer :: ours) theirs = (ourVer, true) := by
  simp [ChooseSupportedVersion, h]

theorem mem_of_ChooseSupportedVersion {ours theirs : List VersionNumber} {v : VersionNumber}
    (h : ChooseSupportedVersion ours theirs = (v, true)) : v ∈ ours ∧ v ∈ theirs := by
  induction ours with
  | nil => simp [ChooseSupportedVersion] at h
  | cons ourVer ours ih =>
    by_cases hmem : ourVer ∈ theirs
    · have hv : ourVer = v := by simpa [ChooseSupportedVersion, hmem] using h
      exact ⟨hv ▸ List.mem_cons_self, hv ▸ hmem⟩
    · have htail : ChooseSupportedVersion ours theirs = (v, true) := by
        simpa [ChooseSupportedVersion, hmem] using h
      exact (ih htail).imp_left (List.mem_cons_of_mem _)

end QuicGo.Protocol
