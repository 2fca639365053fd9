import QuicGo.Protocol.Version
import QuicGo.Lib.Reachable
import QuicGo.Lib.Except

/-! Version negotiation between a client and a server, and its downgrade protection. The client
starts with the first of its versions. -/
namespace QuicGo
open Protocol Lib

/-- The transport parameters that the client checks besides the versions. -/
structure TransportParameters where
  StatelessResetToken : List UInt8
  OriginalConnectionID : List UInt8
  deriving DecidableEq, Repr

/-- The transport parameters sent in the ClientHello. -/
structure ClientHelloTransportParameters where
  InitialVersion : VersionNumber
  Parameters : TransportParameters
  deriving DecidableEq, Repr

/-- The transport parameters sent in the EncryptedExtensions. -/
structure EncryptedExtensionsTransportParameters where
  NegotiatedVersion : VersionNumber
  SupportedVersions : List VersionNumber
  Parameters : TransportParameters
  deriving DecidableEq, Repr

/-- The errors of the transport parameter checks; the first four close the connection with
`VersionNegotiationMismatch`. -/
inductive transportParameterError where
  /-- "current version doesn't match negotiated_version" -/
  | negotiatedVersionMismatch
  /-- "current version not included in the supported versions" -/
  | currentVersionNotSupported
  /-- "would have picked a different version" -/
  | wouldHavePickedDifferentVersion
  /-- "Client should have used the initial version" -/
  | shouldHaveUsedInitialVersion
  /-- "server didn't send stateless_reset_token" -/
  | noStatelessResetToken
  /-- "expected original_connection_id to equal %s, is %s" -/
  | originalConnectionIDMismatch (expected actual : List UInt8)
  deriving DecidableEq, Repr

/-- The fields of `session` that the transport parameter checks read. -/
structure versionSession where
  version : VersionNumber
  initialVersion : VersionNumber
  versions : List VersionNumber
  origDestConnID : List UInt8
  deriving DecidableEq, Repr

namespace versionSession

def processTransportParametersForClient (s : versionSession)
    (eetp : EncryptedExtensionsTransportParameters) :
    Except transportParameterError TransportParameters := do
  -- check that the negotiated_version is the current version
  if eetp.NegotiatedVersion ≠ s.version then throw .negotiatedVersionMismatch
  -- check that the current version is included in the supported versions
  if !IsSupportedVersion eetp.SupportedVersions s.version then throw .currentVersionNotSupported
  -- if version negotiation was performed, check that we would have selected the current version
  -- based on the supported versions sent by the server
  if s.version ≠ s.initialVersion then
    let (negotiatedVersion, ok) := ChooseSupportedVersion s.versions eetp.SupportedVersions
    if !ok ∨ s.version ≠ negotiatedVersion then throw .wouldHavePickedDifferentVersion
  let params := eetp.Parameters
  if params.StatelessResetToken.length = 0 then throw .noStatelessResetToken
  if params.OriginalConnectionID ≠ s.origDestConnID then
    throw (.originalConnectionIDMismatch s.origDestConnID params.OriginalConnectionID)
  return params

/-- The stateless version negotiation validation: the server would have sent a Version
Negotiation packet if the client offered the initial version. -/
def processTransportParametersForServer (s : versionSession)
    (chtp : ClientHelloTransportParameters) :
    Except transportParameterError TransportParameters := do
  if chtp.InitialVersion ≠ s.version ∧ IsSupportedVersion s.versions chtp.InitialVersion then
    throw .shouldHaveUsedInitialVersion
  return chtp.Parameters

/-- The parameters the server's session sends: its version and its greased versions. -/
def encryptedExtensions (s : versionSession) (posByte : UInt8) (b : UInt32)
    (params : TransportParameters) : EncryptedExtensionsTransportParameters :=
  ⟨s.version, GetGreasedVersions s.versions posByte b, params⟩

/-- What the client's check establishes when it accepts: the server speaks the client's version
and lists it, and a client that switched would have switched to it again. -/
theorem processTransportParametersForClient_ok {s : versionSession}
    {eetp : EncryptedExtensionsTransportParameters} {params : TransportParameters}
    (h : s.processTransportParametersForClient eetp = .ok params) :
    eetp.NegotiatedVersion = s.version ∧ s.version ∈ eetp.SupportedVersions ∧
      (s.version ≠ s.initialVersion →
        ChooseSupportedVersion s.versions eetp.SupportedVersions = (s.version, true)) := by
  by_cases hneg : eetp.NegotiatedVersion = s.version
  swap
  · simp [processTransportParametersForClient, hneg] at h
  by_cases hmem : s.version ∈ eetp.SupportedVersions
  swap
  · have hunsupported : IsSupportedVersion eetp.SupportedVersions s.version = false :=
      Bool.eq_false_iff.mpr fun hsup => hmem ((IsSupportedVersion_iff _ _).mp hsup)
    simp [processTransportParametersForClient, hneg, hunsupported] at h
  have hsupported : IsSupportedVersion eetp.SupportedVersions s.version = true :=
    (IsSupportedVersion_iff _ _).mpr hmem
  refine ⟨hneg, hmem, fun hswitched => ?_⟩
  rcases hchoose : ChooseSupportedVersion s.versions eetp.SupportedVersions with ⟨v, ok⟩
  cases ok
  · simp [processTransportParametersForClient, hneg, hsupported, hswitched, hchoose] at h
  · by_cases hv : s.version = v
    · rw [hv]
    · simp [processTransportParametersForClient, hneg, hsupported, hswitched, hchoose, hv] at h

end versionSession

/-- The fields of `client` that version negotiation reads and writes. -/
structure client where
  versions : List VersionNumber
  version : VersionNumber
  initialVersion : VersionNumber
  receivedVersionNegotiationPacket : Bool
  versionNegotiated : Bool
  negotiatedVersions : List VersionNumber
  deriving DecidableEq, Repr

/-- The packets that reach the client: a Version Negotiation packet with its list of versions,
or any other packet. -/
inductive clientPacket where
  | versionNegotiation (SupportedVersions : List VersionNumber)
  | other
  deriving DecidableEq, Repr

namespace client

/-- The client as `dialContext` creates it, speaking the first of its versions. -/
def newClient (versions : List VersionNumber) (h : versions ≠ []) : client where
  versions
  version := versions.head h
  initialVersion := 0
  receivedVersionNegotiationPacket := false
  versionNegotiated := false
  negotiatedVersions := []

/-- The session `createNewTLSSession` creates for the client's current version. -/
def session (c : client) (origDestConnID : List UInt8) : versionSession :=
  ⟨c.version, c.initialVersion, c.versions, origDestConnID⟩

/-- `handleVersionNegotiationPacket`; `none` when no version is compatible and the session is
destroyed with `InvalidVersion`. -/
def handleVersionNegotiationPacket (c : client) (SupportedVersions : List VersionNumber) :
    Option client :=
  -- ignore delayed / duplicated version negotiation packets
  if c.receivedVersionNegotiationPacket ∨ c.versionNegotiated then some c
  -- the packet contains the version that we offered: it might be sent by an attacker
  else if c.version ∈ SupportedVersions then some c
  else
    match ChooseSupportedVersion c.versions SupportedVersions with
    | (_, false) => none
    | (newVersion, true) => some { c with
        receivedVersionNegotiationPacket := true
        negotiatedVersions := SupportedVersions
        initialVersion := c.version
        version := newVersion }

/-- `handlePacket`: a packet other than a Version Negotiation packet shows that the server
supports the version offered. -/
def handlePacket (c : client) : clientPacket → Option client
  | .versionNegotiation versions => c.handleVersionNegotiationPacket versions
  | .other => some { c with versionNegotiated := true }

/-- The client's versions: it either kept its first version and reports no initial version, or
switched once, away from its first version, and reports that one as its initial version. -/
def NegotiationInv (c : client) : Prop :=
  ∃ first rest, c.versions = first :: rest ∧
    ((c.receivedVersionNegotiationPacket = false ∧ c.version = first ∧ c.initialVersion = 0) ∨
      (c.receivedVersionNegotiationPacket = true ∧ c.initialVersion = first ∧
        c.version ∈ c.versions ∧ c.version ≠ first))

theorem NegotiationInv.newClient (versions : List VersionNumber) (h : versions ≠ []) :
    (client.newClient versions h).NegotiationInv := by
  obtain ⟨first, rest, rfl⟩ := List.exists_cons_of_ne_nil h
  exact ⟨first, rest, rfl, .inl ⟨rfl, rfl, rfl⟩⟩

/-- The one switch keeps the invariant: the new version is one of ours that the packet lists,
and the packet does not list the version offered. -/
theorem NegotiationInv.handleVersionNegotiationPacket {c c' : client}
    {SupportedVersions : List VersionNumber} (hc : c.NegotiationInv)
    (h : c.handleVersionNegotiationPacket SupportedVersions = some c') : c'.NegotiationInv := by
  obtain ⟨first, rest, hversions, hinv⟩ := hc
  unfold client.handleVersionNegotiationPacket at h
  split_ifs at h with hignore hoffered
  · cases h; exact ⟨first, rest, hversions, hinv⟩
  · cases h; exact ⟨first, rest, hversions, hinv⟩
  · split at h
    · cases h
    · rename_i newVersion hchoose
      cases h
      have hfirst : c.version = first := by
        rcases hinv with ⟨_, hv, _⟩ | ⟨hreceived, -⟩
        · exact hv
        · simp [hreceived] at hignore
      obtain ⟨hours, htheirs⟩ := mem_of_ChooseSupportedVersion hchoose
      refine ⟨first, rest, hversions, .inr ⟨rfl, hfirst, hours, ?_⟩⟩
      rintro rfl
      exact hoffered (hfirst ▸ htheirs)

theorem NegotiationInv.handlePacket {c c' : client} {p : clientPacket} (hc : c.NegotiationInv)
    (h : c.handlePacket p = some c') : c'.NegotiationInv := by
  cases p with
  | versionNegotiation versions => exact hc.handleVersionNegotiationPacket h
  | other =>
    cases h
    exact hc

theorem handleVersionNegotiationPacket_versions {c c' : client}
    {SupportedVersions : List VersionNumber}
    (h : c.handleVersionNegotiationPacket SupportedVersions = some c') : c'.versions = c.versions := by
  unfold client.handleVersionNegotiationPacket at h
  split_ifs at h
  · cases h; rfl
  · cases h; rfl
  · split at h
    · cases h
    · cases h; rfl

theorem handlePacket_versions {c c' : client} {p : clientPacket} (h : c.handlePacket p = some c') :
    c'.versions = c.versions := by
  cases p with
  | versionNegotiation versions => exact handleVersionNegotiationPacket_versions h
  | other => cases h; rfl

/-- In every state the client reaches, whatever Version Negotiation packets the network or an
attacker delivers: if the client accepts the parameters of a server session, that session speaks
the client's version and that version is the one `ChooseSupportedVersion` picks from the two
configurations. The server's check is not needed for this: the client's own selection over the
server's authentic list of versions already rules out a downgrade. -/
theorem versions_agree_of_client_accepts {versions : List VersionNumber} (hne : versions ≠ [])
    (hres : ∀ v ∈ versions, IsReservedVersion v = false) {c : client}
    (hc : Reachable handlePacket (fun _ _ => True) (newClient versions hne) c)
    {server : versionSession} {origDestConnID : List UInt8} {posByte : UInt8} {b : UInt32}
    {eep params : TransportParameters}
    (hclient : (c.session origDestConnID).processTransportParametersForClient
      (server.encryptedExtensions posByte b eep) = .ok params) :
    server.version = c.version ∧ ChooseSupportedVersion versions server.versions = (c.version, true) := by
  have hversions : c.versions = versions :=
    hc.invariant (P := fun c => c.versions = versions) rfl
      fun _ _ _ hs _ hstep => (handlePacket_versions hstep).trans hs
  have hinv : c.NegotiationInv :=
    hc.invariant (NegotiationInv.newClient versions hne) fun _ _ _ hs _ hstep => hs.handlePacket hstep
  obtain ⟨hneg, hmem, hchoose⟩ := versionSession.processTransportParametersForClient_ok hclient
  refine ⟨hneg, ?_⟩
  obtain ⟨first, rest, hfirst, hinv⟩ := hinv
  rcases hinv with ⟨-, hv, -⟩ | ⟨-, hinitial, -, hswitched⟩
  · have hgreased : c.version ∈ GetGreasedVersions server.versions posByte b := hmem
    have hreserved : c.version ≠ generateReservedVersion b := by
      intro heq
      have := hres c.version (hversions ▸ hfirst ▸ hv ▸ List.mem_cons_self)
      simp [heq, generateReservedVersion_reserved] at this
    have hsupported : c.version ∈ server.versions := by
      simpa [hreserved] using hgreased
    rw [← hversions, hfirst, hv]
    exact ChooseSupportedVersion_cons_of_mem rest (hv ▸ hsupported)
  · have hchosen := hchoose (by simpa [session, hinitial] using hswitched)
    simp only [session, versionSession.encryptedExtensions, hversions] at hchosen
    rwa [ChooseSupportedVersion_GetGreasedVersions hres] at hchosen

/-- A client preferring version 1 switches to `VersionTLS` on a Version Negotiation packet that
lists only it, and accepts a server session of that version. -/
theorem versions_agree_after_switch :
    ∃ c, run handlePacket (fun _ _ => True) (newClient [1, VersionTLS] (List.cons_ne_nil _ _))
        [.versionNegotiation [VersionTLS]] = some c ∧
      (⟨VersionTLS, 0, [VersionTLS], []⟩ : versionSession).version = c.version ∧
      ChooseSupportedVersion [1, VersionTLS] [VersionTLS] = (c.version, true) := by
  have hrun : run handlePacket (fun _ _ => True) (newClient [1, VersionTLS] (List.cons_ne_nil _ _))
      [.versionNegotiation [VersionTLS]] = some _ := rfl
  have hres : ∀ v ∈ [1, VersionTLS], IsReservedVersion v = false := by
    intro v hv
    simp only [List.mem_cons, List.not_mem_nil, or_false] at hv
    rcases hv with rfl | rfl <;> rfl
  exact ⟨_, hrun, @versions_agree_of_client_accepts [1, VersionTLS] (List.cons_ne_nil _ _)
    hres _ (reachable_of_run .init hrun) ⟨VersionTLS, 0, [VersionTLS], []⟩ [] 0 0
    ⟨[42], []⟩ ⟨[42], []⟩ (by decide)⟩

end client

end QuicGo
