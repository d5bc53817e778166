import MessageBus.Authentication.Handshake
import MessageBus.Distributor.HostPatterns
import MessageBus.Distributor.Sends
import MessageBus.Distributor.Steps

/-!
# SSPI identities

`Interactor.CreateSspi` negotiates the identity of a client and writes it to the log
(`Interactor.cs:108–111`); the user of the interactor is the one that the authenticator
answers with (lines 113–119), and the default authenticator reads it from the connection
string of the client. Here is what becomes of either in the messages that the distributor
sends for the client.
-/

namespace MessageBus.Distributor
open MessageBus.Base MessageBus.Common MessageBus.Messages MessageBus.Authentication

/-- What `CreateSspi` leaves: the name it logs, and the arguments of the constructor. -/
structure CreatedInteractor where
  authenticatedAs : String
  application : String
  roleManager : RoleManager

/-- `CreateSspi`, `Interactor.cs:91–129`, once the stream is negotiated and the connection
string is read from it. -/
def createSspi (toUpper : UInt16 → UInt16) (authenticator : Authenticator)
    (distributorRole : DistributorRole) (hostName remoteIdentity connectionString : String) :
    Except Exception CreatedInteractor := do
  let authenticationResponse ← authenticator.respond connectionString
  let roleManager ← RoleManager.new toUpper distributorRole hostName authenticationResponse.user
    authenticationResponse.impersonating authenticationResponse.forwardedFor
    authenticationResponse.feedRoles
  return ⟨remoteIdentity, authenticationResponse.application.getD "unspecified", roleManager⟩

/-- The interactor was made for a connection that the default authenticator accepted. -/
def Settings.AcceptedSspi (toUpper : UInt16 → UInt16) (settings : Settings) (i : Guid)
    (remoteIdentity connectionString : String) : Prop :=
  ∃ hostName created, createSspi toUpper .nullSspi settings.distributorRole hostName
      remoteIdentity connectionString = .ok created ∧
    created.roleManager = settings.roleManager i

/-- The user of an accepted connection is the one that its connection string names. -/
theorem Settings.AcceptedSspi.parse_eq {toUpper : UInt16 → UInt16} {settings : Settings} {i : Guid}
    {remoteIdentity connectionString : String}
    (h : settings.AcceptedSspi toUpper i remoteIdentity connectionString) :
    NullSspiAuthenticator.parse connectionString = .ok (settings.user i) := by
  obtain ⟨hostName, created, hcreated, hmanager⟩ := h
  unfold createSspi Authenticator.respond at hcreated
  cases hparse : NullSspiAuthenticator.parse connectionString with
  | error e =>
    rw [hparse] at hcreated
    cases hcreated
  | ok username =>
    rw [hparse] at hcreated
    cases hcreated
    -- The authenticator answers with no user to impersonate.
    have huser : settings.user i = username := by
      simp [Settings.user, ← hmanager, RoleManager.effectiveUser, RoleManager.bare]
    rw [huser]

namespace Server

variable (settings : Settings)

/-- The client that a message is sent for, and the user that the message names: the client of
a notice, and the publisher of data. -/
def sentFor (e : Event) : Message → Option (Guid × String)
  | .authorizationRequest m => some (m.clientId, m.user)
  | .forwardedSubscriptionRequest m => some (m.clientId, m.user)
  | .forwardedMulticastData m =>
    match e with
    | .message publisher (.multicastData _) => some (publisher, m.user)
    | _ => none
  | .forwardedUnicastData m =>
    match e with
    | .message publisher (.unicastData _) => some (publisher, m.user)
    | _ => none
  | _ => none

private theorem forwardedMulticast_of_mem {s : Server} {publisher c : Guid}
    {data : MulticastData} {m : Message}
    (hm : (c, m) ∈ sends settings s (.message publisher (.multicastData data))) :
    ∃ info, m = forwardedMulticast settings (some publisher) info data := by
  simp only [sends, multicastSends] at hm
  split at hm
  · obtain ⟨subscriber, -, hx⟩ := List.mem_map.mp hm
    cases hx
    exact ⟨subscriber.2, rfl⟩
  · cases hm

private theorem publication_of_sentFor {e : Event} {feed topic user : String} {i : Guid}
    (h : sentFor e (noData feed topic) = some (i, user)) :
    ∃ data, e = .message i (.multicastData data) := by
  cases e with
  | message publisher message =>
    cases message with
    | multicastData data =>
      cases h
      exact ⟨data, rfl⟩
    | _ => cases h
  | _ => cases h

/-- Every message names the user of the client that it is sent for. -/
theorem user_of_sentFor {s : Server} {e : Event} {c i : Guid} {m : Message} {user : String}
    (hm : (c, m) ∈ sends settings s e) (hfor : sentFor e m = some (i, user)) :
    user = settings.user i := by
  rcases mem_sends_made settings hm with hmade | ⟨publisher, data, info, rfl, -, -, rfl⟩ |
    ⟨publisher, data, info, rfl, -, -, -, rfl⟩
  · obtain ⟨c', feed, topic, rfl⟩ | ⟨c', request, rfl⟩ | ⟨feed, topic, rfl⟩ := hmade
    · cases hfor
      rfl
    · cases hfor
      rfl
    · -- A message without data is sent for nobody: publications send none.
      obtain ⟨data, rfl⟩ := publication_of_sentFor hfor
      obtain ⟨info, hdata⟩ := forwardedMulticast_of_mem settings hm
      rw [hdata] at hfor
      cases hfor
      rfl
  · cases hfor
    rfl
  · cases hfor
    rfl

end Server

/-! ### Runs -/

namespace System

variable (settings : Settings)

/-- A message that names a user was put on some queue for the client. -/
def SentFor (h : History System Action) (i : Guid) (user : String) : Prop :=
  ∃ x ∈ h, ∃ e, x.1.handled x.2 = some e ∧
    ∃ c, ∃ m ∈ delivered settings c x.1 x.2, Server.sentFor e m = some (i, user)

/-- The interactor has the user, and so has every message that is sent for it. -/
def IsKnownAs (i : Guid) (user : String) : Prop :=
  settings.user i = user ∧
    ∀ h s, Runs settings h s → ∀ user', SentFor settings h i user' → user' = user

private theorem isKnownAs_iff {i : Guid} {user : String} :
    IsKnownAs settings i user ↔ settings.user i = user := by
  refine ⟨And.left, fun h => ⟨h, ?_⟩⟩
  rintro - - - user' ⟨x, -, e, he, c, m, hm, hfor⟩
  obtain ⟨e', he', -, -, hsent⟩ := (mem_delivered settings).mp hm
  cases he.symm.trans he'
  rw [← h]
  exact Server.user_of_sentFor settings hsent hfor

/-- A client accepted by the default authenticator of SSPI connections is known by its
negotiated identity exactly if its connection string names it; two clients become one user
exactly if their connection strings name one. -/
theorem known_as_negotiated_iff (toUpper : UInt16 → UInt16) :
    (∀ i remoteIdentity connectionString,
      settings.AcceptedSspi toUpper i remoteIdentity connectionString →
      (IsKnownAs settings i remoteIdentity ↔
        NullSspiAuthenticator.parse connectionString = .ok remoteIdentity)) ∧
    ∀ i i' remoteIdentity remoteIdentity' connectionString connectionString',
      settings.AcceptedSspi toUpper i remoteIdentity connectionString →
      settings.AcceptedSspi toUpper i' remoteIdentity' connectionString' →
      remoteIdentity ≠ remoteIdentity' →
      (settings.user i ≠ settings.user i' ↔ NullSspiAuthenticator.parse connectionString ≠
        NullSspiAuthenticator.parse connectionString') := by
  constructor
  · intro i remoteIdentity connectionString haccepted
    rw [isKnownAs_iff, haccepted.parse_eq, Except.ok.injEq]
  · intro i i' remoteIdentity remoteIdentity' connectionString connectionString' h h' _
    rw [h.parse_eq, h'.parse_eq, ne_eq, ne_eq, Except.ok.injEq]

/-- A distributor on which each client is the user that its connection string names. -/
def named (name : Guid → String) : Settings where
  distributorRole := (Settings.permissive false).distributorRole
  isDebugEnabled := false
  heartbeat := ⟨0⟩
  roleManager i :=
    if i = ⟨0⟩ then heartbeatRoleManager
    else RoleManager.bare (Settings.permissive false).distributorRole "host" (name i) none none
  roleManager_heartbeat := if_pos rfl
  roleManager_distributorRole i hi := by
    rw [if_neg hi]
    rfl

/-- A client that names its own identity is known by it. -/
theorem known_as_alice : IsKnownAs (named fun _ => "DOMAIN\\alice") ⟨1⟩ "DOMAIN\\alice" := by
  have haccepted : (named fun _ => "DOMAIN\\alice").AcceptedSspi id ⟨1⟩ "DOMAIN\\alice"
      "Username=DOMAIN\\alice" := by
    refine ⟨"host", ⟨"DOMAIN\\alice", "unspecified", RoleManager.bare
      (Settings.permissive false).distributorRole "host" "DOMAIN\\alice" none none⟩, ?_, rfl⟩
    have hparse : NullSspiAuthenticator.parse "Username=DOMAIN\\alice" =
        .ok "DOMAIN\\alice" := by decide +kernel
    simp only [createSspi, Authenticator.respond, hparse]
    rfl
  exact ((known_as_negotiated_iff (named fun _ => "DOMAIN\\alice") id).1 ⟨1⟩ _ _ haccepted).mpr
    (by decide +kernel)

/-- A client may name another, where impersonation is not allowed. -/
theorem known_as_other :
    ¬ ∀ (toUpper : UInt16 → UInt16) (settings : Settings) (i : Guid)
      (remoteIdentity connectionString : String),
      settings.distributorRole.isImpersonationAllowed = false →
      settings.AcceptedSspi toUpper i remoteIdentity connectionString →
      IsKnownAs settings i remoteIdentity := by
  intro hclaim
  have haccepted : (named fun _ => "root").AcceptedSspi id ⟨1⟩ "DOMAIN\\alice"
      "Username=root" := by
    refine ⟨"host", ⟨"DOMAIN\\alice", "unspecified", RoleManager.bare
      (Settings.permissive false).distributorRole "host" "root" none none⟩, ?_, rfl⟩
    have hparse : NullSspiAuthenticator.parse "Username=root" = .ok "root" := by decide +kernel
    simp only [createSspi, Authenticator.respond, hparse]
    rfl
  have huser := (hclaim id (named fun _ => "root") ⟨1⟩ _ _ rfl haccepted).1
  exact absurd huser (by decide)

end System

end MessageBus.Distributor
