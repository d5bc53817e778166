import MessageBus.Distributor.RoleDecisions
import MessageBus.Distributor.System

/-!
# Claimed identities

A client may claim to act for another user, and for another host. Where the distributor
does not allow the claim, nothing depends on it: neither what the role manager decides nor
any step of the distributor.
-/

namespace MessageBus.Distributor
open MessageBus.Base MessageBus.Common MessageBus.Messages

/-! ### The role manager -/

namespace RoleManager

/-- The effective host, the permissions selected for it, and the answers to any queries. -/
def access (m : RoleManager) :
    String × Dictionary String Permission × (List (String × Role) → List Bool) :=
  (m.effectiveHost, m.feedPermissions, m.answers ∅)

/-- Role managers that answer each query alike give the same answers. -/
theorem answers_congr {m m' : RoleManager} (h : m.queryRole = m'.queryRole) :
    m.answers = m'.answers := by
  funext memo queries
  induction queries generalizing memo with
  | nil => rfl
  | cons q queries ih => rw [answers, answers, h, ih]

/-- A role manager with other claims. -/
def withClaims (m : RoleManager) (impersonating forwardedFor : Option String) : RoleManager :=
  { m with impersonating, forwardedFor }

section
variable (toUpper : UInt16 → UInt16) {distributorRole : DistributorRole} {host user : String}
  (impersonating impersonating' forwardedFor forwardedFor' : Option String)
  (feedPermissions : Option (Dictionary String HostPermissions))

/-- The claimed host is not the effective one where it is not allowed. -/
theorem effectiveHost_bare (hproxy : distributorRole.isProxyAllowed = false) :
    (bare distributorRole host user impersonating' forwardedFor').effectiveHost =
      (bare distributorRole host user impersonating forwardedFor).effectiveHost := by
  simp [effectiveHost, bare, hproxy]

variable {impersonating impersonating' forwardedFor forwardedFor'}

/-- A role manager for other claims differs in the claims only, if they leave the effective
host as it is. -/
theorem new_claims (hhost : (bare distributorRole host user impersonating'
      forwardedFor').effectiveHost =
      (bare distributorRole host user impersonating forwardedFor).effectiveHost) :
    new toUpper distributorRole host user impersonating' forwardedFor' feedPermissions =
      (new toUpper distributorRole host user impersonating forwardedFor feedPermissions).map
        fun m => m.withClaims impersonating' forwardedFor' := by
  cases feedPermissions with
  | none => rfl
  | some table =>
    simp only [new, hhost]
    cases selectPermissions toUpper
      (bare distributorRole host user impersonating forwardedFor).effectiveHost table.entries ∅ with
    | error e => rfl
    | ok selected => rfl

/-- Claims that leave the effective host as it is have no influence on access. -/
theorem access_claims (hhost : (bare distributorRole host user impersonating'
      forwardedFor').effectiveHost =
      (bare distributorRole host user impersonating forwardedFor).effectiveHost) :
    (new toUpper distributorRole host user impersonating' forwardedFor' feedPermissions).map
        access =
      (new toUpper distributorRole host user impersonating forwardedFor feedPermissions).map
        access := by
  rw [new_claims toUpper feedPermissions hhost]
  cases h : new toUpper distributorRole host user impersonating forwardedFor feedPermissions with
  | error e => rfl
  | ok m =>
    have hm := (lookup_of_new h).1
    have hclaims : (m.withClaims impersonating' forwardedFor').effectiveHost =
        m.effectiveHost := by
      rw [hm]
      exact hhost
    have hanswers : (m.withClaims impersonating' forwardedFor').answers = m.answers :=
      answers_congr rfl
    simp only [Except.map, access, hclaims, hanswers]
    rfl

/-- The claimed user has no influence on the effective user where it is not allowed. -/
theorem effectiveUser_impersonating
    (himpersonation : distributorRole.isImpersonationAllowed = false) :
    (new toUpper distributorRole host user impersonating' forwardedFor feedPermissions).map
        effectiveUser =
      (new toUpper distributorRole host user impersonating forwardedFor feedPermissions).map
        effectiveUser := by
  have hhost : (bare distributorRole host user impersonating' forwardedFor).effectiveHost =
      (bare distributorRole host user impersonating forwardedFor).effectiveHost := rfl
  rw [new_claims toUpper feedPermissions hhost]
  cases h : new toUpper distributorRole host user impersonating forwardedFor feedPermissions with
  | error e => rfl
  | ok m =>
    have hrole : m.distributorRole = distributorRole := by
      rw [(lookup_of_new h).1]
      rfl
    simp only [Except.map, withClaims, effectiveUser, hrole, himpersonation]
    rfl

end

end RoleManager

/-! ### The distributor -/

/-- Everything that a distributor reads of its settings is the same in both. -/
structure Settings.Alike (settings settings' : Settings) : Prop where
  user : settings.user = settings'.user
  host : settings.host = settings'.host
  feeds : settings.feeds = settings'.feeds
  hasRole : settings.hasRole = settings'.hasRole
  distributorRole : settings.distributorRole = settings'.distributorRole
  isDebugEnabled : settings.isDebugEnabled = settings'.isDebugEnabled
  heartbeat : settings.heartbeat = settings'.heartbeat

namespace Settings.Alike

variable {settings settings' : Settings} (h : settings.Alike settings')
include h

/-- Settings that are alike index alike. -/
theorem addRole :
    InteractorRepository.addRole settings = InteractorRepository.addRole settings' := by
  funext id feed roleInteractors role
  rw [InteractorRepository.addRole, InteractorRepository.addRole, h.hasRole]

/-- Settings that are alike register alike. -/
theorem add : InteractorRepository.add settings = InteractorRepository.add settings' := by
  funext r id
  simp only [InteractorRepository.add, InteractorRepository.addFeedRoles, h.feeds, h.addRole]

/-- Settings that are alike forward the same requests. -/
theorem forwardedRequest :
    Server.forwardedRequest settings = Server.forwardedRequest settings' := by
  funext subscriber request
  rw [Server.forwardedRequest, Server.forwardedRequest, h.user, h.host]

/-- Settings that are alike forward subscriptions alike. -/
theorem forwardSubscription :
    Server.forwardSubscription settings = Server.forwardSubscription settings' := by
  funext s subscriber request
  simp only [Server.forwardSubscription, h.forwardedRequest]

/-- Settings that are alike send the same snapshots. -/
theorem sendSnapshot : Server.sendSnapshot settings = Server.sendSnapshot settings' := by
  funext notifiable messages s
  induction messages generalizing s with
  | nil => rfl
  | cons message messages ih =>
    rw [Server.sendSnapshot, Server.sendSnapshot]
    simp only [h.isDebugEnabled, ih]

/-- Settings that are alike take notification requests alike. -/
theorem requestNotification :
    Server.requestNotification settings = Server.requestNotification settings' := by
  funext s notifiable request
  simp only [Server.requestNotification, Server.snapshot, h.forwardedRequest, h.sendSnapshot]

/-- Settings that are alike accept authorizations alike. -/
theorem acceptAuthorization :
    Server.acceptAuthorization settings = Server.acceptAuthorization settings' := by
  funext s authorizer authorization
  simp only [Server.acceptAuthorization, Server.onAuthorizationResponse, Server.addSubscription,
    h.forwardSubscription]

/-- Settings that are alike take subscription requests alike. -/
theorem requestSubscription :
    Server.requestSubscription settings = Server.requestSubscription settings' := by
  funext s subscriber request
  simp only [Server.requestSubscription, Server.requestAuthorization, Server.addSubscription,
    h.hasRole, h.distributorRole, h.host, h.user, h.acceptAuthorization, h.forwardSubscription]

/-- Settings that are alike send data alike. -/
theorem sendMulticastTo : Server.sendMulticastTo settings = Server.sendMulticastTo settings' := by
  funext publisher data s subscriber
  simp only [Server.sendMulticastTo, Server.forwardedMulticast, h.user, h.host]

/-- Settings that are alike publish alike. -/
theorem sendMulticastData :
    Server.sendMulticastData settings = Server.sendMulticastData settings' := by
  funext s publisher data
  simp only [Server.sendMulticastData, Server.publishMulticast, h.hasRole, h.sendMulticastTo]

/-- Settings that are alike unicast alike. -/
theorem sendUnicastData : Server.sendUnicastData settings = Server.sendUnicastData settings' := by
  funext s publisher data
  simp only [Server.sendUnicastData, Server.publishUnicast, Server.forwardedUnicast, h.hasRole,
    h.user, h.host]

/-- Settings that are alike close interactors alike. -/
theorem closeInteractor : Server.closeInteractor settings = Server.closeInteractor settings' := by
  funext s interactor
  simp only [Server.closeInteractor, Server.closeSubscriber, h.forwardSubscription]

/-- The distributor handles an event alike. -/
theorem onInteractorEvent :
    Server.onInteractorEvent settings = Server.onInteractorEvent settings' := by
  funext s e
  cases e with
  | connected i => simp only [Server.onInteractorEvent, Server.onInteractorConnected, h.add]
  | error i x => simp only [Server.onInteractorEvent, Server.onInteractorError, h.closeInteractor]
  | closed i => simp only [Server.onInteractorEvent, h.closeInteractor]
  | message i m =>
    cases m with
    | authorizationResponse m =>
      simp only [Server.onInteractorEvent, Server.onMessage, h.acceptAuthorization]
    | subscriptionRequest m =>
      simp only [Server.onInteractorEvent, Server.onMessage, h.requestSubscription]
    | multicastData m => simp only [Server.onInteractorEvent, Server.onMessage, h.sendMulticastData]
    | unicastData m => simp only [Server.onInteractorEvent, Server.onMessage, h.sendUnicastData]
    | notificationRequest m =>
      simp only [Server.onInteractorEvent, Server.onMessage, h.requestNotification]
    | _ => rfl

/-- The distributor takes every step alike. -/
theorem step : System.step settings = System.step settings' := by
  funext s a
  cases a with
  | accept i => simp only [System.step, h.heartbeat]
  | heartbeat => simp only [System.step, h.heartbeat]
  | process => simp only [System.step, System.handle, h.onInteractorEvent]
  | _ => rfl

end Settings.Alike

/-- Two distributors with the same configuration and the same connections, but for whom a
connection claims to act for. -/
structure Settings.SameConnections (toUpper : UInt16 → UInt16) (settings settings' : Settings) :
    Prop where
  distributorRole : settings.distributorRole = settings'.distributorRole
  isDebugEnabled : settings.isDebugEnabled = settings'.isDebugEnabled
  heartbeat : settings.heartbeat = settings'.heartbeat
  connection : ∀ i, i ≠ settings.heartbeat →
    ∃ host user feedPermissions impersonating forwardedFor impersonating' forwardedFor',
      RoleManager.new toUpper settings.distributorRole host user impersonating forwardedFor
        feedPermissions = .ok (settings.roleManager i) ∧
      RoleManager.new toUpper settings.distributorRole host user impersonating' forwardedFor'
        feedPermissions = .ok (settings'.roleManager i)

/-- Where neither claim is allowed, the claims are all that two role managers of a connection
differ in. -/
theorem RoleManager.eq_of_new {toUpper : UInt16 → UInt16} {distributorRole : DistributorRole}
    {host user : String} {impersonating impersonating' forwardedFor forwardedFor' : Option String}
    {feedPermissions : Option (Dictionary String HostPermissions)} {m m' : RoleManager}
    (hproxy : distributorRole.isProxyAllowed = false)
    (h : new toUpper distributorRole host user impersonating forwardedFor feedPermissions = .ok m)
    (h' : new toUpper distributorRole host user impersonating' forwardedFor' feedPermissions =
      .ok m') :
    m' = { m with impersonating := impersonating', forwardedFor := forwardedFor' } := by
  rw [new_claims toUpper feedPermissions (effectiveHost_bare impersonating impersonating'
    forwardedFor forwardedFor' hproxy), h] at h'
  cases h'
  rfl

/-- The same connections make settings that are alike, where neither impersonation nor a proxy is
allowed. -/
theorem Settings.SameConnections.alike {toUpper : UInt16 → UInt16} {settings settings' : Settings}
    (h : settings.SameConnections toUpper settings')
    (himpersonation : settings.distributorRole.isImpersonationAllowed = false)
    (hproxy : settings.distributorRole.isProxyAllowed = false) : settings.Alike settings' := by
  have hmanager : ∀ i, ∃ impersonating forwardedFor, settings'.roleManager i =
      { settings.roleManager i with impersonating, forwardedFor } ∧
      (settings.roleManager i).distributorRole.isImpersonationAllowed = false ∧
      (settings.roleManager i).distributorRole.isProxyAllowed = false := by
    intro i
    by_cases hi : i = settings.heartbeat
    · have hsame : settings'.roleManager i = settings.roleManager i := by
        rw [hi, settings.roleManager_heartbeat, h.heartbeat, settings'.roleManager_heartbeat]
      rw [hsame, hi, settings.roleManager_heartbeat]
      exact ⟨_, _, rfl, rfl, rfl⟩
    · obtain ⟨host, user, feedPermissions, impersonating, forwardedFor, impersonating',
        forwardedFor', hm, hm'⟩ := h.connection i hi
      rw [settings.roleManager_distributorRole i hi]
      exact ⟨_, _, RoleManager.eq_of_new hproxy hm hm', himpersonation, hproxy⟩
  refine ⟨?_, ?_, ?_, ?_, h.distributorRole, h.isDebugEnabled, h.heartbeat⟩
  · funext i
    obtain ⟨impersonating, forwardedFor, hm, hi, -⟩ := hmanager i
    simp [user, hm, RoleManager.effectiveUser, hi]
  · funext i
    obtain ⟨impersonating, forwardedFor, hm, -, hp⟩ := hmanager i
    simp [host, hm, RoleManager.effectiveHost, hp]
  · funext i
    obtain ⟨impersonating, forwardedFor, hm, -⟩ := hmanager i
    simp [feeds, hm]
  · funext i feed role
    obtain ⟨impersonating, forwardedFor, hm, -⟩ := hmanager i
    rw [hasRole, hasRole, hm]
    rfl

/-- A claimed user has no influence on the effective user where impersonation is not allowed,
a claimed host has none on access where proxies are not allowed, and a claimed user has none
on access at all. Where neither is allowed, two distributors that differ in what is claimed
have the same runs. -/
theorem claims_inert (toUpper : UInt16 → UInt16) :
    (∀ distributorRole host user impersonating impersonating' forwardedFor feedPermissions,
      distributorRole.isImpersonationAllowed = false →
      (RoleManager.new toUpper distributorRole host user impersonating' forwardedFor
          feedPermissions).map RoleManager.effectiveUser =
        (RoleManager.new toUpper distributorRole host user impersonating forwardedFor
          feedPermissions).map RoleManager.effectiveUser) ∧
    (∀ distributorRole host user impersonating forwardedFor forwardedFor' feedPermissions,
      distributorRole.isProxyAllowed = false →
      (RoleManager.new toUpper distributorRole host user impersonating forwardedFor'
          feedPermissions).map RoleManager.access =
        (RoleManager.new toUpper distributorRole host user impersonating forwardedFor
          feedPermissions).map RoleManager.access) ∧
    (∀ distributorRole host user impersonating impersonating' forwardedFor feedPermissions,
      (RoleManager.new toUpper distributorRole host user impersonating' forwardedFor
          feedPermissions).map RoleManager.access =
        (RoleManager.new toUpper distributorRole host user impersonating forwardedFor
          feedPermissions).map RoleManager.access) ∧
    ∀ settings settings', Settings.SameConnections toUpper settings settings' →
      settings.distributorRole.isImpersonationAllowed = false →
      settings.distributorRole.isProxyAllowed = false →
      settings.Alike settings' ∧ ∀ h s, System.Runs settings h s ↔ System.Runs settings' h s := by
  refine ⟨?_, ?_, ?_, ?_⟩
  · intro distributorRole host user impersonating impersonating' forwardedFor feedPermissions hi
    exact RoleManager.effectiveUser_impersonating toUpper feedPermissions hi
  · intro distributorRole host user impersonating forwardedFor forwardedFor' feedPermissions hp
    exact RoleManager.access_claims toUpper feedPermissions (RoleManager.effectiveHost_bare
      impersonating impersonating forwardedFor forwardedFor' hp)
  · intro distributorRole host user impersonating impersonating' forwardedFor feedPermissions
    exact RoleManager.access_claims toUpper feedPermissions rfl
  · intro settings settings' hsame hi hp
    have halike := hsame.alike hi hp
    refine ⟨halike, fun h s => ?_⟩
    rw [System.Runs, System.Runs, halike.step]

/-- The permissive distributor, on connections that claim another user and another host. -/
def Settings.claiming : Settings where
  distributorRole := (permissive false).distributorRole
  isDebugEnabled := false
  heartbeat := ⟨0⟩
  roleManager i :=
    if i = ⟨0⟩ then heartbeatRoleManager
    else { (permissive false).roleManager i with
      impersonating := some "root", forwardedFor := some "localhost" }
  roleManager_heartbeat := if_pos rfl
  roleManager_distributorRole i hi := by
    rw [if_neg hi]
    exact (permissive false).roleManager_distributorRole i hi

/-- The claim to be another user shows in no message. -/
theorem claims_inert_of_root : Settings.claiming.user ⟨1⟩ = "user" := by
  have hsame : Settings.SameConnections id (.permissive false) .claiming := by
    refine ⟨rfl, rfl, rfl, fun i hi => ?_⟩
    have hmanager : (Settings.permissive false).roleManager i =
        .bare (Settings.permissive false).distributorRole "host" "user" none none := if_neg hi
    have hclaiming : Settings.claiming.roleManager i = { (Settings.permissive false).roleManager i
        with impersonating := some "root", forwardedFor := some "localhost" } := if_neg hi
    rw [hclaiming, hmanager]
    exact ⟨"host", "user", none, none, none, some "root", some "localhost", rfl, rfl⟩
  have halike := ((claims_inert id).2.2.2 (.permissive false) .claiming hsame rfl rfl).1
  rw [← halike.user]
  rfl

end MessageBus.Distributor
