import MessageBus.Distributor.Authorizers
import MessageBus.Distributor.Notices
import MessageBus.Distributor.SspiIdentity

/-!
# Named users

Whose user and host the messages of the distributor name. An interactor is made of what the
authenticator answers to the connection string of its client, before it is accepted; notices
and requests for authorization name the interactor that they are about, and data names its
publisher. All of them have been accepted.
-/

namespace MessageBus.Distributor
open MessageBus.Base MessageBus.Common MessageBus.Messages MessageBus.Authentication

/-! ### Interactors are made -/

/-- `Create`, `Interactor.cs:34–72`, once the connection string is read from the stream; the host
name is that of the address of the client. -/
def create (toUpper : UInt16 → UInt16) (authenticator : Authenticator)
    (distributorRole : DistributorRole) (hostName connectionString : String) :
    Except Exception CreatedInteractor := do
  let authenticationResponse ← authenticator.respond connectionString
  let roleManager ← RoleManager.new toUpper distributorRole hostName authenticationResponse.user
    authenticationResponse.impersonating authenticationResponse.forwardedFor
    authenticationResponse.feedRoles
  return ⟨authenticationResponse.user, authenticationResponse.application.getD "unspecified",
    roleManager⟩

/-- The credentials of a connection string stand for a user: the check of the authenticator
accepts them. The null authenticators check nothing. -/
def Vouches (authenticator : Authenticator) (connectionString user : String) : Prop :=
  match authenticator with
  | .null => user = "nobody"
  | .nullSspi => NullSspiAuthenticator.parse connectionString = .ok user
  | .passwordFile isValid _ => ∃ details,
    PasswordFileConnectionDetails.parse connectionString = .ok details ∧
      details.username = user ∧ isValid user details.password = true
  | .ldap connect bind => ∃ details,
    LdapConnectionDetails.parse connectionString = .ok details ∧ connect = .ok () ∧
      details.username = user ∧ bind user details.password = true
  | .jwt validate => ∃ details, JwtConnectionDetails.parse connectionString = .ok details ∧
      validate details.token = some user

/-- An authenticator answers with a user that it vouches for. -/
theorem vouches_of_respond {authenticator : Authenticator} {connectionString : String}
    {response : AuthenticationResponse}
    (h : authenticator.respond connectionString = .ok response) :
    Vouches authenticator connectionString response.user := by
  cases authenticator with
  | null =>
    cases h
    rfl
  | nullSspi =>
    obtain ⟨username, hparse, ⟨⟩⟩ := bind_eq_ok_iff.mp h
    exact hparse
  | passwordFile isValid userFeedRoles =>
    obtain ⟨details, hparse, h⟩ := bind_eq_ok_iff.mp h
    split at h
    · cases h
    · next hvalid =>
      cases h
      exact ⟨details, hparse, rfl, by simpa using hvalid⟩
  | ldap connect bind =>
    obtain ⟨details, hparse, h⟩ := bind_eq_ok_iff.mp h
    obtain ⟨⟨⟩, hconnect, h⟩ := bind_eq_ok_iff.mp h
    split at h
    · cases h
    · next hbind =>
      cases h
      exact ⟨details, hparse, hconnect, rfl, by simpa using hbind⟩
  | jwt validate =>
    obtain ⟨details, hparse, h⟩ := bind_eq_ok_iff.mp h
    cases hsubject : validate details.token with
    | none =>
      rw [hsubject] at h
      cases h
    | some subject =>
      rw [hsubject] at h
      cases h
      exact ⟨details, hparse, hsubject⟩

/-- What an acceptor has of a connection: the host name of the address of its client, the
connection string that it reads, and the remote identity where the stream is negotiated. -/
structure Connection where
  hostName : String
  connectionString : String
  remoteIdentity : Option String

/-- The interactor was made of the connection, by `Create` or by `CreateSspi`. -/
def Settings.Created (settings : Settings) (toUpper : UInt16 → UInt16)
    (authenticator : Authenticator) (i : Guid) (connection : Connection) : Prop :=
  ∃ created, created.roleManager = settings.roleManager i ∧
    match connection.remoteIdentity with
    | none => create toUpper authenticator settings.distributorRole connection.hostName
        connection.connectionString = .ok created
    | some remoteIdentity => createSspi toUpper authenticator settings.distributorRole
        connection.hostName remoteIdentity connection.connectionString = .ok created

/-- The user and the host are those of the connection: the user for whom the authenticator
vouches on it and the host that it was made from, or those that it claims where the distributor
allows to claim another. -/
def Connection.Identifies (connection : Connection) (authenticator : Authenticator)
    (distributorRole : DistributorRole) (user host : String) : Prop :=
  ∃ response, authenticator.respond connection.connectionString = .ok response ∧
    Vouches authenticator connection.connectionString response.user ∧
    user = (if distributorRole.isImpersonationAllowed then
      response.impersonating.getD response.user else response.user) ∧
    host = if distributorRole.isProxyAllowed then
      response.forwardedFor.getD connection.hostName else connection.hostName

/-- What was made of a connection is known by the user and the host of that connection. -/
theorem Settings.Created.identifies {settings : Settings} {toUpper : UInt16 → UInt16}
    {authenticator : Authenticator} {i : Guid} {connection : Connection}
    (h : settings.Created toUpper authenticator i connection) :
    connection.Identifies authenticator settings.distributorRole (settings.user i)
      (settings.host i) := by
  obtain ⟨created, hmanager, hcreated⟩ := h
  have hmade : ∃ response, authenticator.respond connection.connectionString = .ok response ∧
      RoleManager.new toUpper settings.distributorRole connection.hostName response.user
        response.impersonating response.forwardedFor response.feedRoles =
        .ok created.roleManager := by
    cases hremote : connection.remoteIdentity with
    | none =>
      rw [hremote] at hcreated
      obtain ⟨response, hresponse, hcreated⟩ := bind_eq_ok_iff.mp hcreated
      obtain ⟨roleManager, hnew, ⟨⟩⟩ := bind_eq_ok_iff.mp hcreated
      exact ⟨response, hresponse, hnew⟩
    | some remoteIdentity =>
      rw [hremote] at hcreated
      obtain ⟨response, hresponse, hcreated⟩ := bind_eq_ok_iff.mp hcreated
      obtain ⟨roleManager, hnew, ⟨⟩⟩ := bind_eq_ok_iff.mp hcreated
      exact ⟨response, hresponse, hnew⟩
  obtain ⟨response, hresponse, hnew⟩ := hmade
  refine ⟨response, hresponse, vouches_of_respond hresponse, ?_, ?_⟩
  · rw [Settings.user, ← hmanager, (RoleManager.lookup_of_new hnew).1]
    rfl
  · rw [Settings.host, ← hmanager, (RoleManager.lookup_of_new hnew).1]
    rfl

/-! ### Who is named -/

namespace Server

variable (settings : Settings)

/-- The interactor that a message is sent for is the one that the event is of, or it is
registered, or it is subscribed. -/
theorem interactor_of_sentFor {s : Server} (hi : s.interactorRepository.IndexesFeeds settings)
    {e : Event} {c i : Guid} {m : Message} {user : String} (hm : (c, m) ∈ sends settings s e)
    (hfor : sentFor e m = some (i, user)) :
    i = e.interactor ∨ s.IsRegistered i ∨ ∃ f t, (s.entry i f t).isSome := by
  cases m with
  | authorizationRequest request =>
    cases hfor
    have hasked : .authorizationRequest request ∈
        (requestTo settings c s e).toList.map Message.authorizationRequest := by
      rw [← addressed_requests settings hi]
      exact List.mem_filter.mpr ⟨mem_addressed.mpr hm, rfl⟩
    obtain ⟨request', hrequest, heq⟩ := List.mem_map.mp hasked
    cases heq
    have he := event_of_requestTo settings (Option.mem_toList.mp hrequest)
    exact .inl (by rw [he]; rfl)
  | forwardedSubscriptionRequest request =>
    cases hfor
    have htold : request.isAdd ∈
        told c request.clientId request.feed request.topic (sends settings s e) :=
      List.mem_filterMap.mpr ⟨_, mem_addressed.mpr hm, if_pos ⟨rfl, rfl, rfl⟩⟩
    by_cases hnew : s.notificationRepository.IsNotifiable c request.feed ∨
        asksNotice c request.feed e ≠ some true
    · rw [told_of_event settings hnew] at htold
      obtain ⟨-, htold⟩ := List.mem_ite_nil_right.mp htold
      rcases System.entryChange_cases settings s e request.clientId request.feed request.topic with
        ⟨r, hacc, hk, -⟩ | ⟨r, he, -⟩ | ⟨he, -⟩ | ⟨hd, -⟩ | hkeep
      · obtain ⟨hc, -⟩ := hk
        exact .inr (.inl (hc ▸ (update_of_accepted settings hacc).1))
      · exact .inl (by rw [he]; rfl)
      · exact .inl (by rw [he]; rfl)
      · refine .inl ?_
        cases e with
        | message i m => cases hd
        | connected i => cases hd
        | error i x => exact (Option.some.inj hd).symm
        | closed i => exact (Option.some.inj hd).symm
      · rw [hkeep] at htold
        cases htold
    · rw [not_or, not_not] at hnew
      have hentry := (told_of_new settings hnew.2 hnew.1 request.clientId request.topic).mp htold
      exact .inr (.inr ⟨_, _, hentry.2⟩)
  | forwardedMulticastData data =>
    cases e with
    | message publisher m =>
      cases m with
      | multicastData m =>
        cases hfor
        exact .inl rfl
      | _ => cases hfor
    | _ => cases hfor
  | forwardedUnicastData data =>
    cases e with
    | message publisher m =>
      cases m with
      | unicastData m =>
        cases hfor
        exact .inl rfl
      | _ => cases hfor
    | _ => cases hfor
  | _ => cases hfor

end Server

namespace System

variable {settings : Settings}

private theorem accepted_subset {s s' : System} {a : Action} (h : step settings s a = some s')
    {i : Guid} (hi : i ∈ s.accepted) : i ∈ s'.accepted := by
  cases ht : a.task with
  | some j =>
    rw [step_task settings s ht] at h
    obtain ⟨o, -, rfl⟩ := Option.map_eq_some_iff.mp h
    exact hi
  | none =>
    rcases step_cases settings h with ⟨e, es, -, -, -, -, rfl⟩ | ⟨hne, -⟩
    · exact hi
    · cases a with
      | accept j =>
        obtain ⟨-, ⟨⟩⟩ := Option.ite_none_left_eq_some.mp h
        exact List.mem_cons_of_mem _ hi
      | heartbeat =>
        cases h
        exact hi
      | process => exact absurd rfl hne
      | _ => cases ht

/-- What is handled is of an accepted interactor, or it is the heartbeat. -/
theorem Lifecycle.accepted_of_handled {s : System} (hl : Lifecycle settings s) {a : Action}
    {e : Event} (he : s.handled a = some e) :
    e.interactor ∈ s.accepted ∨ e = .message settings.heartbeat heartbeatMessage := by
  have hmem := mem_of_handled he
  rcases hl.sender e hmem with hx | hx | hx
  · rw [hx] at hmem
    exact .inl (hl.connecting _ hmem).1
  · exact .inr hx
  · exact .inl (hl.accepted _ hx)

variable {h : History System Action} {s : System}

/-- Every subscriber has been accepted. -/
theorem Runs.accepted_of_entry (hr : Runs settings h s) {c : Guid} {f t : String}
    (hs : (s.server.entry c f t).isSome) : c ∈ s.accepted := by
  induction hr generalizing c f t with
  | start => cases hs
  | next hr ha ih =>
    next h s s' a =>
    have hl := System.Runs.lifecycle settings hr
    rcases step_handled settings ha with ⟨-, hq⟩ | ⟨e, he, -, hserver⟩
    · rw [hq.entry] at hs
      exact accepted_subset ha (ih hs)
    · rw [hserver, entry_onInteractorEvent] at hs
      apply accepted_subset ha
      rcases entryChange_cases settings s.server e c f t with ⟨r, hacc, hk, -⟩ | ⟨r, hx, -⟩ |
        ⟨-, -, hchange⟩ | ⟨-, hchange⟩ | hchange
      · have hreg := (Server.update_of_accepted settings hacc).1
        rw [hk.1] at hreg
        exact hl.accepted c (hl.registered c hreg)
      · rcases hl.accepted_of_handled he with haccepted | hbeat
        · rw [hx] at haccepted
          exact haccepted
        · rw [hx] at hbeat
          cases hbeat
      · rw [hchange] at hs
        cases hentry : s.server.entry c f t with
        | none =>
          rw [hentry] at hs
          cases hs
        | some state => exact ih (by rw [hentry]; rfl)
      · rw [hchange] at hs
        cases hs
      · rw [hchange] at hs
        exact ih hs

/-- The interactor that a message is sent for has been accepted, or the message is sent for the
heartbeat. -/
theorem Runs.accepted_of_sentFor (hr : Runs settings h s) {a : Action} {e : Event}
    (he : s.handled a = some e) {c i : Guid} {m : Message} {user : String}
    (hm : (c, m) ∈ Server.sends settings s.server e)
    (hfor : Server.sentFor e m = some (i, user)) :
    i ∈ s.accepted ∨ e = .message settings.heartbeat heartbeatMessage := by
  have hl := System.Runs.lifecycle settings hr
  rcases Server.interactor_of_sentFor settings (System.Runs.indexesFeeds hr) hm hfor with
    rfl | hreg | ⟨f, t, hentry⟩
  · exact hl.accepted_of_handled he
  · exact .inl (hl.accepted i (hl.registered i hreg))
  · exact .inl (Runs.accepted_of_entry hr hentry)

variable (settings) in
/-- The user and the host of an accepted interactor. -/
def Names (s : System) (i : Guid) (user host : String) : Prop :=
  i ∈ s.accepted ∧ settings.user i = user ∧ settings.host i = host

variable (settings) in
/-- A message to a client names an accepted interactor, and if it tells of one it names that one;
the message without data names none, and what is published on the heartbeat topic may come from
the heartbeat interactor. -/
def NamesAccepted (s : System) : Message → Prop
  | .authorizationRequest m => s.Names settings m.clientId m.user m.host
  | .forwardedSubscriptionRequest m => s.Names settings m.clientId m.user m.host
  | .forwardedMulticastData m => (∃ f t, .forwardedMulticastData m = noData f t) ∨
    (m.feed = "__admin__" ∧ m.topic = "heartbeat") ∨ ∃ i, s.Names settings i m.user m.host
  | .forwardedUnicastData m => ∃ i, s.Names settings i m.user m.host
  | _ => False

private theorem NamesAccepted.imp {s s' : System} (hs : ∀ i ∈ s.accepted, i ∈ s'.accepted)
    {m : Message} (hm : s.NamesAccepted settings m) : s'.NamesAccepted settings m := by
  have hnames {i : Guid} {user host : String} (h : s.Names settings i user host) :
      s'.Names settings i user host := ⟨hs i h.1, h.2⟩
  cases m with
  | authorizationRequest m => exact hnames hm
  | forwardedSubscriptionRequest m => exact hnames hm
  | forwardedMulticastData m => exact hm.imp_right (Or.imp_right fun ⟨i, hi⟩ => ⟨i, hnames hi⟩)
  | forwardedUnicastData m => exact Exists.imp (fun _ => hnames) hm
  | _ => cases hm

private theorem heartbeat_of_mem {s : Server} {c : Guid} {m : Message}
    (hm : (c, m) ∈ Server.sends settings s (.message settings.heartbeat heartbeatMessage)) :
    ∃ data, m = .forwardedMulticastData data ∧ data.feed = "__admin__" ∧
      data.topic = "heartbeat" := by
  obtain ⟨-, hm⟩ := List.mem_ite_nil_right.mp hm
  obtain ⟨subscriber, -, hx⟩ := List.mem_map.mp hm
  cases hx
  exact ⟨_, rfl, rfl, rfl⟩

-- The step lemma: what an event sends names accepted interactors.
private theorem namesAccepted_of_mem (hr : Runs settings h s) {a : Action} {e : Event}
    (he : s.handled a = some e) {c : Guid} {m : Message}
    (hm : (c, m) ∈ Server.sends settings s.server e) : s.NamesAccepted settings m := by
  by_cases hbeat : e = .message settings.heartbeat heartbeatMessage
  · subst hbeat
    obtain ⟨data, rfl, hfeed, htopic⟩ := heartbeat_of_mem hm
    exact .inr (.inl ⟨hfeed, htopic⟩)
  have haccepted {i : Guid} {user : String} (hfor : Server.sentFor e m = some (i, user)) :
      i ∈ s.accepted := (Runs.accepted_of_sentFor hr he hm hfor).resolve_right hbeat
  rcases Server.mem_sends_made settings hm with hmade | ⟨publisher, data, info, rfl, -, -, rfl⟩ |
    ⟨publisher, data, info, rfl, -, -, -, rfl⟩
  · obtain ⟨i, feed, topic, rfl⟩ | ⟨i, request, rfl⟩ | ⟨feed, topic, rfl⟩ := hmade
    · exact ⟨haccepted rfl, rfl, rfl⟩
    · exact ⟨haccepted rfl, rfl, rfl⟩
    · exact .inl ⟨feed, topic, rfl⟩
  · exact .inr (.inr ⟨publisher, haccepted rfl, rfl, rfl⟩)
  · exact ⟨publisher, haccepted rfl, rfl, rfl⟩

/-- In every run, every message queued to a client names accepted interactors. -/
theorem Runs.namesAccepted (hr : Runs settings h s) (c : Guid) :
    ∀ m ∈ (s.server.objects c).queued, s.NamesAccepted settings m := by
  induction hr with
  | start =>
    intro m hm
    cases hm
  | next hr ha ih =>
    next h s s' a =>
    intro m hm
    have hnames : s.NamesAccepted settings m := by
      rw [queued_step settings ha c, List.mem_append] at hm
      rcases hm with hm | hm
      · exact ih m hm
      · obtain ⟨e, he, -, -, hsent⟩ := (mem_delivered settings).mp hm
        exact namesAccepted_of_mem hr he hsent
    exact hnames.imp fun i hi => accepted_subset ha hi

end System

end MessageBus.Distributor
