import MessageBus.Bus.Authorizing
import MessageBus.Bus.Users

/-!
# The authorizer

`examples/authorization/authorizer`, an application that answers each request for
authorization by the user that it names. Where nobody authorizes otherwise, an application
is given no more than the levels of the user that its connection was accepted for; and in a
state at rest every request has been answered.
-/

namespace MessageBus
open Base Common Messages Adapters Authentication Distributor

/-! ### The program -/

namespace AuthEntitler

/-- `Constants.Level1`, `Constants.cs:5`. -/
def level1 : Int32 := 42

/-- `Constants.Level2`, `Constants.cs:6`. -/
def level2 : Int32 := 43

/-- The entitlements that a user is given, `Program.cs:48–62`. -/
def entitlements (user : String) : Option (HashSet Int32) :=
  if user = "tom" then some (.addAll ∅ [level1, level2])
  else if user = "dick" then some (.addAll ∅ [level1])
  else none

/-- `OnAuthorizationRequest`, `Program.cs:43–65`: the call that it makes of the client. -/
def onAuthorizationRequest : ClientEvent → Option Client.Call
  | .authorizationRequest clientId _ user feed topic =>
    some (.authorize clientId (some feed) (some topic) true (entitlements user))
  | _ => none

/-- What the application of a client sends for the events that it was given. -/
def responses (c : Client) : List (Message (Option String)) :=
  (c.raised.filterMap onAuthorizationRequest).filterMap Client.Call.message

/-- The response to a request, as it is received. -/
def response (request : AuthorizationRequest) : AuthorizationResponse :=
  { clientId := request.clientId, feed := request.feed, topic := request.topic,
    isAuthorizationRequired := true, entitlements := entitlements request.user }

private theorem event_of_response {c : Client} {r : AuthorizationResponse (Option String)}
    (h : .authorizationResponse r ∈ responses c) :
    ∃ host user f t, .authorizationRequest r.clientId host user f t ∈ c.raised ∧
      r.isAuthorizationRequired = true ∧ r.entitlements = entitlements user := by
  obtain ⟨call, hcall, hmessage⟩ := List.mem_filterMap.mp h
  obtain ⟨e, he, hhandled⟩ := List.mem_filterMap.mp hcall
  cases e with
  | authorizationRequest clientId host user f t =>
    cases hhandled
    cases hmessage
    exact ⟨host, user, f, t, he, rfl, rfl⟩
  | _ => cases hhandled

private theorem received_entitlements (user : String) :
    receivedInt32Set (entitlements user) = entitlements user := by
  unfold entitlements
  split
  · rfl
  · split <;> rfl

private theorem responses_raised (requests : List AuthorizationRequest) :
    (((requests.map Client.raiseOnAuthorizationRequest).filterMap
      onAuthorizationRequest).filterMap Client.Call.message).map Message.received =
      requests.map fun request => .authorizationResponse (response request) := by
  induction requests with
  | nil => rfl
  | cons request requests ih =>
    have hreceived : Message.received (.authorizationResponse ⟨request.clientId,
        some request.feed, some request.topic, true, entitlements request.user⟩) =
          .authorizationResponse (response request) := by
      rw [Message.received, response, received_entitlements]
      rfl
    rw [List.map_cons, List.map_cons, ← hreceived, ← ih]
    rfl

end AuthEntitler

namespace Bus

variable {settings : Settings} {h : History Bus Action} {b : Bus}

/-- In every run of a bus that requires authorization, where applications authorize only as the
authorizer does, a client is given packets only of the levels of its user, for whom the
authenticator vouched on the connection of the client. -/
theorem levels_of_user (hr : Runs settings h b)
    (hreq : settings.distributorRole.isAuthorizationRequired = true)
    {toUpper : UInt16 → UInt16} {authenticator : Authenticator} {connection : Guid → Connection}
    (hcreated : ∀ i ∈ b.system.accepted,
      settings.Created toUpper authenticator i (connection i))
    (hup : ∀ x ∈ h, ∀ m ∈ x.2.request, m.Fits)
    (hdown : ∀ i ∈ b.clients, ∀ m ∈ (b.system.server.objects i).queued, m.sent.Fits)
    (hauth : ∀ i, ((requested i h).filter isResponse).Sublist
      (AuthEntitler.responses (b.client i))) {c : Guid}
    {user host f t contentType : String} {packets : Option (List DataPacket)}
    (he : .dataReceived user host f t packets contentType ∈ (b.client c).raised) :
    (ClientEvent.dataReceived user host f t packets contentType).IsNoData ∨
      (connection c).Identifies authenticator settings.distributorRole (settings.user c)
          (settings.host c) ∧
        ∀ packet ∈ packets.getD [], ∃ entitlements,
          packet.entitlements = some entitlements ∧ entitlements ≠ ∅ ∧
            ∀ e ∈ entitlements, e ∈ (AuthEntitler.entitlements (settings.user c)).getD ∅ := by
  have hclient : ∀ i, b.client i ≠ {} → i ∈ b.clients := fun i hne => by
    by_contra hi
    exact hne ((Runs.connected hr).idle i hi)
  have hc : c ∈ b.clients := hclient c fun hnone => by
    rw [hnone] at he
    cases he
  rcases carried_of_raised hr (hdown c hc) he with hnone | ⟨x, hx, -, -, rfl⟩
  · exact .inl hnone
  obtain ⟨i, r, hrequest, rfl, -, -, hrequired, hgranted⟩ := response_of_carried hr hreq hup hx
  have hresponse : .authorizationResponse r ∈ AuthEntitler.responses (b.client i) :=
    (hauth i).subset (List.mem_filter.mpr ⟨hrequest, rfl⟩)
  obtain ⟨host', user', f', t', hasked, htrue, hent⟩ :=
    AuthEntitler.event_of_response hresponse
  have hi : i ∈ b.clients := hclient i fun hnone => by
    rw [hnone] at hasked
    cases hasked
  obtain ⟨haccepted, rfl, rfl⟩ := namesOnly_of_raised hr (hdown i hi) hasked
  refine .inr ⟨(hcreated r.clientId haccepted).identifies, fun packet hp => ?_⟩
  obtain ⟨entitlements, hpacket, hne, hall⟩ :=
    entitlements_of_packet hr hup hx (hrequired.trans htrue) hp
  refine ⟨entitlements, hpacket, hne, fun e he => ?_⟩
  rw [← hent]
  exact hgranted e (hall e he)

/-- In a state at rest in which the event loop is not stopped and not stalled, and with the
authorizer as the application of a client that still reads and writes, every request for
authorization that was put to it has been answered, once and in order, by the levels of the user
that the distributor knows the client by. -/
theorem requests_answered (hr : Runs settings h b) (hrest : AtRest (step settings) Internal b)
    (hrun : b.system.isRunning = true) (hs : ∀ i, ¬ b.system.Stalled i) {a : Guid}
    (ha : a ∈ b.system.accepted) (hl : (b.system.server.objects a).tokenSource ≠ .disposed)
    (hread : (b.client a).readTask = .running) (hwrite : (b.client a).writeTask = .checking)
    (hup : ∀ m ∈ requested a h, m.Fits)
    (hdown : ∀ m ∈ (b.system.server.objects a).queued, m.sent.Fits)
    (hauth : (requested a h).filter isResponse = AuthEntitler.responses (b.client a)) :
    (handledFrom a h).filter isResponse =
        ((System.requestsTo settings a (distributed h)).map fun request =>
          .authorizationResponse (AuthEntitler.response request)) ∧
      ∀ request ∈ System.requestsTo settings a (distributed h),
        request.user = settings.user request.clientId := by
  have hsettled := settled_of_running hr hrest hrun hs ha hl
  obtain ⟨pre, -, hraised, hall⟩ := requests_collected hr hdown
  obtain rfl := hall hsettled hread
  refine ⟨?_, fun request hm => System.user_of_requestsTo hm⟩
  have hresponses : AuthEntitler.responses (b.client a) =
      (((b.client a).raised.filter ClientEvent.isRequest).filterMap
        AuthEntitler.onAuthorizationRequest).filterMap Client.Call.message := by
    rw [AuthEntitler.responses, List.filterMap_filter]
    congr 1
    apply List.filterMap_congr
    intro e _
    cases e <;> rfl
  have hwire : ((requested a h).map Message.received).filter isResponse =
      ((requested a h).filter isResponse).map Message.received := by
    rw [List.filter_map]
    congr 1
    apply List.filter_congr
    intro m _
    cases m <;> rfl
  rw [hsettled.handled hwrite hup, hwire, hauth, hresponses, hraised,
    AuthEntitler.responses_raised]

/-! ### Two users -/

/-- The passwords of `examples/authorization`, with their users. -/
def passwords : List (String × String) :=
  [("tom", "tomsPassword"), ("dick", "dicksPassword"), ("harry", "harrysPassword"),
    ("mary", "marysPassword")]

/-- A password file with these users, each of whom holds every role on one feed. -/
def passwordFile (feed : String) : Authenticator :=
  .passwordFile (fun username password => passwords.contains (username, password))
    (passwords.foldr (fun user roles =>
      AList.insert user.1 (AList.insert feed (AList.insert "*" ⟨.all, .none⟩ ∅) ∅) roles) ∅)

/-- The first client is connected as one of the users and all others as another. -/
def asUsers (feed first other : String) : Settings where
  distributorRole := (Settings.onFeed feed).distributorRole
  isDebugEnabled := false
  heartbeat := ⟨0⟩
  roleManager i :=
    if i = ⟨0⟩ then heartbeatRoleManager
    else { (Settings.onFeed feed).roleManager ⟨1⟩ with
      user := if i = ⟨1⟩ then first else other }
  roleManager_heartbeat := if_pos rfl
  roleManager_distributorRole i hi := by
    rw [if_neg hi]
    have hfirst : (⟨1⟩ : Guid) ≠ ⟨0⟩ := by decide
    exact (Settings.onFeed feed).roleManager_distributorRole ⟨1⟩ hfirst

/-- The connections of the two clients. -/
def connections (i : Guid) : Connection where
  hostName := "host"
  connectionString := if i = ⟨1⟩ then "Username=dick;Password=dicksPassword"
    else "Username=mary;Password=marysPassword"
  remoteIdentity := none

private theorem created_asUsers {i : Guid} (hi : i = ⟨1⟩ ∨ i = ⟨2⟩) :
    (asUsers "F" "dick" "mary").Created id (passwordFile "F") i (connections i) := by
  rcases hi with rfl | rfl
  · exact ⟨⟨"dick", "unspecified", (asUsers "F" "dick" "mary").roleManager ⟨1⟩⟩, rfl,
      by with_unfolding_all rfl⟩
  · exact ⟨⟨"mary", "unspecified", (asUsers "F" "dick" "mary").roleManager ⟨2⟩⟩, rfl,
      by with_unfolding_all rfl⟩

/-- Of two packets, one for each level, the client of a user who has the first level is given
one. -/
theorem levels_of_user_of_dick :
    ∃ h b, Runs (asUsers "F" "dick" "mary") h b ∧
      ((ClientEvent.dataReceived "mary" "host" "F" "T"
          (some [⟨some (.addAll ∅ [AuthEntitler.level1]), none⟩]) "text").IsNoData ∨
        (connections ⟨1⟩).Identifies (passwordFile "F") (asUsers "F" "dick" "mary").distributorRole
          ((asUsers "F" "dick" "mary").user ⟨1⟩) ((asUsers "F" "dick" "mary").host ⟨1⟩) ∧
        ∀ packet ∈ (some [(⟨some (.addAll ∅ [AuthEntitler.level1]), none⟩ : DataPacket)]).getD [],
          ∃ entitlements, packet.entitlements = some entitlements ∧ entitlements ≠ ∅ ∧
            ∀ e ∈ entitlements,
              e ∈ (AuthEntitler.entitlements ((asUsers "F" "dick" "mary").user ⟨1⟩)).getD ∅) := by
  obtain ⟨h, b, hr, hobs⟩ := exists_run_of_exec (step (asUsers "F" "dick" "mary")) init
    (authorization "dick" "mary" AuthEntitler.level1 AuthEntitler.level2)
    (fun x => (x.2.system.accepted, x.2.clients,
      decide (∀ y ∈ x.1, ∀ m ∈ y.2.request, m.Fits),
      decide (∀ i ∈ x.2.clients, ∀ m ∈ (x.2.system.server.objects i).queued, m.sent.Fits),
      decide (∀ i ∈ x.2.clients, ((requested i x.1).filter isResponse).Sublist
        (AuthEntitler.responses (x.2.client i))),
      decide (.dataReceived "mary" "host" "F" "T"
        (some [⟨some (.addAll ∅ [AuthEntitler.level1]), none⟩]) "text" ∈ (x.2.client ⟨1⟩).raised)))
    ([⟨2⟩, ⟨1⟩], [⟨2⟩, ⟨1⟩], true, true, true, true) (by decide +kernel)
  simp only [Prod.mk.injEq, decide_eq_true_eq] at hobs
  obtain ⟨haccepted, hclients, hup, hdown, hauth, he⟩ := hobs
  have hcreated : ∀ i ∈ b.system.accepted,
      (asUsers "F" "dick" "mary").Created id (passwordFile "F") i (connections i) := by
    intro i hi
    rw [haccepted, List.mem_cons, List.mem_singleton] at hi
    exact created_asUsers hi.symm
  have hall : ∀ i, ((requested i h).filter isResponse).Sublist
      (AuthEntitler.responses (b.client i)) := by
    intro i
    by_cases hi : i ∈ b.clients
    · exact hauth i hi
    · rw [← Runs.requested hr i, (Runs.connected hr).idle i hi]
      exact .slnil
  exact ⟨h, b, hr, levels_of_user hr rfl hcreated hup hdown hall he⟩

/-- The request of the first client has been answered. -/
theorem requests_answered_of_dick :
    ∃ h b, Runs (asUsers "F" "dick" "mary") h b ∧
      System.requestsTo (asUsers "F" "dick" "mary") ⟨2⟩ (distributed h) =
        [⟨⟨1⟩, "host", "dick", "F", "T"⟩] ∧
      (handledFrom ⟨2⟩ h).filter isResponse =
        ((System.requestsTo (asUsers "F" "dick" "mary") ⟨2⟩ (distributed h)).map fun request =>
          .authorizationResponse (AuthEntitler.response request)) ∧
      ∀ request ∈ System.requestsTo (asUsers "F" "dick" "mary") ⟨2⟩ (distributed h),
        request.user = (asUsers "F" "dick" "mary").user request.clientId := by
  obtain ⟨h, b, hr, hobs⟩ := exists_run_of_exec (step (asUsers "F" "dick" "mary")) init
    (authorization "dick" "mary" AuthEntitler.level1 AuthEntitler.level2)
    (fun x => ((x.2.system.isRunning, decide (x.2.system.eventQueue = []),
        decide (∀ i ∈ x.2.clients, x.2.Idle i)),
      (decide (⟨2⟩ ∈ x.2.system.accepted), decide (x.2.Idle ⟨2⟩),
        decide (∀ m ∈ requested ⟨2⟩ x.1, m.Fits),
        decide (∀ m ∈ (x.2.system.server.objects ⟨2⟩).queued, m.sent.Fits)),
      (decide (System.requestsTo (asUsers "F" "dick" "mary") ⟨2⟩ (distributed x.1) =
          [⟨⟨1⟩, "host", "dick", "F", "T"⟩]),
        decide ((requested ⟨2⟩ x.1).filter isResponse =
          AuthEntitler.responses (x.2.client ⟨2⟩)))))
    ((true, true, true), (true, true, true, true), (true, true)) (by decide +kernel)
  simp only [Prod.mk.injEq, decide_eq_true_eq] at hobs
  obtain ⟨⟨hrun, hq, hi⟩, ⟨ha, hidle, hup, hdown⟩, ⟨hasked, hauth⟩⟩ := hobs
  have hs : ∀ i, ¬ b.system.Stalled i := by
    rintro i ⟨hnext, -⟩
    rw [hq] at hnext
    cases hnext
  have hl : (b.system.server.objects ⟨2⟩).tokenSource ≠ .disposed := by
    rw [hidle.token]
    decide
  exact ⟨h, b, hr, hasked, requests_answered hr (atRest_of_idle hr hq hi) hrun hs ha hl
    hidle.clientRead hidle.clientWrite hup hdown hauth⟩

end Bus

end MessageBus
