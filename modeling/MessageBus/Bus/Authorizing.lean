import MessageBus.Bus.EndToEnd
import MessageBus.Distributor.Authorizers
import MessageBus.Distributor.EntitlementTransport

/-!
# Authorizing

Authorization between applications. What an authorizer is asked goes back to calls of
`AddSubscription`, and data that an application is given goes back to a call of `Authorize`
that lets it through.
-/

namespace MessageBus
open Base Common Messages Adapters Distributor

/-- The event asks for an authorization. -/
def Adapters.ClientEvent.isRequest : ClientEvent → Bool
  | .authorizationRequest _ _ _ _ _ => true
  | _ => false

/-- The event that is raised for a publication tells of it. -/
theorem Distributor.Carried.of_raised {settings : Settings} {x : Carried}
    {user host f t contentType : String} {packets : Option (List DataPacket)}
    (h : x.raised settings = .dataReceived user host f t packets contentType) :
    f = x.feed ∧ t = x.topic ∧
      packets = receivedDataPackets (getAuthorizedData x.dataPackets x.authorization) := by
  cases x with
  | multicast publisher data authorization =>
    rw [Carried.raised] at h
    split at h
    · cases h
    · cases h
      rw [← getAuthorizedData_eq]
      exact ⟨rfl, rfl, rfl⟩
  | unicast publisher data authorization =>
    cases h
    rw [← getAuthorizedData_eq]
    exact ⟨rfl, rfl, rfl⟩

namespace Bus

variable {settings : Settings} {h : History Bus Action} {b : Bus}

/-! ### What authorizers are asked -/

private theorem raises_requests : Raises isAuthorizationRequest ClientEvent.isRequest where
  event m e h := by
    cases m with
    | forwardedMulticastData m =>
      cases h
      unfold Client.raiseOnDataOrHeartbeat
      split <;> rfl
    | forwardedUnicastData m =>
      cases h
      rfl
    | forwardedSubscriptionRequest m =>
      cases h
      rfl
    | authorizationRequest m =>
      cases h
      rfl
    | _ => cases h
  answer e h := by
    cases e with
    | authorizationRequest c host user f t => rfl
    | _ => cases h
  wire m := by cases m <;> rfl

private theorem unguessed_requests : Unguessed isAuthorizationRequest := by
  intro m m' h
  rcases Message.request_of_guess h with ⟨r, rfl⟩ | ⟨r, rfl⟩ | ⟨r, rfl⟩ <;> rfl

-- What was handled of a client that is not disposed is what its application asked for, in order and
-- once each, up to some message.
private theorem handledFrom_initial (hr : Runs settings h b) {c : Guid}
    (hc : c ≠ settings.heartbeat) (hf : ∀ x ∈ h, ∀ m ∈ x.2.request, m.Fits)
    (hopen : (b.client c).isCancelled = false) :
    handledFrom c h <+: (requested c h).map Message.received := by
  have hfits : ∀ m ∈ requested c h, m.Fits := by
    intro m hm
    obtain ⟨x, hx, hxm⟩ := request_of_requested hm
    exact hf x hx m hxm
  have hhandled : handledFrom c h <+: receivedFrom settings c h := by
    rw [handledFrom, receivedFrom, System.Runs.posted_eq settings (Runs.system hr),
      List.filterMap_append]
    exact List.prefix_append ..
  obtain ⟨read, unread, hsent, hread | ⟨hended, -⟩⟩ := Runs.heard hr hc hfits
  · rw [hsent, List.map_append, ← hread]
    exact hhandled.trans (List.prefix_append ..)
  · rw [hopen] at hended
    cases hended

/-- What an application is asked to authorize is what its interactor was asked, up to some
request; if the client is settled and still reads, all of it. -/
theorem requests_collected (hr : Runs settings h b) {a : Guid}
    (hdown : ∀ m ∈ (b.system.server.objects a).queued, m.sent.Fits) :
    ∃ pre, pre <+: System.requestsTo settings a (distributed h) ∧
      (b.client a).raised.filter ClientEvent.isRequest =
        pre.map Client.raiseOnAuthorizationRequest ∧
      (Settled h b a → (b.client a).readTask = .running →
        pre = System.requestsTo settings a (distributed h)) :=
  raises_requests.collected unguessed_requests
    (fun s e => (Server.requestTo settings a s e).toList)
    (fun _ _ e hr => Server.addressed_requests settings (System.Runs.indexesFeeds hr) a e) hr hdown

/-- In every run, what an application is asked to authorize is what its interactor was asked, in
order and once each, up to some request, and in a state at rest all of it. About a client whose
connection is open it is asked only what the application of that client asked for, in that
order. -/
theorem requests_raised (hr : Runs settings h b) (a : Guid)
    (hup : ∀ x ∈ h, ∀ m ∈ x.2.request, m.Fits)
    (hdown : ∀ m ∈ (b.system.server.objects a).queued, m.sent.Fits) :
    ∃ pre, pre <+: System.requestsTo settings a (distributed h) ∧
      (b.client a).raised.filter ClientEvent.isRequest =
        pre.map Client.raiseOnAuthorizationRequest ∧
      (∀ c, c ≠ settings.heartbeat → (b.client c).isCancelled = false →
        (System.requestsAbout c pre).Sublist ((requested c h).map Message.received)) ∧
      (AtRest (step settings) Internal b → b.system.isRunning = true →
        (∀ i, ¬ b.system.Stalled i) → a ∈ b.system.accepted →
        (b.system.server.objects a).tokenSource ≠ .disposed →
        (b.client a).readTask = .running →
        pre = System.requestsTo settings a (distributed h)) := by
  obtain ⟨pre, hpre, hraised, hall⟩ := requests_collected hr hdown
  refine ⟨pre, hpre, hraised, ?_, ?_⟩
  · intro c hc hopen
    have habout : (System.requestsAbout c pre).Sublist (handledFrom c h) :=
      ((hpre.sublist.filter _).map _).trans
        (System.requestsAbout_requestsTo a c (distributed h))
    exact habout.trans (handledFrom_initial hr hc hup hopen).sublist
  · intro hrest hrun hs ha hl hread
    exact hall (settled_of_running hr hrest hrun hs ha hl) hread

/-! ### What lets data through -/

/-- A response to a request for authorization. -/
def isResponse {σ : Type} : Message σ → Bool
  | .authorizationResponse _ => true
  | _ => false

private theorem unguessed_response : Unguessed isResponse := by
  intro m m' h
  rcases Message.request_of_guess h with ⟨r, rfl⟩ | ⟨r, rfl⟩ | ⟨r, rfl⟩ <;> rfl

/-- A response that was handled is one that an application gave. -/
theorem response_of_handled (hr : Runs settings h b)
    (hup : ∀ x ∈ h, ∀ m ∈ x.2.request, m.Fits) {i : Guid} {r : AuthorizationResponse}
    (hm : .message i (.authorizationResponse r) ∈ System.handledEvents (distributed h)) :
    ∃ m, .authorizationResponse m ∈ requested i h ∧
      Message.received (.authorizationResponse m) = .authorizationResponse r := by
  rcases requested_of_handled hr hup unguessed_response hm rfl with hbeat | ⟨m, hm, hreceived⟩
  · cases hbeat
  · cases m with
    | authorizationResponse m => exact ⟨m, hm, hreceived⟩
    | _ => cases hreceived

private theorem mem_receivedInt32Set {value : Option (HashSet Int32)} {e : Int32}
    (he : e ∈ (receivedInt32Set value).getD ∅) : e ∈ value.getD ∅ := by
  cases value with
  | none => exact he
  | some set =>
    rw [receivedInt32Set, Option.filter_some] at he
    split at he
    · exact he
    · exact absurd he (HashSet.notMem_empty e)

-- Data that was carried has been read from a stream, so no packet has an empty set of entitlements.
private theorem entitlements_of_carried (hr : Runs settings h b)
    (hup : ∀ x ∈ h, ∀ m ∈ x.2.request, m.Fits) {c : Guid} {x : Carried}
    (hx : x ∈ System.carried settings c (distributed h)) :
    ∀ packet ∈ x.dataPackets.getD [], packet.entitlements ≠ some ∅ := by
  have hreceived (packets : Option (List DataPacket)) :
      ∀ packet ∈ (receivedDataPackets packets).getD [], packet.entitlements ≠ some ∅ := by
    intro packet hp
    rw [getD_receivedDataPackets] at hp
    obtain ⟨packet, -, rfl⟩ := List.mem_map.mp hp
    intro he
    obtain ⟨-, he⟩ := Option.filter_eq_some_iff.mp he
    cases he
  have hpublished : x.publication ∈ (System.handledEvents (distributed h)).filterMap
      (System.messageFrom x.publisher) := by
    apply (System.publishedBy_carried settings c x.publisher (distributed h)).subset
    exact List.mem_map_of_mem (List.mem_filter.mpr ⟨hx, beq_self_eq_true _⟩)
  obtain ⟨e, he, hfrom⟩ := List.mem_filterMap.mp hpublished
  cases e with
  | message i m =>
    obtain ⟨rfl, ⟨⟩⟩ := Option.ite_none_right_eq_some.mp hfrom
    have hpublication : isPublication x.publication = true := by cases x <;> rfl
    rcases requested_of_handled hr hup unguessed_publication he hpublication with hbeat |
      ⟨m, -, hm⟩
    · cases x with
      | multicast publisher data authorization =>
        cases hbeat
        intro packet hp
        cases hp
      | unicast publisher data authorization => cases hbeat
    · cases x with
      | multicast publisher data authorization =>
        cases m with
        | multicastData m =>
          cases hm
          exact hreceived m.dataPackets
        | _ => cases hm
      | unicast publisher data authorization =>
        cases m with
        | unicastData m =>
          cases hm
          exact hreceived m.dataPackets
        | _ => cases hm
  | _ => cases hfrom

/-- The packets that are raised of a publication where authorization is required have
entitlements, all of them held. -/
theorem entitlements_of_packet (hr : Runs settings h b)
    (hup : ∀ x ∈ h, ∀ m ∈ x.2.request, m.Fits) {c : Guid} {x : Carried}
    (hx : x ∈ System.carried settings c (distributed h))
    (hrequired : x.authorization.isAuthorizationRequired = true) {packet : DataPacket}
    (hp : packet ∈
      (receivedDataPackets (getAuthorizedData x.dataPackets x.authorization)).getD []) :
    ∃ entitlements, packet.entitlements = some entitlements ∧ entitlements ≠ ∅ ∧
      ∀ e ∈ entitlements, e ∈ x.authorization.entitlements := by
  rw [getD_receivedDataPackets, getD_getAuthorizedData, if_pos hrequired] at hp
  obtain ⟨packet, hfiltered, rfl⟩ := List.mem_map.mp hp
  obtain ⟨hpacket, hauthorized⟩ := List.mem_filter.mp hfiltered
  have hne := entitlements_of_carried hr hup hx packet hpacket
  rw [← DataPacket.isAuthorized_received_iff.mpr hne] at hauthorized
  obtain ⟨entitlements, hent, hall⟩ := DataPacket.isAuthorized_iff.mp hauthorized
  obtain ⟨-, hnonempty⟩ := Option.filter_eq_some_iff.mp hent
  refine ⟨entitlements, hent, ?_, hall⟩
  rintro rfl
  cases hnonempty

/-- Data that a client raises is of a publication that was carried to it. -/
theorem carried_of_raised (hr : Runs settings h b) {c : Guid}
    (hdown : ∀ m ∈ (b.system.server.objects c).queued, m.sent.Fits)
    {user host f t contentType : String} {packets : Option (List DataPacket)}
    (he : .dataReceived user host f t packets contentType ∈ (b.client c).raised) :
    (ClientEvent.dataReceived user host f t packets contentType).IsNoData ∨
      ∃ x ∈ System.carried settings c (distributed h), f = x.feed ∧ t = x.topic ∧
        packets = receivedDataPackets (getAuthorizedData x.dataPackets x.authorization) := by
  obtain ⟨pre, hpre, hdata, -⟩ := data_collected hr hdown
  have hitem : .dataReceived user host f t packets contentType ∈
      (b.client c).raised.filter ClientEvent.isData := List.mem_filter.mpr ⟨he, rfl⟩
  rw [hdata] at hitem
  obtain ⟨item, hitem, hraised⟩ := List.mem_map.mp hitem
  cases item with
  | absence feed topic =>
    rw [DataItem.raised] at hraised
    split at hraised
    · cases hraised
    · cases hraised
      exact .inl (.inr ⟨_, _, rfl⟩)
  | publication x =>
    refine .inr ⟨x, ?_, Carried.of_raised hraised⟩
    rw [← System.filterMap_dataTo]
    exact List.mem_filterMap.mpr ⟨_, hpre.subset hitem, rfl⟩

/-- What is carried is let through by a call of `Authorize`. -/
theorem response_of_carried (hr : Runs settings h b)
    (hreq : settings.distributorRole.isAuthorizationRequired = true)
    (hup : ∀ x ∈ h, ∀ m ∈ x.2.request, m.Fits) {c : Guid} {x : Carried}
    (hx : x ∈ System.carried settings c (distributed h)) :
    ∃ i r, .authorizationResponse r ∈ requested i h ∧ r.clientId = c ∧
      r.feed.getD "" = x.feed ∧ r.topic.getD "" = x.topic ∧
      x.authorization.isAuthorizationRequired = r.isAuthorizationRequired ∧
      ∀ e ∈ x.authorization.entitlements, e ∈ r.entitlements.getD ∅ := by
  obtain ⟨i, r, hr', ⟨rfl, hfeed, htopic⟩, hauth⟩ :=
    System.Runs.answered_of_carried hreq (Runs.system hr) hx
  obtain ⟨m, hm, hreceived⟩ := response_of_handled hr hup hr'
  cases hreceived
  rw [hauth]
  exact ⟨i, m, hm, rfl, hfeed, htopic, rfl, fun e he => mem_receivedInt32Set he⟩

/-- In every run of a bus that requires authorization, data that a client raises for a feed and
topic is let through by a call of `Authorize` for the client, feed and topic: if the call says
that authorization is required, each packet has entitlements, all of them granted by the
call. -/
theorem data_authorized (hr : Runs settings h b)
    (hreq : settings.distributorRole.isAuthorizationRequired = true) (c : Guid)
    (hup : ∀ x ∈ h, ∀ m ∈ x.2.request, m.Fits)
    (hdown : ∀ m ∈ (b.system.server.objects c).queued, m.sent.Fits)
    {user host f t contentType : String} {packets : Option (List DataPacket)}
    (he : .dataReceived user host f t packets contentType ∈ (b.client c).raised) :
    (ClientEvent.dataReceived user host f t packets contentType).IsNoData ∨
      ∃ i r, .authorizationResponse r ∈ requested i h ∧ r.clientId = c ∧ r.feed.getD "" = f ∧
        r.topic.getD "" = t ∧ (r.isAuthorizationRequired = true → ∀ packet ∈ packets.getD [],
          ∃ entitlements, packet.entitlements = some entitlements ∧ entitlements ≠ ∅ ∧
            ∀ e ∈ entitlements, e ∈ r.entitlements.getD ∅) := by
  rcases carried_of_raised hr hdown he with hnone | ⟨x, hx, rfl, rfl, rfl⟩
  · exact .inl hnone
  · obtain ⟨i, r, hrequest, hc, hfeed, htopic, hreq', hgranted⟩ :=
      response_of_carried hr hreq hup hx
    refine .inr ⟨i, r, hrequest, hc, hfeed, htopic, fun hrequired packet hp => ?_⟩
    obtain ⟨entitlements, hent, hne, hall⟩ :=
      entitlements_of_packet hr hup hx (hreq'.trans hrequired) hp
    exact ⟨entitlements, hent, hne, fun e he => hgranted e (hall e he)⟩

/-! ### One authorization -/

/-- A client subscribes, another is asked and authorizes it for one of two entitlements, and then
publishes a packet for each. -/
def authorization (user authorizer : String) (granted other : Int32) : List Action :=
  let subscription : Message (Option String) := .subscriptionRequest ⟨some "F", some "T", true⟩
  let request : Message := .authorizationRequest ⟨⟨1⟩, "host", user, "F", "T"⟩
  let response : Message (Option String) :=
    .authorizationResponse ⟨⟨1⟩, some "F", some "T", true, some (.addAll ∅ [granted])⟩
  let packets : Option (List DataPacket) :=
    some [⟨some (.addAll ∅ [granted]), none⟩, ⟨some (.addAll ∅ [other]), none⟩]
  let data : Message (Option String) :=
    .multicastData ⟨some "F", some "T", some "text", packets⟩
  let forwarded : Message := .forwardedMulticastData
    ⟨authorizer, "host", "F", "T", "text", some [⟨some (.addAll ∅ [granted]), none⟩]⟩
  [.connect ⟨1⟩, .connect ⟨2⟩, .distributor (.accept ⟨1⟩), .distributor (.accept ⟨2⟩),
    .distributor .process, .distributor .process, .client ⟨1⟩ .start, .client ⟨2⟩ .start,
    .client ⟨1⟩ (.call (.addSubscription (some "F") (some "T"))), .client ⟨1⟩ .checkWrite,
    .clientPut ⟨1⟩ subscription.write.length, .client ⟨1⟩ .wrote, .distributor (.checkRead ⟨1⟩),
    .distributor (.receive ⟨1⟩ subscription.received), .distributor (.checkRead ⟨1⟩),
    .distributor .process, .distributor (.checkWrite ⟨2⟩),
    .distributorPut ⟨2⟩ request.sent.write.length, .distributor (.wrote ⟨2⟩),
    .client ⟨2⟩ .checkRead, .client ⟨2⟩ (.receive request), .client ⟨2⟩ .checkRead,
    .client ⟨2⟩ (.call (.authorize ⟨1⟩ (some "F") (some "T") true (some (.addAll ∅ [granted])))),
    .client ⟨2⟩ (.call (.publish (some "F") (some "T") (some "text") packets)),
    .client ⟨2⟩ .checkWrite, .clientPut ⟨2⟩ response.write.length, .client ⟨2⟩ .wrote,
    .client ⟨2⟩ .checkWrite, .clientPut ⟨2⟩ data.write.length, .client ⟨2⟩ .wrote,
    .distributor (.checkRead ⟨2⟩), .distributor (.receive ⟨2⟩ response.received),
    .distributor (.checkRead ⟨2⟩), .distributor (.receive ⟨2⟩ data.received),
    .distributor (.checkRead ⟨2⟩), .distributor .process, .distributor .process,
    .distributor (.checkWrite ⟨1⟩), .distributorPut ⟨1⟩ request.sent.write.length,
    .distributor (.wrote ⟨1⟩), .distributor (.checkWrite ⟨1⟩),
    .distributorPut ⟨1⟩ forwarded.sent.write.length, .distributor (.wrote ⟨1⟩),
    .client ⟨1⟩ .checkRead, .client ⟨1⟩ (.receive request), .client ⟨1⟩ .checkRead,
    .client ⟨1⟩ (.receive forwarded), .client ⟨1⟩ .checkRead]

/-- The second client is asked about the first. -/
theorem requests_raised_of_authorization :
    ∃ h b, Runs (.onFeed "F") h b ∧
      (b.client ⟨2⟩).raised = [.authorizationRequest ⟨1⟩ "host" "user" "F" "T"] ∧
      ∃ pre, pre <+: System.requestsTo (.onFeed "F") ⟨2⟩ (distributed h) ∧
        (b.client ⟨2⟩).raised.filter ClientEvent.isRequest =
          pre.map Client.raiseOnAuthorizationRequest ∧
        (∀ c, c ≠ (Settings.onFeed "F").heartbeat → (b.client c).isCancelled = false →
          (System.requestsAbout c pre).Sublist ((requested c h).map Message.received)) ∧
        (AtRest (step (.onFeed "F")) Internal b → b.system.isRunning = true →
          (∀ i, ¬ b.system.Stalled i) → ⟨2⟩ ∈ b.system.accepted →
          (b.system.server.objects ⟨2⟩).tokenSource ≠ .disposed →
          (b.client ⟨2⟩).readTask = .running →
          pre = System.requestsTo (.onFeed "F") ⟨2⟩ (distributed h)) := by
  obtain ⟨h, b, hr, hobs⟩ := exists_run_of_exec (step (.onFeed "F")) init
    (authorization "user" "user" 1 2)
    (fun x => ((x.2.client ⟨2⟩).raised, decide (∀ y ∈ x.1, ∀ m ∈ y.2.request, m.Fits),
      decide (∀ m ∈ (x.2.system.server.objects ⟨2⟩).queued, m.sent.Fits)))
    ([.authorizationRequest ⟨1⟩ "host" "user" "F" "T"], true, true) (by decide +kernel)
  simp only [Prod.mk.injEq, decide_eq_true_eq] at hobs
  obtain ⟨hraised, hup, hdown⟩ := hobs
  exact ⟨h, b, hr, hraised, requests_raised hr ⟨2⟩ hup hdown⟩

/-- The first client is given the packet that it is authorized for. -/
theorem data_authorized_of_authorization :
    ∃ h b, Runs (.onFeed "F") h b ∧
      ((ClientEvent.dataReceived "user" "host" "F" "T"
        (some [⟨some (.addAll ∅ [1]), none⟩]) "text").IsNoData ∨
      ∃ i r, .authorizationResponse r ∈ requested i h ∧ r.clientId = ⟨1⟩ ∧
        r.feed.getD "" = "F" ∧ r.topic.getD "" = "T" ∧ (r.isAuthorizationRequired = true →
          ∀ packet ∈ (some [(⟨some (.addAll ∅ [1]), none⟩ : DataPacket)]).getD [],
            ∃ entitlements, packet.entitlements = some entitlements ∧ entitlements ≠ ∅ ∧
              ∀ e ∈ entitlements, e ∈ r.entitlements.getD ∅)) := by
  obtain ⟨h, b, hr, hobs⟩ := exists_run_of_exec (step (.onFeed "F")) init
    (authorization "user" "user" 1 2)
    (fun x => (decide (.dataReceived "user" "host" "F" "T" (some [⟨some (.addAll ∅ [1]), none⟩])
        "text" ∈ (x.2.client ⟨1⟩).raised),
      decide (∀ y ∈ x.1, ∀ m ∈ y.2.request, m.Fits),
      decide (∀ m ∈ (x.2.system.server.objects ⟨1⟩).queued, m.sent.Fits)))
    (true, true, true) (by decide +kernel)
  simp only [Prod.mk.injEq, decide_eq_true_eq] at hobs
  obtain ⟨he, hup, hdown⟩ := hobs
  exact ⟨h, b, hr, data_authorized hr rfl ⟨1⟩ hup hdown he⟩

end Bus

end MessageBus
