import MessageBus.Distributor.Publications
import MessageBus.Distributor.RoleIndex

/-!
# Authorizers

Where authorization is required, a request to subscribe that finds no response in the cache
is put to the authorizers of its feed: the registered interactors that hold the role
`Authorize` on the feed and list it. What lets data through to a subscriber is some response
for it.
-/

namespace MessageBus.Distributor
open MessageBus.Base MessageBus.Common MessageBus.Messages

/-- A request for authorization. -/
def isAuthorizationRequest : Message → Bool
  | .authorizationRequest _ => true
  | _ => false

/-! ### What authorizers are asked -/

namespace Server

variable (settings : Settings)

/-- An authorizer of a feed. -/
def IsAuthorizer (s : Server) (a : Guid) (feed : String) : Prop :=
  s.IsRegistered a ∧ feed ∈ settings.feeds a ∧ settings.hasRole a feed .authorize = true

/-- Whether an interactor is an authorizer can be computed. -/
instance (s : Server) (a : Guid) (feed : String) : Decidable (s.IsAuthorizer settings a feed) :=
  inferInstanceAs (Decidable (_ ∧ _ ∧ _))

/-- What an event asks of an authorizer: about a client that requests a subscription, and may,
and for which no response is cached. -/
def requestTo (a : Guid) (s : Server) : Event → Option AuthorizationRequest
  | .message c (.subscriptionRequest m) =>
    if settings.distributorRole.isAuthorizationRequired ∧ m.isAdd ∧
        settings.hasRole c m.feed .subscribe ∧ (s.cached c m.feed m.topic).isNone ∧
        s.IsAuthorizer settings a m.feed then
      some { clientId := c, host := settings.host c, user := settings.user c, feed := m.feed,
             topic := m.topic }
    else none
  | _ => none

private theorem request_notMem_notices {r : NotificationRepository} {c a : Guid}
    {m : SubscriptionRequest} {request : AuthorizationRequest} :
    (a, .authorizationRequest request) ∉ notices settings r c m := by
  intro h
  obtain ⟨n, -, hn⟩ := List.mem_map.mp h
  cases hn

private theorem request_notMem_responseSends {s : Server} {r : AuthorizationResponse} {a : Guid}
    {request : AuthorizationRequest} :
    (a, .authorizationRequest request) ∉ responseSends settings s r := by
  intro h
  unfold responseSends at h
  split at h
  · split at h
    · cases List.mem_singleton.mp h
    · exact request_notMem_notices settings h
  · cases h

private theorem request_notMem_closeSends {s : Server} {i a : Guid}
    {request : AuthorizationRequest} :
    (a, .authorizationRequest request) ∉ staleSends s i ++ endSends settings s i := by
  intro h
  rcases List.mem_append.mp h with h | h
  · obtain ⟨stale, -, h⟩ := List.mem_flatMap.mp h
    obtain ⟨subscriber, -, h⟩ := List.mem_map.mp h
    cases h
  · obtain ⟨feedTopic, -, h⟩ := List.mem_flatMap.mp h
    exact request_notMem_notices settings h

-- Only requests to subscribe ask an authorizer.
private theorem event_of_request {s : Server} {e : Event} {a : Guid}
    {request : AuthorizationRequest} (h : (a, .authorizationRequest request) ∈ sends settings s e) :
    ∃ c m, e = .message c (.subscriptionRequest m) := by
  cases e with
  | connected i => cases h
  | error i x => exact absurd h (request_notMem_closeSends settings)
  | closed i => exact absurd h (request_notMem_closeSends settings)
  | message i m =>
    cases m with
    | subscriptionRequest m => exact ⟨i, m, rfl⟩
    | authorizationResponse r => exact absurd h (request_notMem_responseSends settings)
    | notificationRequest r =>
      simp only [sends, notificationSends] at h
      split at h
      · obtain ⟨notice, hm, hx⟩ := List.mem_map.mp h
        cases hx
        obtain ⟨matching, -, hm⟩ := List.mem_flatMap.mp hm
        obtain ⟨subscriber, -, hx⟩ := List.mem_map.mp hm
        cases hx
      · cases h
    | multicastData data =>
      simp only [sends, multicastSends] at h
      split at h
      · obtain ⟨subscriber, -, hx⟩ := List.mem_map.mp h
        cases hx
      · cases h
    | unicastData data =>
      simp only [sends, unicastSends] at h
      split at h
      · cases h
      · split at h
        · cases List.mem_singleton.mp h
        · cases h
    | _ => cases h

private theorem filter_eq_nil {a : Guid} {sends : List (Guid × Message)}
    (h : ∀ request, (a, Message.authorizationRequest request) ∉ sends) :
    (addressed a sends).filter isAuthorizationRequest = [] := by
  rw [List.filter_eq_nil_iff]
  intro x hx hrequest
  cases x with
  | authorizationRequest request => exact h request (mem_addressed.mp hx)
  | _ => cases hrequest

private theorem addressed_subscriptionSends {s : Server}
    (hi : s.interactorRepository.IndexesFeeds settings) (a c : Guid) (m : SubscriptionRequest) :
    (addressed a (subscriptionSends settings s c m)).filter isAuthorizationRequest =
      (requestTo settings a s (.message c (.subscriptionRequest m))).toList.map
        .authorizationRequest := by
  have hfound : a ∈ s.interactorRepository.findRole m.feed .authorize ↔
      s.IsAuthorizer settings a m.feed := by
    rw [hi m.feed .authorize a]
    simp [IsAuthorizer, IsRegistered, InteractorRepository.indexedRoles]
  have hcached : (s.objects c).tryGetAuthorization m.feed m.topic = s.cached c m.feed m.topic := rfl
  rw [subscriptionSends, requestTo, hcached]
  by_cases hrole : settings.hasRole c m.feed .subscribe = true
  · rw [if_pos hrole]
    by_cases hadd : m.isAdd = true
    · rw [if_pos hadd]
      cases hc : s.cached c m.feed m.topic with
      | some r =>
        rw [filter_eq_nil fun request => request_notMem_notices settings]
        simp
      | none =>
        by_cases hreq : settings.distributorRole.isAuthorizationRequired = true
        · rw [if_pos hreq, addressed_map_const a _ (InteractorRepository.nodup_findRole ..)]
          by_cases ha : s.IsAuthorizer settings a m.feed
          · rw [if_pos (hfound.mpr ha)]
            simp [hreq, hadd, hrole, ha, isAuthorizationRequest]
          · rw [if_neg fun h => ha (hfound.mp h)]
            simp [ha]
        · rw [if_neg hreq, filter_eq_nil fun request => request_notMem_responseSends settings]
          simp [hreq]
    · rw [if_neg hadd, filter_eq_nil fun request => request_notMem_notices settings]
      simp [hadd]
  · rw [if_neg hrole]
    simp [hrole, addressed]

/-- An authorizer is sent one request where it is asked, and no other request. -/
theorem addressed_requests {s : Server} (hi : s.interactorRepository.IndexesFeeds settings)
    (a : Guid) (e : Event) : (addressed a (sends settings s e)).filter isAuthorizationRequest =
      (requestTo settings a s e).toList.map .authorizationRequest := by
  by_cases hs : ∃ c m, e = .message c (.subscriptionRequest m)
  · obtain ⟨c, m, rfl⟩ := hs
    exact addressed_subscriptionSends settings hi a c m
  · have hnone : requestTo settings a s e = none := by
      cases e with
      | message i m =>
        cases m with
        | subscriptionRequest m => exact absurd ⟨i, m, rfl⟩ hs
        | _ => rfl
      | _ => rfl
    rw [hnone, filter_eq_nil fun request hx => hs (event_of_request settings hx)]
    rfl

/-- What is asked is the request of the event. -/
theorem event_of_requestTo {a : Guid} {s : Server} {e : Event} {request : AuthorizationRequest}
    (h : requestTo settings a s e = some request) : e = .message request.clientId
      (.subscriptionRequest ⟨request.feed, request.topic, true⟩) := by
  cases e with
  | message c m =>
    cases m with
    | subscriptionRequest m =>
      obtain ⟨⟨-, hadd, -⟩, ⟨⟩⟩ := Option.ite_none_right_eq_some.mp h
      obtain ⟨feed, topic, isAdd⟩ := m
      obtain rfl : isAdd = true := hadd
      rfl
    | _ => cases h
  | _ => cases h

end Server

namespace System

variable {settings : Settings}

/-- The index lists each registered interactor under the roles that it has on its feeds. -/
theorem Runs.indexesFeeds {h : History System Action} {s : System} (hr : Runs settings h s) :
    s.server.interactorRepository.IndexesFeeds settings := by
  apply Run.invariant (P := fun s : System =>
    s.server.interactorRepository.IndexesFeeds settings) hr
  · exact InteractorRepository.indexesFeeds_of_run settings .start
  intro s a s' hi ha
  rcases step_handled settings ha with ⟨-, hq⟩ | ⟨e, -, -, hs⟩
  · rw [hq.interactors]
    exact hi
  · rw [hs, Server.onInteractorEvent_eq]
    cases e with
    | connected i =>
      have hadd := InteractorRepository.indexesFeeds_call settings (c := .add i) hi rfl
      rwa [← Server.interactorRepository_onInteractorConnected] at hadd
    | error i x => exact InteractorRepository.indexesFeeds_call settings (c := .remove i) hi rfl
    | closed i => exact InteractorRepository.indexesFeeds_call settings (c := .remove i) hi rfl
    | message i m =>
      have hsame := Server.interactorRepository_update settings s.server i m
      rw [← hsame] at hi
      exact hi

variable (settings) in
/-- The requests for authorization that the events of a run put to an authorizer. -/
def requestsTo (a : Guid) : History System Action → List AuthorizationRequest :=
  collect fun s e => (Server.requestTo settings a s e).toList

/-- A request names the user of the client that it is about. -/
theorem user_of_requestsTo {a : Guid} {h : History System Action}
    {request : AuthorizationRequest} (hm : request ∈ requestsTo settings a h) :
    request.user = settings.user request.clientId := by
  induction h with
  | nil => cases hm
  | cons x h ih =>
    rw [requestsTo, collect, ← requestsTo, List.mem_append] at hm
    rcases hm with hm | hm
    · exact ih hm
    · obtain ⟨e, -, hm⟩ := List.mem_flatMap.mp hm
      have hrequest := Option.mem_toList.mp hm
      cases e with
      | message i m =>
        cases m with
        | subscriptionRequest m =>
          obtain ⟨-, ⟨⟩⟩ := Option.ite_none_right_eq_some.mp hrequest
          rfl
        | _ => cases hrequest
      | _ => cases hrequest

/-- The requests for authorization about a client, as the requests to subscribe that they come
from. -/
def requestsAbout (c : Guid) (requests : List AuthorizationRequest) : List Message :=
  (requests.filter fun request => request.clientId == c).map fun request =>
    .subscriptionRequest ⟨request.feed, request.topic, true⟩

/-- What an authorizer is asked about a client is some of what the client asked for, in that
order, each once. -/
theorem requestsAbout_requestsTo (a c : Guid) (h : History System Action) :
    (requestsAbout c (requestsTo settings a h)).Sublist
      ((handledEvents h).filterMap (messageFrom c)) := by
  induction h with
  | nil => exact .slnil
  | cons x h ih =>
    obtain ⟨s, act⟩ := x
    rw [requestsTo, collect, ← requestsTo, handledEvents, requestsAbout, List.filter_append,
      List.map_append, List.filterMap_append]
    apply ih.append
    cases he : s.handled act with
    | none => exact List.nil_sublist _
    | some e =>
      rw [Option.toList_some, List.flatMap_singleton]
      cases hx : Server.requestTo settings a s.server e with
      | none => exact List.nil_sublist _
      | some request =>
        rw [Server.event_of_requestTo settings hx]
        by_cases hc : request.clientId = c <;> simp [messageFrom, hc]

/-! ### What lets data through -/

/-- Some response for the client, feed and topic was handled that says what the authorization
says. -/
def Answered (c : Guid) (f t : String) (authorization : AuthorizationInfo)
    (h : History System Action) : Prop :=
  ∃ i r, .message i (.authorizationResponse r) ∈ handledEvents h ∧ Server.IsFor r c f t ∧
    authorization = .ofResponse r

/-- What was answered before the last step was answered. -/
theorem Answered.cons {c : Guid} {f t : String} {authorization : AuthorizationInfo}
    {h : History System Action} (ha : Answered c f t authorization h)
    (x : System × Action) : Answered c f t authorization (x :: h) := by
  obtain ⟨i, r, hr, hfor, hinfo⟩ := ha
  exact ⟨i, r, List.mem_append_left _ hr, hfor, hinfo⟩

/-- Every response that is cached and every authorization of an entry is that of a response
which was handled. -/
structure AllAnswered (h : History System Action) (s : System) : Prop where
  cached : ∀ c f t r, s.server.cached c f t = some r → Answered c f t (.ofResponse r) h
  entry : ∀ c f t state, s.server.entry c f t = some state →
    Answered c f t state.authorizationInfo h

variable {h : History System Action} {s s' : System} {a : Action}

private theorem allAnswered_step
    (hreq : settings.distributorRole.isAuthorizationRequired = true) (hi : AllAnswered h s)
    (ha : step settings s a = some s') : AllAnswered ((s, a) :: h) s' := by
  rcases step_handled settings ha with ⟨hn, hq⟩ | ⟨e, he, -, hs⟩
  · constructor
    · intro c f t r hr
      rw [hq.cached] at hr
      exact (hi.cached c f t r hr).cons _
    · intro c f t state hstate
      rw [hq.entry] at hstate
      exact (hi.entry c f t state hstate).cons _
  have hnew : ∀ r, Server.accepted settings s.server e = some r → ∀ c f t,
      Server.IsFor r c f t → Answered c f t (.ofResponse r) ((s, a) :: h) := by
    intro r hr c f t hfor
    rcases accepted_cases settings hr with ⟨i, rfl⟩ | ⟨-, hauto, -⟩
    · exact ⟨i, r, mem_handledEvents.mpr ⟨_, List.mem_cons_self .., he⟩, hfor, rfl⟩
    · rw [hreq] at hauto
      cases hauto
  constructor
  · intro c f t r hr
    rw [hs, cached_onInteractorEvent] at hr
    cases hacc : Server.accepted settings s.server e with
    | none =>
      rw [hacc] at hr
      exact (hi.cached c f t r hr).cons _
    | some x =>
      simp only [hacc] at hr
      split at hr
      · next hk =>
        cases hr
        exact hnew r hacc c f t hk.1
      · exact (hi.cached c f t r hr).cons _
  · intro c f t state hstate
    rw [hs, entry_onInteractorEvent] at hstate
    rcases entryChange_cases settings s.server e c f t with ⟨r, hr, hk, -, hchange⟩ |
      ⟨r, -, -, hr, hchange⟩ | ⟨-, -, hchange⟩ | ⟨-, hchange⟩ | hchange
    · rw [hchange] at hstate
      cases hstate
      exact hnew r hr c f t hk
    · rw [hchange] at hstate
      cases hstate
      cases hentry : s.server.entry c f t with
      | none => exact (hi.cached c f t r hr).cons _
      | some old => exact (hi.entry c f t old hentry).cons _
    · rw [hchange] at hstate
      cases hentry : s.server.entry c f t with
      | none =>
        rw [hentry] at hstate
        cases hstate
      | some old =>
        rw [hentry] at hstate
        obtain ⟨-, ⟨⟩⟩ := Option.ite_none_left_eq_some.mp hstate
        exact (hi.entry c f t old hentry).cons _
    · rw [hchange] at hstate
      cases hstate
    · rw [hchange] at hstate
      exact (hi.entry c f t state hstate).cons _

/-- In every run of a distributor that requires authorization, everything that is authorized
was answered. -/
theorem Runs.allAnswered (hreq : settings.distributorRole.isAuthorizationRequired = true)
    (hr : Runs settings h s) : AllAnswered h s := by
  induction hr with
  | start => exact ⟨fun c f t r hc => (by cases hc), fun c f t state hs => (by cases hs)⟩
  | next _ ha ih => exact allAnswered_step hreq ih ha

/-- Every publication that is carried to a client is carried by a response for it. -/
theorem Runs.answered_of_carried (hreq : settings.distributorRole.isAuthorizationRequired = true)
    (hr : Runs settings h s) {c : Guid} {x : Carried} (hx : x ∈ carried settings c h) :
    Answered c x.feed x.topic x.authorization h := by
  induction hr with
  | start => cases hx
  | next hr ha ih =>
    next h s s' a =>
    rw [carried, collect, ← carried, List.mem_append] at hx
    rcases hx with hx | hx
    · exact (ih hx).cons _
    · obtain ⟨e, he, hx⟩ := List.mem_flatMap.mp hx
      obtain ⟨state, hstate, hinfo⟩ := Server.entry_of_carriedTo settings (Option.mem_toList.mp hx)
      rw [hinfo]
      exact ((Runs.allAnswered hreq hr).entry _ _ _ state hstate).cons _

end System

end MessageBus.Distributor
