import MessageBus.Distributor.FeedParts

/-!
# Feeds do not interfere

The state of the distributor seen as parts, one for each feed. Handling a message is local
to the feed that the message names: the parts of other feeds stay as they are, and the
order in which messages on different feeds are handled makes no difference to any part.
-/

namespace MessageBus.Distributor
open MessageBus.Base MessageBus.Common MessageBus.Messages

namespace Server

/-- What the server holds of one feed. -/
structure Part where
  subscriptions : SubscriptionRepository.Part
  notifications : NotificationRepository.Part
  publishers : PublisherRepository.Part
  interactors : Guid → Interactor.Part

/-- What the server holds of no feed: the repository of the interactors, and of each
interactor the messages taken from its queue, its token and its tasks. -/
structure Rest where
  interactorRepository : InteractorRepository
  interactors : Guid → Interactor

/-- The server by feeds. -/
def parts : Parts Server String Part Rest where
  part feed s := ⟨SubscriptionRepository.parts.part feed s.subscriptionRepository,
    NotificationRepository.parts.part feed s.notificationRepository,
    PublisherRepository.parts.part feed s.publisherRepository,
    Interactors.parts.part feed s.objects⟩
  rest s := ⟨s.interactorRepository, Interactors.parts.rest s.objects⟩

variable {feed : String} {s s' : Server}

private theorem subscriptions_of_agree (h : parts.Agree feed s s') :
    SubscriptionRepository.parts.Agree feed s.subscriptionRepository s'.subscriptionRepository :=
  ⟨congrArg Part.subscriptions h.part, rfl⟩

private theorem notifications_of_agree (h : parts.Agree feed s s') :
    NotificationRepository.parts.Agree feed s.notificationRepository s'.notificationRepository :=
  ⟨congrArg Part.notifications h.part, rfl⟩

private theorem publishers_of_agree (h : parts.Agree feed s s') :
    PublisherRepository.parts.Agree feed s.publisherRepository s'.publisherRepository :=
  ⟨congrArg Part.publishers h.part, rfl⟩

private theorem objects_of_agree (h : parts.Agree feed s s') :
    Interactors.parts.Agree feed s.objects s'.objects :=
  ⟨congrArg Part.interactors h.part, congrArg Rest.interactors h.rest⟩

/-! ### Operations of the repositories -/

private theorem local_subscriptionRepository {f : SubscriptionRepository → SubscriptionRepository}
    (hf : SubscriptionRepository.parts.Local feed f) :
    parts.Local feed fun s => { s with
      subscriptionRepository := f s.subscriptionRepository } where
  rest _ := rfl
  frame s feed' hne := by simp only [parts, hf.frame _ feed' hne]
  reads s s' h := by
    have hreads := hf.reads _ _ (subscriptions_of_agree h)
    have hpart := h.part
    simp only [parts, Part.mk.injEq] at hpart ⊢
    exact ⟨hreads, hpart.2⟩

private theorem local_notificationRepository {f : NotificationRepository → NotificationRepository}
    (hf : NotificationRepository.parts.Local feed f) :
    parts.Local feed fun s => { s with
      notificationRepository := f s.notificationRepository } where
  rest _ := rfl
  frame s feed' hne := by simp only [parts, hf.frame _ feed' hne]
  reads s s' h := by
    have hreads := hf.reads _ _ (notifications_of_agree h)
    have hpart := h.part
    simp only [parts, Part.mk.injEq] at hpart ⊢
    exact ⟨hpart.1, hreads, hpart.2.2⟩

private theorem local_publisherRepository {f : PublisherRepository → PublisherRepository}
    (hf : PublisherRepository.parts.Local feed f) :
    parts.Local feed fun s => { s with publisherRepository := f s.publisherRepository } where
  rest _ := rfl
  frame s feed' hne := by simp only [parts, hf.frame _ feed' hne]
  reads s s' h := by
    have hreads := hf.reads _ _ (publishers_of_agree h)
    have hpart := h.part
    simp only [parts, Part.mk.injEq] at hpart ⊢
    exact ⟨hpart.1, hpart.2.1, hreads, hpart.2.2.2⟩

private theorem local_objects {f : Interactors → Interactors}
    (hf : Interactors.parts.Local feed f) :
    parts.Local feed fun s => { s with objects := f s.objects } where
  rest s := by simp only [parts, hf.rest]
  frame s feed' hne := by simp only [parts, hf.frame _ feed' hne]
  reads s s' h := by
    have hreads := hf.reads _ _ (objects_of_agree h)
    have hpart := h.part
    simp only [parts, Part.mk.injEq] at hpart ⊢
    exact ⟨hpart.1, hpart.2.1, hpart.2.2.1, hreads⟩

/-- Messages that name the feed are sent after an operation local to it. -/
theorem local_deliver {f : Server → Server} (hf : parts.Local feed f)
    {g : Server → List (Guid × Message)} (hg : parts.Reads feed g)
    (hs : ∀ s, ∀ send ∈ g s, feedOf send.2 = feed) :
    parts.Local feed fun s => (f s).deliver (g s) := by
  have hdeliver : ∀ s', parts.Local feed fun s => (f s).deliver (g s') :=
    fun s' => (local_objects (Interactors.local_deliver (hs s'))).comp hf
  exact Parts.Local.bind (f := fun sends s => (f s).deliver sends) hdeliver hg

/-! ### What a message changes -/

variable (settings : Settings)

private theorem reads_isRegistered (feed : String) (i : Guid) :
    parts.Reads feed fun s => s.IsRegistered i := by
  intro s s' h
  exact congrArg (fun rest => i ∈ rest.interactorRepository.interactors) h.rest

/-- The authorization for a feed is read from its part. -/
theorem reads_tryGetAuthorization (i : Guid) (feed topic : String) :
    parts.Reads feed fun s => (s.objects i).tryGetAuthorization feed topic := by
  intro s s' h
  exact Interactor.reads_tryGetAuthorization feed topic _ _
    (Interactors.agree_apply (objects_of_agree h) i)

/-- The subscribers to a feed are read from its part. -/
theorem reads_getSubscribersToFeedAndTopic (feed topic : String) :
    parts.Reads feed fun s => s.subscriptionRepository.getSubscribersToFeedAndTopic feed topic := by
  intro s s' h
  exact SubscriptionRepository.reads_getSubscribersToFeedAndTopic feed topic _ _
    (subscriptions_of_agree h)

private theorem reads_unicastTarget (data : UnicastData) :
    parts.Reads data.feed fun s => s.unicastTarget data := by
  intro s s' h
  have hreads := reads_getSubscribersToFeedAndTopic data.feed data.topic _ _ h
  simp only [unicastTarget, hreads]

private theorem local_cacheResponse (response : AuthorizationResponse) :
    parts.Local response.feed fun s => cacheResponse s response := by
  unfold cacheResponse
  apply Parts.Local.ite
  · intro s s' h
    have hreads := Interactor.reads_hasAuthorization response.feed response.topic _ _
      (Interactors.agree_apply (objects_of_agree h) response.clientId)
    simp only [hreads]
  · exact .id
  · exact local_objects (Interactors.local_modify
      (Interactor.local_setAuthorization response.feed response.topic response) _)

/-- A subscription is local to its feed. -/
theorem local_addSubscription (subscriber : Guid) (feed topic : String)
    (info : AuthorizationInfo) (update : Bool) :
    parts.Local feed fun s => { s with
      subscriptionRepository :=
        s.subscriptionRepository.addSubscription subscriber feed topic info update } :=
  local_subscriptionRepository
    (SubscriptionRepository.local_addSubscription subscriber feed topic info update)

private theorem local_responseUpdate (response : AuthorizationResponse) :
    parts.Local response.feed fun s => responseUpdate s response := by
  unfold responseUpdate
  apply Parts.Local.ite (reads_isRegistered _ _)
  · cases isDenial response with
    | true => exact local_cacheResponse response
    | false => exact (local_addSubscription ..).comp (local_cacheResponse response)
  · exact .id

/-- The end of a subscription is local to its feed. -/
theorem local_removeSubscription (subscriber : Guid) (feed topic : String) (removeAll : Bool) :
    parts.Local feed fun s => { s with
      subscriptionRepository :=
        s.subscriptionRepository.removeSubscription subscriber feed topic removeAll } :=
  local_subscriptionRepository
    (SubscriptionRepository.local_removeSubscription subscriber feed topic removeAll)

/-- A publisher is local to its feed. -/
theorem local_addPublisher (publisher : Guid) (feed topic : String) :
    parts.Local feed fun s => { s with
      publisherRepository := s.publisherRepository.addPublisher publisher feed topic } :=
  local_publisherRepository (PublisherRepository.local_addPublisher publisher feed topic)

private theorem local_subscriptionUpdate (subscriber : Guid) (request : SubscriptionRequest) :
    parts.Local request.feed fun s => subscriptionUpdate settings s subscriber request := by
  unfold subscriptionUpdate
  split
  · split
    · apply Parts.Local.of_agree
      intro s
      have hreads := reads_tryGetAuthorization subscriber request.feed request.topic s
      cases hcached : (s.objects subscriber).tryGetAuthorization request.feed request.topic with
      | some authorization =>
        refine ⟨_, local_addSubscription subscriber request.feed request.topic
          (.new authorization.isAuthorizationRequired authorization.entitlements) false, ?_⟩
        intro s' h
        simp only [← hreads s' h, hcached]
      | none =>
        split
        · refine ⟨_, .id, fun s' h => ?_⟩
          simp only [← hreads s' h, hcached]
        · refine ⟨_, local_responseUpdate
            (automaticGrant subscriber request.feed request.topic), fun s' h => ?_⟩
          simp only [← hreads s' h, hcached]
    · exact local_removeSubscription subscriber request.feed request.topic false
  · exact .id

private theorem local_notificationUpdate (notifiable : Guid) (request : NotificationRequest) :
    parts.Local request.feed fun s => notificationUpdate s notifiable request := by
  unfold notificationUpdate
  split
  · exact local_notificationRepository
      (NotificationRepository.local_addRequest notifiable request.feed)
  · exact local_notificationRepository
      (NotificationRepository.local_removeRequest notifiable request.feed)

private theorem local_multicastUpdate (publisher : Guid) (data : MulticastData) :
    parts.Local data.feed fun s => multicastUpdate settings s publisher data := by
  unfold multicastUpdate
  split
  · apply Parts.Local.of_agree
    intro s
    have hadd := PublisherRepository.local_addPublisher publisher data.feed data.topic
    have hadds : PublisherRepository.parts.Local data.feed fun r =>
        (s.subscriptionRepository.getSubscribersToFeedAndTopic data.feed data.topic).foldl
          (fun r _ => r.addPublisher publisher data.feed data.topic) r := .foldl fun _ _ => hadd
    refine ⟨_, local_publisherRepository hadds, fun s' h => ?_⟩
    have hreads := reads_getSubscribersToFeedAndTopic data.feed data.topic s s' h
    simp only [hreads]
  · exact .id

private theorem local_unicastUpdate (publisher : Guid) (data : UnicastData) :
    parts.Local data.feed fun s => unicastUpdate settings s publisher data := by
  unfold unicastUpdate
  apply Parts.Local.of_agree
  intro s
  have hreads := reads_unicastTarget data s
  cases htarget : s.unicastTarget data with
  | none =>
    refine ⟨_, .id, fun s' h => ?_⟩
    simp only [← hreads s' h, htarget]
  | some target =>
    split
    · refine ⟨_, local_addPublisher publisher data.feed data.topic, fun s' h => ?_⟩
      simp only [← hreads s' h, htarget]
    · refine ⟨_, .id, fun s' h => ?_⟩
      simp only [← hreads s' h, htarget]

/-- What a message changes belongs to its feed. -/
theorem local_update (i : Guid) (m : Message) :
    parts.Local (feedOf m) fun s => update settings s (.message i m) := by
  cases m with
  | authorizationResponse m => exact local_responseUpdate m
  | subscriptionRequest m => exact local_subscriptionUpdate settings i m
  | multicastData m => exact local_multicastUpdate settings i m
  | unicastData m => exact local_unicastUpdate settings i m
  | notificationRequest m => exact local_notificationUpdate i m
  | _ => exact .id

/-! ### What a message sends -/

private theorem reads_notices (subscriber : Guid) (request : SubscriptionRequest) :
    parts.Reads request.feed fun s =>
      notices settings s.notificationRepository subscriber request := by
  intro s s' h
  have hreads := NotificationRepository.reads_findNotifiables request.feed _ _
    (notifications_of_agree h)
  simp only [notices, hreads]

private theorem reads_responseSends (response : AuthorizationResponse) :
    parts.Reads response.feed fun s => responseSends settings s response := by
  intro s s' h
  have hregistered := reads_isRegistered response.feed response.clientId _ _ h
  have hnotices := reads_notices settings response.clientId
    ⟨response.feed, response.topic, true⟩ _ _ h
  simp only [responseSends, hregistered, hnotices]

private theorem reads_subscriptionSends (subscriber : Guid) (request : SubscriptionRequest) :
    parts.Reads request.feed fun s => subscriptionSends settings s subscriber request := by
  intro s s' h
  have hcached := reads_tryGetAuthorization subscriber request.feed request.topic _ _ h
  have hadd := reads_notices settings subscriber ⟨request.feed, request.topic, true⟩ _ _ h
  have hrequest := reads_notices settings subscriber request _ _ h
  have hgrant := reads_responseSends settings
    (automaticGrant subscriber request.feed request.topic) _ _ h
  have hrepository : s.interactorRepository = s'.interactorRepository :=
    congrArg Rest.interactorRepository h.rest
  simp only [subscriptionSends, hcached, hadd, hrequest, hgrant, hrepository]

private theorem reads_isNotifiable (i : Guid) (feed : String) :
    parts.Reads feed fun s => s.notificationRepository.IsNotifiable i feed := by
  intro s s' h
  have hlookup := NotificationRepository.lookup_of_agree (notifications_of_agree h)
  simp only [NotificationRepository.IsNotifiable, hlookup]

private theorem reads_snapshot (feed : String) :
    parts.Reads feed fun s => snapshot settings s feed := by
  intro s s' h
  have hsubscribers := SubscriptionRepository.reads_getSubscribersToFeed feed _ _
    (subscriptions_of_agree h)
  simp only [snapshot, hsubscribers]

private theorem reads_notificationSends (notifiable : Guid) (request : NotificationRequest) :
    parts.Reads request.feed fun s => notificationSends settings s notifiable request := by
  intro s s' h
  have hnotifiable := reads_isNotifiable notifiable request.feed _ _ h
  have hsnapshot := reads_snapshot settings request.feed _ _ h
  simp only [notificationSends, hnotifiable, hsnapshot]

private theorem reads_multicastSends (publisher : Guid) (data : MulticastData) :
    parts.Reads data.feed fun s => multicastSends settings s publisher data := by
  intro s s' h
  have hreads := reads_getSubscribersToFeedAndTopic data.feed data.topic _ _ h
  simp only [multicastSends, hreads]

private theorem reads_unicastSends (publisher : Guid) (data : UnicastData) :
    parts.Reads data.feed fun s => unicastSends settings s publisher data := by
  intro s s' h
  have hreads := reads_unicastTarget data _ _ h
  simp only [unicastSends, hreads]

/-- What a message sends depends on its feed alone. -/
theorem reads_sends (i : Guid) (m : Message) :
    parts.Reads (feedOf m) fun s => sends settings s (.message i m) := by
  cases m with
  | authorizationResponse m => exact reads_responseSends settings m
  | subscriptionRequest m => exact reads_subscriptionSends settings i m
  | multicastData m => exact reads_multicastSends settings i m
  | unicastData m => exact reads_unicastSends settings i m
  | notificationRequest m => exact reads_notificationSends settings i m
  | _ => exact fun _ _ _ => rfl

private theorem feedOf_of_mem_notices {r : NotificationRepository} {i : Guid}
    {request : SubscriptionRequest} {send : Guid × Message}
    (h : send ∈ notices settings r i request) : feedOf send.2 = request.feed := by
  obtain ⟨notifiable, -, rfl⟩ := List.mem_map.mp h
  rfl

private theorem feedOf_of_mem_responseSends {r : AuthorizationResponse} {send : Guid × Message}
    (h : send ∈ responseSends settings s r) : feedOf send.2 = r.feed := by
  unfold responseSends at h
  split at h
  · split at h
    · rw [List.mem_singleton.mp h]
      rfl
    · exact feedOf_of_mem_notices settings h
  · cases h

private theorem feedOf_of_mem_subscriptionSends {i : Guid} {request : SubscriptionRequest}
    {send : Guid × Message} (h : send ∈ subscriptionSends settings s i request) :
    feedOf send.2 = request.feed := by
  unfold subscriptionSends at h
  split at h
  · split at h
    · split at h
      · have hf := feedOf_of_mem_notices settings h
        exact hf
      · split at h
        · obtain ⟨authorizer, -, rfl⟩ := List.mem_map.mp h
          rfl
        · exact feedOf_of_mem_responseSends settings h
    · exact feedOf_of_mem_notices settings h
  · cases h

/-- Every message sent names the feed of the message that is handled. -/
theorem feedOf_of_mem_sends {i : Guid} {m : Message} {send : Guid × Message}
    (h : send ∈ sends settings s (.message i m)) : feedOf send.2 = feedOf m := by
  cases m with
  | authorizationResponse m => exact feedOf_of_mem_responseSends settings h
  | subscriptionRequest m => exact feedOf_of_mem_subscriptionSends settings h
  | multicastData m =>
    obtain ⟨-, h⟩ := List.mem_ite_nil_right.mp h
    obtain ⟨subscriber, -, rfl⟩ := List.mem_map.mp h
    rfl
  | unicastData m =>
    simp only [sends, unicastSends] at h
    split at h
    · cases h
    · obtain ⟨-, h⟩ := List.mem_ite_nil_right.mp h
      rw [List.mem_singleton.mp h]
      rfl
  | notificationRequest m =>
    obtain ⟨-, h⟩ := List.mem_ite_nil_right.mp h
    obtain ⟨message, hm, rfl⟩ := List.mem_map.mp h
    obtain ⟨subscribers, -, hm⟩ := List.mem_flatMap.mp hm
    obtain ⟨subscriber, -, rfl⟩ := List.mem_map.mp hm
    rfl
  | _ => cases h

/-! ### Handling a message -/

/-- Handling a message is local to its feed. -/
theorem local_onMessage (i : Guid) (m : Message) :
    parts.Local (feedOf m) fun s => (onMessage settings s i m).1 := by
  have hsplit : ∀ s, (onMessage settings s i m).1 =
      (update settings s (.message i m)).deliver (sends settings s (.message i m)) :=
    fun s => onInteractorEvent_eq settings s (.message i m)
  simp only [hsplit]
  exact local_deliver (local_update settings i m) (reads_sends settings i m)
    fun _ _ => feedOf_of_mem_sends settings

private theorem sendSnapshot_thrown {notifiable : Guid} (messages : List Message)
    (h : (s.objects notifiable).tokenSource = (s'.objects notifiable).tokenSource) :
    (sendSnapshot settings notifiable messages s).2 =
      (sendSnapshot settings notifiable messages s').2 := by
  induction messages generalizing s s' with
  | nil => rfl
  | cons message messages ih =>
    rw [sendSnapshot, sendSnapshot]
    cases ht : (s'.objects notifiable).tokenSource with
    | live =>
      simp only [Interactor.sendMessage, h, ht]
      apply ih
      simp [Interactors.modify_apply]
    | cancelled =>
      simp only [Interactor.sendMessage, h, ht]
      apply ih
      simpa [Interactors.modify_apply] using h
    | disposed =>
      simp only [Interactor.sendMessage, h, ht]
      split
      · rfl
      · exact ih h

/-- What handling a message throws depends on its feed alone. -/
theorem reads_thrown (i : Guid) (m : Message) :
    parts.Reads (feedOf m) fun s => (onMessage settings s i m).2 := by
  cases m with
  | notificationRequest request =>
    intro s s' h
    have hnew := NotificationRepository.reads_addRequest i request.feed _ _
      (notifications_of_agree h)
    have hsnapshot : ∀ r r', snapshot settings { s with notificationRepository := r } request.feed =
        snapshot settings { s' with notificationRepository := r' } request.feed :=
      fun _ _ => reads_snapshot settings request.feed s s' h
    have htoken := Interactor.tokenSource_of_agree (Interactors.agree_apply (objects_of_agree h) i)
    simp only [onMessage, requestNotification]
    split
    · simp only [hnew, hsnapshot _ (s'.notificationRepository.addRequest i request.feed).1]
      split
      · exact sendSnapshot_thrown settings _ htoken
      · rfl
    · rfl
  | _ => exact fun _ _ _ => rfl

/-- The role that handling a message asks the role manager of its interactor for. -/
def roleQuery (s : Server) : Message → Option (String × Role)
  | .subscriptionRequest m => some (m.feed, .subscribe)
  | .multicastData m => some (m.feed, .publish)
  | .unicastData m => if (s.unicastTarget m).isSome then some (m.feed, .publish) else none
  | _ => none

private theorem reads_roleQuery (m : Message) : parts.Reads (feedOf m) fun s => s.roleQuery m := by
  cases m with
  | unicastData m =>
    intro s s' h
    have htarget := reads_unicastTarget m s s' h
    simp only [roleQuery, htarget]
  | _ => exact fun _ _ _ => rfl

private theorem feed_of_roleQuery {m : Message} {query : String × Role}
    (h : s.roleQuery m = some query) : query.1 = feedOf m := by
  cases m with
  | subscriptionRequest m =>
    cases h
    rfl
  | multicastData m =>
    cases h
    rfl
  | unicastData m =>
    obtain ⟨-, ⟨⟩⟩ := Option.ite_none_right_eq_some.mp h
    rfl
  | _ => cases h

/-- What the server holds of a feed is what it was: the subscriptions, the authorizations,
the notifiables and the publishers of the feed, and the messages queued that name it. -/
structure Untouched (feed : String) (s s' : Server) : Prop where
  entry : ∀ c t, s'.entry c feed t = s.entry c feed t
  cached : ∀ c t, s'.cached c feed t = s.cached c feed t
  notifiable : ∀ n, s'.notificationRepository.IsNotifiable n feed ↔
    s.notificationRepository.IsNotifiable n feed
  published : ∀ p t, s'.publisherRepository.HasPublished p ⟨feed, t⟩ ↔
    s.publisherRepository.HasPublished p ⟨feed, t⟩
  queued : ∀ c, (s'.objects c).queued.filter (feedOf · == feed) =
    (s.objects c).queued.filter (feedOf · == feed)

private theorem untouched_of_agree (h : parts.Agree feed s' s) : Untouched feed s s' where
  entry c t := by
    simp only [entry, SubscriptionRepository.entry, SubscriptionRepository.subscribers,
      SubscriptionRepository.lookup_of_agree (subscriptions_of_agree h)]
  cached c t := reads_tryGetAuthorization c feed t _ _ h
  notifiable n := iff_of_eq (reads_isNotifiable n feed _ _ h)
  published p t := by
    simp only [PublisherRepository.HasPublished, TwoWaySet.Contains, valuesOf,
      PublisherRepository.lookup_of_agree (publishers_of_agree h)]
  queued c := by
    have hobject := Interactors.agree_apply (objects_of_agree h) c
    have htaken : (s'.objects c).taken = (s.objects c).taken :=
      congrArg (fun rest => rest.taken) hobject.rest
    simp only [Interactor.queued, List.filter_append, htaken,
      Interactor.writeQueue_of_agree hobject]

end Server

/-! ### The memos of the role managers -/

/-- A server with the memos of its role managers, which remember decisions rightly. -/
structure MemoServer (settings : Settings) where
  server : Server
  memos : Guid → RoleManager.Memo
  remembers : ∀ i, (settings.roleManager i).Remembers (memos i)

namespace MemoServer

variable {settings : Settings}

/-- `OnMessage`, with the query that it makes of the interactor's role manager. -/
def onMessage (s : MemoServer settings) (i : Guid) (m : Message) :
    MemoServer settings × Option Exception :=
  let result := Server.onMessage settings s.server i m
  ({ server := result.1
     memos := fun j =>
      if j = i then (settings.roleManager j).ask (s.memos j) (s.server.roleQuery m)
      else s.memos j
     remembers := by
       intro j
       split
       · exact RoleManager.remembers_ask _ (s.remembers j) _
       · exact s.remembers j }, result.2)

/-- The server with its memos by feeds. -/
def parts : Parts (MemoServer settings) String
    (Server.Part × (Guid → Option (Dictionary Role Bool))) Server.Rest where
  part feed s := (Server.parts.part feed s.server,
    (RoleManager.memoParts.family Guid).part feed s.memos)
  rest s := Server.parts.rest s.server

private theorem server_of_agree {feed : String} {s s' : MemoServer settings}
    (h : parts.Agree feed s s') : Server.parts.Agree feed s.server s'.server :=
  ⟨congrArg Prod.fst h.part, h.rest⟩

private theorem memos_of_agree {feed : String} {s s' : MemoServer settings}
    (h : parts.Agree feed s s') : (RoleManager.memoParts.family Guid).Agree feed s.memos s'.memos :=
  ⟨congrArg Prod.snd h.part, rfl⟩

/-- Handling a message is local to its feed, memos included. -/
theorem local_onMessage (i : Guid) (m : Message) :
    parts.Local (feedOf m) fun s : MemoServer settings => (s.onMessage i m).1 where
  rest s := (Server.local_onMessage settings i m).rest s.server
  frame s feed hf := by
    have hask := RoleManager.local_ask (settings.roleManager i)
      fun _ hq => Server.feed_of_roleQuery (s := s.server) (m := m) hq
    apply Prod.ext
    · exact (Server.local_onMessage settings i m).frame s.server feed hf
    · exact (Parts.Local.update (f := fun j memo => (settings.roleManager j).ask memo _) i
        hask).frame s.memos feed hf
  reads s s' h := by
    have hquery := Server.reads_roleQuery m _ _ (server_of_agree h)
    have hask := RoleManager.local_ask (settings.roleManager i)
      fun _ hq => Server.feed_of_roleQuery (s := s'.server) (m := m) hq
    apply Prod.ext
    · exact (Server.local_onMessage settings i m).reads _ _ (server_of_agree h)
    · simp only [parts, onMessage, hquery]
      exact (Parts.Local.update (f := fun j memo => (settings.roleManager j).ask memo _) i
        hask).reads _ _ (memos_of_agree h)

/-- Messages on different feeds do not interfere. Handling a message leaves every other feed
untouched, and two messages on different feeds, handled in either order, lead to the same
state, with the same messages queued to every client on each feed, and throw the same. -/
theorem feeds_isolated (s : MemoServer settings) (i : Guid) (m : Message) :
    (∀ feed, feed ≠ feedOf m → Server.Untouched feed s.server (s.onMessage i m).1.server) ∧
    ∀ j m', feedOf m' ≠ feedOf m →
      parts.Same ((s.onMessage i m).1.onMessage j m').1 ((s.onMessage j m').1.onMessage i m).1 ∧
      (∀ c feed,
        ((((s.onMessage i m).1.onMessage j m').1.server.objects c).queued.filter
            (feedOf · == feed)) =
          (((s.onMessage j m').1.onMessage i m).1.server.objects c).queued.filter
            (feedOf · == feed)) ∧
      ((s.onMessage j m').1.onMessage i m).2 = (s.onMessage i m).2 ∧
      ((s.onMessage i m).1.onMessage j m').2 = (s.onMessage j m').2 := by
  constructor
  · intro feed hf
    exact Server.untouched_of_agree ((Server.local_onMessage settings i m).agree_of_ne hf s.server)
  · intro j m' hne
    have hi : parts.Local (feedOf m) fun s : MemoServer settings => (s.onMessage i m).1 :=
      local_onMessage i m
    have hj : parts.Local (feedOf m') fun s : MemoServer settings => (s.onMessage j m').1 :=
      local_onMessage j m'
    have hsame := hi.commute hj hne.symm s
    refine ⟨hsame, ?_, ?_, ?_⟩
    · intro c feed
      have hagree : parts.Agree feed _ _ := ⟨hsame.part feed, hsame.rest⟩
      exact (Server.untouched_of_agree (server_of_agree hagree)).queued c
    · exact Server.reads_thrown settings i m _ _ (server_of_agree (hj.agree_of_ne hne.symm s))
    · exact Server.reads_thrown settings j m' _ _ (server_of_agree (hi.agree_of_ne hne s))

end MemoServer

end MessageBus.Distributor
