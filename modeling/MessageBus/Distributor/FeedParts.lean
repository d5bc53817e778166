import MessageBus.Base.Locality
import MessageBus.Distributor.Effects

/-!
# What the distributor holds of one feed

Each repository seen as parts, one for each feed: the lookups under the feed, and the
gauges of the feed. The operations of a repository that take a feed are local to it.
-/

namespace MessageBus.Distributor
open MessageBus.Base MessageBus.Common MessageBus.Messages

/-- The feed that a message names. -/
def feedOf : Message → String
  | .multicastData m => m.feed
  | .unicastData m => m.feed
  | .forwardedSubscriptionRequest m => m.feed
  | .notificationRequest m => m.feed
  | .subscriptionRequest m => m.feed
  | .authorizationRequest m => m.feed
  | .authorizationResponse m => m.feed
  | .forwardedMulticastData m => m.feed
  | .forwardedUnicastData m => m.feed

/-! ### Role managers -/

namespace RoleManager

/-- A memo by feeds. -/
def memoParts : Parts Memo String (Option (Dictionary Role Bool)) Unit where
  part feed memo := memo.lookup feed
  rest _ := ()

/-- A query leaves the decisions on other feeds alone. -/
theorem local_queryRole (m : RoleManager) (feed : String) (role : Role) :
    memoParts.Local feed fun memo => (m.queryRole memo feed role).2 where
  rest _ := rfl
  frame memo feed' hf := by
    simp only [queryRole]
    split
    · simp [memoParts, hf]
    · simp [memoParts, hf]
  reads memo memo' h := by
    have hlookup : memo.lookup feed = memo'.lookup feed := h.part
    simp only [queryRole, hlookup]
    split
    · simp [memoParts]
    · simp [memoParts]

/-- The memo after a query, if there is one. -/
def ask (m : RoleManager) (memo : Memo) : Option (String × Role) → Memo
  | none => memo
  | some (feed, role) => (m.queryRole memo feed role).2

/-- A role manager that has been asked remembers its answers. -/
theorem remembers_ask (m : RoleManager) {memo : Memo} (h : m.Remembers memo)
    (query : Option (String × Role)) : m.Remembers (m.ask memo query) := by
  cases query with
  | none => exact h
  | some query => exact (m.queryRole_eq h query.1 query.2).2

/-- A question about a feed is local to it. -/
theorem local_ask (m : RoleManager) {feed : String} {query : Option (String × Role)}
    (hq : ∀ q, query = some q → q.1 = feed) :
    memoParts.Local feed fun memo => m.ask memo query := by
  cases query with
  | none => exact .id
  | some query =>
    obtain rfl := hq query rfl
    exact local_queryRole m query.1 query.2

end RoleManager

/-! ### Subscriptions -/

namespace SubscriptionRepository

/-- The subscriptions of a feed by their topics, and the gauge of each subscriber. -/
structure Part where
  topics : Option (Dictionary String Subscribers)
  gauge : Guid → Int

/-- The subscription repository by feeds. -/
def parts : Parts SubscriptionRepository String Part Unit where
  part feed r := ⟨r.cache.lookup feed, fun subscriber => r.subscriptions subscriber feed⟩
  rest _ := ()

/-- Repositories that agree on a feed have the same topics there. -/
theorem lookup_of_agree {r r' : SubscriptionRepository} {feed : String}
    (h : parts.Agree feed r r') : r.cache.lookup feed = r'.cache.lookup feed :=
  congrArg Part.topics h.part

private theorem gauge_of_agree {r r' : SubscriptionRepository} {feed : String}
    (h : parts.Agree feed r r') (subscriber : Guid) :
    r.subscriptions subscriber feed = r'.subscriptions subscriber feed :=
  congrFun (congrArg Part.gauge h.part) subscriber

/-- A subscription is local to its feed. -/
theorem local_addSubscription (subscriber : Guid) (feed topic : String)
    (info : AuthorizationInfo) (update : Bool) :
    parts.Local feed fun r => r.addSubscription subscriber feed topic info update where
  rest _ := rfl
  frame r feed' hf := by
    simp [parts, addSubscription, incSubscriptions, hf]
  reads r r' h := by
    simp [parts, addSubscription, incSubscriptions, lookup_of_agree h, gauge_of_agree h]

/-- The end of a subscription is local to its feed. -/
theorem local_removeSubscription (subscriber : Guid) (feed topic : String) (removeAll : Bool) :
    parts.Local feed fun r => r.removeSubscription subscriber feed topic removeAll where
  rest _ := rfl
  frame r feed' hf := by
    unfold removeSubscription
    split
    · rfl
    · split
      · rfl
      · split
        · rfl
        · simp [parts, incSubscriptions, Dictionary.lookup_store, hf]
  reads r r' h := by
    simp only [removeSubscription, lookup_of_agree h]
    cases r'.cache.lookup feed with
    | none => exact h.part
    | some topics =>
      cases ht : topics.lookup topic with
      | none => simpa only [ht] using h.part
      | some subscribers =>
        cases hs : subscribers.lookup subscriber with
        | none => simpa only [ht, hs] using h.part
        | some state =>
          simp only [ht, hs]
          simp [parts, incSubscriptions, Dictionary.lookup_store, gauge_of_agree h]

/-- The subscribers to a topic are read from the part of its feed. -/
theorem reads_getSubscribersToFeedAndTopic (feed topic : String) :
    parts.Reads feed fun r => r.getSubscribersToFeedAndTopic feed topic := by
  intro r r' h
  simp only [getSubscribersToFeedAndTopic, lookup_of_agree h]

/-- The subscribers to a feed are read from its part. -/
theorem reads_getSubscribersToFeed (feed : String) :
    parts.Reads feed fun r => r.getSubscribersToFeed feed := by
  intro r r' h
  simp only [getSubscribersToFeed, lookup_of_agree h]

end SubscriptionRepository

/-! ### Notifications -/

namespace NotificationRepository

/-- The notifiables of a feed, and the gauge of each. -/
structure Part where
  notifiables : Option (HashSet Guid)
  gauge : Guid → Int

/-- The notification repository by feeds. -/
def parts : Parts NotificationRepository String Part Unit where
  part feed r := ⟨r.feedToNotifiables.lookup feed, fun notifiable => r.feedRequests notifiable feed⟩
  rest _ := ()

/-- Repositories that agree on a feed have the same interactors to notify. -/
theorem lookup_of_agree {r r' : NotificationRepository} {feed : String}
    (h : parts.Agree feed r r') :
    r.feedToNotifiables.lookup feed = r'.feedToNotifiables.lookup feed :=
  congrArg Part.notifiables h.part

private theorem gauge_of_agree {r r' : NotificationRepository} {feed : String}
    (h : parts.Agree feed r r') (notifiable : Guid) :
    r.feedRequests notifiable feed = r'.feedRequests notifiable feed :=
  congrFun (congrArg Part.gauge h.part) notifiable

/-- A notification request is local to its feed. -/
theorem local_addRequest (notifiable : Guid) (feed : String) :
    parts.Local feed fun r => (r.addRequest notifiable feed).1 where
  rest _ := rfl
  frame r feed' hf := by
    simp only [addRequest]
    split
    · rfl
    · simp [parts, incFeedRequests, hf]
  reads r r' h := by
    simp only [addRequest, lookup_of_agree h]
    split
    · exact h.part
    · simp [parts, incFeedRequests, gauge_of_agree h]

/-- The end of a notification request is local to its feed. -/
theorem local_removeRequest (notifiable : Guid) (feed : String) :
    parts.Local feed fun r => r.removeRequest notifiable feed where
  rest _ := rfl
  frame r feed' hf := by
    unfold removeRequest
    split
    · rfl
    · simp only
      split
      · split
        · simp [parts, incFeedRequests, hf]
        · simp [parts, incFeedRequests, hf]
      · rfl
  reads r r' h := by
    simp only [removeRequest, lookup_of_agree h]
    cases r'.feedToNotifiables.lookup feed with
    | none => exact h.part
    | some notifiables =>
      simp only
      split
      · split
        · simp [parts, incFeedRequests, gauge_of_agree h]
        · simp [parts, incFeedRequests, gauge_of_agree h]
      · exact h.part

/-- Whether a notification request is new is read from the part of its feed. -/
theorem reads_addRequest (notifiable : Guid) (feed : String) :
    parts.Reads feed fun r => (r.addRequest notifiable feed).2 := by
  intro r r' h
  simp only [addRequest, lookup_of_agree h]
  split
  · rfl
  · rfl

/-- The interactors to notify are read from the part of the feed. -/
theorem reads_findNotifiables (feed : String) :
    parts.Reads feed fun r => r.findNotifiables feed := by
  intro r r' h
  exact lookup_of_agree h

end NotificationRepository

/-! ### Publishers -/

namespace PublisherRepository

/-- The publishers of a feed by topics, and the topics of the feed for each publisher. -/
structure Part where
  publishers : String → Option (HashSet Guid)
  topics : Guid → List FeedTopic

/-- The publisher repository by feeds. -/
def parts : Parts PublisherRepository String Part Unit where
  part feed r := ⟨fun topic => r.firstToSeconds.lookup ⟨feed, topic⟩,
    fun publisher => (valuesOf r.secondToFirsts publisher).toList.filter (·.feed == feed)⟩
  rest _ := ()

/-- Repositories that agree on a feed have the same publishers there. -/
theorem lookup_of_agree {r r' : PublisherRepository} {feed : String} (h : parts.Agree feed r r')
    (topic : String) :
    r.firstToSeconds.lookup ⟨feed, topic⟩ = r'.firstToSeconds.lookup ⟨feed, topic⟩ :=
  congrFun (congrArg Part.publishers h.part) topic

private theorem topics_of_agree {r r' : PublisherRepository} {feed : String}
    (h : parts.Agree feed r r') (publisher : Guid) :
    (valuesOf r.secondToFirsts publisher).toList.filter (·.feed == feed) =
      (valuesOf r'.secondToFirsts publisher).toList.filter (·.feed == feed) :=
  congrFun (congrArg Part.topics h.part) publisher

private theorem topics_addPublisher (r : PublisherRepository) (publisher publisher' : Guid)
    (feed topic feed' : String) :
    (valuesOf (r.addPublisher publisher feed topic).secondToFirsts publisher').toList.filter
        (·.feed == feed') =
      (valuesOf r.secondToFirsts publisher').toList.filter (·.feed == feed') ++
        if publisher' = publisher ∧ feed = feed' ∧
          ⟨feed, topic⟩ ∉ valuesOf r.secondToFirsts publisher' then [⟨feed, topic⟩] else [] := by
  have hlink : valuesOf (r.addPublisher publisher feed topic).secondToFirsts publisher' =
      if publisher' = publisher then (valuesOf r.secondToFirsts publisher).add ⟨feed, topic⟩
      else valuesOf r.secondToFirsts publisher' := TwoWaySet.valuesOf_link ..
  rw [hlink]
  by_cases hp : publisher' = publisher
  · subst hp
    simp [HashSet.filter_toList_add]
  · simp [hp]

/-- A publisher is local to its feed. -/
theorem local_addPublisher (publisher : Guid) (feed topic : String) :
    parts.Local feed fun r => r.addPublisher publisher feed topic where
  rest _ := rfl
  frame r feed' hf := by
    have hne : ∀ topic', (⟨feed', topic'⟩ : FeedTopic) ≠ ⟨feed, topic⟩ :=
      fun topic' he => hf (FeedTopic.mk.inj he).1
    simp only [parts, topics_addPublisher, Ne.symm hf, false_and, and_false, if_false,
      List.append_nil, Part.mk.injEq, and_true]
    funext topic'
    exact (Dictionary.lookup_insert _ _ _ _).trans (if_neg (hne topic'))
  reads r r' h := by
    have hmem : ∀ publisher' topic', (⟨feed, topic'⟩ : FeedTopic) ∈
        valuesOf r.secondToFirsts publisher' ↔
          ⟨feed, topic'⟩ ∈ valuesOf r'.secondToFirsts publisher' := by
      intro publisher' topic'
      rw [← TwoWaySet.mirror, ← TwoWaySet.mirror, valuesOf, valuesOf, lookup_of_agree h]
    have hvalues : valuesOf r.firstToSeconds ⟨feed, topic⟩ =
        valuesOf r'.firstToSeconds ⟨feed, topic⟩ := by
      rw [valuesOf, valuesOf, lookup_of_agree h]
    simp only [parts, topics_addPublisher, topics_of_agree h, hmem, Part.mk.injEq, and_true]
    funext topic'
    simp only [addPublisher, TwoWaySet.add, TwoWaySet.link, Dictionary.lookup_insert, hvalues,
      lookup_of_agree h]

end PublisherRepository

/-! ### Interactors -/

namespace Interactor

/-- The authorizations of a feed, and the messages on the write queue that name it. -/
structure Part where
  authorizations : Option (Dictionary String AuthorizationResponse)
  writeQueue : List Message

/-- An interactor by feeds. -/
def parts : Parts Interactor String Part Interactor where
  part feed i := ⟨i.authorizations.lookup feed, i.writeQueue.filter (feedOf · == feed)⟩
  rest i := { i with authorizations := ∅, writeQueue := [] }

private theorem authorizations_of_agree {i i' : Interactor} {feed : String}
    (h : parts.Agree feed i i') : i.authorizations.lookup feed = i'.authorizations.lookup feed :=
  congrArg Part.authorizations h.part

/-- Interactors that agree on a feed have the same messages of it queued. -/
theorem writeQueue_of_agree {i i' : Interactor} {feed : String} (h : parts.Agree feed i i') :
    i.writeQueue.filter (feedOf · == feed) = i'.writeQueue.filter (feedOf · == feed) :=
  congrArg Part.writeQueue h.part

/-- Interactors that agree on a feed have the same token. -/
theorem tokenSource_of_agree {i i' : Interactor} {feed : String} (h : parts.Agree feed i i') :
    i.tokenSource = i'.tokenSource :=
  congrArg (fun rest => rest.tokenSource) h.rest

/-- An authorization is local to its feed. -/
theorem local_setAuthorization (feed topic : String) (authorization : AuthorizationResponse) :
    parts.Local feed fun i => i.setAuthorization feed topic authorization where
  rest _ := rfl
  frame i feed' hf := by
    simp [parts, setAuthorization, hf]
  reads i i' h := by
    simp [parts, setAuthorization, authorizations_of_agree h, writeQueue_of_agree h]

private theorem local_trySendMessage (message : Message) :
    parts.Local (feedOf message) fun i => i.trySendMessage message where
  rest i := by
    simp only [trySendMessage_eq]
    split <;> rfl
  frame i feed' hf := by
    simp only [trySendMessage_eq]
    split
    · simp [parts, Ne.symm hf]
    · rfl
  reads i i' h := by
    simp only [trySendMessage_eq, tokenSource_of_agree h]
    split
    · simp [parts, authorizations_of_agree h, writeQueue_of_agree h]
    · exact h.part

/-- An authorization is read from the part of its feed. -/
theorem reads_tryGetAuthorization (feed topic : String) :
    parts.Reads feed fun i => i.tryGetAuthorization feed topic := by
  intro i i' h
  simp only [tryGetAuthorization, authorizations_of_agree h]

/-- Whether there is an authorization is read from the part of its feed. -/
theorem reads_hasAuthorization (feed topic : String) :
    parts.Reads feed fun i => i.hasAuthorization feed topic := by
  intro i i' h
  simp only [hasAuthorization, authorizations_of_agree h]

end Interactor

namespace Interactors

/-- The interactors by feeds. -/
def parts : Parts Interactors String (Guid → Interactor.Part) (Guid → Interactor) :=
  Interactor.parts.family Guid

/-- Where the interactors agree, each of them does. -/
theorem agree_apply {objects objects' : Interactors} {feed : String}
    (h : parts.Agree feed objects objects') (id : Guid) :
    Interactor.parts.Agree feed (objects id) (objects' id) :=
  ⟨congrFun h.part id, congrFun h.rest id⟩

/-- What is local to one interactor is local to all. -/
theorem local_modify {feed : String} {f : Interactor → Interactor}
    (hf : Interactor.parts.Local feed f) (id : Guid) :
    parts.Local feed fun objects => objects.modify id f :=
  Parts.Local.update (f := fun _ => f) id hf

/-- Messages that name one feed are delivered to its part. -/
theorem local_deliver {feed : String} {sends : List (Guid × Message)}
    (hs : ∀ send ∈ sends, feedOf send.2 = feed) :
    parts.Local feed fun objects => objects.deliver sends := by
  apply Parts.Local.foldl
  intro send hm
  have hf := local_modify (Interactor.local_trySendMessage send.2) send.1
  rwa [hs send hm] at hf

end Interactors

end MessageBus.Distributor
