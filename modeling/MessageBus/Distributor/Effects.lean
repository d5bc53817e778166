import MessageBus.Distributor.Delivery

/-!
# What handling an event does

Every handler changes repositories and then sends: `onInteractorEvent_eq` splits it into
the `update` of the state and the list of the `sends`. What an update does to one
subscription entry, one cached authorization or one registration, and what a list of
sends does to one write queue, are then separate small facts.
-/

namespace MessageBus.Distributor
open MessageBus.Base MessageBus.Common MessageBus.Messages

namespace Server

/-- The interactor is in the repository. -/
def IsRegistered (s : Server) (i : Guid) : Prop := i ∈ s.interactorRepository.interactors

/-- Whether an interactor is registered can be computed. -/
instance (s : Server) (i : Guid) : Decidable (s.IsRegistered i) :=
  inferInstanceAs (Decidable (i ∈ s.interactorRepository.interactors))

/-- The entry of a client in the subscription repository. -/
def entry (s : Server) (c : Guid) (f t : String) : Option SubscriptionState :=
  s.subscriptionRepository.entry c f t

/-- The authorization cached for a client. -/
def cached (s : Server) (c : Guid) (f t : String) : Option AuthorizationResponse :=
  (s.objects c).tryGetAuthorization f t

variable (settings : Settings)

/-! ### The sends of each handler -/

/-- The sends of `ForwardSubscription`. -/
def notices (r : NotificationRepository) (subscriber : Guid) (request : SubscriptionRequest) :
    List (Guid × Message) :=
  ((r.findNotifiables request.feed).getD ∅).toList.map fun notifiable =>
    (notifiable, forwardedRequest settings subscriber request)

private theorem forwardSubscription_eq (s : Server) (subscriber : Guid)
    (request : SubscriptionRequest) : forwardSubscription settings s subscriber request =
      s.deliver (notices settings s.notificationRepository subscriber request) := by
  unfold forwardSubscription notices
  split
  · next h => simp [h]
  · next notifiables h => simp [h]

/-- A notifiable is sent one notice. -/
theorem addressed_notices (r : NotificationRepository) (n c : Guid)
    (request : SubscriptionRequest) : addressed n (notices settings r c request) =
      if r.IsNotifiable n request.feed then [forwardedRequest settings c request] else [] :=
  addressed_map_const n _ (HashSet.nodup _) _

/-- The sends of `OnAuthorizationResponse` for a response that finds its client. -/
def responseSends (s : Server) (response : AuthorizationResponse) : List (Guid × Message) :=
  if s.IsRegistered response.clientId then
    if isDenial response then [(response.clientId, noData response.feed response.topic)]
    else notices settings s.notificationRepository response.clientId
      ⟨response.feed, response.topic, true⟩
  else []

/-- An accepted response is cached, unless the client has an authorization. -/
def cacheResponse (s : Server) (response : AuthorizationResponse) : Server :=
  if (s.objects response.clientId).hasAuthorization response.feed response.topic then s
  else { s with
    objects := s.objects.modify response.clientId
      (·.setAuthorization response.feed response.topic response) }

/-- What an accepted response changes: the cache, and the subscription unless it is a
denial. -/
def responseUpdate (s : Server) (response : AuthorizationResponse) : Server :=
  if s.IsRegistered response.clientId then
    let s := cacheResponse s response
    if isDenial response then s
    else { s with
      subscriptionRepository := s.subscriptionRepository.addSubscription response.clientId
        response.feed response.topic
        (.new response.isAuthorizationRequired response.entitlements) true }
  else s

@[simp] private theorem interactorRepository_cacheResponse (s : Server)
    (r : AuthorizationResponse) :
    (cacheResponse s r).interactorRepository = s.interactorRepository := by
  unfold cacheResponse
  split <;> rfl

@[simp] private theorem notificationRepository_cacheResponse (s : Server)
    (r : AuthorizationResponse) :
    (cacheResponse s r).notificationRepository = s.notificationRepository := by
  unfold cacheResponse
  split <;> rfl

@[simp] private theorem publisherRepository_cacheResponse (s : Server) (r : AuthorizationResponse) :
    (cacheResponse s r).publisherRepository = s.publisherRepository := by
  unfold cacheResponse
  split <;> rfl

/-- To store a response changes no subscription. -/
@[simp] theorem subscriptionRepository_cacheResponse (s : Server) (r : AuthorizationResponse) :
    (cacheResponse s r).subscriptionRepository = s.subscriptionRepository := by
  unfold cacheResponse
  split <;> rfl

private theorem acceptAuthorization_eq (s : Server) (authorizer : Guid)
    (response : AuthorizationResponse) : acceptAuthorization settings s authorizer response =
      (responseUpdate s response).deliver (responseSends settings s response) := by
  unfold acceptAuthorization responseUpdate responseSends InteractorRepository.find
  by_cases hr : s.IsRegistered response.clientId
  · have hm : response.clientId ∈ s.interactorRepository.interactors := hr
    simp only [if_pos hr, if_pos hm]
    have hcache : (if (s.objects response.clientId).hasAuthorization response.feed
        response.topic = true then s else { s with
          objects := s.objects.modify response.clientId
            (·.setAuthorization response.feed response.topic response) }) =
        cacheResponse s response := rfl
    rw [hcache, onAuthorizationResponse]
    simp only [AuthorizationResponseEventArg.new, addSubscription, forwardSubscription_eq,
      notificationRepository_cacheResponse]
    split
    · rfl
    · rfl
  · have hm : response.clientId ∉ s.interactorRepository.interactors := hr
    simp only [if_neg hr, if_neg hm, deliver_nil]

/-- The response with which the distributor answers itself when it requires no
authorization, `InteractorManager.cs:65`. -/
def automaticGrant (interactor : Guid) (feed topic : String) : AuthorizationResponse :=
  { clientId := interactor, feed, topic, isAuthorizationRequired := false, entitlements := none }

/-- The sends of `RequestSubscription`. -/
def subscriptionSends (s : Server) (subscriber : Guid) (request : SubscriptionRequest) :
    List (Guid × Message) :=
  if settings.hasRole subscriber request.feed .subscribe then
    if request.isAdd then
      match (s.objects subscriber).tryGetAuthorization request.feed request.topic with
      | some _ => notices settings s.notificationRepository subscriber
          ⟨request.feed, request.topic, true⟩
      | none =>
        if settings.distributorRole.isAuthorizationRequired then
          (s.interactorRepository.findRole request.feed .authorize).map fun authorizer =>
            (authorizer, .authorizationRequest
              { clientId := subscriber, host := settings.host subscriber,
                user := settings.user subscriber, feed := request.feed, topic := request.topic })
        else responseSends settings s (automaticGrant subscriber request.feed request.topic)
    else notices settings s.notificationRepository subscriber request
  else []

/-- What `RequestSubscription` changes. -/
def subscriptionUpdate (s : Server) (subscriber : Guid) (request : SubscriptionRequest) :
    Server :=
  if settings.hasRole subscriber request.feed .subscribe then
    if request.isAdd then
      match (s.objects subscriber).tryGetAuthorization request.feed request.topic with
      | some authorization => { s with
          subscriptionRepository := s.subscriptionRepository.addSubscription subscriber
            request.feed request.topic
            (.new authorization.isAuthorizationRequired authorization.entitlements) false }
      | none =>
        if settings.distributorRole.isAuthorizationRequired then s
        else responseUpdate s (automaticGrant subscriber request.feed request.topic)
    else { s with
      subscriptionRepository :=
        s.subscriptionRepository.removeSubscription subscriber request.feed request.topic false }
  else s

private theorem requestSubscription_eq (s : Server) (subscriber : Guid)
    (request : SubscriptionRequest) : requestSubscription settings s subscriber request =
      (subscriptionUpdate settings s subscriber request).deliver
        (subscriptionSends settings s subscriber request) := by
  unfold requestSubscription subscriptionUpdate subscriptionSends
  cases hrole : settings.hasRole subscriber request.feed .subscribe with
  | false => simp
  | true =>
    cases hadd : request.isAdd with
    | false => simp [forwardSubscription_eq]
    | true =>
      simp only [Bool.not_true, Bool.false_eq_true, if_false, if_true]
      cases (s.objects subscriber).tryGetAuthorization request.feed request.topic with
      | some authorization => simp only [addSubscription, forwardSubscription_eq]
      | none =>
        simp only [requestAuthorization]
        split
        · rfl
        · exact acceptAuthorization_eq settings s subscriber _

/-- The sends of `RequestNotification`: the snapshot for a new request. -/
def notificationSends (s : Server) (notifiable : Guid) (request : NotificationRequest) :
    List (Guid × Message) :=
  if request.isAdd ∧ ¬ s.notificationRepository.IsNotifiable notifiable request.feed then
    (snapshot settings s request.feed).map fun message => (notifiable, message)
  else []

/-- What `RequestNotification` changes. -/
def notificationUpdate (s : Server) (notifiable : Guid) (request : NotificationRequest) :
    Server :=
  if request.isAdd then { s with
    notificationRepository := (s.notificationRepository.addRequest notifiable request.feed).1 }
  else { s with
    notificationRepository := s.notificationRepository.removeRequest notifiable request.feed }

private theorem deliver_cons (s : Server) (send : Guid × Message)
    (sends : List (Guid × Message)) :
    s.deliver (send :: sends) = (s.deliver [send]).deliver sends := rfl

private theorem deliver_of_error {s : Server} {n : Guid} {m : Message} {e : Exception}
    (h : (s.objects n).sendMessage m = .error e) : s.deliver [(n, m)] = s := by
  have hobj : s.objects.deliver [(n, m)] = s.objects := by
    funext c
    rw [Interactors.deliver_cons, Interactors.deliver_nil, Interactors.trySend,
      Interactors.modify_apply]
    split
    · next hc =>
      subst hc
      rw [Interactor.trySendMessage, h]
    · rfl
  rw [deliver, hobj]

private theorem deliver_of_ok {s : Server} {n : Guid} {m : Message} {i : Interactor}
    (h : (s.objects n).sendMessage m = .ok i) :
    s.deliver [(n, m)] = { s with objects := s.objects.modify n fun _ => i } := by
  have hobj : s.objects.deliver [(n, m)] = s.objects.modify n fun _ => i := by
    funext c
    rw [Interactors.deliver_cons, Interactors.deliver_nil, Interactors.trySend,
      Interactors.modify_apply, Interactors.modify_apply]
    split
    · next hc =>
      subst hc
      rw [Interactor.trySendMessage, h]
    · rfl
  rw [deliver, hobj]

private theorem sendMessage_error {i : Interactor} {m : Message} {e : Exception}
    (h : i.sendMessage m = .error e) (m' : Message) : i.sendMessage m' = .error e := by
  unfold Interactor.sendMessage at h ⊢
  cases ht : i.tokenSource <;> rw [ht] at h
  · cases h
  · cases h
  · exact h

-- A send that throws finds the token disposed, and so would every later send: stopping
-- there and going on leave the same state.
private theorem deliver_of_errors {s : Server} {n : Guid} (messages : List Message)
    (h : ∀ m, ∃ e, (s.objects n).sendMessage m = .error e) :
    s.deliver (messages.map fun message => (n, message)) = s := by
  induction messages with
  | nil => rfl
  | cons m messages ih =>
    obtain ⟨e, he⟩ := h m
    rw [List.map_cons, deliver_cons, deliver_of_error he]
    exact ih

private theorem sendSnapshot_eq (notifiable : Guid) (messages : List Message) (s : Server) :
    (sendSnapshot settings notifiable messages s).1 =
      s.deliver (messages.map fun message => (notifiable, message)) := by
  induction messages generalizing s with
  | nil => rfl
  | cons message messages ih =>
    rw [List.map_cons, deliver_cons, sendSnapshot]
    split
    · next i h => rw [ih, deliver_of_ok h]
    · next e h =>
      rw [deliver_of_error h]
      split
      · exact (deliver_of_errors messages fun m => ⟨e, sendMessage_error h m⟩).symm
      · exact ih s

private theorem requestNotification_eq (s : Server) (notifiable : Guid)
    (request : NotificationRequest) : (requestNotification settings s notifiable request).1 =
      (notificationUpdate s notifiable request).deliver
        (notificationSends settings s notifiable request) := by
  unfold requestNotification notificationUpdate notificationSends
  cases hadd : request.isAdd with
  | false => simp
  | true =>
    by_cases hn : s.notificationRepository.IsNotifiable notifiable request.feed
    · have hnew : (s.notificationRepository.addRequest notifiable request.feed).2 = false := by
        rw [Bool.eq_false_iff, Ne, NotificationRepository.addRequest_eq_true_iff]
        exact not_not_intro hn
      simp [hn, hnew]
    · have hnew := NotificationRepository.addRequest_eq_true_iff.mpr hn
      simp only [if_true, hnew, hn, not_false_eq_true, and_self, sendSnapshot_eq]
      rfl

/-- The subscribers that multicast data goes to, if the publisher may publish. -/
def multicastSends (s : Server) (publisher : Guid) (data : MulticastData) :
    List (Guid × Message) :=
  if settings.hasRole publisher data.feed .publish then
    (s.subscriptionRepository.getSubscribersToFeedAndTopic data.feed data.topic).map
      fun subscriber =>
        (subscriber.1, forwardedMulticast settings (some publisher) subscriber.2 data)
  else []

/-- What sending multicast data changes: the publisher is recorded for each subscriber. -/
def multicastUpdate (s : Server) (publisher : Guid) (data : MulticastData) : Server :=
  if settings.hasRole publisher data.feed .publish then { s with
    publisherRepository :=
      (s.subscriptionRepository.getSubscribersToFeedAndTopic data.feed data.topic).foldl
        (fun r _ => r.addPublisher publisher data.feed data.topic) s.publisherRepository }
  else s

private theorem foldl_sendMulticastTo (publisher : Guid) (data : MulticastData)
    (subscribers : List (Guid × AuthorizationInfo)) (s : Server) :
    subscribers.foldl (sendMulticastTo settings (some publisher) data) s =
      { s with
        publisherRepository := subscribers.foldl
          (fun r _ => r.addPublisher publisher data.feed data.topic) s.publisherRepository
        objects := s.objects.deliver (subscribers.map fun subscriber =>
          (subscriber.1, forwardedMulticast settings (some publisher) subscriber.2 data)) } := by
  induction subscribers generalizing s with
  | nil => rfl
  | cons subscriber subscribers ih =>
    rw [List.foldl_cons, ih]
    rfl

private theorem sendMulticastData_eq (s : Server) (publisher : Guid) (data : MulticastData) :
    sendMulticastData settings s publisher data =
      (multicastUpdate settings s publisher data).deliver
        (multicastSends settings s publisher data) := by
  unfold sendMulticastData publishMulticast multicastUpdate multicastSends
  simp only
  split
  · exact foldl_sendMulticastTo settings publisher data _ s
  · rfl

/-- The subscriber that unicast data goes to, with its authorization. -/
def unicastTarget (s : Server) (data : UnicastData) : Option (Guid × AuthorizationInfo) :=
  (s.subscriptionRepository.getSubscribersToFeedAndTopic data.feed data.topic).find?
    (·.1 == data.clientId)

/-- The send of `SendUnicastData`. -/
def unicastSends (s : Server) (publisher : Guid) (data : UnicastData) : List (Guid × Message) :=
  match s.unicastTarget data with
  | none => []
  | some target =>
    if settings.hasRole publisher data.feed .publish then
      [(target.1, forwardedUnicast settings publisher target.2 data)]
    else []

/-- What `SendUnicastData` changes. -/
def unicastUpdate (s : Server) (publisher : Guid) (data : UnicastData) : Server :=
  match s.unicastTarget data with
  | none => s
  | some _ =>
    if settings.hasRole publisher data.feed .publish then { s with
      publisherRepository := s.publisherRepository.addPublisher publisher data.feed data.topic }
    else s

private theorem sendUnicastData_eq (s : Server) (publisher : Guid) (data : UnicastData) :
    sendUnicastData settings s publisher data =
      (unicastUpdate settings s publisher data).deliver
        (unicastSends settings s publisher data) := by
  unfold sendUnicastData unicastUpdate unicastSends unicastTarget
  split
  · next h => simp [h]
  · next target h =>
    simp only [h, publishUnicast]
    cases settings.hasRole publisher data.feed .publish <;> rfl

/-! ### The sends of a close -/

/-- The notices of stale topics. -/
def staleSends (s : Server) (interactor : Guid) : List (Guid × Message) :=
  (s.publisherRepository.removePublisher interactor).2.flatMap fun stale =>
    (s.subscriptionRepository.getSubscribersToFeedAndTopic stale.feed stale.topic).map
      fun subscriber => (subscriber.1, noData stale.feed stale.topic)

/-- The notices of the subscriptions that end. -/
def endSends (s : Server) (interactor : Guid) : List (Guid × Message) :=
  (s.subscriptionRepository.findByInteractor interactor).flatMap fun feedTopic =>
    notices settings (s.notificationRepository.removeInteractor interactor) interactor
      ⟨feedTopic.feed, feedTopic.topic, false⟩

/-- What a close changes. -/
def closeUpdate (s : Server) (interactor : Guid) : Server where
  objects := s.objects.modify interactor Interactor.dispose
  interactorRepository := s.interactorRepository.remove interactor
  notificationRepository := s.notificationRepository.removeInteractor interactor
  publisherRepository := (s.publisherRepository.removePublisher interactor).1
  subscriptionRepository := (s.subscriptionRepository.findByInteractor interactor).foldl
    (fun r feedTopic => r.removeSubscription interactor feedTopic.feed feedTopic.topic true)
    s.subscriptionRepository

private theorem foldl_deliver {α : Type} (f : Server → α → List (Guid × Message))
    (hf : ∀ s sends x, f (s.deliver sends) x = f s x) (xs : List α) (s : Server) :
    xs.foldl (fun s x => s.deliver (f s x)) s = s.deliver (xs.flatMap (f s)) := by
  induction xs generalizing s with
  | nil => rfl
  | cons x xs ih =>
    have hff : f (s.deliver (f s x)) = f s := by
      funext y
      exact hf s _ y
    rw [List.foldl_cons, ih, List.flatMap_cons, deliver_append, hff]

private theorem closePublisher_eq (s : Server) (interactor : Guid) :
    closePublisher s interactor =
      { s with
        publisherRepository := (s.publisherRepository.removePublisher interactor).1
        objects := s.objects.deliver (staleSends s interactor) } := by
  unfold closePublisher onStaleTopic
  exact foldl_deliver (fun s (stale : FeedTopic) =>
    (s.subscriptionRepository.getSubscribersToFeedAndTopic stale.feed stale.topic).map
      fun subscriber => (subscriber.1, noData stale.feed stale.topic))
    (fun _ _ _ => rfl) _ _

private theorem closeSubscriber_eq (s : Server) (interactor : Guid) :
    closeSubscriber settings s interactor =
      { s with
        subscriptionRepository := (s.subscriptionRepository.findByInteractor interactor).foldl
          (fun r feedTopic =>
            r.removeSubscription interactor feedTopic.feed feedTopic.topic true)
          s.subscriptionRepository
        objects := s.objects.deliver
          ((s.subscriptionRepository.findByInteractor interactor).flatMap fun feedTopic =>
            notices settings s.notificationRepository interactor
              ⟨feedTopic.feed, feedTopic.topic, false⟩) } := by
  unfold closeSubscriber
  simp only [forwardSubscription_eq]
  exact foldl_deliver (fun s (feedTopic : FeedTopic) =>
    notices settings s.notificationRepository interactor
      ⟨feedTopic.feed, feedTopic.topic, false⟩) (fun _ _ _ => rfl) _ _

private theorem closeInteractor_eq (s : Server) (interactor : Guid) :
    closeInteractor settings s interactor = (closeUpdate s interactor).deliver
      (staleSends s interactor ++ endSends settings s interactor) := by
  unfold closeInteractor
  simp only [closePublisher_eq, closeSubscriber_eq, deliver_append]
  rfl

/-! ### An event -/

/-- The messages that handling an event sends, in order. -/
def sends (s : Server) : Event → List (Guid × Message)
  | .connected _ => []
  | .error interactor _ => staleSends s interactor ++ endSends settings s interactor
  | .closed interactor => staleSends s interactor ++ endSends settings s interactor
  | .message _ (.authorizationResponse m) => responseSends settings s m
  | .message i (.subscriptionRequest m) => subscriptionSends settings s i m
  | .message i (.multicastData m) => multicastSends settings s i m
  | .message i (.unicastData m) => unicastSends settings s i m
  | .message i (.notificationRequest m) => notificationSends settings s i m
  | .message _ _ => []

/-- What handling an event changes, apart from what it sends. -/
def update (s : Server) : Event → Server
  | .connected interactor => (onInteractorConnected settings s interactor).1
  | .error interactor _ => closeUpdate s interactor
  | .closed interactor => closeUpdate s interactor
  | .message _ (.authorizationResponse m) => responseUpdate s m
  | .message i (.subscriptionRequest m) => subscriptionUpdate settings s i m
  | .message i (.multicastData m) => multicastUpdate settings s i m
  | .message i (.unicastData m) => unicastUpdate settings s i m
  | .message i (.notificationRequest m) => notificationUpdate s i m
  | .message _ _ => s

/-- Handling an event updates the state and sends. -/
theorem onInteractorEvent_eq (s : Server) (e : Event) :
    (onInteractorEvent settings s e).1 = (update settings s e).deliver (sends settings s e) := by
  cases e with
  | connected i => rfl
  | error i x =>
    simp only [onInteractorEvent, onInteractorError, ite_self, closeInteractor_eq]
    rfl
  | closed i => exact closeInteractor_eq settings s i
  | message i m =>
    cases m with
    | authorizationResponse m => exact acceptAuthorization_eq settings s i m
    | subscriptionRequest m => exact requestSubscription_eq settings s i m
    | multicastData m => exact sendMulticastData_eq settings s i m
    | unicastData m => exact sendUnicastData_eq settings s i m
    | notificationRequest m => exact requestNotification_eq settings s i m
    | _ => rfl

end Server

end MessageBus.Distributor
