import MessageBus.Distributor.Interactors
import MessageBus.Distributor.Notifications
import MessageBus.Distributor.Publishers

/-!
# The server

`core/src/JetBlack.MessageBus.Distributor/Server.cs` and the four managers behind it. The
managers call each other through .NET events; the handlers of an event run in the order
in which they were added: notifications, publishers, subscriptions. A `foreach` that sends
is a list of messages delivered in turn, each drop or throw affecting its own addressee.
-/

namespace MessageBus.Distributor
open MessageBus.Base MessageBus.Common MessageBus.Messages

/-! ### State -/

/-- The interactors and the repositories of the managers. -/
structure Server where
  objects : Interactors := fun _ => {}
  interactorRepository : InteractorRepository := {}
  notificationRepository : NotificationRepository := {}
  publisherRepository : PublisherRepository := TwoWaySet.empty
  subscriptionRepository : SubscriptionRepository := {}

/-- `InteractorEventArgs.cs`. -/
inductive Event where
  | connected (interactor : Guid)
  | error (interactor : Guid) (error : Exception)
  | closed (interactor : Guid)
  | message (interactor : Guid) (message : Message)
  deriving DecidableEq

namespace Event

/-- The interactor of the event. -/
def interactor : Event → Guid
  | .connected i => i
  | .error i _ => i
  | .closed i => i
  | .message i _ => i

/-- The interactor that handling the event disposes. -/
def disposes : Event → Option Guid
  | .error i _ => some i
  | .closed i => some i
  | _ => none

end Event

/-- `AuthorizationResponseEventArg.cs`. -/
structure AuthorizationResponseEventArg where
  authorizer : Guid
  requester : Guid
  response : AuthorizationResponse
  isInitial : Bool

/-- The constructor, `AuthorizationResponseEventArg.cs:9–14`: `IsInitial` is not assigned
and keeps the default of its type. -/
def AuthorizationResponseEventArg.new (authorizer requester : Guid)
    (response : AuthorizationResponse) (_isInitial : Bool) : AuthorizationResponseEventArg :=
  { authorizer, requester, response, isInitial := false }

/-- The message without data for a denial or for stale data, `SubscriptionManager.cs:121`
and `226`. -/
def noData (feed topic : String) : Message :=
  .forwardedMulticastData
    { user := "", host := "", feed, topic, contentType := "", dataPackets := none }

namespace Interactors

/-- Send messages in turn, what a send throws caught and logged. -/
def deliver (objects : Interactors) (sends : List (Guid × Message)) : Interactors :=
  sends.foldl (fun objects send => objects.trySend send.1 send.2) objects

end Interactors

namespace Server

variable (settings : Settings)

/-- Send messages in turn. -/
def deliver (s : Server) (sends : List (Guid × Message)) : Server :=
  { s with objects := s.objects.deliver sends }

/-! ### Notifications, `NotificationManager.cs` -/

/-- The message that tells a notifiable of a subscription, `NotificationManager.cs:69–75`. -/
def forwardedRequest (subscriber : Guid) (request : SubscriptionRequest) : Message :=
  .forwardedSubscriptionRequest
    { user := settings.user subscriber, host := settings.host subscriber,
      clientId := subscriber, feed := request.feed, topic := request.topic,
      isAdd := request.isAdd }

/-- `ForwardSubscription`, `NotificationManager.cs:60–98`. -/
def forwardSubscription (s : Server) (subscriber : Guid) (request : SubscriptionRequest) :
    Server :=
  match s.notificationRepository.findNotifiables request.feed with
  | none => s
  | some notifiables =>
    s.deliver (notifiables.toList.map fun notifiable =>
      (notifiable, forwardedRequest settings subscriber request))

/-- The messages of `OnNewNotificationRequest`, `SubscriptionManager.cs:191–201`. -/
def snapshot (s : Server) (feed : String) : List Message :=
  (s.subscriptionRepository.getSubscribersToFeed feed).flatMap fun matchingSubscriptions =>
    matchingSubscriptions.2.map fun subscriber =>
      forwardedRequest settings subscriber ⟨feed, matchingSubscriptions.1, true⟩

/-- The sends of `OnNewNotificationRequest`, `SubscriptionManager.cs:202–212`. The text of
its log call has two places and one value, so formatting it throws. -/
def sendSnapshot (notifiable : Guid) : List Message → Server → Server × Option Exception
  | [], s => (s, none)
  | message :: messages, s =>
    match (s.objects notifiable).sendMessage message with
    | .ok i => sendSnapshot notifiable messages
        { s with objects := s.objects.modify notifiable fun _ => i }
    | .error _ =>
      if settings.isDebugEnabled then (s, some .format)
      else sendSnapshot notifiable messages s

/-- `RequestNotification`, `NotificationManager.cs:44–58`. -/
def requestNotification (s : Server) (notifiable : Guid) (request : NotificationRequest) :
    Server × Option Exception :=
  if request.isAdd then
    let (notificationRepository, isNew) :=
      s.notificationRepository.addRequest notifiable request.feed
    let s := { s with notificationRepository }
    if isNew then sendSnapshot settings notifiable (snapshot settings s request.feed) s
    else (s, none)
  else
    ({ s with
        notificationRepository := s.notificationRepository.removeRequest notifiable request.feed },
      none)

/-! ### Authorization, `InteractorManager.cs` and `SubscriptionManager.cs` -/

/-- `SubscriptionManager.AddSubscription`, `SubscriptionManager.cs:147–167`. -/
def addSubscription (s : Server) (requester : Guid) (feed topic : String)
    (isAuthorizationRequired : Bool) (entitlements : Option (HashSet Int32))
    (isAuthorizationUpdate : Bool) : Server :=
  let s := { s with
    subscriptionRepository := s.subscriptionRepository.addSubscription requester feed topic
      (.new isAuthorizationRequired entitlements) isAuthorizationUpdate }
  forwardSubscription settings s requester ⟨feed, topic, true⟩

/-- The response denies every entitlement, `SubscriptionManager.cs:118`. -/
def isDenial (response : AuthorizationResponse) : Bool :=
  response.isAuthorizationRequired &&
    match response.entitlements with
    | none => true
    | some entitlements => entitlements.isEmpty

/-- `OnAuthorizationResponse`, `SubscriptionManager.cs:116–145`. -/
def onAuthorizationResponse (s : Server) (args : AuthorizationResponseEventArg) : Server :=
  if isDenial args.response then
    s.deliver [(args.requester, noData args.response.feed args.response.topic)]
  else
    addSubscription settings s args.requester args.response.feed args.response.topic
      args.response.isAuthorizationRequired args.response.entitlements (!args.isInitial)

/-- `AcceptAuthorization`, `InteractorManager.cs:105–130`. -/
def acceptAuthorization (s : Server) (authorizer : Guid)
    (authorization : AuthorizationResponse) : Server :=
  match s.interactorRepository.find authorization.clientId with
  | none => s
  | some requestor =>
    let hasAuthorization :=
      (s.objects requestor).hasAuthorization authorization.feed authorization.topic
    let s :=
      if hasAuthorization then s
      else { s with
        objects := s.objects.modify requestor
          (·.setAuthorization authorization.feed authorization.topic authorization) }
    onAuthorizationResponse settings s (.new authorizer requestor authorization !hasAuthorization)

/-- `RequestAuthorization`, `InteractorManager.cs:52–103`. -/
def requestAuthorization (s : Server) (interactor : Guid) (feed topic : String) : Server :=
  if settings.distributorRole.isAuthorizationRequired then
    let request := .authorizationRequest
      { clientId := interactor, host := settings.host interactor,
        user := settings.user interactor, feed, topic }
    s.deliver ((s.interactorRepository.findRole feed .authorize).map fun authorizer =>
      (authorizer, request))
  else
    acceptAuthorization settings s interactor
      { clientId := interactor, feed, topic, isAuthorizationRequired := false,
        entitlements := none }

/-- `RequestSubscription`, `SubscriptionManager.cs:44–85`. -/
def requestSubscription (s : Server) (subscriber : Guid) (request : SubscriptionRequest) :
    Server :=
  if !settings.hasRole subscriber request.feed .subscribe then s
  else if request.isAdd then
    match (s.objects subscriber).tryGetAuthorization request.feed request.topic with
    | some authorization =>
      addSubscription settings s subscriber request.feed request.topic
        authorization.isAuthorizationRequired authorization.entitlements false
    | none => requestAuthorization settings s subscriber request.feed request.topic
  else
    let s := { s with
      subscriptionRepository :=
        s.subscriptionRepository.removeSubscription subscriber request.feed request.topic false }
    forwardSubscription settings s subscriber request

/-! ### Publishing, `PublisherManager.cs` -/

/-- The message that carries multicast data to a subscriber, `PublisherManager.cs:94–100`. -/
def forwardedMulticast (publisher : Option Guid) (authorization : AuthorizationInfo)
    (data : MulticastData) : Message :=
  .forwardedMulticastData
    { user := match publisher with
        | some publisher => settings.user publisher
        | none => "internal"
      host := match publisher with
        | some publisher => settings.host publisher
        | none => "localhost"
      feed := data.feed, topic := data.topic, contentType := data.contentType
      dataPackets := getAuthorizedData data.dataPackets authorization }

/-- An iteration of the loop of `SendMulticastData`, `PublisherManager.cs:89–123`. -/
def sendMulticastTo (publisher : Option Guid) (data : MulticastData) (s : Server)
    (subscriber : Guid × AuthorizationInfo) : Server :=
  let s := match publisher with
    | some publisher => { s with
        publisherRepository := s.publisherRepository.addPublisher publisher data.feed data.topic }
    | none => s
  s.deliver [(subscriber.1, forwardedMulticast settings publisher subscriber.2 data)]

/-- `PublisherManager.SendMulticastData`, `PublisherManager.cs:75–124`. -/
def publishMulticast (s : Server) (publisher : Option Guid)
    (subscribers : List (Guid × AuthorizationInfo)) (data : MulticastData) : Server :=
  let isAllowed := match publisher with
    | some publisher => settings.hasRole publisher data.feed .publish
    | none => true
  if isAllowed then subscribers.foldl (sendMulticastTo settings publisher data) s else s

/-- `SubscriptionManager.SendMulticastData`, `SubscriptionManager.cs:180–186`. -/
def sendMulticastData (s : Server) (publisher : Guid) (data : MulticastData) : Server :=
  publishMulticast settings s (some publisher)
    (s.subscriptionRepository.getSubscribersToFeedAndTopic data.feed data.topic) data

/-- The message that carries unicast data to its client, `PublisherManager.cs:44–51`. -/
def forwardedUnicast (publisher : Guid) (authorization : AuthorizationInfo)
    (data : UnicastData) : Message :=
  .forwardedUnicastData
    { user := settings.user publisher, host := settings.host publisher,
      clientId := data.clientId, feed := data.feed, topic := data.topic,
      contentType := data.contentType,
      dataPackets := getAuthorizedData data.dataPackets authorization }

/-- `PublisherManager.SendUnicastData`, `PublisherManager.cs:31–73`. -/
def publishUnicast (s : Server) (publisher subscriber : Guid)
    (authorization : AuthorizationInfo) (data : UnicastData) : Server :=
  if !settings.hasRole publisher data.feed .publish then s
  else
    let s := { s with
      publisherRepository := s.publisherRepository.addPublisher publisher data.feed data.topic }
    s.deliver [(subscriber, forwardedUnicast settings publisher authorization data)]

/-- `SubscriptionManager.SendUnicastData`, `SubscriptionManager.cs:169–178`. -/
def sendUnicastData (s : Server) (publisher : Guid) (data : UnicastData) : Server :=
  match (s.subscriptionRepository.getSubscribersToFeedAndTopic data.feed data.topic).find?
    (·.1 == data.clientId) with
  | none => s
  | some (subscriber, authorization) =>
    publishUnicast settings s publisher subscriber authorization data

/-! ### Connections -/

/-- `OnStaleTopic`, `SubscriptionManager.cs:223–243`. -/
def onStaleTopic (s : Server) (stale : FeedTopic) : Server :=
  s.deliver ((s.subscriptionRepository.getSubscribersToFeedAndTopic stale.feed stale.topic).map
    fun subscriber => (subscriber.1, noData stale.feed stale.topic))

/-- `PublisherManager.CloseInteractor`, `PublisherManager.cs:148–155`, and the handler
`OnStalePublishers` of its event. -/
def closePublisher (s : Server) (interactor : Guid) : Server :=
  let (publisherRepository, topicsWithoutPublishers) :=
    s.publisherRepository.removePublisher interactor
  topicsWithoutPublishers.foldl onStaleTopic { s with publisherRepository }

/-- `SubscriptionManager.CloseInteractor`, `SubscriptionManager.cs:102–114`. -/
def closeSubscriber (s : Server) (interactor : Guid) : Server :=
  let feedTopics := s.subscriptionRepository.findByInteractor interactor
  let s := { s with
    subscriptionRepository := feedTopics.foldl
      (fun r feedTopic => r.removeSubscription interactor feedTopic.feed feedTopic.topic true)
      s.subscriptionRepository }
  feedTopics.foldl (fun s feedTopic =>
    forwardSubscription settings s interactor ⟨feedTopic.feed, feedTopic.topic, false⟩) s

/-- `CloseInteractor` and `FaultInteractor`, `InteractorManager.cs:35–51`, and the handlers
of their events. -/
def closeInteractor (s : Server) (interactor : Guid) : Server :=
  let s := { s with
    interactorRepository := s.interactorRepository.remove interactor
    objects := s.objects.modify interactor Interactor.dispose }
  let s := { s with
    notificationRepository := s.notificationRepository.removeInteractor interactor }
  closeSubscriber settings (closePublisher s interactor) interactor

/-- `Interactor.Start`, `Interactor.cs:171–175`: a task starts once, and not after a
cancellation. -/
def startInteractor (i : Interactor) : Except Exception Interactor :=
  match i.tokenSource, i.readTask, i.writeTask with
  | .live, .unstarted, .unstarted => .ok { i with readTask := .checking, writeTask := .checking }
  | _, _, _ => .error .invalidOperation

/-- `OnInteractorConnected`, `Server.cs:133–137`. -/
def onInteractorConnected (s : Server) (interactor : Guid) : Server × Option Exception :=
  let (interactorRepository, thrown) := s.interactorRepository.add settings interactor
  let s := { s with interactorRepository }
  match thrown with
  | some e => (s, some e)
  | none =>
    match startInteractor (s.objects interactor) with
    | .error e => (s, some e)
    | .ok i => ({ s with objects := s.objects.modify interactor fun _ => i }, none)

/-! ### Events -/

/-- `IsCloseException`, `Server.cs:122–131`. -/
def isCloseException : Exception → Bool
  | .endOfStream => true
  | .io connectionReset => connectionReset
  | _ => false

/-- `OnInteractorError`, `Server.cs:144–150`: a close and a fault differ in what they log. -/
def onInteractorError (s : Server) (interactor : Guid) (error : Exception) : Server :=
  if isCloseException error then closeInteractor settings s interactor
  else closeInteractor settings s interactor

/-- `OnMessage`, `Server.cs:152–188`. -/
def onMessage (s : Server) (interactor : Guid) : Message → Server × Option Exception
  | .authorizationResponse m => (acceptAuthorization settings s interactor m, none)
  | .subscriptionRequest m => (requestSubscription settings s interactor m, none)
  | .multicastData m => (sendMulticastData settings s interactor m, none)
  | .unicastData m => (sendUnicastData settings s interactor m, none)
  | .notificationRequest m => requestNotification settings s interactor m
  | _ => (s, none)

/-- `OnInteractorEvent`, `Server.cs:108–120`: the state left, and what was thrown. -/
def onInteractorEvent (s : Server) : Event → Server × Option Exception
  | .connected interactor => onInteractorConnected settings s interactor
  | .error interactor e => (onInteractorError settings s interactor e, none)
  | .closed interactor => (closeInteractor settings s interactor, none)
  | .message interactor m => onMessage settings s interactor m

end Server

end MessageBus.Distributor
