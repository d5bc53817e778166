import MessageBus.Messages.Message

/-!
# The client

`core/src/JetBlack.MessageBus.Adapters/Client.cs`. The methods of a client put messages on
its write queue; a task writes them to the stream, and another reads messages from the
stream and raises an event for each. `Start` is taken to be called once, and the handlers
of the events to return. The stream is the concern of `MessageBus.Bus`.
-/

namespace MessageBus.Adapters
open MessageBus.Base MessageBus.Common MessageBus.Messages

/-- `ConnectionState`, `ConnectionChangedEventArgs.cs:37–43`. -/
inductive ConnectionState where
  | connecting
  | connected
  | closed
  | faulted
  deriving DecidableEq

/-- The events that a client raises, with their arguments, `Client.cs:128–144`. -/
inductive ClientEvent where
  | dataReceived (user host feed topic : String) (dataPackets : Option (List DataPacket))
      (contentType : String)
  | forwardedSubscription (user host : String) (clientId : Guid) (feed topic : String)
      (isAdd : Bool)
  | authorizationRequest (clientId : Guid) (host user feed topic : String)
  | connectionChanged (state : ConnectionState) (error : Option Exception)
  | heartbeat
  deriving DecidableEq

/-- The event is raised for a message. -/
def ClientEvent.isAnswer : ClientEvent → Bool
  | .connectionChanged _ _ => false
  | _ => true

/-- Where `Read` or `Write` stands: `checking` at the test of the loop, for `Write` also in
`Take`, and `running` in `Message.Read` or `Message.Write`. -/
inductive ClientTask where
  | unstarted
  | checking
  | running
  | completed
  deriving DecidableEq

/-- The state of a client, `Client.cs:146–148`. The write queue is kept whole, as the
messages already taken from it and those still on it, and so are the events raised. -/
structure Client where
  taken : List (Message (Option String)) := []
  writeQueue : List (Message (Option String)) := []
  isCancelled : Bool := false
  readTask : ClientTask := .unstarted
  writeTask : ClientTask := .unstarted
  raised : List ClientEvent := []

namespace Client

/-- Every message put on the write queue so far. -/
def queued (c : Client) : List (Message (Option String)) := c.taken ++ c.writeQueue

/-! ### Sending -/

/-- `_writeQueue.Add`. -/
def enqueue (c : Client) (message : Message (Option String)) : Client :=
  { c with writeQueue := c.writeQueue ++ [message] }

/-- The test of an argument against null; an `ArgumentNullException` is known by the name of
its parameter. -/
def requireNotNull (name : String) : Option String → Except Exception Unit
  | none => .error (.invalidArgument name)
  | some _ => .ok ()

/-- `MakeSubscriptionRequest`, `Client.cs:259–267`. -/
def makeSubscriptionRequest (c : Client) (feed topic : Option String) (isAdd : Bool) :
    Except Exception Client := do
  requireNotNull "feed" feed
  requireNotNull "topic" topic
  return c.enqueue (.subscriptionRequest { feed, topic, isAdd })

/-- `MakeNotificationRequest`, `Client.cs:287–293`. -/
def makeNotificationRequest (c : Client) (feed : Option String) (isAdd : Bool) :
    Except Exception Client := do
  requireNotNull "feed" feed
  return c.enqueue (.notificationRequest { feed, isAdd })

/-- `AddSubscription`, `Client.cs:244–247`. -/
def addSubscription (c : Client) (feed topic : Option String) : Except Exception Client :=
  c.makeSubscriptionRequest feed topic true

/-- `RemoveSubscription`, `Client.cs:254–257`. -/
def removeSubscription (c : Client) (feed topic : Option String) : Except Exception Client :=
  c.makeSubscriptionRequest feed topic false

/-- `AddNotification`, `Client.cs:273–276`. -/
def addNotification (c : Client) (feed : Option String) : Except Exception Client :=
  c.makeNotificationRequest feed true

/-- `RemoveNotification`, `Client.cs:282–285`. -/
def removeNotification (c : Client) (feed : Option String) : Except Exception Client :=
  c.makeNotificationRequest feed false

/-- `Send`, `Client.cs:303–311`. -/
def send (c : Client) (clientId : Guid) (feed topic contentType : Option String)
    (dataPackets : Option (List DataPacket)) : Except Exception Client := do
  requireNotNull "feed" feed
  requireNotNull "topic" topic
  return c.enqueue (.unicastData { clientId, feed, topic, contentType, dataPackets })

/-- `Publish`, `Client.cs:320–328`. -/
def publish (c : Client) (feed topic contentType : Option String)
    (dataPackets : Option (List DataPacket)) : Except Exception Client := do
  requireNotNull "feed" feed
  requireNotNull "topic" topic
  return c.enqueue (.multicastData { feed, topic, contentType, dataPackets })

/-- `Authorize`, `Client.cs:338–346`. -/
def authorize (c : Client) (clientId : Guid) (feed topic : Option String)
    (isAuthorizationRequired : Bool) (entitlements : Option (HashSet Int32)) :
    Except Exception Client := do
  requireNotNull "feed" feed
  requireNotNull "topic" topic
  return c.enqueue (.authorizationResponse
    { clientId, feed, topic, isAuthorizationRequired, entitlements })

/-- A call of one of the methods that send. -/
inductive Call where
  | addSubscription (feed topic : Option String)
  | removeSubscription (feed topic : Option String)
  | addNotification (feed : Option String)
  | removeNotification (feed : Option String)
  | send (clientId : Guid) (feed topic contentType : Option String)
      (dataPackets : Option (List DataPacket))
  | publish (feed topic contentType : Option String) (dataPackets : Option (List DataPacket))
  | authorize (clientId : Guid) (feed topic : Option String) (isAuthorizationRequired : Bool)
      (entitlements : Option (HashSet Int32))
  deriving DecidableEq

/-- Make a call. -/
def invoke (c : Client) : Call → Except Exception Client
  | .addSubscription feed topic => c.addSubscription feed topic
  | .removeSubscription feed topic => c.removeSubscription feed topic
  | .addNotification feed => c.addNotification feed
  | .removeNotification feed => c.removeNotification feed
  | .send clientId feed topic contentType dataPackets =>
    c.send clientId feed topic contentType dataPackets
  | .publish feed topic contentType dataPackets => c.publish feed topic contentType dataPackets
  | .authorize clientId feed topic isAuthorizationRequired entitlements =>
    c.authorize clientId feed topic isAuthorizationRequired entitlements

/-! ### Receiving -/

/-- `RaiseOnAuthorizationRequest`, `Client.cs:348–358`. -/
def raiseOnAuthorizationRequest (message : AuthorizationRequest) : ClientEvent :=
  .authorizationRequest message.clientId message.host message.user message.feed message.topic

/-- `RaiseOnForwardedSubscriptionRequest`, `Client.cs:360–371`. -/
def raiseOnForwardedSubscriptionRequest (message : ForwardedSubscriptionRequest) : ClientEvent :=
  .forwardedSubscription message.user message.host message.clientId message.feed message.topic
    message.isAdd

/-- `RaiseOnDataOrHeartbeat`, `Client.cs:373–379`. -/
def raiseOnDataOrHeartbeat (message : ForwardedMulticastData) : ClientEvent :=
  if message.feed = "__admin__" ∧ message.topic = "heartbeat" then .heartbeat
  else .dataReceived message.user message.host message.feed message.topic message.dataPackets
    message.contentType

/-- `RaiseOnData(ForwardedUnicastData)`, `Client.cs:386–389`. -/
def raiseOnData (message : ForwardedUnicastData) : ClientEvent :=
  .dataReceived message.user message.host message.feed message.topic message.dataPackets
    message.contentType

/-- The `switch` of `Read`, `Client.cs:172–188`. -/
def onMessage : Message → Except Exception ClientEvent
  | .authorizationRequest message => .ok (raiseOnAuthorizationRequest message)
  | .forwardedMulticastData message => .ok (raiseOnDataOrHeartbeat message)
  | .forwardedUnicastData message => .ok (raiseOnData message)
  | .forwardedSubscriptionRequest message => .ok (raiseOnForwardedSubscriptionRequest message)
  | _ => .error (.invalidArgument "invalid message type")

/-- The event with which `Read` and `Write` end, `Client.cs:194–203` and `221–230`. -/
def connectionLost : Exception → ClientEvent
  | .endOfStream => .connectionChanged .closed none
  | error => .connectionChanged .faulted (some error)

/-! ### The tasks -/

/-- What may happen next at a client. -/
inductive Action where
  /-- `Start`, `Client.cs:158–162`. -/
  | start
  | call (call : Call)
  /-- `Read` tests its loop. -/
  | checkRead
  /-- `Message.Read` returns. -/
  | receive (message : Message)
  /-- `Message.Read` throws. -/
  | readError (error : Exception)
  /-- `Write` tests its loop and takes a message. -/
  | checkWrite
  /-- `Message.Write` returns. -/
  | wrote
  /-- `Message.Write` throws. -/
  | writeError (error : Exception)
  /-- `Dispose`, `Client.cs:399–403`. -/
  | dispose
  deriving DecidableEq

/-- The next state, if the action is enabled. A task that was cancelled before it starts
does not run, and a call that throws changes nothing. -/
def step (c : Client) : Action → Option Client
  | .start =>
    if c.readTask = .unstarted ∧ c.writeTask = .unstarted then
      let task := if c.isCancelled then .completed else .checking
      some { c with readTask := task, writeTask := task }
    else none
  | .call call =>
    match c.invoke call with
    | .ok c' => some c'
    | .error _ => some c
  | .checkRead =>
    if c.readTask = .checking then
      some { c with readTask := if c.isCancelled then .completed else .running }
    else none
  | .receive message =>
    if c.readTask = .running then
      match onMessage message with
      | .ok event => some { c with readTask := .checking, raised := c.raised ++ [event] }
      | .error error =>
        some { c with readTask := .completed, raised := c.raised ++ [connectionLost error] }
    else none
  | .readError error =>
    if c.readTask = .running then
      some { c with readTask := .completed, raised := c.raised ++ [connectionLost error] }
    else none
  | .checkWrite =>
    if c.writeTask = .checking then
      match c.isCancelled, c.writeQueue with
      | true, _ => some { c with writeTask := .completed }
      | false, [] => none
      | false, message :: messages =>
        some { c with
          writeTask := .running, writeQueue := messages, taken := c.taken ++ [message] }
    else none
  | .wrote => if c.writeTask = .running then some { c with writeTask := .checking } else none
  | .writeError error =>
    if c.writeTask = .running then
      some { c with writeTask := .completed, raised := c.raised ++ [connectionLost error] }
    else none
  | .dispose => some { c with isCancelled := true }

/-! ### What a client sends and takes -/

/-- The message that a call puts on the write queue, if its arguments are not null. -/
def Call.message : Call → Option (Message (Option String))
  | .addSubscription feed topic =>
    if feed.isSome ∧ topic.isSome then some (.subscriptionRequest ⟨feed, topic, true⟩) else none
  | .removeSubscription feed topic =>
    if feed.isSome ∧ topic.isSome then some (.subscriptionRequest ⟨feed, topic, false⟩) else none
  | .addNotification feed =>
    if feed.isSome then some (.notificationRequest ⟨feed, true⟩) else none
  | .removeNotification feed =>
    if feed.isSome then some (.notificationRequest ⟨feed, false⟩) else none
  | .send clientId feed topic contentType dataPackets =>
    if feed.isSome ∧ topic.isSome then
      some (.unicastData ⟨clientId, feed, topic, contentType, dataPackets⟩) else none
  | .publish feed topic contentType dataPackets =>
    if feed.isSome ∧ topic.isSome then
      some (.multicastData ⟨feed, topic, contentType, dataPackets⟩) else none
  | .authorize clientId feed topic isAuthorizationRequired entitlements =>
    if feed.isSome ∧ topic.isSome then
      some (.authorizationResponse ⟨clientId, feed, topic, isAuthorizationRequired, entitlements⟩)
    else none

private theorem invoke_eq (c : Client) (call : Call) :
    (c.invoke call).toOption = call.message.map c.enqueue := by
  cases call with
  | addSubscription feed topic => cases feed <;> cases topic <;> rfl
  | removeSubscription feed topic => cases feed <;> cases topic <;> rfl
  | addNotification feed => cases feed <;> rfl
  | removeNotification feed => cases feed <;> rfl
  | send clientId feed topic => cases feed <;> cases topic <;> rfl
  | publish feed topic => cases feed <;> cases topic <;> rfl
  | authorize clientId feed topic => cases feed <;> cases topic <;> rfl

/-- A call puts its message on the write queue, or it throws and changes nothing. -/
theorem step_call (c : Client) (call : Call) : c.step (.call call) =
    some { c with writeQueue := c.writeQueue ++ call.message.toList } := by
  have hi := c.invoke_eq call
  rw [step]
  cases hc : c.invoke call with
  | error error =>
    rw [hc] at hi
    cases hm : call.message with
    | none => simp
    | some message => simp [hm, Except.toOption] at hi
  | ok c' =>
    rw [hc] at hi
    cases hm : call.message with
    | none => simp [hm, Except.toOption] at hi
    | some message =>
      rw [hm, Except.toOption, Option.map_some, Option.some.injEq] at hi
      rw [hi, enqueue, Option.toList_some]

/-- What an action adds to the write queue. -/
def Action.message : Action → Option (Message (Option String))
  | .call request => request.message
  | _ => none

/-- A step of the client queues the message of its call. -/
theorem queued_step {c c' : Client} {a : Action} (h : c.step a = some c') :
    c'.queued = c.queued ++ a.message.toList := by
  cases a with
  | call call =>
    rw [step_call] at h
    cases h
    simp [queued, Action.message]
  | checkWrite =>
    obtain ⟨-, h⟩ := Option.ite_none_right_eq_some.mp h
    split at h
    · cases h
      simp [queued, Action.message]
    · cases h
    · next hq =>
      cases h
      simp [queued, Action.message, hq]
  | receive message =>
    obtain ⟨-, h⟩ := Option.ite_none_right_eq_some.mp h
    split at h
    · cases h
      simp [queued, Action.message]
    · cases h
      simp [queued, Action.message]
  | dispose =>
    cases h
    simp [queued, Action.message]
  | _ =>
    obtain ⟨-, ⟨⟩⟩ := Option.ite_none_right_eq_some.mp h
    simp [queued, Action.message]

/-- The events raised for messages, less those of the connection. -/
def answers (c : Client) : List ClientEvent := c.raised.filter ClientEvent.isAnswer

/-- What an action adds to the events raised for messages. -/
def Action.answer : Action → Option ClientEvent
  | .receive message => (onMessage message).toOption
  | _ => none

private theorem isAnswer_of_onMessage {m : Message} {e : ClientEvent} (h : onMessage m = .ok e) :
    e.isAnswer = true := by
  cases m with
  | forwardedMulticastData m =>
    cases h
    unfold raiseOnDataOrHeartbeat
    split <;> rfl
  | forwardedUnicastData m =>
    cases h
    rfl
  | forwardedSubscriptionRequest m =>
    cases h
    rfl
  | authorizationRequest m =>
    cases h
    rfl
  | _ => cases h

private theorem isAnswer_connectionLost (e : Exception) : (connectionLost e).isAnswer = false := by
  cases e <;> rfl

/-- A step of the client records the answer of its call. -/
theorem answers_step {c c' : Client} {a : Action} (h : c.step a = some c') :
    c'.answers = c.answers ++ a.answer.toList := by
  cases a with
  | call call =>
    rw [step_call] at h
    cases h
    simp [answers, Action.answer]
  | checkWrite =>
    obtain ⟨-, h⟩ := Option.ite_none_right_eq_some.mp h
    split at h
    · cases h
      simp [answers, Action.answer]
    · cases h
    · cases h
      simp [answers, Action.answer]
  | receive message =>
    obtain ⟨-, h⟩ := Option.ite_none_right_eq_some.mp h
    split at h
    · next e he =>
      cases h
      simp [answers, Action.answer, he, isAnswer_of_onMessage he, Except.toOption]
    · next e he =>
      cases h
      simp [answers, Action.answer, he, isAnswer_connectionLost, Except.toOption]
  | dispose =>
    cases h
    simp [answers, Action.answer]
  | _ =>
    obtain ⟨-, ⟨⟩⟩ := Option.ite_none_right_eq_some.mp h
    simp [answers, Action.answer, isAnswer_connectionLost]

end Client

end MessageBus.Adapters
