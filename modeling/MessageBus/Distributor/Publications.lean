import MessageBus.Distributor.FanOut
import MessageBus.Distributor.Tasks

/-!
# Publications

The publications that are carried to a client: those handled while it was subscribed to
their feed and topic, on all feeds and topics, by multicast and unicast together. What is
queued to the client is these, in the order in which they were handled, and between them
the messages without data, for each denial and each topic that went stale; what was handled
of one publisher is in the order in which it was received.
-/

namespace MessageBus.Distributor
open MessageBus.Base MessageBus.Common MessageBus.Messages

/-- A publication on its way to a client, with the authorization that the client has. -/
inductive Carried where
  | multicast (publisher : Guid) (data : MulticastData) (authorization : AuthorizationInfo)
  | unicast (publisher : Guid) (data : UnicastData) (authorization : AuthorizationInfo)

namespace Carried

/-- The interactor that has published. -/
def publisher : Carried → Guid
  | multicast publisher _ _ => publisher
  | unicast publisher _ _ => publisher

/-- The message that was published. -/
def publication : Carried → Message
  | multicast _ data _ => .multicastData data
  | unicast _ data _ => .unicastData data

/-- The message that is queued to the client. -/
def forwarded (settings : Settings) : Carried → Message
  | multicast publisher data authorization =>
    Server.forwardedMulticast settings (some publisher) authorization data
  | unicast publisher data authorization =>
    Server.forwardedUnicast settings publisher authorization data

/-- The feed of the publication. -/
def feed : Carried → String
  | multicast _ data _ => data.feed
  | unicast _ data _ => data.feed

/-- The topic of the publication. -/
def topic : Carried → String
  | multicast _ data _ => data.topic
  | unicast _ data _ => data.topic

/-- The packets of the publication. -/
def dataPackets : Carried → Option (List DataPacket)
  | multicast _ data _ => data.dataPackets
  | unicast _ data _ => data.dataPackets

/-- The authorization that the publication was filtered by. -/
def authorization : Carried → AuthorizationInfo
  | multicast _ _ authorization => authorization
  | unicast _ _ authorization => authorization

/-- The publications of one publisher. -/
def publishedBy (i : Guid) (xs : List Carried) : List Message :=
  (xs.filter fun x => x.publisher == i).map publication

end Carried

/-- What a client is told of data: a publication, or that a topic has none. -/
inductive DataItem where
  | publication (carried : Carried)
  | absence (feed topic : String)

namespace DataItem

/-- The message that is queued to the client. -/
def forwarded (settings : Settings) : DataItem → Message
  | publication carried => carried.forwarded settings
  | absence feed topic => noData feed topic

/-- The publication of an item, where it is one. -/
def carried : DataItem → Option Carried
  | publication carried => some carried
  | absence _ _ => none

end DataItem

/-- A message carries data to a subscriber, or tells it that there is none. -/
def isForwardedData : Message → Bool
  | .forwardedMulticastData _ => true
  | .forwardedUnicastData _ => true
  | _ => false

namespace Server

variable (settings : Settings)

/-- The publication that an event carries to a client. -/
def carriedTo (c : Guid) (s : Server) : Event → Option Carried
  | .message publisher (.multicastData data) =>
    if settings.hasRole publisher data.feed .publish then
      (s.entry c data.feed data.topic).map fun state =>
        .multicast publisher data state.authorizationInfo
    else none
  | .message publisher (.unicastData data) =>
    if data.clientId = c ∧ settings.hasRole publisher data.feed .publish then
      (s.entry c data.feed data.topic).map fun state =>
        .unicast publisher data state.authorizationInfo
    else none
  | _ => none

/-- What is carried is the message of the event. -/
theorem event_of_carriedTo {c : Guid} {s : Server} {e : Event} {x : Carried}
    (h : carriedTo settings c s e = some x) : e = .message x.publisher x.publication := by
  cases e with
  | message i m =>
    cases m with
    | multicastData data =>
      obtain ⟨-, h⟩ := Option.ite_none_right_eq_some.mp h
      obtain ⟨state, -, rfl⟩ := Option.map_eq_some_iff.mp h
      rfl
    | unicastData data =>
      obtain ⟨-, h⟩ := Option.ite_none_right_eq_some.mp h
      obtain ⟨state, -, rfl⟩ := Option.map_eq_some_iff.mp h
      rfl
    | _ => cases h
  | _ => cases h

/-- What is carried is carried by the entry of the client. -/
theorem entry_of_carriedTo {c : Guid} {s : Server} {e : Event} {x : Carried}
    (h : carriedTo settings c s e = some x) :
    ∃ state, s.entry c x.feed x.topic = some state ∧ x.authorization = state.authorizationInfo := by
  cases e with
  | message i m =>
    cases m with
    | multicastData data =>
      obtain ⟨-, h⟩ := Option.ite_none_right_eq_some.mp h
      obtain ⟨state, hs, rfl⟩ := Option.map_eq_some_iff.mp h
      exact ⟨state, hs, rfl⟩
    | unicastData data =>
      obtain ⟨-, h⟩ := Option.ite_none_right_eq_some.mp h
      obtain ⟨state, hs, rfl⟩ := Option.map_eq_some_iff.mp h
      exact ⟨state, hs, rfl⟩
    | _ => cases h
  | _ => cases h

private theorem addressed_multicastSends (s : Server) (publisher : Guid) (data : MulticastData)
    (c : Guid) : (addressed c (multicastSends settings s publisher data)).filter isForwardedData =
      (carriedTo settings c s (.message publisher (.multicastData data))).toList.map
        (Carried.forwarded settings) := by
  simp only [multicastSends, carriedTo]
  by_cases hrole : settings.hasRole publisher data.feed .publish = true
  · rw [if_pos hrole, if_pos hrole, addressed_subscribers s.subscriptionRepository c data.feed
      data.topic fun info => forwardedMulticast settings (some publisher) info data, entry]
    cases s.subscriptionRepository.entry c data.feed data.topic with
    | none => rfl
    | some state => simp [Carried.forwarded, forwardedMulticast, isForwardedData]
  · rw [if_neg hrole, if_neg hrole]
    rfl

private theorem addressed_unicastSends (s : Server) (publisher : Guid) (data : UnicastData)
    (c : Guid) : (addressed c (unicastSends settings s publisher data)).filter isForwardedData =
      (carriedTo settings c s (.message publisher (.unicastData data))).toList.map
        (Carried.forwarded settings) := by
  simp only [unicastSends, carriedTo]
  cases ht : s.unicastTarget data with
  | none =>
    have hentry : s.entry data.clientId data.feed data.topic = none := by
      rw [Option.eq_none_iff_forall_ne_some]
      intro state hs
      have hm := SubscriptionRepository.mem_getSubscribersToFeedAndTopic.mpr ⟨state, hs, rfl⟩
      exact absurd (List.find?_eq_none.mp ht _ hm) (by simp)
    by_cases hc : data.clientId = c ∧ settings.hasRole publisher data.feed .publish = true
    · rw [if_pos hc, ← hc.1, hentry]
      rfl
    · rw [if_neg hc]
      rfl
  | some target =>
    obtain ⟨id, info⟩ := target
    obtain ⟨rfl, hs⟩ := mem_unicastTarget ht
    obtain ⟨state, he, rfl⟩ := SubscriptionRepository.mem_getSubscribersToFeedAndTopic.mp hs
    have hentry : s.entry data.clientId data.feed data.topic = some state := he
    dsimp only
    by_cases hrole : settings.hasRole publisher data.feed .publish = true
    · by_cases hc : data.clientId = c
      · subst hc
        rw [if_pos hrole, if_pos ⟨rfl, hrole⟩, hentry]
        simp [addressed, Carried.forwarded, forwardedUnicast, isForwardedData]
      · rw [if_pos hrole, if_neg fun h => hc h.1]
        simp [addressed, hc]
    · rw [if_neg hrole, if_neg fun h => hrole h.2]
      rfl

/-- The topics that go stale for a client as an interactor is closed: those that nobody else
publishes, and the client is subscribed to. -/
def staleFor (c : Guid) (s : Server) (i : Guid) : List FeedTopic :=
  (s.publisherRepository.removePublisher i).2.filter fun stale =>
    (s.entry c stale.feed stale.topic).isSome

/-- What an event has a client told of data: the publication that it carries to it, that it is
denied a topic, or that topics are stale. -/
def dataTo (c : Guid) (s : Server) : Event → List DataItem
  | .message _ (.authorizationResponse response) =>
    if s.IsRegistered response.clientId ∧ isDenial response ∧ response.clientId = c then
      [.absence response.feed response.topic]
    else []
  | .error i _ => (staleFor c s i).map fun stale => .absence stale.feed stale.topic
  | .closed i => (staleFor c s i).map fun stale => .absence stale.feed stale.topic
  | e => (carriedTo settings c s e).toList.map .publication

private theorem addressed_staleSends (s : Server) (c i : Guid) :
    addressed c (staleSends s i) =
      (staleFor c s i).map fun stale => noData stale.feed stale.topic := by
  rw [staleSends, staleFor, addressed_flatMap]
  induction (s.publisherRepository.removePublisher i).2 with
  | nil => rfl
  | cons stale topics ih =>
    rw [List.flatMap_cons, ih, addressed_subscribers s.subscriptionRepository c stale.feed
      stale.topic fun _ => noData stale.feed stale.topic]
    rw [List.filter_cons, entry]
    cases s.subscriptionRepository.entry c stale.feed stale.topic with
    | none => rfl
    | some state => rfl

private theorem filter_notices {sends : List (Guid × Message)} (c : Guid)
    (h : ∀ m, (c, m) ∈ sends → isForwardedData m = false) :
    (addressed c sends).filter isForwardedData = [] := by
  rw [List.filter_eq_nil_iff]
  intro m hm
  rw [h m (mem_addressed.mp hm)]
  exact Bool.false_ne_true

private theorem isForwardedData_notices {r : NotificationRepository} {i c : Guid}
    {request : SubscriptionRequest} {m : Message} (h : (c, m) ∈ notices settings r i request) :
    isForwardedData m = false := by
  obtain ⟨n, -, hn⟩ := List.mem_map.mp h
  cases hn
  rfl

private theorem addressed_closeSends (s : Server) (c i : Guid) :
    (addressed c (staleSends s i ++ endSends settings s i)).filter isForwardedData =
      (staleFor c s i).map fun stale => noData stale.feed stale.topic := by
  have hend : (addressed c (endSends settings s i)).filter isForwardedData = [] := by
    apply filter_notices
    intro m hm
    obtain ⟨feedTopic, -, hm⟩ := List.mem_flatMap.mp hm
    exact isForwardedData_notices settings hm
  rw [addressed_append, List.filter_append, hend, List.append_nil, addressed_staleSends,
    List.filter_eq_self]
  intro m hm
  obtain ⟨stale, -, rfl⟩ := List.mem_map.mp hm
  rfl

private theorem dataTo_responseSends (s : Server) (c : Guid) (response : AuthorizationResponse) :
    (addressed c (responseSends settings s response)).filter isForwardedData =
      if s.IsRegistered response.clientId ∧ isDenial response ∧ response.clientId = c then
        [noData response.feed response.topic]
      else [] := by
  unfold responseSends
  by_cases hreg : s.IsRegistered response.clientId
  · cases hd : isDenial response with
    | false =>
      rw [if_pos hreg, if_neg Bool.false_ne_true, if_neg (by simp)]
      exact filter_notices c fun m hm => isForwardedData_notices settings hm
    | true =>
      rw [if_pos hreg, if_pos rfl]
      by_cases hc : response.clientId = c
      · subst hc
        rw [if_pos ⟨hreg, rfl, rfl⟩]
        simp [addressed, noData, isForwardedData]
      · simp [hc, addressed]
  · rw [if_neg hreg, if_neg fun h => hreg h.1]
    rfl

private theorem dataTo_subscriptionSends (s : Server) (c i : Guid) (m : SubscriptionRequest) :
    (addressed c (subscriptionSends settings s i m)).filter isForwardedData = [] := by
  unfold subscriptionSends
  split
  · split
    · split
      · exact filter_notices c fun m hm => isForwardedData_notices settings hm
      · split
        · apply filter_notices
          intro x hx
          obtain ⟨authorizer, -, hx⟩ := List.mem_map.mp hx
          cases hx
          rfl
        · rw [dataTo_responseSends, if_neg]
          rintro ⟨-, hd, -⟩
          cases hd
    · exact filter_notices c fun m hm => isForwardedData_notices settings hm
  · rfl

private theorem addressed_notificationSends (s : Server) (c i : Guid) (m : NotificationRequest) :
    (addressed c (notificationSends settings s i m)).filter isForwardedData = [] := by
  apply filter_notices
  intro x hx
  obtain ⟨-, hx⟩ := List.mem_ite_nil_right.mp hx
  obtain ⟨notice, hm, hx⟩ := List.mem_map.mp hx
  cases hx
  obtain ⟨matching, -, hm⟩ := List.mem_flatMap.mp hm
  obtain ⟨subscriber, -, rfl⟩ := List.mem_map.mp hm
  rfl

/-- The data that an event sends to a client is what it has the client told. -/
theorem addressed_sends (s : Server) (e : Event) (c : Guid) :
    (addressed c (sends settings s e)).filter isForwardedData =
      (dataTo settings c s e).map (DataItem.forwarded settings) := by
  cases e with
  | connected i => rfl
  | error i x =>
    rw [sends, addressed_closeSends, dataTo, List.map_map]
    rfl
  | closed i =>
    rw [sends, addressed_closeSends, dataTo, List.map_map]
    rfl
  | message i m =>
    cases m with
    | multicastData data =>
      show (addressed c (multicastSends settings s i data)).filter isForwardedData =
        ((carriedTo settings c s (.message i (.multicastData data))).toList.map
          DataItem.publication).map (DataItem.forwarded settings)
      rw [addressed_multicastSends, List.map_map]
      rfl
    | unicastData data =>
      show (addressed c (unicastSends settings s i data)).filter isForwardedData =
        ((carriedTo settings c s (.message i (.unicastData data))).toList.map
          DataItem.publication).map (DataItem.forwarded settings)
      rw [addressed_unicastSends, List.map_map]
      rfl
    | authorizationResponse response =>
      rw [sends, dataTo_responseSends, dataTo]
      split
      · rfl
      · rfl
    | subscriptionRequest m => exact dataTo_subscriptionSends settings s c i m
    | notificationRequest m => exact addressed_notificationSends settings s c i m
    | _ => rfl

end Server

namespace System

variable (settings : Settings)

/-- What the events that a run has handled make, in order. -/
def collect {β : Type} (make : Server → Event → List β) : History System Action → List β
  | [] => []
  | (s, a) :: h => collect make h ++ (s.handled a).toList.flatMap (make s.server)

variable {settings} in
/-- Where an event sends to a client, of a class of messages, those that it makes, what is queued
to the client of this class is what was made until its token was cancelled. -/
theorem Runs.collected {β : Type} {make : Server → Event → List β} {f : β → Message}
    {p : Message → Bool} {c : Guid}
    (hmake : ∀ h s e, Runs settings h s →
      (addressed c (Server.sends settings s.server e)).filter p = (make s.server e).map f)
    {h : History System Action} {s : System} (hr : Runs settings h s) :
    ∃ pre, pre <+: collect make h ∧
      ((s.server.objects c).tokenSource = .live → pre = collect make h) ∧
      (s.server.objects c).queued.filter p = pre.map f := by
  induction hr with
  | start => exact ⟨[], List.prefix_rfl, fun _ => rfl, rfl⟩
  | next hr ha ih =>
    next h s s' a =>
    obtain ⟨pre, hpre, hall, hqueued⟩ := ih
    have hq := queued_step settings ha c
    have hlive := live_of_step settings ha (c := c)
    rw [collect]
    cases hh : s.handled a with
    | none =>
      refine ⟨pre, by simpa using hpre, fun hl => by simp [hall (hlive hl).1], ?_⟩
      rw [hq, delivered, hh, List.append_nil, hqueued]
    | some e =>
      rw [Option.toList_some, List.flatMap_singleton]
      by_cases hd : (s.server.objects c).tokenSource = .live ∧ e.disposes ≠ some c
      · refine ⟨_, List.prefix_rfl, fun _ => rfl, ?_⟩
        rw [hq, delivered, hh]
        simp only [if_pos hd, List.filter_append, List.map_append]
        rw [hqueued, hmake h s e hr, hall hd.1]
      · refine ⟨pre, hpre.trans (List.prefix_append ..), fun hl => ?_, ?_⟩
        · exact absurd ⟨(hlive hl).1, (hlive hl).2 e hh⟩ hd
        · rw [hq, delivered, hh]
          simp only [if_neg hd, List.append_nil]
          exact hqueued

/-- What the events of a run have a client told of data, in order. -/
def dataTo (c : Guid) : History System Action → List DataItem :=
  collect (Server.dataTo settings c)

/-- The publications that the events of a run carry to a client, in order. -/
def carried (c : Guid) : History System Action → List Carried :=
  collect fun s e => (Server.carriedTo settings c s e).toList

/-- Of one publisher, what is carried to a client is some of its messages, in the order in
which they were handled, each once. -/
theorem publishedBy_carried (c i : Guid) (h : History System Action) :
    (Carried.publishedBy i (System.carried settings c h)).Sublist
      ((handledEvents h).filterMap (messageFrom i)) := by
  induction h with
  | nil => exact .slnil
  | cons x h ih =>
    obtain ⟨s, a⟩ := x
    rw [System.carried, collect, ← System.carried, handledEvents, Carried.publishedBy,
      List.filter_append, List.map_append, List.filterMap_append]
    apply ih.append
    cases he : s.handled a with
    | none => exact List.nil_sublist _
    | some e =>
      rw [Option.toList_some, List.flatMap_singleton]
      cases hx : Server.carriedTo settings c s.server e with
      | none => exact List.nil_sublist _
      | some x =>
        rw [Server.event_of_carriedTo settings hx]
        by_cases hi : x.publisher = i <;> simp [messageFrom, hi]

/-- The publications among what a client is told are those that are carried to it. -/
theorem filterMap_dataTo (c : Guid) (h : History System Action) :
    (System.dataTo settings c h).filterMap DataItem.carried = System.carried settings c h := by
  have hone (s : Server) (e : Event) : (Server.dataTo settings c s e).filterMap
      DataItem.carried = (Server.carriedTo settings c s e).toList := by
    cases e with
    | message i m =>
      cases m with
      | authorizationResponse response =>
        rw [Server.dataTo]
        split <;> rfl
      | multicastData data =>
        rw [Server.dataTo]
        · cases Server.carriedTo settings c s (.message i (.multicastData data)) <;> rfl
        all_goals nofun
      | unicastData data =>
        rw [Server.dataTo]
        · cases Server.carriedTo settings c s (.message i (.unicastData data)) <;> rfl
        all_goals nofun
      | _ => rfl
    | connected i => rfl
    | error i x => simp [Server.dataTo, Server.carriedTo, DataItem.carried]
    | closed i => simp [Server.dataTo, Server.carriedTo, DataItem.carried]
  induction h with
  | nil => rfl
  | cons x h ih =>
    obtain ⟨s, a⟩ := x
    rw [System.dataTo, collect, ← System.dataTo, List.filterMap_append, ih, System.carried,
      collect, ← System.carried]
    cases s.handled a with
    | none => rfl
    | some e => rw [Option.toList_some, List.flatMap_singleton, List.flatMap_singleton, hone]

end System

end MessageBus.Distributor
