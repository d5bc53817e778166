import MessageBus.Distributor.Effects

/-!
# What is sent

Every message that the distributor sends carries the data of a publication to a
subscriber, or it carries no data.
-/

namespace MessageBus.Distributor
open MessageBus.Base MessageBus.Common MessageBus.Messages

namespace Server

variable (settings : Settings)

/-- A message that carries no data: a request to an authorizer, a notice of a
subscription, or the message without data. -/
def IsNotice : Message → Prop
  | .authorizationRequest _ => True
  | .forwardedSubscriptionRequest _ => True
  | m => ∃ feed topic, m = noData feed topic

/-- A message carries multicast data to a subscriber. -/
def CarriesMulticast (s : Server) (e : Event) (c : Guid) (m : Message) : Prop :=
  ∃ publisher data info, e = .message publisher (.multicastData data) ∧
    settings.hasRole publisher data.feed .publish = true ∧
    (c, info) ∈ s.subscriptionRepository.getSubscribersToFeedAndTopic data.feed data.topic ∧
    m = forwardedMulticast settings (some publisher) info data

/-- A message carries unicast data to the subscriber that it names. -/
def CarriesUnicast (s : Server) (e : Event) (c : Guid) (m : Message) : Prop :=
  ∃ publisher data info, e = .message publisher (.unicastData data) ∧
    settings.hasRole publisher data.feed .publish = true ∧ c = data.clientId ∧
    (c, info) ∈ s.subscriptionRepository.getSubscribersToFeedAndTopic data.feed data.topic ∧
    m = forwardedUnicast settings publisher info data

/-- The messages without data that the distributor makes: a client is named with its user and
its host. -/
def MadeNotice (m : Message) : Prop :=
  (∃ c feed topic, m = .authorizationRequest
    { clientId := c, host := settings.host c, user := settings.user c, feed, topic }) ∨
  (∃ c request, m = forwardedRequest settings c request) ∨ ∃ feed topic, m = noData feed topic

/-- What the notices are made of makes notices. -/
theorem MadeNotice.isNotice {m : Message} (h : MadeNotice settings m) : IsNotice m := by
  obtain ⟨c, feed, topic, rfl⟩ | ⟨c, request, rfl⟩ | ⟨feed, topic, rfl⟩ := h
  · trivial
  · trivial
  · exact ⟨feed, topic, rfl⟩

private theorem made_noData (feed topic : String) : MadeNotice settings (noData feed topic) :=
  .inr (.inr ⟨feed, topic, rfl⟩)

private theorem made_forwardedRequest (c : Guid) (request : SubscriptionRequest) :
    MadeNotice settings (forwardedRequest settings c request) := .inr (.inl ⟨c, request, rfl⟩)

private theorem made_of_mem_notices {r : NotificationRepository} {i c : Guid}
    {request : SubscriptionRequest} {m : Message} (h : (c, m) ∈ notices settings r i request) :
    MadeNotice settings m := by
  obtain ⟨n, -, hn⟩ := List.mem_map.mp h
  cases hn
  exact made_forwardedRequest ..

private theorem made_of_mem_responseSends {s : Server} {r : AuthorizationResponse}
    {c : Guid} {m : Message} (h : (c, m) ∈ responseSends settings s r) : MadeNotice settings m := by
  unfold responseSends at h
  split at h
  · split at h
    · cases List.mem_singleton.mp h
      exact made_noData ..
    · exact made_of_mem_notices settings h
  · cases h

private theorem made_of_mem_closeSends {s : Server} {i c : Guid} {m : Message}
    (h : (c, m) ∈ staleSends s i ++ endSends settings s i) : MadeNotice settings m := by
  rcases List.mem_append.mp h with h | h
  · obtain ⟨stale, -, h⟩ := List.mem_flatMap.mp h
    obtain ⟨subscriber, -, h⟩ := List.mem_map.mp h
    cases h
    exact made_noData ..
  · obtain ⟨feedTopic, -, h⟩ := List.mem_flatMap.mp h
    exact made_of_mem_notices settings h

private theorem made_of_mem_subscriptionSends {s : Server} {i c : Guid}
    {request : SubscriptionRequest} {m : Message}
    (h : (c, m) ∈ subscriptionSends settings s i request) : MadeNotice settings m := by
  unfold subscriptionSends at h
  split at h
  · split at h
    · split at h
      · exact made_of_mem_notices settings h
      · split at h
        · obtain ⟨authorizer, -, h⟩ := List.mem_map.mp h
          cases h
          exact .inl ⟨i, request.feed, request.topic, rfl⟩
        · exact made_of_mem_responseSends settings h
    · exact made_of_mem_notices settings h
  · cases h

private theorem made_of_mem_notificationSends {s : Server} {i c : Guid}
    {request : NotificationRequest} {m : Message}
    (h : (c, m) ∈ notificationSends settings s i request) : MadeNotice settings m := by
  unfold notificationSends at h
  split at h
  · obtain ⟨notice, hm, hx⟩ := List.mem_map.mp h
    cases hx
    obtain ⟨matching, -, hm⟩ := List.mem_flatMap.mp hm
    obtain ⟨subscriber, -, hx⟩ := List.mem_map.mp hm
    subst hx
    exact made_forwardedRequest ..
  · cases h

/-- Unicast data goes to the subscriber that it names. -/
theorem mem_unicastTarget {s : Server} {data : UnicastData}
    {target : Guid × AuthorizationInfo} (h : s.unicastTarget data = some target) :
    target.1 = data.clientId ∧
      target ∈ s.subscriptionRepository.getSubscribersToFeedAndTopic data.feed data.topic :=
  ⟨by simpa using List.find?_some h, List.mem_of_find?_eq_some h⟩

/-- Every message sent carries the data of a publication to a subscriber, or is a
message without data that the distributor makes. -/
theorem mem_sends_made {s : Server} {e : Event} {c : Guid} {m : Message}
    (h : (c, m) ∈ sends settings s e) :
    MadeNotice settings m ∨ CarriesMulticast settings s e c m ∨
      CarriesUnicast settings s e c m := by
  cases e with
  | connected i => cases h
  | error i x => exact .inl (made_of_mem_closeSends settings h)
  | closed i => exact .inl (made_of_mem_closeSends settings h)
  | message i message =>
    cases message with
    | authorizationResponse r => exact .inl (made_of_mem_responseSends settings h)
    | subscriptionRequest r => exact .inl (made_of_mem_subscriptionSends settings h)
    | notificationRequest r => exact .inl (made_of_mem_notificationSends settings h)
    | multicastData data =>
      simp only [sends, multicastSends] at h
      split at h
      · next hrole =>
        obtain ⟨⟨subscriber, info⟩, hs, hx⟩ := List.mem_map.mp h
        cases hx
        exact .inr (.inl ⟨i, data, info, rfl, hrole, hs, rfl⟩)
      · cases h
    | unicastData data =>
      simp only [sends, unicastSends] at h
      split at h
      · cases h
      · next target ht =>
        obtain ⟨hid, hs⟩ := mem_unicastTarget ht
        split at h
        · next hrole =>
          cases List.mem_singleton.mp h
          exact .inr (.inr ⟨i, data, target.2, rfl, hrole, hid, hs, rfl⟩)
        · cases h
    | _ => cases h

/-- Every message sent carries the data of a publication to a subscriber, or no data. -/
theorem mem_sends_cases {s : Server} {e : Event} {c : Guid} {m : Message}
    (h : (c, m) ∈ sends settings s e) :
    IsNotice m ∨ CarriesMulticast settings s e c m ∨ CarriesUnicast settings s e c m :=
  (mem_sends_made settings h).imp_left (MadeNotice.isNotice settings)

private theorem noData_notMem_notices {r : NotificationRepository} {i c : Guid}
    {request : SubscriptionRequest} {f t : String} :
    (c, noData f t) ∉ notices settings r i request := by
  intro h
  obtain ⟨n, -, hn⟩ := List.mem_map.mp h
  cases hn

private theorem noData_inj {f t f' t' : String} (h : noData f t = noData f' t') :
    f = f' ∧ t = t' := by
  cases h
  exact ⟨rfl, rfl⟩

private theorem denial_of_mem_responseSends {s : Server} {r : AuthorizationResponse} {c : Guid}
    {f t : String} (h : (c, noData f t) ∈ responseSends settings s r) :
    s.IsRegistered r.clientId ∧ isDenial r = true ∧
      r.clientId = c ∧ r.feed = f ∧ r.topic = t := by
  unfold responseSends at h
  split at h
  · next hreg =>
    split at h
    · next hd =>
      obtain ⟨rfl, hm⟩ := Prod.mk.injEq .. ▸ List.mem_singleton.mp h
      obtain ⟨rfl, rfl⟩ := noData_inj hm
      exact ⟨hreg, hd, rfl, rfl, rfl⟩
    · exact absurd h (noData_notMem_notices settings)
  · cases h

private theorem subscriber_of_mem_closeSends {s : Server} {i c : Guid} {f t : String}
    (h : (c, noData f t) ∈ staleSends s i ++ endSends settings s i) :
    ∃ info, (c, info) ∈ s.subscriptionRepository.getSubscribersToFeedAndTopic f t := by
  rcases List.mem_append.mp h with h | h
  · obtain ⟨stale, -, h⟩ := List.mem_flatMap.mp h
    obtain ⟨⟨subscriber, info⟩, hs, he⟩ := List.mem_map.mp h
    obtain ⟨rfl, hm⟩ := Prod.mk.injEq .. ▸ he
    obtain ⟨rfl, rfl⟩ := noData_inj hm
    exact ⟨info, hs⟩
  · obtain ⟨feedTopic, -, h⟩ := List.mem_flatMap.mp h
    exact absurd h (noData_notMem_notices settings)

/-- An interactor that is not subscribed is sent the message without data only where a
response denies it the feed and topic. -/
theorem denial_of_mem_sends {s : Server} {e : Event} {c : Guid} {f t : String}
    (h : (c, noData f t) ∈ sends settings s e)
    (hn : ∀ info, (c, info) ∉ s.subscriptionRepository.getSubscribersToFeedAndTopic f t) :
    ∃ i r, e = .message i (.authorizationResponse r) ∧ s.IsRegistered r.clientId ∧
      isDenial r = true ∧ r.clientId = c ∧ r.feed = f ∧ r.topic = t := by
  cases e with
  | connected i => cases h
  | error i x =>
    obtain ⟨info, hs⟩ := subscriber_of_mem_closeSends settings h
    exact absurd hs (hn info)
  | closed i =>
    obtain ⟨info, hs⟩ := subscriber_of_mem_closeSends settings h
    exact absurd hs (hn info)
  | message i message =>
    cases message with
    | authorizationResponse r =>
      exact ⟨i, r, rfl, denial_of_mem_responseSends settings h⟩
    | subscriptionRequest request =>
      simp only [sends, subscriptionSends] at h
      split at h
      · split at h
        · split at h
          · exact absurd h (noData_notMem_notices settings)
          · split at h
            · obtain ⟨authorizer, -, hm⟩ := List.mem_map.mp h
              cases hm
            · obtain ⟨-, hd, -⟩ := denial_of_mem_responseSends settings h
              cases hd
        · exact absurd h (noData_notMem_notices settings)
      · cases h
    | notificationRequest request =>
      simp only [sends, notificationSends] at h
      split at h
      · obtain ⟨notice, hm, hx⟩ := List.mem_map.mp h
        obtain ⟨matching, -, hm⟩ := List.mem_flatMap.mp hm
        obtain ⟨subscriber, -, rfl⟩ := List.mem_map.mp hm
        cases hx
      · cases h
    | multicastData data =>
      obtain ⟨-, h⟩ := List.mem_ite_nil_right.mp h
      obtain ⟨⟨subscriber, info⟩, hs, hx⟩ := List.mem_map.mp h
      simp only [forwardedMulticast, noData, Prod.mk.injEq, Message.forwardedMulticastData.injEq,
        ForwardedMulticastData.mk.injEq] at hx
      obtain ⟨rfl, -, -, rfl, rfl, -⟩ := hx
      exact absurd hs (hn info)
    | unicastData data =>
      simp only [sends, unicastSends] at h
      split at h
      · cases h
      · obtain ⟨-, h⟩ := List.mem_ite_nil_right.mp h
        cases List.mem_singleton.mp h
    | _ => cases h

end Server

end MessageBus.Distributor
