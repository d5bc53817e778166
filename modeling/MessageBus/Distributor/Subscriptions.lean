import MessageBus.Base.Counter
import MessageBus.Common.Values

/-!
# The subscription repository

`core/src/JetBlack.MessageBus.Distributor/Subscribers/SubscriptionRepository.cs`. The
cache maps a feed and a topic to their subscribers, each with the count of its
subscriptions and the authorization they run under. A count is an `int`, which wraps. The
gauge `messagebus_subscriptions` is kept beside the cache, for each interactor and feed.
-/

namespace MessageBus.Distributor
open MessageBus.Base MessageBus.Common

/-- `FeedTopic.cs`. -/
structure FeedTopic where
  feed : String
  topic : String
  deriving DecidableEq

/-- `AuthorizationInfo.cs:5–15`. -/
structure AuthorizationInfo where
  isAuthorizationRequired : Bool
  entitlements : HashSet Int32
  deriving DecidableEq

/-- The constructor of `AuthorizationInfo`: null entitlements become the empty set. -/
def AuthorizationInfo.new (isAuthorizationRequired : Bool)
    (entitlements : Option (HashSet Int32)) : AuthorizationInfo :=
  ⟨isAuthorizationRequired, entitlements.getD ∅⟩

/-- `SubscriptionState`, `SubscriptionRepository.cs:102–111`. -/
structure SubscriptionState where
  count : Int32
  authorizationInfo : AuthorizationInfo
  deriving DecidableEq

/-- The subscribers of a topic. -/
abbrev Subscribers := Dictionary Guid SubscriptionState

/-- `SubscriptionRepository.cs:12`, and the gauge of each subscriber and feed. -/
structure SubscriptionRepository where
  cache : Dictionary String (Dictionary String Subscribers) := ∅
  subscriptions : Guid → String → Int := fun _ _ => 0

namespace SubscriptionRepository

/-- Add to the gauge of one subscriber and feed. -/
def incSubscriptions (r : SubscriptionRepository) (subscriber : Guid) (feed : String)
    (increment : Int) : Guid → String → Int :=
  fun subscriber' feed' => if subscriber' = subscriber ∧ feed' = feed then
    r.subscriptions subscriber' feed' + increment else r.subscriptions subscriber' feed'

/-- `AddSubscription`, `SubscriptionRepository.cs:18–38`. -/
def addSubscription (r : SubscriptionRepository) (subscriber : Guid) (feed topic : String)
    (authorizationInfo : AuthorizationInfo) (isAuthorizationUpdate : Bool) :
    SubscriptionRepository :=
  let topicSubscriptions := (r.cache.lookup feed).getD ∅
  let subscribersForTopic := (topicSubscriptions.lookup topic).getD ∅
  let subscriptionState := (subscribersForTopic.lookup subscriber).getD ⟨0, authorizationInfo⟩
  let subscriptionState :=
    if isAuthorizationUpdate then { subscriptionState with authorizationInfo }
    else { subscriptionState with count := subscriptionState.count + 1 }
  { cache := r.cache.insert feed (topicSubscriptions.insert topic
      (subscribersForTopic.insert subscriber subscriptionState))
    subscriptions := r.incSubscriptions subscriber feed 1 }

/-- `RemoveSubscription`, `SubscriptionRepository.cs:40–69`. -/
def removeSubscription (r : SubscriptionRepository) (subscriber : Guid) (feed topic : String)
    (removeAll : Bool) : SubscriptionRepository :=
  match r.cache.lookup feed with
  | none => r
  | some topicSubscriptions =>
    match topicSubscriptions.lookup topic with
    | none => r
    | some subscribersForTopic =>
      match subscribersForTopic.lookup subscriber with
      | none => r
      | some subscriptionState =>
        let decrement : Int := if removeAll then subscriptionState.count.toInt else 1
        let count := subscriptionState.count - 1
        let subscribersForTopic :=
          if removeAll || count == 0 then subscribersForTopic.erase subscriber
          else subscribersForTopic.insert subscriber { subscriptionState with count }
        { cache := r.cache.store feed (topicSubscriptions.store topic subscribersForTopic)
          subscriptions := r.incSubscriptions subscriber feed (-decrement) }

/-- `FindByInteractor`, `SubscriptionRepository.cs:71–79`. -/
def findByInteractor (r : SubscriptionRepository) (interactor : Guid) : List FeedTopic :=
  r.cache.entries.flatMap fun topicCache =>
    (topicCache.2.entries.filter fun x => (x.2.lookup interactor).isSome).map
      fun x => ⟨topicCache.1, x.1⟩

/-- `GetSubscribersToFeedAndTopic`, `SubscriptionRepository.cs:81–91`. -/
def getSubscribersToFeedAndTopic (r : SubscriptionRepository) (feed topic : String) :
    List (Guid × AuthorizationInfo) :=
  match r.cache.lookup feed with
  | none => []
  | some topicCache =>
    match topicCache.lookup topic with
    | none => []
    | some subscribersForTopic =>
      subscribersForTopic.entries.map fun x => (x.1, x.2.authorizationInfo)

/-- `GetSubscribersToFeed`, `SubscriptionRepository.cs:93–100`. -/
def getSubscribersToFeed (r : SubscriptionRepository) (feed : String) :
    List (String × List Guid) :=
  match r.cache.lookup feed with
  | none => []
  | some topicCache => topicCache.entries.map fun x => (x.1, x.2.keys)

/-! ### The entries of the cache -/

/-- The subscribers stored for a feed and topic. -/
def subscribers (r : SubscriptionRepository) (feed topic : String) : Subscribers :=
  (((r.cache.lookup feed).getD ∅).lookup topic).getD ∅

/-- The state stored for a subscriber of a feed and topic. -/
def entry (r : SubscriptionRepository) (subscriber : Guid) (feed topic : String) :
    Option SubscriptionState :=
  (r.subscribers feed topic).lookup subscriber

@[simp] private theorem entry_empty (subscriber : Guid) (feed topic : String) :
    entry {} subscriber feed topic = none := rfl

/-- The state that an addition stores. -/
def added (current : Option SubscriptionState) (authorizationInfo : AuthorizationInfo)
    (isAuthorizationUpdate : Bool) : SubscriptionState :=
  let state := current.getD ⟨0, authorizationInfo⟩
  if isAuthorizationUpdate then { state with authorizationInfo }
  else { state with count := state.count + 1 }

/-- The state that a removal leaves. -/
def removed (current : Option SubscriptionState) (removeAll : Bool) :
    Option SubscriptionState :=
  match current with
  | none => none
  | some state =>
    if removeAll || state.count - 1 == 0 then none
    else some { state with count := state.count - 1 }

/-- A removal leaves no entry if there was none, or if its count was one. -/
theorem removed_eq_none_iff {entry : Option SubscriptionState} :
    removed entry false = none ↔
      ∀ state, entry = some state → state.count = 1 := by
  cases entry with
  | none => simp [removed]
  | some state =>
    simp only [removed, Bool.false_or, beq_iff_eq, sub_one_eq_zero_iff,
      Option.some.injEq, forall_eq']
    split
    · next h => exact iff_of_true rfl h
    · next h => exact iff_of_false (by simp) h

/-- An addition changes the entry it names and no other. -/
theorem entry_addSubscription (r : SubscriptionRepository) (c c' : Guid)
    (feed topic feed' topic' : String) (info : AuthorizationInfo) (update : Bool) :
    (r.addSubscription c feed topic info update).entry c' feed' topic' =
      if c' = c ∧ feed' = feed ∧ topic' = topic then some (added (r.entry c feed topic) info update)
      else r.entry c' feed' topic' := by
  simp only [entry, subscribers, addSubscription, Dictionary.lookup_insert]
  by_cases hf : feed' = feed
  · subst hf
    simp only [if_true, Option.getD_some, Dictionary.lookup_insert]
    by_cases ht : topic' = topic
    · subst ht
      simp only [if_true, Option.getD_some, Dictionary.lookup_insert, and_true]
      by_cases hc : c' = c
      · subst hc
        rw [if_pos rfl, if_pos rfl]
        rfl
      · rw [if_neg hc, if_neg hc]
    · simp [ht]
  · simp [hf]

/-- A removal changes the entry it names and no other. -/
theorem entry_removeSubscription (r : SubscriptionRepository) (c c' : Guid)
    (feed topic feed' topic' : String) (removeAll : Bool) :
    (r.removeSubscription c feed topic removeAll).entry c' feed' topic' =
      if c' = c ∧ feed' = feed ∧ topic' = topic then removed (r.entry c feed topic) removeAll
      else r.entry c' feed' topic' := by
  have hkeep (he : r.entry c feed topic = none) : r.entry c' feed' topic' =
      if c' = c ∧ feed' = feed ∧ topic' = topic then removed (r.entry c feed topic) removeAll
      else r.entry c' feed' topic' := by
    split
    · next h =>
      obtain ⟨rfl, rfl, rfl⟩ := h
      rw [he]
      rfl
    · rfl
  unfold removeSubscription
  split
  · next hf => exact hkeep (by simp [entry, subscribers, hf])
  · next topics hf =>
    split
    · next ht => exact hkeep (by simp [entry, subscribers, hf, ht])
    · next subs ht =>
      have hs : r.subscribers feed topic = subs := by simp [subscribers, hf, ht]
      split
      · next he => exact hkeep (by rw [entry, hs, he])
      · next state he =>
        have hc : r.entry c feed topic = some state := by rw [entry, hs, he]
        rw [hc]
        simp only [entry, subscribers, Dictionary.getD_lookup_store]
        by_cases hf' : feed' = feed
        · subst hf'
          simp only [if_true, Dictionary.getD_lookup_store, hf, Option.getD_some]
          by_cases ht' : topic' = topic
          · subst ht'
            simp only [if_true, and_true, ht, Option.getD_some, removed]
            split
            · rw [Dictionary.lookup_erase]
            · rw [Dictionary.lookup_insert]
          · simp [ht']
        · simp [hf']

/-- The removal of an absent entry changes nothing. -/
theorem removeSubscription_of_entry_eq_none {r : SubscriptionRepository} {c : Guid}
    {feed topic : String} (h : r.entry c feed topic = none) (removeAll : Bool) :
    r.removeSubscription c feed topic removeAll = r := by
  unfold removeSubscription
  split
  · rfl
  · next topics hf =>
    split
    · rfl
    · next subs ht =>
      have hs : subs.lookup c = none := by simpa [entry, subscribers, hf, ht] using h
      rw [hs]

/-- Removals with all their counts, one after another, take out the entries they name. -/
theorem entry_foldl_removeSubscription (r : SubscriptionRepository) (i c : Guid)
    (f t : String) (feedTopics : List FeedTopic) :
    (feedTopics.foldl (fun r ft => r.removeSubscription i ft.feed ft.topic true) r).entry c f t =
      if c = i ∧ ⟨f, t⟩ ∈ feedTopics then none else r.entry c f t := by
  induction feedTopics generalizing r with
  | nil => simp
  | cons ft feedTopics ih =>
    have hremoved : ∀ state, removed state true = none := by
      intro state
      cases state <;> simp [removed]
    rw [List.foldl_cons, ih, entry_removeSubscription, hremoved]
    by_cases hk : c = i ∧ f = ft.feed ∧ t = ft.topic
    · obtain ⟨rfl, rfl, rfl⟩ := hk
      simp
    · rw [if_neg hk]
      by_cases hc : c = i
      · have hft : ¬ (⟨f, t⟩ : FeedTopic) = ft := fun h => hk ⟨hc, by rw [← h], by rw [← h]⟩
        simp [hc, hft]
      · simp [hc]

private theorem subscribers_of_lookup {r : SubscriptionRepository} {feed topic : String}
    {topics : Dictionary String Subscribers} {subs : Subscribers}
    (hf : r.cache.lookup feed = some topics) (ht : topics.lookup topic = some subs) :
    r.subscribers feed topic = subs := by
  simp [subscribers, hf, ht]

private theorem lookup_of_entry {r : SubscriptionRepository} {c : Guid} {feed topic : String}
    (h : (r.entry c feed topic).isSome) : ∃ topics subs, r.cache.lookup feed = some topics ∧
      topics.lookup topic = some subs ∧ (subs.lookup c).isSome := by
  unfold entry subscribers at h
  cases hf : r.cache.lookup feed with
  | none => simp [hf] at h
  | some topics =>
    rw [hf, Option.getD_some] at h
    cases ht : topics.lookup topic with
    | none => simp [ht] at h
    | some subs =>
      rw [ht, Option.getD_some] at h
      exact ⟨topics, subs, rfl, ht, h⟩

/-- `FindByInteractor` reports the entries of the interactor. -/
theorem mem_findByInteractor {r : SubscriptionRepository} {c : Guid} {ft : FeedTopic} :
    ft ∈ r.findByInteractor c ↔ (r.entry c ft.feed ft.topic).isSome := by
  unfold findByInteractor
  rw [List.mem_flatMap]
  constructor
  · rintro ⟨e, he, hm⟩
    obtain ⟨x, hx, rfl⟩ := List.mem_map.mp hm
    obtain ⟨hx, hs⟩ := List.mem_filter.mp hx
    have hsub := subscribers_of_lookup (Dictionary.mem_entries_iff.mp he)
      (Dictionary.mem_entries_iff.mp hx)
    rw [entry, hsub]
    exact hs
  · intro h
    obtain ⟨topics, subs, hf, ht, hs⟩ := lookup_of_entry h
    refine ⟨⟨ft.feed, topics⟩, Dictionary.mem_entries_iff.mpr hf, ?_⟩
    refine List.mem_map.mpr ⟨⟨ft.topic, subs⟩, List.mem_filter.mpr ⟨?_, hs⟩, rfl⟩
    exact Dictionary.mem_entries_iff.mpr ht

/-- `FindByInteractor` reports each feed and topic once. -/
theorem nodup_findByInteractor (r : SubscriptionRepository) (c : Guid) :
    (r.findByInteractor c).Nodup := by
  unfold findByInteractor
  rw [List.nodup_flatMap]
  constructor
  · intro topicCache _
    have hkeys : ((topicCache.2.entries.filter fun x => (x.2.lookup c).isSome).map
        Sigma.fst).Nodup := topicCache.2.nodupKeys.sublist List.filter_sublist
    have hmap := hkeys.map (f := FeedTopic.mk topicCache.1) fun t t' h => (FeedTopic.mk.inj h).2
    rw [List.map_map] at hmap
    exact hmap
  · have hkeys : (r.cache.entries.map Sigma.fst).Pairwise (· ≠ ·) := r.cache.nodupKeys
    apply (List.pairwise_map.mp hkeys).imp
    intro x y hne ft hx hy
    obtain ⟨_, -, rfl⟩ := List.mem_map.mp hx
    obtain ⟨_, -, h⟩ := List.mem_map.mp hy
    exact hne (FeedTopic.mk.inj h).1.symm

/-- `GetSubscribersToFeedAndTopic` reports the entries of the feed and topic. -/
theorem getSubscribersToFeedAndTopic_eq (r : SubscriptionRepository) (feed topic : String) :
    r.getSubscribersToFeedAndTopic feed topic =
      (r.subscribers feed topic).entries.map fun x => (x.1, x.2.authorizationInfo) := by
  unfold getSubscribersToFeedAndTopic subscribers
  split
  · next hf => simp [hf]
  · next topics hf =>
    split
    · next ht => simp [hf, ht]
    · next subs ht => simp [hf, ht]

/-- The subscribers to a topic are those with an entry, each with its authorization. -/
theorem mem_getSubscribersToFeedAndTopic {r : SubscriptionRepository} {feed topic : String}
    {c : Guid} {info : AuthorizationInfo} :
    (c, info) ∈ r.getSubscribersToFeedAndTopic feed topic ↔
      ∃ state, r.entry c feed topic = some state ∧ state.authorizationInfo = info := by
  rw [getSubscribersToFeedAndTopic_eq, List.mem_map]
  constructor
  · rintro ⟨e, he, hx⟩
    cases hx
    exact ⟨e.2, Dictionary.mem_entries_iff.mp he, rfl⟩
  · rintro ⟨state, hs, rfl⟩
    exact ⟨⟨c, state⟩, Dictionary.mem_entries_iff.mpr hs, rfl⟩

/-- Each subscriber is reported once. -/
theorem nodup_getSubscribersToFeedAndTopic (r : SubscriptionRepository) (feed topic : String) :
    ((r.getSubscribersToFeedAndTopic feed topic).map Prod.fst).Nodup := by
  rw [getSubscribersToFeedAndTopic_eq, List.map_map]
  exact (r.subscribers feed topic).nodupKeys

/-- `GetSubscribersToFeed` reports the entries of the feed. -/
theorem mem_getSubscribersToFeed {r : SubscriptionRepository} {feed topic : String} {c : Guid} :
    (∃ cs, (topic, cs) ∈ r.getSubscribersToFeed feed ∧ c ∈ cs) ↔
      (r.entry c feed topic).isSome := by
  constructor
  · rintro ⟨cs, hm, hc⟩
    unfold getSubscribersToFeed at hm
    split at hm
    · cases hm
    · next topics hf =>
      obtain ⟨e, he, hx⟩ := List.mem_map.mp hm
      cases hx
      rw [entry, subscribers_of_lookup hf (Dictionary.mem_entries_iff.mp he)]
      exact AList.lookup_isSome.mpr hc
  · intro h
    obtain ⟨topics, subs, hf, ht, hs⟩ := lookup_of_entry h
    refine ⟨subs.keys, ?_, AList.lookup_isSome.mp hs⟩
    unfold getSubscribersToFeed
    rw [hf]
    exact List.mem_map.mpr ⟨⟨topic, subs⟩, Dictionary.mem_entries_iff.mpr ht, rfl⟩

end SubscriptionRepository

end MessageBus.Distributor
