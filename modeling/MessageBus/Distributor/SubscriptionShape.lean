import MessageBus.Distributor.Subscriptions

/-!
# The shape of the subscription cache

What holds of the subscription repository after any sequence of additions and removals: the
nested dictionaries are pruned, the three ways to read them report one relation, and an
operation changes the entry that it names and no other.
-/

namespace MessageBus.Distributor.SubscriptionRepository
open MessageBus.Base MessageBus.Common

/-! ### Sequences of calls -/

/-- The methods that change the repository. -/
inductive Call where
  | addSubscription (subscriber : Guid) (feed topic : String)
      (authorizationInfo : AuthorizationInfo) (isAuthorizationUpdate : Bool)
  | removeSubscription (subscriber : Guid) (feed topic : String) (removeAll : Bool)

/-- A call names an entry. -/
def Call.Names : Call → Guid → String → String → Prop
  | .addSubscription subscriber feed topic _ _, c, f, t => c = subscriber ∧ f = feed ∧ t = topic
  | .removeSubscription subscriber feed topic _, c, f, t => c = subscriber ∧ f = feed ∧ t = topic

/-- The repository after a call. -/
def call (r : SubscriptionRepository) : Call → SubscriptionRepository
  | .addSubscription subscriber feed topic authorizationInfo isAuthorizationUpdate =>
    r.addSubscription subscriber feed topic authorizationInfo isAuthorizationUpdate
  | .removeSubscription subscriber feed topic removeAll =>
    r.removeSubscription subscriber feed topic removeAll

/-- The repository after calls one after another. -/
def calls (r : SubscriptionRepository) (cs : List Call) : SubscriptionRepository :=
  cs.foldl call r

/-- A call that does not name an entry leaves it alone. -/
theorem entry_call_of_not_names (r : SubscriptionRepository) {c : Call} {i : Guid} {f t : String}
    (h : ¬ c.Names i f t) : (r.call c).entry i f t = r.entry i f t := by
  cases c with
  | addSubscription subscriber feed topic info update =>
    exact (entry_addSubscription ..).trans (if_neg h)
  | removeSubscription subscriber feed topic removeAll =>
    exact (entry_removeSubscription ..).trans (if_neg h)

/-! ### No dictionary is empty -/

/-- No inner dictionary of the cache is empty. -/
def NoneEmpty (r : SubscriptionRepository) : Prop :=
  ∀ feed topics, r.cache.lookup feed = some topics → topics.isEmpty = false ∧
    ∀ topic subs, topics.lookup topic = some subs → subs.isEmpty = false

private theorem noneEmpty_addSubscription {r : SubscriptionRepository} (h : r.NoneEmpty) (c : Guid)
    (feed topic : String) (info : AuthorizationInfo) (update : Bool) :
    (r.addSubscription c feed topic info update).NoneEmpty := by
  intro f topics hf
  simp only [addSubscription, Dictionary.lookup_insert] at hf
  split at hf
  · cases hf
    refine ⟨Dictionary.isEmpty_insert .., fun t subs ht => ?_⟩
    rw [Dictionary.lookup_insert] at ht
    split at ht
    · cases ht
      exact Dictionary.isEmpty_insert ..
    · cases hl : r.cache.lookup feed with
      | none => simp [hl] at ht
      | some old =>
        rw [hl, Option.getD_some] at ht
        exact (h feed old hl).2 t subs ht
  · exact h f topics hf

private theorem noneEmpty_store {r : SubscriptionRepository} (h : r.NoneEmpty) {feed : String}
    {topics : Dictionary String Subscribers} (hf : r.cache.lookup feed = some topics)
    (topic : String) (subs : Subscribers) (subscriptions : Guid → String → Int) :
    NoneEmpty ⟨r.cache.store feed (topics.store topic subs), subscriptions⟩ := by
  intro f topics' hf'
  refine ⟨Dictionary.isEmpty_of_lookup_store hf' fun f topics hf => (h f topics hf).1, ?_⟩
  simp only [Dictionary.lookup_store] at hf'
  split at hf'
  · split at hf'
    · cases hf'
    · cases hf'
      exact fun t subs ht => Dictionary.isEmpty_of_lookup_store ht (h feed topics hf).2
  · exact (h f topics' hf').2

private theorem noneEmpty_removeSubscription {r : SubscriptionRepository} (h : r.NoneEmpty)
    (c : Guid) (feed topic : String) (removeAll : Bool) :
    (r.removeSubscription c feed topic removeAll).NoneEmpty := by
  unfold removeSubscription
  split
  · exact h
  · next topics hf =>
    split
    · exact h
    · split
      · exact h
      · exact noneEmpty_store h hf topic _ _

private theorem noneEmpty_call {r : SubscriptionRepository} (h : r.NoneEmpty) (c : Call) :
    (r.call c).NoneEmpty := by
  cases c with
  | addSubscription i feed topic info update =>
    exact noneEmpty_addSubscription h i feed topic info update
  | removeSubscription i feed topic removeAll =>
    exact noneEmpty_removeSubscription h i feed topic removeAll

private theorem noneEmpty_calls (cs : List Call) : (calls {} cs).NoneEmpty := by
  apply List.foldlRecOn cs call
  · intro f topics hf
    cases hf
  · exact fun r h c _ => noneEmpty_call h c

/-! ### One relation -/

/-- The interactor is a subscriber of the feed and topic. -/
def IsSubscriber (r : SubscriptionRepository) (i : Guid) (feed topic : String) : Prop :=
  (r.entry i feed topic).isSome = true

/-- The topics and interactors that `GetSubscribersToFeed` reports, pair by pair. -/
def pairsOfFeed (r : SubscriptionRepository) (feed : String) : List (String × Guid) :=
  (r.getSubscribersToFeed feed).flatMap fun subscribers =>
    subscribers.2.map fun i => (subscribers.1, i)

private theorem mem_pairsOfFeed {r : SubscriptionRepository} {feed topic : String} {i : Guid} :
    (topic, i) ∈ r.pairsOfFeed feed ↔ r.IsSubscriber i feed topic := by
  rw [IsSubscriber, ← mem_getSubscribersToFeed, pairsOfFeed, List.mem_flatMap]
  constructor
  · rintro ⟨⟨t, cs⟩, hm, hi⟩
    obtain ⟨c, hc, he⟩ := List.mem_map.mp hi
    cases he
    exact ⟨cs, hm, hc⟩
  · rintro ⟨cs, hm, hc⟩
    exact ⟨(topic, cs), hm, List.mem_map.mpr ⟨i, hc, rfl⟩⟩

private theorem nodup_pairsOfFeed (r : SubscriptionRepository) (feed : String) :
    (r.pairsOfFeed feed).Nodup := by
  unfold pairsOfFeed getSubscribersToFeed
  split
  · exact List.nodup_nil
  · next topics hf =>
    rw [List.flatMap_map, List.nodup_flatMap]
    constructor
    · intro e _
      exact e.2.nodupKeys.map fun i i' h => (Prod.mk.inj h).2
    · have hkeys : (topics.entries.map Sigma.fst).Pairwise (· ≠ ·) := topics.nodupKeys
      apply (List.pairwise_map.mp hkeys).imp
      intro x y hne p hx hy
      obtain ⟨_, -, rfl⟩ := List.mem_map.mp hx
      obtain ⟨_, -, h⟩ := List.mem_map.mp hy
      exact hne (Prod.mk.inj h).1.symm

/-- The three ways to read the repository report one relation, each triple once. -/
structure OneRelation (r : SubscriptionRepository) : Prop where
  byInteractor : ∀ i f t, ⟨f, t⟩ ∈ r.findByInteractor i ↔ r.IsSubscriber i f t
  byFeedAndTopic : ∀ i f t,
    i ∈ (r.getSubscribersToFeedAndTopic f t).map Prod.fst ↔ r.IsSubscriber i f t
  byFeed : ∀ i f t, (t, i) ∈ r.pairsOfFeed f ↔ r.IsSubscriber i f t
  onceByInteractor : ∀ i, (r.findByInteractor i).Nodup
  onceByFeedAndTopic : ∀ f t, ((r.getSubscribersToFeedAndTopic f t).map Prod.fst).Nodup
  onceByFeed : ∀ f, (r.pairsOfFeed f).Nodup

private theorem mem_fst_getSubscribersToFeedAndTopic {r : SubscriptionRepository} {i : Guid}
    {feed topic : String} : i ∈ (r.getSubscribersToFeedAndTopic feed topic).map Prod.fst ↔
      r.IsSubscriber i feed topic := by
  rw [List.mem_map, IsSubscriber, Option.isSome_iff_exists]
  constructor
  · rintro ⟨⟨c, info⟩, hm, rfl⟩
    obtain ⟨state, hstate, -⟩ := mem_getSubscribersToFeedAndTopic.mp hm
    exact ⟨state, hstate⟩
  · rintro ⟨state, hstate⟩
    exact ⟨(i, state.authorizationInfo),
      mem_getSubscribersToFeedAndTopic.mpr ⟨state, hstate, rfl⟩, rfl⟩

private theorem oneRelation (r : SubscriptionRepository) : r.OneRelation where
  byInteractor _ _ _ := mem_findByInteractor
  byFeedAndTopic _ _ _ := mem_fst_getSubscribersToFeedAndTopic
  byFeed _ _ _ := mem_pairsOfFeed
  onceByInteractor := r.nodup_findByInteractor
  onceByFeedAndTopic := r.nodup_getSubscribersToFeedAndTopic
  onceByFeed := r.nodup_pairsOfFeed

/-! ### Closing an interactor -/

/-- `RemoveSubscription` with all counts for every feed and topic that `FindByInteractor` lists,
as in `SubscriptionManager.cs:107–109`. -/
def removeByInteractor (r : SubscriptionRepository) (i : Guid) : SubscriptionRepository :=
  (r.findByInteractor i).foldl
    (fun r feedTopic => r.removeSubscription i feedTopic.feed feedTopic.topic true) r

private theorem entry_removeByInteractor (r : SubscriptionRepository) (i c : Guid) (f t : String) :
    (r.removeByInteractor i).entry c f t = if c = i then none else r.entry c f t := by
  rw [removeByInteractor, entry_foldl_removeSubscription]
  by_cases hc : c = i
  · subst hc
    rw [if_pos rfl]
    split
    · rfl
    · next h =>
      rw [mem_findByInteractor] at h
      exact Option.not_isSome_iff_eq_none.mp fun hs => h ⟨rfl, hs⟩
  · rw [if_neg hc, if_neg fun h => hc h.1]

/-- After any additions and removals: no inner dictionary is empty; the three ways to read the
repository report one relation, each triple once; a call leaves the entries that it does not
name, their counts and authorizations included; removing an absent triple changes nothing; and
removing what is found for an interactor takes out its triples, with all others intact. -/
theorem calls_keep_shape (cs : List Call) :
    (calls {} cs).NoneEmpty ∧ (calls {} cs).OneRelation ∧
      (∀ (c : Call) (i : Guid) (f t : String), ¬ c.Names i f t →
        ((calls {} cs).call c).entry i f t = (calls {} cs).entry i f t) ∧
      (∀ (i : Guid) (f t : String) (removeAll : Bool), ¬ (calls {} cs).IsSubscriber i f t →
        (calls {} cs).removeSubscription i f t removeAll = calls {} cs) ∧
      ∀ i c f t, ((calls {} cs).removeByInteractor i).entry c f t =
        if c = i then none else (calls {} cs).entry c f t := by
  refine ⟨noneEmpty_calls cs, oneRelation _, fun c i f t h => entry_call_of_not_names _ h,
    fun i f t removeAll h => ?_, entry_removeByInteractor _⟩
  exact removeSubscription_of_entry_eq_none (Option.not_isSome_iff_eq_none.mp h) removeAll

end MessageBus.Distributor.SubscriptionRepository
