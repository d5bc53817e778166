import MessageBus.Distributor.Keys

/-!
# Who is registered

Which interactors an event leaves registered, notifiable on a feed, or known as a
publisher on a topic.
-/

namespace MessageBus.Distributor
open MessageBus.Base MessageBus.Common MessageBus.Messages

namespace Server

variable (settings : Settings)

private theorem repositories_responseUpdate (s : Server) (r : AuthorizationResponse) :
    (responseUpdate s r).interactorRepository = s.interactorRepository ∧
    (responseUpdate s r).notificationRepository = s.notificationRepository ∧
    (responseUpdate s r).publisherRepository = s.publisherRepository := by
  unfold responseUpdate
  split
  · simp only
    split <;> simp
  · simp

/-- A message registers no interactor and removes none. -/
theorem interactorRepository_update (s : Server) (i : Guid) (m : Message) :
    (update settings s (.message i m)).interactorRepository = s.interactorRepository := by
  cases h : accepted settings s (.message i m) with
  | some r =>
    rw [(update_of_accepted settings h).2.1]
    exact (repositories_responseUpdate s r).1
  | none =>
    obtain ⟨_, _, _, hu, -⟩ := update_of_not_accepted settings h
    rw [hu]

/-- A connection adds the interactor to the repository, whatever is thrown. -/
theorem interactorRepository_onInteractorConnected (s : Server) (i : Guid) :
    (onInteractorConnected settings s i).1.interactorRepository =
      (s.interactorRepository.add settings i).1 := by
  simp only [onInteractorConnected]
  split
  · rfl
  · split <;> rfl

/-- An interactor is registered by its connection and until it is closed. -/
theorem isRegistered_update (s : Server) (e : Event) (c : Guid) :
    (update settings s e).IsRegistered c ↔
      e.disposes ≠ some c ∧ (e = .connected c ∨ s.IsRegistered c) := by
  cases e with
  | connected i =>
    simp only [update, IsRegistered, Event.disposes, Event.connected.injEq,
      interactorRepository_onInteractorConnected, InteractorRepository.add]
    split
    · next hr =>
      constructor
      · exact fun h => ⟨by simp, .inr h⟩
      · rintro ⟨-, rfl | h⟩
        · exact hr
        · exact h
    · simp [HashSet.mem_add, eq_comm]
  | error i x => simp [update, closeUpdate, IsRegistered, InteractorRepository.remove,
      Event.disposes, HashSet.mem_remove, eq_comm]
  | closed i => simp [update, closeUpdate, IsRegistered, InteractorRepository.remove,
      Event.disposes, HashSet.mem_remove, eq_comm]
  | message i m => simp [IsRegistered, interactorRepository_update, Event.disposes]

/-- The index lists an interactor from its connection and until it is closed. -/
theorem indexed_update {s : Server} {e : Event} {c : Guid}
    (h : (update settings s e).interactorRepository.Indexed c) :
    e.disposes ≠ some c ∧ (e = .connected c ∨ s.interactorRepository.Indexed c) := by
  cases e with
  | connected i =>
    refine ⟨by simp [Event.disposes], ?_⟩
    rw [update, interactorRepository_onInteractorConnected] at h
    rcases InteractorRepository.indexed_add h with rfl | hi
    · exact .inl rfl
    · exact .inr hi
  | error i x =>
    obtain ⟨hn, hi⟩ := InteractorRepository.indexed_remove h
    exact ⟨fun hd => hn (Option.some.inj hd).symm, .inr hi⟩
  | closed i =>
    obtain ⟨hn, hi⟩ := InteractorRepository.indexed_remove h
    exact ⟨fun hd => hn (Option.some.inj hd).symm, .inr hi⟩
  | message i m =>
    rw [interactorRepository_update] at h
    exact ⟨by simp [Event.disposes], .inr h⟩

/-! ### Notifiables and publishers -/

/-- A request of the interactor to be notified on the feed, or not to be. -/
def asksNotice (n : Guid) (f : String) : Event → Option Bool
  | .message i (.notificationRequest m) => if i = n ∧ m.feed = f then some m.isAdd else none
  | _ => none

private theorem notificationRepository_update (s : Server) (i : Guid) (m : Message)
    (hm : ∀ request, m ≠ .notificationRequest request) :
    (update settings s (.message i m)).notificationRepository = s.notificationRepository := by
  cases h : accepted settings s (.message i m) with
  | some r =>
    rw [(update_of_accepted settings h).2.1]
    exact (repositories_responseUpdate s r).2.1
  | none =>
    obtain ⟨_, _, _, hu, hn, -⟩ := update_of_not_accepted settings h
    rw [hu]
    exact hn hm

/-- An interactor is notifiable from its request to be, until it asks not to be or is
closed. -/
theorem isNotifiable_update (s : Server) (e : Event) (n : Guid) (f : String) :
    (update settings s e).notificationRepository.IsNotifiable n f ↔
      asksNotice n f e = some true ∨ asksNotice n f e = none ∧
        e.disposes ≠ some n ∧ s.notificationRepository.IsNotifiable n f := by
  cases e with
  | connected i =>
    have hn : (update settings s (.connected i)).notificationRepository =
        s.notificationRepository := by
      simp only [update, onInteractorConnected]
      split
      · rfl
      · split <;> rfl
    simp [hn, asksNotice, Event.disposes]
  | error i x => simp [update, closeUpdate, NotificationRepository.isNotifiable_removeInteractor,
      asksNotice, Event.disposes, eq_comm]
  | closed i => simp [update, closeUpdate, NotificationRepository.isNotifiable_removeInteractor,
      asksNotice, Event.disposes, eq_comm]
  | message i m =>
    by_cases hm : ∃ request, m = .notificationRequest request
    · obtain ⟨request, rfl⟩ := hm
      simp only [update, notificationUpdate, asksNotice, Event.disposes]
      have hcomm : (n = i ∧ f = request.feed) ↔ (i = n ∧ request.feed = f) :=
        and_congr eq_comm eq_comm
      cases hadd : request.isAdd with
      | true =>
        simp only [if_true, NotificationRepository.isNotifiable_addRequest, hcomm]
        by_cases hk : i = n ∧ request.feed = f
        · simp [hk]
        · simp [hk]
      | false =>
        simp only [Bool.false_eq_true, if_false, NotificationRepository.isNotifiable_removeRequest,
          hcomm]
        by_cases hk : i = n ∧ request.feed = f
        · simp [hk]
        · simp [hk]
    · have hm : ∀ request, m ≠ .notificationRequest request := fun r hr => hm ⟨r, hr⟩
      have hask : asksNotice n f (.message i m) = none := by
        cases m with
        | notificationRequest request => exact absurd rfl (hm request)
        | _ => rfl
      rw [notificationRepository_update settings s i m hm, hask]
      simp [Event.disposes]

/-- A publication that the distributor passes on, and so records. -/
def publishes (s : Server) (p : Guid) (ft : FeedTopic) : Event → Prop
  | .message i (.multicastData m) => i = p ∧ ft = ⟨m.feed, m.topic⟩ ∧
    settings.hasRole p m.feed .publish = true ∧
    s.subscriptionRepository.getSubscribersToFeedAndTopic m.feed m.topic ≠ []
  | .message i (.unicastData m) => i = p ∧ ft = ⟨m.feed, m.topic⟩ ∧
    settings.hasRole p m.feed .publish = true ∧ s.unicastTarget m ≠ none
  | _ => False

private theorem hasPublished_foldl {r : PublisherRepository} {p p' : Guid} {feed topic : String}
    {ft : FeedTopic} (subscribers : List (Guid × AuthorizationInfo)) :
    (subscribers.foldl (fun r _ => r.addPublisher p feed topic) r).HasPublished p' ft ↔
      (ft = ⟨feed, topic⟩ ∧ p' = p ∧ subscribers ≠ []) ∨ r.HasPublished p' ft := by
  induction subscribers generalizing r with
  | nil => simp
  | cons subscriber subscribers ih =>
    rw [List.foldl_cons, ih, PublisherRepository.hasPublished_addPublisher]
    by_cases hk : ft = ⟨feed, topic⟩ ∧ p' = p
    · simp [hk]
    · have hk' : ∀ h : Prop, ¬ (ft = ⟨feed, topic⟩ ∧ p' = p ∧ h) := fun h hh => hk ⟨hh.1, hh.2.1⟩
      simp [hk, hk']

/-- An interactor has published on a topic from its first publication that was passed on
until it is closed. -/
theorem hasPublished_update (s : Server) (e : Event) (p : Guid) (ft : FeedTopic) :
    (update settings s e).publisherRepository.HasPublished p ft ↔
      publishes settings s p ft e ∨
      e.disposes ≠ some p ∧ s.publisherRepository.HasPublished p ft := by
  cases e with
  | connected i =>
    have hn : (update settings s (.connected i)).publisherRepository =
        s.publisherRepository := by
      simp only [update, onInteractorConnected]
      split
      · rfl
      · split <;> rfl
    simp [hn, publishes, Event.disposes]
  | error i x => simp [update, closeUpdate, PublisherRepository.hasPublished_removePublisher,
      publishes, Event.disposes, eq_comm]
  | closed i => simp [update, closeUpdate, PublisherRepository.hasPublished_removePublisher,
      publishes, Event.disposes, eq_comm]
  | message i m =>
    cases m with
    | multicastData m =>
      simp only [update, multicastUpdate, publishes, Event.disposes]
      cases hrole : settings.hasRole i m.feed .publish with
      | true =>
        simp only [if_true, hasPublished_foldl]
        refine or_congr ?_ (by simp)
        constructor
        · rintro ⟨hft, rfl, hs⟩
          exact ⟨rfl, hft, hrole, hs⟩
        · rintro ⟨rfl, hft, -, hs⟩
          exact ⟨hft, rfl, hs⟩
      | false =>
        have hk : ¬ (i = p ∧ ft = ⟨m.feed, m.topic⟩ ∧ settings.hasRole p m.feed .publish = true ∧
            s.subscriptionRepository.getSubscribersToFeedAndTopic m.feed m.topic ≠ []) := by
          rintro ⟨rfl, -, h, -⟩
          rw [hrole] at h
          cases h
        simp [hk]
    | unicastData m =>
      simp only [update, unicastUpdate, publishes, Event.disposes]
      cases ht : s.unicastTarget m with
      | none => simp
      | some target =>
        cases hrole : settings.hasRole i m.feed .publish with
        | true =>
          simp only [if_true, PublisherRepository.hasPublished_addPublisher]
          refine or_congr ?_ (by simp)
          constructor
          · rintro ⟨hft, rfl⟩
            exact ⟨rfl, hft, hrole, by simp⟩
          · rintro ⟨rfl, hft, -, -⟩
            exact ⟨hft, rfl⟩
        | false =>
          have hk : ¬ (i = p ∧ ft = ⟨m.feed, m.topic⟩ ∧
              settings.hasRole p m.feed .publish = true) := by
            rintro ⟨rfl, -, h⟩
            rw [hrole] at h
            cases h
          simp [hk]
    | _ =>
      cases h : accepted settings s (.message i _) with
      | some r =>
        rw [(update_of_accepted settings h).2.1, (repositories_responseUpdate s r).2.2]
        simp [publishes, Event.disposes]
      | none =>
        obtain ⟨_, _, _, hu, -, hp⟩ := update_of_not_accepted settings h
        rw [hu, hp (by simp) (by simp)]
        simp [publishes, Event.disposes]

end Server

end MessageBus.Distributor
