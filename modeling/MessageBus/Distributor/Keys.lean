import MessageBus.Distributor.Effects

/-!
# What an event does to one key

The state of the distributor seen at one client, feed and topic: the authorization cached
for it, its subscription entry and its write queue. Each is changed by few events;
everything else is framed.
-/

namespace MessageBus.Distributor
open MessageBus.Base MessageBus.Common MessageBus.Messages

/-- The authorization that a response grants. -/
def AuthorizationInfo.ofResponse (r : AuthorizationResponse) : AuthorizationInfo :=
  .new r.isAuthorizationRequired r.entitlements

/-- What an event does to a subscription entry: a request that finds a cached
authorization adds, an accepted response grants. -/
inductive EntryChange where
  | keep
  | add (authorizationInfo : AuthorizationInfo)
  | grant (authorizationInfo : AuthorizationInfo)
  | remove
  | close

/-- The entry that a change leaves. -/
def EntryChange.apply : EntryChange → Option SubscriptionState → Option SubscriptionState
  | keep, entry => entry
  | add info, entry => some (SubscriptionRepository.added entry info false)
  | grant info, entry => some (SubscriptionRepository.added entry info true)
  | remove, entry => SubscriptionRepository.removed entry false
  | close, _ => none

namespace Server

variable (settings : Settings)

/-- The response that an event makes the distributor accept: one that a client sent for a
registered interactor, or the automatic grant. -/
def accepted (s : Server) : Event → Option AuthorizationResponse
  | .message _ (.authorizationResponse r) => if s.IsRegistered r.clientId then some r else none
  | .message c (.subscriptionRequest m) =>
    if settings.hasRole c m.feed .subscribe ∧ m.isAdd ∧ s.cached c m.feed m.topic = none ∧
        settings.distributorRole.isAuthorizationRequired = false ∧ s.IsRegistered c then
      some (automaticGrant c m.feed m.topic)
    else none
  | _ => none

/-- A response is for the client, feed and topic. -/
def IsFor (r : AuthorizationResponse) (c : Guid) (f t : String) : Prop :=
  r.clientId = c ∧ r.feed = f ∧ r.topic = t

/-- Whether a response is for a client and a topic can be computed. -/
instance (r : AuthorizationResponse) (c : Guid) (f t : String) : Decidable (IsFor r c f t) :=
  inferInstanceAs (Decidable (_ ∧ _))

/-- What a request of the client itself does to its entry. -/
def requestChange (s : Server) (c : Guid) (f t : String) (i : Guid) (m : SubscriptionRequest) :
    EntryChange :=
  if i = c ∧ m.feed = f ∧ m.topic = t ∧ settings.hasRole c f .subscribe then
    if m.isAdd then
      match s.cached c f t with
      | some r => .add (.ofResponse r)
      | none => .keep
    else .remove
  else .keep

/-- What an event does to the entry of a client without a response being accepted. -/
def ownChange (s : Server) (c : Guid) (f t : String) : Event → EntryChange
  | .message i (.subscriptionRequest m) => requestChange settings s c f t i m
  | .error i _ => if i = c then .close else .keep
  | .closed i => if i = c then .close else .keep
  | _ => .keep

/-- What an event does to the entry of a client. -/
def entryChange (s : Server) (e : Event) (c : Guid) (f t : String) : EntryChange :=
  match accepted settings s e with
  | some r => if IsFor r c f t ∧ isDenial r = false then .grant (.ofResponse r) else .keep
  | none => ownChange settings s c f t e

/-! ### Accepted responses -/

private theorem entry_responseUpdate (s : Server) (r : AuthorizationResponse) (c : Guid)
    (f t : String) (hr : s.IsRegistered r.clientId) : (responseUpdate s r).entry c f t =
      if IsFor r c f t ∧ isDenial r = false then
        some (SubscriptionRepository.added (s.entry c f t) (.ofResponse r) true)
      else s.entry c f t := by
  rw [responseUpdate, if_pos hr]
  cases hd : isDenial r with
  | true => simp [entry]
  | false =>
    simp only [Bool.false_eq_true, if_false, entry, subscriptionRepository_cacheResponse,
      SubscriptionRepository.entry_addSubscription, and_true]
    by_cases hk : IsFor r c f t
    · obtain ⟨rfl, rfl, rfl⟩ := hk
      simp [IsFor, AuthorizationInfo.ofResponse]
    · rw [if_neg hk, if_neg (fun h => hk ⟨h.1.symm, h.2.1.symm, h.2.2.symm⟩)]

private theorem cached_setAuthorization (s : Server) (r : AuthorizationResponse) (c : Guid)
    (f t : String) : ((s.objects.modify r.clientId
      (·.setAuthorization r.feed r.topic r)) c).tryGetAuthorization f t =
      if IsFor r c f t then some r else s.cached c f t := by
  rw [Interactors.modify_apply]
  by_cases hc : c = r.clientId
  · subst hc
    rw [if_pos rfl, Interactor.tryGetAuthorization_setAuthorization]
    by_cases hk : f = r.feed ∧ t = r.topic
    · obtain ⟨rfl, rfl⟩ := hk
      rw [if_pos ⟨rfl, rfl⟩, if_pos ⟨rfl, rfl, rfl⟩]
    · rw [if_neg hk, if_neg fun h => hk ⟨h.2.1.symm, h.2.2.symm⟩]
      rfl
  · rw [if_neg hc, if_neg fun h => hc h.1.symm]
    rfl

private theorem cached_cacheResponse (s : Server) (r : AuthorizationResponse) (c : Guid)
    (f t : String) : (cacheResponse s r).cached c f t =
      if IsFor r c f t ∧ s.cached c f f = none then some r else s.cached c f t := by
  unfold cacheResponse
  rw [Interactor.hasAuthorization_eq]
  split
  · next hh =>
    rw [if_neg]
    rintro ⟨⟨rfl, rfl, rfl⟩, hn⟩
    rw [cached] at hn
    rw [hn] at hh
    cases hh
  · next hh =>
    rw [cached, cached_setAuthorization]
    by_cases hk : IsFor r c f t
    · have hn : s.cached c f f = none := by
        obtain ⟨rfl, rfl, -⟩ := hk
        exact Option.not_isSome_iff_eq_none.mp hh
      rw [if_pos hk, if_pos ⟨hk, hn⟩]
    · rw [if_neg hk, if_neg fun h => hk h.1]

private theorem cached_responseUpdate (s : Server) (r : AuthorizationResponse) (c : Guid)
    (f t : String) (hr : s.IsRegistered r.clientId) : (responseUpdate s r).cached c f t =
      if IsFor r c f t ∧ s.cached c f f = none then some r else s.cached c f t := by
  rw [← cached_cacheResponse, responseUpdate, if_pos hr]
  simp only
  split <;> rfl

private theorem responseUpdate_of_not_registered {s : Server} {r : AuthorizationResponse}
    (hr : ¬ s.IsRegistered r.clientId) : responseUpdate s r = s := if_neg hr

/-! ### Closing -/

private theorem entry_closeUpdate (s : Server) (i c : Guid) (f t : String) :
    (closeUpdate s i).entry c f t = if i = c then none else s.entry c f t := by
  simp only [entry, closeUpdate, SubscriptionRepository.entry_foldl_removeSubscription]
  by_cases hc : i = c
  · subst hc
    rw [if_pos rfl]
    cases he : s.subscriptionRepository.entry i f t with
    | none => simp
    | some state =>
      have hm : (⟨f, t⟩ : FeedTopic) ∈ s.subscriptionRepository.findByInteractor i := by
        rw [SubscriptionRepository.mem_findByInteractor, he]
        rfl
      rw [if_pos ⟨rfl, hm⟩]
  · rw [if_neg hc, if_neg (fun h => hc h.1.symm)]

/-! ### One event, one key -/

private theorem entryChange_of_accepted {s : Server} {e : Event} {r : AuthorizationResponse}
    (h : accepted settings s e = some r) (c : Guid) (f t : String) :
    entryChange settings s e c f t =
      if IsFor r c f t ∧ isDenial r = false then .grant (.ofResponse r) else .keep := by
  rw [entryChange, h]

private theorem entryChange_of_not_accepted {s : Server} {e : Event}
    (h : accepted settings s e = none) (c : Guid) (f t : String) :
    entryChange settings s e c f t = ownChange settings s c f t e := by
  rw [entryChange, h]

private theorem requestChange_eq {s : Server} {i : Guid} {m : SubscriptionRequest}
    (hrole : settings.hasRole i m.feed .subscribe = true) (c : Guid) (f t : String) :
    requestChange settings s c f t i m =
      if c = i ∧ f = m.feed ∧ t = m.topic then
        if m.isAdd then
          match s.cached i m.feed m.topic with
          | some r => .add (.ofResponse r)
          | none => .keep
        else .remove
      else .keep := by
  unfold requestChange
  by_cases hkey : c = i ∧ f = m.feed ∧ t = m.topic
  · obtain ⟨rfl, rfl, rfl⟩ := hkey
    simp [hrole]
  · rw [if_neg hkey, if_neg]
    rintro ⟨rfl, rfl, rfl, -⟩
    exact hkey ⟨rfl, rfl, rfl⟩

private theorem entry_subscriptionUpdate (s : Server) (i : Guid) (m : SubscriptionRequest)
    (c : Guid) (f t : String) : (subscriptionUpdate settings s i m).entry c f t =
      (entryChange settings s (.message i (.subscriptionRequest m)) c f t).apply
        (s.entry c f t) := by
  rw [subscriptionUpdate]
  cases hrole : settings.hasRole i m.feed .subscribe with
  | false =>
    have hacc : accepted settings s (.message i (.subscriptionRequest m)) = none :=
      if_neg fun h => by rw [hrole] at h; cases h.1
    rw [entryChange_of_not_accepted settings hacc, ownChange, requestChange,
      if_neg Bool.false_ne_true, if_neg]
    · rfl
    · rintro ⟨rfl, rfl, -, h⟩
      rw [hrole] at h
      cases h
  | true =>
    rw [if_pos rfl]
    cases hadd : m.isAdd with
    | false =>
      have hacc : accepted settings s (.message i (.subscriptionRequest m)) = none :=
        if_neg fun h => by rw [hadd] at h; cases h.2.1
      rw [entryChange_of_not_accepted settings hacc, ownChange, requestChange_eq settings hrole,
        hadd, if_neg Bool.false_ne_true, entry, SubscriptionRepository.entry_removeSubscription]
      split
      · next hkey =>
        obtain ⟨rfl, rfl, rfl⟩ := hkey
        rfl
      · rfl
    | true =>
      rw [if_pos rfl]
      split
      · next r hcached =>
        have hcached : s.cached i m.feed m.topic = some r := hcached
        have hacc : accepted settings s (.message i (.subscriptionRequest m)) = none :=
          if_neg fun h => by rw [hcached] at h; cases h.2.2.1
        rw [entryChange_of_not_accepted settings hacc, ownChange, requestChange_eq settings hrole,
          hadd, hcached, entry, SubscriptionRepository.entry_addSubscription]
        split
        · next hkey =>
          obtain ⟨rfl, rfl, rfl⟩ := hkey
          rfl
        · rfl
      · next hcached =>
        have hcached : s.cached i m.feed m.topic = none := hcached
        have hkeep : requestChange settings s c f t i m = .keep := by
          rw [requestChange_eq settings hrole, hcached, hadd]
          split <;> rfl
        split
        · next hreq =>
          have hacc : accepted settings s (.message i (.subscriptionRequest m)) = none :=
            if_neg fun h => by rw [hreq] at h; cases h.2.2.2.1
          rw [entryChange_of_not_accepted settings hacc, ownChange, hkeep]
          rfl
        · next hreq =>
          by_cases hr : s.IsRegistered i
          · have hacc : accepted settings s (.message i (.subscriptionRequest m)) =
                some (automaticGrant i m.feed m.topic) :=
              if_pos ⟨hrole, hadd, hcached, by simpa using hreq, hr⟩
            rw [entryChange_of_accepted settings hacc, entry_responseUpdate s _ c f t hr]
            split <;> rfl
          · have hacc : accepted settings s (.message i (.subscriptionRequest m)) = none :=
              if_neg fun h => hr h.2.2.2.2
            rw [entryChange_of_not_accepted settings hacc, ownChange, hkeep,
              responseUpdate_of_not_registered hr]
            rfl

private theorem subscriptionRepository_onInteractorConnected (s : Server) (i : Guid) :
    (onInteractorConnected settings s i).1.subscriptionRepository =
      s.subscriptionRepository := by
  simp only [onInteractorConnected]
  split
  · rfl
  · split <;> rfl

/-- An event changes an entry as `entryChange` says. -/
theorem entry_update (s : Server) (e : Event) (c : Guid) (f t : String) :
    (update settings s e).entry c f t = (entryChange settings s e c f t).apply (s.entry c f t) := by
  cases e with
  | connected i =>
    simp only [update, entry, subscriptionRepository_onInteractorConnected]
    rfl
  | error i x =>
    rw [update, entry_closeUpdate]
    simp only [entryChange, accepted, ownChange]
    split <;> rfl
  | closed i =>
    rw [update, entry_closeUpdate]
    simp only [entryChange, accepted, ownChange]
    split <;> rfl
  | message i m =>
    cases m with
    | authorizationResponse r =>
      by_cases hr : s.IsRegistered r.clientId
      · have hacc : accepted settings s (.message i (.authorizationResponse r)) = some r :=
          if_pos hr
        rw [update, entry_responseUpdate s r c f t hr, entryChange_of_accepted settings hacc]
        split <;> rfl
      · have hacc : accepted settings s (.message i (.authorizationResponse r)) = none :=
          if_neg hr
        rw [update, responseUpdate_of_not_registered hr, entryChange_of_not_accepted settings hacc]
        rfl
    | subscriptionRequest m => exact entry_subscriptionUpdate settings s i m c f t
    | multicastData m =>
      simp only [update, multicastUpdate]
      split <;> rfl
    | unicastData m =>
      simp only [update, unicastUpdate]
      split
      · rfl
      · split <;> rfl
    | notificationRequest m =>
      simp only [update, notificationUpdate]
      split <;> rfl
    | _ => rfl

/-- An event that has a response accepted does what the response does. -/
theorem update_of_accepted {s : Server} {e : Event} {r : AuthorizationResponse}
    (h : accepted settings s e = some r) :
    s.IsRegistered r.clientId ∧ update settings s e = responseUpdate s r ∧
      sends settings s e = responseSends settings s r := by
  cases e with
  | message i m =>
    cases m with
    | authorizationResponse r' =>
      obtain ⟨hr, ⟨⟩⟩ := Option.ite_none_right_eq_some.mp h
      exact ⟨hr, rfl, rfl⟩
    | subscriptionRequest m =>
      obtain ⟨⟨hrole, hadd, hcached, hreq, hr⟩, ⟨⟩⟩ := Option.ite_none_right_eq_some.mp h
      have hcached : (s.objects i).tryGetAuthorization m.feed m.topic = none := hcached
      refine ⟨hr, ?_, ?_⟩
      · simp only [update, subscriptionUpdate, hrole, hadd, hcached, hreq, if_true]
        rfl
      · simp only [sends, subscriptionSends, hrole, hadd, hcached, hreq, if_true]
        rfl
    | _ => cases h
  | _ => cases h

/-- Without a response a message changes at most the repository that it is about. -/
theorem update_of_not_accepted {s : Server} {i : Guid} {m : Message}
    (h : accepted settings s (.message i m) = none) :
    ∃ notificationRepository publisherRepository subscriptionRepository,
      update settings s (.message i m) = { s with
        notificationRepository, publisherRepository, subscriptionRepository } ∧
      ((∀ request, m ≠ .notificationRequest request) →
        notificationRepository = s.notificationRepository) ∧
      ((∀ data, m ≠ .multicastData data) → (∀ data, m ≠ .unicastData data) →
        publisherRepository = s.publisherRepository) := by
  cases m with
  | authorizationResponse r =>
    have hr : ¬ s.IsRegistered r.clientId := fun hr => by
      rw [accepted, if_pos hr] at h
      cases h
    exact ⟨_, _, _, responseUpdate_of_not_registered hr, fun _ => rfl, fun _ _ => rfl⟩
  | subscriptionRequest m =>
    rw [update, subscriptionUpdate]
    split
    · next hrole =>
      split
      · next hadd =>
        split
        · exact ⟨_, _, _, rfl, fun _ => rfl, fun _ _ => rfl⟩
        · next hcached =>
          split
          · exact ⟨_, _, _, rfl, fun _ => rfl, fun _ _ => rfl⟩
          · next hreq =>
            have hr : ¬ s.IsRegistered i := fun hr => by
              rw [accepted, if_pos ⟨hrole, hadd, hcached, by simpa using hreq, hr⟩] at h
              cases h
            exact ⟨_, _, _, responseUpdate_of_not_registered hr, fun _ => rfl, fun _ _ => rfl⟩
      · exact ⟨_, _, _, rfl, fun _ => rfl, fun _ _ => rfl⟩
    · exact ⟨_, _, _, rfl, fun _ => rfl, fun _ _ => rfl⟩
  | multicastData m =>
    rw [update, multicastUpdate]
    split
    · exact ⟨_, _, _, rfl, fun _ => rfl, fun hm => absurd rfl (hm m)⟩
    · exact ⟨_, _, _, rfl, fun _ => rfl, fun _ _ => rfl⟩
  | unicastData m =>
    rw [update, unicastUpdate]
    split
    · exact ⟨_, _, _, rfl, fun _ => rfl, fun _ _ => rfl⟩
    · split
      · exact ⟨_, _, _, rfl, fun _ => rfl, fun _ hu => absurd rfl (hu m)⟩
      · exact ⟨_, _, _, rfl, fun _ => rfl, fun _ _ => rfl⟩
  | notificationRequest m =>
    rw [update, notificationUpdate]
    split
    · exact ⟨_, _, _, rfl, fun hm => absurd rfl (hm m), fun _ _ => rfl⟩
    · exact ⟨_, _, _, rfl, fun hm => absurd rfl (hm m), fun _ _ => rfl⟩
  | _ => exact ⟨_, _, _, rfl, fun _ => rfl, fun _ _ => rfl⟩

private theorem objects_update_of_not_accepted {s : Server} {i : Guid} {m : Message}
    (h : accepted settings s (.message i m) = none) :
    (update settings s (.message i m)).objects = s.objects := by
  obtain ⟨_, _, _, hu, -⟩ := update_of_not_accepted settings h
  rw [hu]

private theorem object_cacheResponse (s : Server) (r : AuthorizationResponse) (c : Guid) :
    ∃ a, (cacheResponse s r).objects c = { s.objects c with authorizations := a } := by
  unfold cacheResponse
  split
  · exact ⟨_, rfl⟩
  · simp only [Interactors.modify_apply]
    split
    · exact ⟨_, rfl⟩
    · exact ⟨_, rfl⟩

private theorem object_responseUpdate (s : Server) (r : AuthorizationResponse) (c : Guid) :
    ∃ a, (responseUpdate s r).objects c = { s.objects c with authorizations := a } := by
  unfold responseUpdate
  split
  · simp only
    split
    · exact object_cacheResponse s r c
    · exact object_cacheResponse s r c
  · exact ⟨_, rfl⟩

/-- An update leaves the queue, the token and the tasks of an interactor alone, unless it
starts or disposes the interactor. -/
theorem object_update (s : Server) (e : Event) (c : Guid) (hd : e.disposes ≠ some c)
    (hc : e ≠ .connected c) :
    ∃ a, (update settings s e).objects c = { s.objects c with authorizations := a } := by
  cases h : accepted settings s e with
  | some r =>
    rw [(update_of_accepted settings h).2.1]
    exact object_responseUpdate s r c
  | none =>
    cases e with
    | connected i =>
      have hci : c ≠ i := fun hci => hc (hci ▸ rfl)
      refine ⟨(s.objects c).authorizations, ?_⟩
      simp only [update, onInteractorConnected]
      split
      · rfl
      · split
        · rfl
        · exact if_neg hci
    | error i x =>
      have hci : c ≠ i := fun hci => hd (hci ▸ rfl)
      exact ⟨_, if_neg hci⟩
    | closed i =>
      have hci : c ≠ i := fun hci => hd (hci ▸ rfl)
      exact ⟨_, if_neg hci⟩
    | message i m => exact ⟨_, by rw [objects_update_of_not_accepted settings h]⟩

/-- The event that closes an interactor disposes it. -/
theorem object_update_of_disposes (s : Server) {e : Event} {c : Guid}
    (hd : e.disposes = some c) : (update settings s e).objects c = (s.objects c).dispose := by
  cases e with
  | error i x =>
    obtain rfl := Option.some.inj hd
    exact if_pos rfl
  | closed i =>
    obtain rfl := Option.some.inj hd
    exact if_pos rfl
  | _ => cases hd

/-- The event that connects a new interactor starts its tasks. -/
theorem object_update_of_connected (s : Server) {c : Guid} (hr : ¬ s.IsRegistered c)
    (ht : (s.objects c).tokenSource = .live) (hread : (s.objects c).readTask = .unstarted)
    (hwrite : (s.objects c).writeTask = .unstarted) :
    (update settings s (.connected c)).objects c =
      { s.objects c with readTask := .checking, writeTask := .checking } ∧
    (onInteractorEvent settings s (.connected c)).2 = none := by
  have hn : c ∉ s.interactorRepository.interactors := hr
  simp only [update, onInteractorEvent, onInteractorConnected, InteractorRepository.add,
    if_neg hn, startInteractor, ht, hread, hwrite]
  exact ⟨if_pos rfl, trivial⟩

/-- An update leaves the queue and the token of an interactor alone, unless it disposes the
interactor. -/
theorem queued_update (s : Server) {e : Event} {c : Guid} (hd : e.disposes ≠ some c) :
    ((update settings s e).objects c).queued = (s.objects c).queued ∧
      ((update settings s e).objects c).tokenSource = (s.objects c).tokenSource := by
  by_cases hc : e = .connected c
  · subst hc
    simp only [update, onInteractorConnected]
    split
    · exact ⟨rfl, rfl⟩
    · split
      · exact ⟨rfl, rfl⟩
      · next i hi =>
        simp only [Interactors.modify_apply, if_true]
        unfold startInteractor at hi
        split at hi
        · next ht _ _ =>
          cases hi
          exact ⟨rfl, ht.symm ▸ rfl⟩
        · cases hi
  · obtain ⟨authorizations, ho⟩ := object_update settings s e c hd hc
    rw [ho]
    exact ⟨rfl, rfl⟩

/-- An accepted response is cached where nothing is cached under the feed as a topic. -/
theorem cached_update (s : Server) (e : Event) (c : Guid) (f t : String) :
    (update settings s e).cached c f t =
      match accepted settings s e with
      | some r => if IsFor r c f t ∧ s.cached c f f = none then some r else s.cached c f t
      | none => s.cached c f t := by
  cases h : accepted settings s e with
  | some r =>
    obtain ⟨hr, hu, -⟩ := update_of_accepted settings h
    rw [hu]
    exact cached_responseUpdate s r c f t hr
  | none =>
    have hkeep (i : Interactor) (hi : i.authorizations = (s.objects c).authorizations) :
        i.tryGetAuthorization f t = (s.objects c).tryGetAuthorization f t := by
      rw [Interactor.tryGetAuthorization, hi]
      rfl
    refine hkeep _ ?_
    cases e with
    | connected i =>
      simp only [update, onInteractorConnected]
      split
      · rfl
      · split
        · rfl
        · next i' hi' =>
          simp only [Interactors.modify_apply]
          split
          · next hci =>
            subst hci
            unfold startInteractor at hi'
            split at hi'
            · cases hi'
              rfl
            · cases hi'
          · rfl
    | error i x =>
      simp only [update, closeUpdate, Interactors.modify_apply]
      split <;> rfl
    | closed i =>
      simp only [update, closeUpdate, Interactors.modify_apply]
      split <;> rfl
    | message i m => rw [objects_update_of_not_accepted settings h]

end Server

end MessageBus.Distributor
