import MessageBus.Distributor.Steps

/-!
# The notices of a subscription

What the sends of one event tell a notifiable of the subscription of a client.
-/

namespace MessageBus.Distributor
open MessageBus.Base MessageBus.Common MessageBus.Messages

/-- What a message tells a notifiable of a client, feed and topic: an addition or a
removal. -/
def notice (c : Guid) (f t : String) : Message → Option Bool
  | .forwardedSubscriptionRequest m =>
    if m.clientId = c ∧ m.feed = f ∧ m.topic = t then some m.isAdd else none
  | _ => none

/-- What a list of sends tells a notifiable of a client, feed and topic. -/
def told (n c : Guid) (f t : String) (sends : List (Guid × Message)) : List Bool :=
  (addressed n sends).filterMap (notice c f t)

private theorem told_append (n c : Guid) (f t : String) (xs ys : List (Guid × Message)) :
    told n c f t (xs ++ ys) = told n c f t xs ++ told n c f t ys := by
  simp [told]

private theorem told_flatMap {α : Type} (n c : Guid) (f t : String) (xs : List α)
    (sends : α → List (Guid × Message)) :
    told n c f t (xs.flatMap sends) = xs.flatMap fun x => told n c f t (sends x) := by
  rw [told, addressed_flatMap, List.filterMap_flatMap]
  rfl

private theorem told_eq_nil {n c : Guid} {f t : String} {sends : List (Guid × Message)}
    (h : ∀ m, (n, m) ∈ sends → notice c f t m = none) : told n c f t sends = [] := by
  rw [told, List.filterMap_eq_nil_iff]
  exact fun m hm => h m (mem_addressed.mp hm)

namespace Server

variable (settings : Settings)

/-- What a change of an entry should tell the notifiables. -/
def announced : EntryChange → Option SubscriptionState → List Bool
  | .keep, _ => []
  | .add _, _ => [true]
  | .grant _, _ => [true]
  | .remove, _ => [false]
  | .close, entry => if entry.isSome then [false] else []

private theorem told_notices (r : NotificationRepository) (n c i : Guid) (f t : String)
    (request : SubscriptionRequest) : told n c f t (notices settings r i request) =
      if r.IsNotifiable n f ∧ i = c ∧ request.feed = f ∧ request.topic = t then [request.isAdd]
      else [] := by
  rw [told, addressed_notices]
  by_cases hk : i = c ∧ request.feed = f ∧ request.topic = t
  · obtain ⟨rfl, rfl, rfl⟩ := hk
    by_cases hn : r.IsNotifiable n request.feed
    · simp [hn, forwardedRequest, notice]
    · simp [hn]
  · have hn : ¬ (r.IsNotifiable n f ∧ i = c ∧ request.feed = f ∧ request.topic = t) :=
      fun h => hk h.2
    rw [if_neg hn]
    split
    · simp only [forwardedRequest, List.filterMap_cons, notice, if_neg hk, List.filterMap_nil]
    · rfl

private theorem told_noData (n c : Guid) (f t : String) (sends : List (Guid × Message))
    (h : ∀ m, (n, m) ∈ sends → ∃ feed topic, m = noData feed topic) :
    told n c f t sends = [] := by
  apply told_eq_nil
  intro m hm
  obtain ⟨feed, topic, rfl⟩ := h m hm
  rfl

private theorem told_staleSends (s : Server) (n c i : Guid) (f t : String) :
    told n c f t (staleSends s i) = [] := by
  apply told_noData
  intro m hm
  obtain ⟨stale, -, hm⟩ := List.mem_flatMap.mp hm
  obtain ⟨subscriber, -, he⟩ := List.mem_map.mp hm
  cases he
  exact ⟨_, _, rfl⟩

private theorem told_endSends (s : Server) (n c i : Guid) (f t : String) :
    told n c f t (endSends settings s i) =
      if s.notificationRepository.IsNotifiable n f ∧ i ≠ n ∧ i = c then
        announced .close (s.entry c f t)
      else [] := by
  unfold endSends
  rw [told_flatMap]
  simp only [told_notices, NotificationRepository.isNotifiable_removeInteractor]
  by_cases hk : s.notificationRepository.IsNotifiable n f ∧ i ≠ n ∧ i = c
  · obtain ⟨hn, hne, rfl⟩ := hk
    have hkey : (fun ft : FeedTopic => if (n ≠ i ∧ s.notificationRepository.IsNotifiable n f) ∧
        i = i ∧ ft.feed = f ∧ ft.topic = t then [false] else []) =
        fun ft => if ft = ⟨f, t⟩ then [false] else [] := by
      funext ft
      obtain ⟨feed, topic⟩ := ft
      simp [hn, Ne.symm hne]
    have hk : s.notificationRepository.IsNotifiable n f ∧ i ≠ n ∧ i = i := ⟨hn, hne, rfl⟩
    rw [if_pos hk, hkey, flatMap_ite_eq (SubscriptionRepository.nodup_findByInteractor _ _)]
    simp only [SubscriptionRepository.mem_findByInteractor]
    rfl
  · rw [if_neg hk, List.flatMap_eq_nil_iff]
    intro ft _
    rw [if_neg]
    rintro ⟨⟨hne, hn⟩, hi, -, -⟩
    exact hk ⟨hn, Ne.symm hne, hi⟩

private theorem told_responseSends (s : Server) (r : AuthorizationResponse)
    (hr : s.IsRegistered r.clientId) (n c : Guid) (f t : String) :
    told n c f t (responseSends settings s r) =
      if s.notificationRepository.IsNotifiable n f ∧ IsFor r c f t ∧ isDenial r = false then [true]
      else [] := by
  rw [responseSends, if_pos hr]
  cases hd : isDenial r with
  | true =>
    rw [if_pos rfl, if_neg (by simp)]
    apply told_noData
    intro m hm
    cases List.mem_singleton.mp hm
    exact ⟨_, _, rfl⟩
  | false =>
    rw [if_neg Bool.false_ne_true, told_notices]
    simp only [IsFor, and_true]

private theorem mem_told_snapshot {s : Server} {feed : String} {c : Guid} {f t : String}
    {b : Bool} : b ∈ (snapshot settings s feed).filterMap (notice c f t) ↔
      b = true ∧ feed = f ∧ (s.entry c f t).isSome := by
  rw [List.mem_filterMap]
  constructor
  · rintro ⟨m, hm, hb⟩
    obtain ⟨⟨topic, cs⟩, hx, hm⟩ := List.mem_flatMap.mp hm
    obtain ⟨i, hi, rfl⟩ := List.mem_map.mp hm
    obtain ⟨⟨rfl, rfl, rfl⟩, htrue⟩ := Option.ite_none_right_eq_some.mp hb
    exact ⟨(Option.some.inj htrue).symm, rfl,
      SubscriptionRepository.mem_getSubscribersToFeed.mp ⟨cs, hx, hi⟩⟩
  · rintro ⟨rfl, rfl, hs⟩
    obtain ⟨cs, hx, hc⟩ := SubscriptionRepository.mem_getSubscribersToFeed.mpr hs
    refine ⟨forwardedRequest settings c ⟨feed, t, true⟩, ?_, if_pos ⟨rfl, rfl, rfl⟩⟩
    exact List.mem_flatMap.mpr ⟨(t, cs), hx, List.mem_map.mpr ⟨c, hc, rfl⟩⟩

private theorem addressed_map_self (n : Guid) (ms : List Message) :
    addressed n (ms.map fun m => (n, m)) = ms := by
  induction ms with
  | nil => rfl
  | cons m ms ih =>
    simp only [addressed] at ih ⊢
    simp [ih]

/-- A new notifiable is told of every subscriber to its feed. -/
theorem told_of_new {s : Server} {e : Event} {n : Guid} {f : String}
    (ha : asksNotice n f e = some true) (hn : ¬ s.notificationRepository.IsNotifiable n f)
    (c : Guid) (t : String) {b : Bool} :
    b ∈ told n c f t (sends settings s e) ↔ b = true ∧ (s.entry c f t).isSome := by
  obtain ⟨m, rfl, rfl, hadd⟩ : ∃ m, e = .message n (.notificationRequest m) ∧ m.feed = f ∧
      m.isAdd = true := by
    cases e with
    | message i m =>
      cases m with
      | notificationRequest m =>
        obtain ⟨⟨rfl, rfl⟩, hb⟩ := Option.ite_none_right_eq_some.mp ha
        exact ⟨m, rfl, rfl, Option.some.inj hb⟩
      | _ => cases ha
    | _ => cases ha
  rw [sends, notificationSends, if_pos ⟨hadd, hn⟩, told, addressed_map_self, mem_told_snapshot]
  simp

private theorem told_subscriptionSends {s : Server} {i : Guid} {m : SubscriptionRequest}
    (ha : accepted settings s (.message i (.subscriptionRequest m)) = none) (n c : Guid)
    (f t : String) : told n c f t (subscriptionSends settings s i m) =
      if s.notificationRepository.IsNotifiable n f then
        announced (requestChange settings s c f t i m) (s.entry c f t)
      else [] := by
  have hkeep (hk : ¬ (i = c ∧ m.feed = f ∧ m.topic = t)) :
      announced (requestChange settings s c f t i m) (s.entry c f t) = [] := by
    rw [requestChange, if_neg fun h => hk ⟨h.1, h.2.1, h.2.2.1⟩]
    rfl
  have hnotices (isAdd : Bool) (hk : ¬ (i = c ∧ m.feed = f ∧ m.topic = t)) :
      told n c f t (notices settings s.notificationRepository i ⟨m.feed, m.topic, isAdd⟩) = [] := by
    rw [told_notices, if_neg fun h => hk h.2]
  rw [subscriptionSends]
  cases hrole : settings.hasRole i m.feed .subscribe with
  | false =>
    have hchange : requestChange settings s c f t i m = .keep := by
      rw [requestChange, if_neg]
      rintro ⟨rfl, rfl, -, h⟩
      rw [hrole] at h
      cases h
    rw [if_neg Bool.false_ne_true, hchange, announced, ite_self]
    rfl
  | true =>
    rw [if_pos rfl]
    cases hadd : m.isAdd with
    | false =>
      obtain ⟨feed, topic, isAdd⟩ := m
      obtain rfl : isAdd = false := hadd
      rw [if_neg Bool.false_ne_true]
      by_cases hk : i = c ∧ feed = f ∧ topic = t
      · obtain ⟨rfl, rfl, rfl⟩ := hk
        simp [told_notices, requestChange, hrole, announced]
      · rw [hnotices false hk, hkeep hk, ite_self]
    | true =>
      rw [if_pos rfl]
      split
      · next r hcached =>
        have hcached : s.cached i m.feed m.topic = some r := hcached
        by_cases hk : i = c ∧ m.feed = f ∧ m.topic = t
        · obtain ⟨rfl, rfl, rfl⟩ := hk
          simp [told_notices, requestChange, hrole, hadd, hcached, announced]
        · rw [hnotices true hk, hkeep hk, ite_self]
      · next hcached =>
        have hcached : s.cached i m.feed m.topic = none := hcached
        have hchange : requestChange settings s c f t i m = .keep := by
          unfold requestChange
          split
          · next hk =>
            obtain ⟨rfl, rfl, rfl, -⟩ := hk
            simp [hcached]
          · rfl
        rw [hchange, announced, ite_self]
        split
        · apply told_eq_nil
          intro x hx
          obtain ⟨authorizer, -, he⟩ := List.mem_map.mp hx
          cases he
          rfl
        · next hreq =>
          have hr : ¬ s.IsRegistered i := fun hr => by
            rw [accepted, if_pos ⟨hrole, hadd, hcached, by simpa using hreq, hr⟩] at ha
            cases ha
          have hnil : responseSends settings s (automaticGrant i m.feed m.topic) = [] := if_neg hr
          rw [hnil]
          rfl

private theorem told_notificationSends {s : Server} {i n : Guid} {m : NotificationRequest}
    {f : String} (h : s.notificationRepository.IsNotifiable n f ∨
      asksNotice n f (.message i (.notificationRequest m)) ≠ some true) (c : Guid) (t : String) :
    told n c f t (notificationSends settings s i m) = [] := by
  rw [notificationSends]
  split
  · next hnew =>
    by_cases hi : i = n
    · subst hi
      rw [told, addressed_map_self, List.eq_nil_iff_forall_not_mem]
      intro b hb
      obtain ⟨-, rfl, -⟩ := (mem_told_snapshot settings).mp hb
      rcases h with hn | hask
      · exact hnew.2 hn
      · exact hask (by simp [asksNotice, hnew.1])
    · apply told_eq_nil
      intro x hx
      obtain ⟨_, -, he⟩ := List.mem_map.mp hx
      cases he
      exact absurd rfl hi
  · rfl

/-- An event that accepts a response closes no interactor. -/
theorem disposes_of_accepted {s : Server} {e : Event} {r : AuthorizationResponse}
    (h : accepted settings s e = some r) (n : Guid) : e.disposes ≠ some n := by
  cases e with
  | message i m => simp [Event.disposes]
  | _ => cases h

/-- An event tells a notifiable of the change of an entry; a close does not tell the
interactor that it closes. -/
theorem told_of_event {s : Server} {e : Event} {n : Guid} {f : String}
    (h : s.notificationRepository.IsNotifiable n f ∨ asksNotice n f e ≠ some true) (c : Guid)
    (t : String) : told n c f t (sends settings s e) =
      if s.notificationRepository.IsNotifiable n f ∧ e.disposes ≠ some n then
        announced (entryChange settings s e c f t) (s.entry c f t)
      else [] := by
  have hnone (hn : told n c f t (sends settings s e) = [])
      (hk : entryChange settings s e c f t = .keep) : told n c f t (sends settings s e) =
      if s.notificationRepository.IsNotifiable n f ∧ e.disposes ≠ some n then
        announced (entryChange settings s e c f t) (s.entry c f t)
      else [] := by
    rw [hn, hk, announced, ite_self]
  cases ha : accepted settings s e with
  | some r =>
    obtain ⟨hr, -, hsends⟩ := update_of_accepted settings ha
    have hd := disposes_of_accepted settings ha n
    rw [hsends, told_responseSends settings s r hr, entryChange, ha]
    by_cases hk : IsFor r c f t ∧ isDenial r = false
    · simp [hk, hd, announced]
    · have hk' : ¬ (s.notificationRepository.IsNotifiable n f ∧ IsFor r c f t ∧
          isDenial r = false) := fun h => hk h.2
      simp only [if_neg hk', if_neg hk, announced, ite_self]
  | none =>
    have hown : entryChange settings s e c f t = ownChange settings s c f t e := by
      rw [entryChange, ha]
    cases e with
    | connected i => exact hnone rfl hown
    | error i x =>
      rw [hown, sends, told_append, told_staleSends, told_endSends, List.nil_append]
      by_cases hi : i = c
      · simp [ownChange, Event.disposes, hi]
      · simp [ownChange, hi, announced]
    | closed i =>
      rw [hown, sends, told_append, told_staleSends, told_endSends, List.nil_append]
      by_cases hi : i = c
      · simp [ownChange, Event.disposes, hi]
      · simp [ownChange, hi, announced]
    | message i m =>
      cases m with
      | subscriptionRequest m =>
        rw [hown, sends, told_subscriptionSends settings ha]
        simp [ownChange, Event.disposes]
      | notificationRequest m => exact hnone (told_notificationSends settings h c t) hown
      | authorizationResponse r =>
        have hr : ¬ s.IsRegistered r.clientId := fun hr => by
          rw [accepted, if_pos hr] at ha
          cases ha
        refine hnone ?_ hown
        rw [sends, responseSends, if_neg hr]
        rfl
      | multicastData m =>
        refine hnone (told_eq_nil fun x hx => ?_) hown
        obtain ⟨-, hx⟩ := List.mem_ite_nil_right.mp hx
        obtain ⟨_, -, he⟩ := List.mem_map.mp hx
        cases he
        rfl
      | unicastData m =>
        refine hnone (told_eq_nil fun x hx => ?_) hown
        simp only [sends, unicastSends] at hx
        split at hx
        · cases hx
        · obtain ⟨-, hx⟩ := List.mem_ite_nil_right.mp hx
          cases List.mem_singleton.mp hx
          rfl
      | _ => exact hnone rfl hown

end Server

end MessageBus.Distributor
