import MessageBus.Distributor.Notices

/-!
# Notices and the Notify role

A notice names the user, the host and the client of a subscription, so it should go to
holders of the Notify role on its feed. The role is not looked at where a notice is sent,
nor where the request to be notified is handled, so what an interactor learns depends on
what changes while it is among the notifiables.
-/

namespace MessageBus.Distributor
open MessageBus.Base MessageBus.Common MessageBus.Messages

/-- A message is a notice of a subscription to the feed. -/
def IsNoticeOf (f : String) : Message → Prop
  | .forwardedSubscriptionRequest m => m.feed = f
  | _ => False

/-- There is a notice of a feed among some messages exactly if they tell of some client
and topic. -/
theorem exists_isNoticeOf_iff {n : Guid} {f : String} {sends : List (Guid × Message)} :
    (∃ m, (n, m) ∈ sends ∧ IsNoticeOf f m) ↔ ∃ c t, told n c f t sends ≠ [] := by
  constructor
  · rintro ⟨m, hm, hf⟩
    cases m with
    | forwardedSubscriptionRequest m =>
      refine ⟨m.clientId, m.topic, List.ne_nil_of_mem (a := m.isAdd) ?_⟩
      exact List.mem_filterMap.mpr ⟨_, mem_addressed.mpr hm, if_pos ⟨rfl, hf, rfl⟩⟩
    | _ => cases hf
  · rintro ⟨c, t, hne⟩
    obtain ⟨b, hb⟩ := List.exists_mem_of_ne_nil _ hne
    obtain ⟨m, hm, hn⟩ := List.mem_filterMap.mp hb
    refine ⟨m, mem_addressed.mp hm, ?_⟩
    cases m with
    | forwardedSubscriptionRequest m =>
      obtain ⟨⟨-, hf, -⟩, -⟩ := Option.ite_none_right_eq_some.mp hn
      exact hf
    | _ => cases hn

namespace Server

variable (settings : Settings)

/-- The event makes no change to a subscription of the feed that notifiables are told of. -/
def Unannounced (s : Server) (f : String) (e : Event) : Prop :=
  ∀ c t, announced (entryChange settings s e c f t) (s.entry c f t) = []

/-- The feed has no subscriber. -/
def Unsubscribed (s : Server) (f : String) : Prop := ∀ c t, s.entry c f t = none

/-- An event sends an interactor no notice of a feed exactly if the interactor is
notifiable and nothing is announced, or is newly notifiable and there is no subscriber, or
is neither. -/
theorem not_isNoticeOf_iff {s : Server} {e : Event} {n : Guid} {f : String}
    (hd : e.disposes ≠ some n) :
    (∀ m, (n, m) ∈ sends settings s e → ¬ IsNoticeOf f m) ↔
      (s.notificationRepository.IsNotifiable n f → Unannounced settings s f e) ∧
      (asksNotice n f e = some true → ¬ s.notificationRepository.IsNotifiable n f →
        s.Unsubscribed f) := by
  have htold : (∀ m, (n, m) ∈ sends settings s e → ¬ IsNoticeOf f m) ↔
      ∀ c t, told n c f t (sends settings s e) = [] := by
    have hiff : (¬ ∃ m, (n, m) ∈ sends settings s e ∧ IsNoticeOf f m) ↔
        ¬ ∃ c t, told n c f t (sends settings s e) ≠ [] := not_congr exists_isNoticeOf_iff
    simpa only [not_exists, not_and, not_not] using hiff
  rw [htold]
  by_cases hn : s.notificationRepository.IsNotifiable n f
  · have hevent := fun c t => told_of_event settings (.inl hn) c t (e := e)
    simp only [hevent, hn, hd, ne_eq, not_false_eq_true, and_self, if_true, true_implies,
      not_true_eq_false, false_implies, implies_true, and_true]
    rfl
  · by_cases hask : asksNotice n f e = some true
    · have hnew := fun c t b => told_of_new settings hask hn c t (b := b)
      simp only [hn, hask, false_implies, not_false_eq_true, true_implies, true_and]
      apply forall_congr'
      intro c
      apply forall_congr'
      intro t
      rw [List.eq_nil_iff_forall_not_mem, ← Option.not_isSome_iff_eq_none]
      constructor
      · exact fun h hs => h true ((hnew c t true).mpr ⟨rfl, hs⟩)
      · exact fun h b hb => h ((hnew c t b).mp hb).2
    · have hevent := fun c t => told_of_event settings (.inr hask) c t (s := s)
      simp [hevent, hn, hask]

end Server

namespace System

variable (settings : Settings)

/-- Every notice that is queued to an interactor is of a feed on which it holds the Notify
role. -/
def NoticesAllowed (_ : History System Action) (s : System) : Prop :=
  ∀ n f, ∀ m ∈ (s.server.objects n).queued, IsNoticeOf f m → settings.hasRole n f .notify = true

/-- While a live interactor without the Notify role is among the notifiables of a feed, the
step announces no change of its subscriptions, and the feed has no subscriber where it
becomes one of them. -/
def KeepsFromUnallowed (_ : History System Action) (s : System) (a : Action) : Prop :=
  ∀ e n f, s.handled a = some e → settings.hasRole n f .notify = false →
    (s.server.objects n).tokenSource = .live → e.disposes ≠ some n →
    (s.server.notificationRepository.IsNotifiable n f → s.server.Unannounced settings f e) ∧
    (Server.asksNotice n f e = some true → ¬ s.server.notificationRepository.IsNotifiable n f →
      s.server.Unsubscribed f)

-- Notices stay allowed over a step exactly if what it delivers is.
private theorem noticesAllowed_step_iff {h : History System Action} {s s' : System} {a : Action}
    (hp : NoticesAllowed settings h s) (ha : step settings s a = some s') :
    NoticesAllowed settings ((s, a) :: h) s' ↔
      ∀ n f, ∀ m ∈ delivered settings n s a, IsNoticeOf f m →
        settings.hasRole n f .notify = true := by
  simp only [NoticesAllowed, queued_step settings ha, List.mem_append]
  constructor
  · exact fun hall n f m hm => hall n f m (.inr hm)
  · intro hall n f m hm
    rcases hm with hm | hm
    · exact hp n f m hm
    · exact hall n f m hm

-- What a step delivers is allowed exactly if it keeps notices from interactors without the role.
private theorem delivered_allowed_iff {h : History System Action} {s : System} {a : Action} :
    (∀ n f, ∀ m ∈ delivered settings n s a, IsNoticeOf f m →
      settings.hasRole n f .notify = true) ↔ KeepsFromUnallowed settings h s a := by
  constructor
  · intro hall e n f he hrole hlive hd
    rw [← Server.not_isNoticeOf_iff settings hd]
    intro m hm hf
    have hallowed := hall n f m ((mem_delivered settings).mpr ⟨e, he, hlive, hd, hm⟩) hf
    rw [hrole] at hallowed
    cases hallowed
  · intro hg n f m hm hf
    obtain ⟨e, he, hlive, hd, hsent⟩ := (mem_delivered settings).mp hm
    cases hrole : settings.hasRole n f .notify with
    | true => rfl
    | false =>
      have hnone := (Server.not_isNoticeOf_iff settings hd).mpr (hg e n f he hrole hlive hd)
      exact absurd hf (hnone m hsent)

/-- Notices reach only holders of the Notify role throughout a run exactly if every step
keeps them from the notifiables without it. -/
theorem notices_allowed_iff {h : History System Action} {s : System} (hr : Runs settings h s) :
    Always (NoticesAllowed settings) h s ↔ Throughout (KeepsFromUnallowed settings) h := by
  apply Run.always_iff_throughout_of_step hr
  · intro n f m hm
    cases hm
  · intro h r a t _ hp ha
    rw [noticesAllowed_step_iff settings hp ha, delivered_allowed_iff]

/-- The notifiables of every feed hold the Notify role on it. -/
def NotifiablesAllowed (s : Server) : Prop :=
  ∀ n f, s.notificationRepository.IsNotifiable n f → settings.hasRole n f .notify = true

/-- Every request to be notified that the step handles is from a holder of the role. -/
def RequestsAllowed (_ : History System Action) (s : System) (a : Action) : Prop :=
  ∀ e n f, s.handled a = some e → Server.asksNotice n f e = some true →
    settings.hasRole n f .notify = true

/-- If all requests to be notified are from holders of the Notify role, the notifiables
hold it and notices reach no one else. -/
theorem noticesAllowed_of_requestsAllowed {h : History System Action} {s : System}
    (hr : Runs settings h s) (hg : Throughout (RequestsAllowed settings) h) :
    Always (fun _ s => NotifiablesAllowed settings s.server) h s ∧
      Always (NoticesAllowed settings) h s := by
  have hnotifiables : Always (fun _ s => NotifiablesAllowed settings s.server) h s := by
    apply hr.always_of_throughout _ _ hg
    · intro n f hn
      exact absurd hn (NotificationRepository.not_isNotifiable_empty n f)
    · intro h r a t _ hp hg ha n f hn
      rcases step_handled settings ha with ⟨-, hq⟩ | ⟨e, he, -, hserver⟩
      · rw [hq.notifications] at hn
        exact hp n f hn
      · rw [hserver, isNotifiable_onInteractorEvent] at hn
        rcases hn with hask | ⟨-, -, hn⟩
        · exact hg e n f he hask
        · exact hp n f hn
  refine ⟨hnotifiables, (notices_allowed_iff settings hr).mpr ?_⟩
  apply hnotifiables.throughout_of hg
  intro h r a hp hg e n f he hrole _ _
  constructor
  · intro hn
    have hallowed := hp n f hn
    rw [hrole] at hallowed
    cases hallowed
  · intro hask
    have hallowed := hg e n f he hask
    rw [hrole] at hallowed
    cases hallowed

/-- An interactor without the role asks to be notified, and there is nothing to tell. -/
theorem notices_allowed_of_unsubscribed :
    ∃ h s, Runs (.uniform .subscribe false) h s ∧ events h =
        [some (.message ⟨2⟩ (.notificationRequest ⟨"F", true⟩)), none, none,
          some (.connected ⟨2⟩), none] ∧
      Always (NoticesAllowed (.uniform .subscribe false)) h s := by
  obtain ⟨h, s, hr, hobs⟩ := exists_run_of_exec (step (.uniform .subscribe false)) init
    [.accept ⟨2⟩, .process, .checkRead ⟨2⟩, .receive ⟨2⟩ (.notificationRequest ⟨"F", true⟩),
      .process]
    (fun x => (events x.1, x.1.all fun y => y.1.server.subscriptionRepository.cache.isEmpty))
    ([some (.message ⟨2⟩ (.notificationRequest ⟨"F", true⟩)), none, none,
      some (.connected ⟨2⟩), none], true) rfl
  simp only [Prod.mk.injEq, List.all_eq_true] at hobs
  obtain ⟨hevents, hempty⟩ := hobs
  refine ⟨h, s, hr, hevents, (notices_allowed_iff (.uniform .subscribe false) hr).mpr ?_⟩
  have hentry : Throughout (fun _ (r : System) _ => ∀ f, r.server.Unsubscribed f) h := by
    apply throughout_of_forall_mem (G := fun (r : System) _ => ∀ f, r.server.Unsubscribed f)
    intro x hx f c t
    have hcache := Dictionary.eq_empty_of_isEmpty (hempty x hx)
    simp [Server.entry, SubscriptionRepository.entry, SubscriptionRepository.subscribers, hcache]
  have hkept : Throughout (fun _ r a => ∀ e, r.handled a = some e →
      ∀ s c f t, Server.entryChange (.uniform .subscribe false) s e c f t = .keep) h := by
    apply throughout_of_events (G := fun o => ∀ e, o = some e →
      ∀ s c f t, Server.entryChange (.uniform .subscribe false) s e c f t = .keep)
    intro o ho e he s c f t
    subst he
    rw [hevents] at ho
    simp only [List.mem_cons, Option.some.injEq, reduceCtorEq, List.not_mem_nil, or_false,
      false_or] at ho
    rcases ho with rfl | rfl <;> rfl
  apply (hentry.and hkept).imp
  intro _ r a hg e n f he _ _ _
  refine ⟨fun _ c t => ?_, fun _ _ => hg.1 f⟩
  rw [hg.2 e he]
  rfl

/-- An interactor that may only subscribe asks to be notified, and is told of a
subscriber. -/
theorem notice_without_role :
    ¬ ∀ (settings : Settings) h s, Runs settings h s → Always (NoticesAllowed settings) h s := by
  intro hclaim
  obtain ⟨h, s, hr, hobs⟩ := exists_run_of_exec (step (.uniform .subscribe false)) init
    [.accept ⟨1⟩, .accept ⟨2⟩, .process, .process, .checkRead ⟨1⟩,
      .receive ⟨1⟩ (.subscriptionRequest ⟨"F", "T", true⟩), .process, .checkRead ⟨2⟩,
      .receive ⟨2⟩ (.notificationRequest ⟨"F", true⟩), .process]
    (fun x => (x.2.server.objects ⟨2⟩).queued)
    [.forwardedSubscriptionRequest ⟨"user", "host", ⟨1⟩, "F", "T", true⟩] (by decide)
  have hallowed := (hclaim (.uniform .subscribe false) h s hr).last ⟨2⟩ "F"
    (.forwardedSubscriptionRequest ⟨"user", "host", ⟨1⟩, "F", "T", true⟩)
    (by rw [hobs]; exact List.mem_singleton_self _) rfl
  exact absurd hallowed (by decide)

end System

end MessageBus.Distributor
