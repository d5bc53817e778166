import MessageBus.Distributor.Steps

/-!
# What a close leaves behind

Closing an interactor removes it from every repository. Messages that it sent before may
still be on the event queue, behind the event that closes it: some of their handlers find
that it is gone, and some put it back.
-/

namespace MessageBus.Distributor
open MessageBus.Base MessageBus.Common MessageBus.Messages

namespace Server

variable (settings : Settings)

/-- The interactor is in none of the repositories. -/
structure Absent (s : Server) (c : Guid) : Prop where
  registered : ¬ s.IsRegistered c
  indexed : ¬ s.interactorRepository.Indexed c
  entry : ∀ f t, s.entry c f t = none
  notifiable : ∀ f, ¬ s.notificationRepository.IsNotifiable c f
  published : ∀ ft, ¬ s.publisherRepository.HasPublished c ft

/-- The event is not one by which an interactor that is gone comes back: a request to
subscribe that finds an authorization, a request to be notified, or a publication that is
passed on. -/
structure Harmless (s : Server) (c : Guid) (e : Event) : Prop where
  subscribe : ∀ f t, e = .message c (.subscriptionRequest ⟨f, t, true⟩) →
    settings.hasRole c f .subscribe = true → s.cached c f t = none
  notify : ∀ f, e ≠ .message c (.notificationRequest ⟨f, true⟩)
  multicast : ∀ m, e = .message c (.multicastData m) →
    settings.hasRole c m.feed .publish = true →
    s.subscriptionRepository.getSubscribersToFeedAndTopic m.feed m.topic = []
  unicast : ∀ m, e = .message c (.unicastData m) →
    settings.hasRole c m.feed .publish = true → s.unicastTarget m = none

private theorem asksNotice_eq_true_iff {c : Guid} {f : String} {e : Event} :
    asksNotice c f e = some true ↔ e = .message c (.notificationRequest ⟨f, true⟩) := by
  constructor
  · intro h
    cases e with
    | message i m =>
      cases m with
      | notificationRequest m =>
        obtain ⟨feed, isAdd⟩ := m
        obtain ⟨⟨rfl, rfl⟩, ⟨⟩⟩ := Option.ite_none_right_eq_some.mp h
        rfl
      | _ => cases h
    | _ => cases h
  · rintro rfl
    exact if_pos ⟨rfl, rfl⟩

private theorem publishes_iff {s : Server} {c : Guid} {e : Event} :
    (∃ ft, publishes settings s c ft e) ↔
      (∃ m, e = .message c (.multicastData m) ∧ settings.hasRole c m.feed .publish = true ∧
        s.subscriptionRepository.getSubscribersToFeedAndTopic m.feed m.topic ≠ []) ∨
      ∃ m, e = .message c (.unicastData m) ∧ settings.hasRole c m.feed .publish = true ∧
        s.unicastTarget m ≠ none := by
  constructor
  · rintro ⟨ft, h⟩
    cases e with
    | message i m =>
      cases m with
      | multicastData m =>
        obtain ⟨rfl, -, hrole, hs⟩ := h
        exact .inl ⟨m, rfl, hrole, hs⟩
      | unicastData m =>
        obtain ⟨rfl, -, hrole, hs⟩ := h
        exact .inr ⟨m, rfl, hrole, hs⟩
      | _ => cases h
    | _ => cases h
  · rintro (⟨m, rfl, hrole, hs⟩ | ⟨m, rfl, hrole, hs⟩)
    · exact ⟨_, rfl, rfl, hrole, hs⟩
    · exact ⟨_, rfl, rfl, hrole, hs⟩

private theorem not_publishes_iff {s : Server} {c : Guid} {e : Event} :
    (∀ ft, ¬ publishes settings s c ft e) ↔
      (∀ m, e = .message c (.multicastData m) → settings.hasRole c m.feed .publish = true →
        s.subscriptionRepository.getSubscribersToFeedAndTopic m.feed m.topic = []) ∧
      ∀ m, e = .message c (.unicastData m) → settings.hasRole c m.feed .publish = true →
        s.unicastTarget m = none := by
  rw [← not_exists, publishes_iff]
  simp only [not_or, not_exists, not_and, not_not]

/-- The event that closes an interactor leaves it in no repository. -/
theorem absent_of_disposes (s : Server) {c : Guid} {e : Event} (hd : e.disposes = some c) :
    (onInteractorEvent settings s e).1.Absent c := by
  constructor
  · rw [System.isRegistered_onInteractorEvent]
    exact fun h => h.1 hd
  · rw [onInteractorEvent_eq]
    exact fun h => (indexed_update settings h).1 hd
  · intro f t
    rw [System.entry_onInteractorEvent, System.entryChange_of_disposes settings s hd]
    rfl
  · intro f
    rw [System.isNotifiable_onInteractorEvent, asksNotice_eq_true_iff]
    rintro (rfl | h)
    · cases hd
    · exact h.2.1 hd
  · intro ft
    rw [System.hasPublished_onInteractorEvent]
    rintro (h | h)
    · cases e with
      | message i m => cases hd
      | _ => cases h
    · exact h.1 hd

/-- An interactor that is gone stays gone exactly if the event is harmless. -/
theorem absent_iff_harmless {s : Server} {c : Guid} {e : Event} (ha : s.Absent c)
    (hc : e ≠ .connected c) (hd : e.disposes ≠ some c) :
    (onInteractorEvent settings s e).1.Absent c ↔ Harmless settings s c e := by
  have hpublished : (∀ ft, ¬ (onInteractorEvent settings s e).1.publisherRepository.HasPublished
      c ft) ↔ ∀ ft, ¬ publishes settings s c ft e := by
    refine forall_congr' fun ft => not_congr ?_
    rw [System.hasPublished_onInteractorEvent]
    exact or_iff_left fun h => ha.published ft h.2
  rw [not_publishes_iff] at hpublished
  constructor
  · intro h
    obtain ⟨hmulticast, hunicast⟩ := hpublished.mp h.published
    refine ⟨?_, ?_, hmulticast, hunicast⟩
    · rintro f t rfl hrole
      have hentry := h.entry f t
      rw [System.entry_onInteractorEvent] at hentry
      cases hcached : s.cached c f t with
      | none => rfl
      | some r =>
        rw [System.entryChange_of_add settings hrole hcached] at hentry
        cases hentry
    · rintro f rfl
      apply h.notifiable f
      rw [System.isNotifiable_onInteractorEvent, asksNotice_eq_true_iff]
      exact .inl rfl
  · intro h
    refine ⟨?_, ?_, ?_, ?_, hpublished.mpr ⟨h.multicast, h.unicast⟩⟩
    · rw [System.isRegistered_onInteractorEvent]
      rintro ⟨-, hcon | hreg⟩
      · exact hc hcon
      · exact ha.registered hreg
    · rw [onInteractorEvent_eq]
      intro hi
      rcases (indexed_update settings hi).2 with hcon | hindexed
      · exact hc hcon
      · exact ha.indexed hindexed
    · intro f t
      rw [System.entry_onInteractorEvent, ha.entry f t]
      rcases System.entryChange_cases settings s e c f t with ⟨r, hx, hk, -⟩ |
        ⟨r, rfl, hrole, hcached, -⟩ | ⟨-, -, hchange⟩ | ⟨hd', -⟩ | hchange
      · exact absurd (hk.1 ▸ (update_of_accepted settings hx).1) ha.registered
      · rw [h.subscribe f t rfl hrole] at hcached
        cases hcached
      · rw [hchange]
        rfl
      · exact absurd hd' hd
      · rw [hchange]
        rfl
    · intro f
      rw [System.isNotifiable_onInteractorEvent, asksNotice_eq_true_iff]
      rintro (he | hn)
      · exact h.notify f he
      · exact ha.notifiable f hn.2.2

end Server

namespace System

variable (settings : Settings)

/-- The event that closes the interactor has been handled. -/
def Closed (c : Guid) (h : History System Action) : Prop :=
  ∃ x ∈ h, ∃ e, x.1.handled x.2 = some e ∧ e.disposes = some c

/-- Once it has been closed, the interactor is in no repository. -/
def LeavesNoTrace (c : Guid) (h : History System Action) (s : System) : Prop :=
  Closed c h → s.server.Absent c

/-- Once the interactor has been closed, the step handles no event by which it comes
back. -/
def HarmlessAfterClose (c : Guid) (h : History System Action) (s : System) (a : Action) : Prop :=
  Closed c h → ∀ e, s.handled a = some e → Server.Harmless settings s.server c e

/-- An interactor has been closed by the last step, or before. -/
theorem closed_cons {c : Guid} {h : History System Action} {s : System} {a : Action} :
    Closed c ((s, a) :: h) ↔
      (∃ e, s.handled a = some e ∧ e.disposes = some c) ∨ Closed c h := by
  unfold Closed
  simp only [List.mem_cons, exists_eq_or_imp]

/-- An interactor that was closed has been started. -/
theorem started_of_closed {c : Guid} {h : History System Action} {s : System}
    (hr : Runs settings h s) (hc : Closed c h) : (s.server.objects c).readTask ≠ .unstarted := by
  induction hr with
  | start =>
    obtain ⟨x, hx, -⟩ := hc
    cases hx
  | next hr ha ih =>
    next h r t a =>
    rcases step_handled settings ha with ⟨hn, hq⟩ | ⟨e, he, hmem, hserver⟩
    · rcases closed_cons.mp hc with ⟨e, he, -⟩ | hc
      · rw [hn] at he
        cases he
      · exact fun hu => ih hc ((hq.object c).unread.mp hu)
    · rw [hserver]
      rcases closed_cons.mp hc with ⟨e', he', hd⟩ | hc
      · rw [he] at he'
        cases he'
        rw [(tasks_of_disposes settings r.server hd).1]
        exact ReadTask.noConfusion
      · exact started_of_started settings (Runs.lifecycle settings hr) hmem (ih hc)

/-- What is absent stays absent in a quiet step. -/
theorem absent_of_quiet {s s' : Server} (h : Quiet s s') {c : Guid} (ha : s.Absent c) :
    s'.Absent c := by
  constructor
  · rw [h.isRegistered]
    exact ha.registered
  · rw [h.interactors]
    exact ha.indexed
  · intro f t
    rw [h.entry]
    exact ha.entry f t
  · rw [h.notifications]
    exact ha.notifiable
  · rw [h.publishers]
    exact ha.published

private theorem harmless_of_disposes {s : Server} {c : Guid} {e : Event}
    (hd : e.disposes = some c) : Server.Harmless settings s c e := by
  constructor
  · rintro f t rfl
    cases hd
  · rintro f rfl
    cases hd
  · rintro m rfl
    cases hd
  · rintro m rfl
    cases hd

/-- A closed interactor leaves no trace throughout a run exactly if all events handled
after its close are harmless. -/
theorem leaves_no_trace_iff (c : Guid) {h : History System Action} {s : System}
    (hr : Runs settings h s) :
    Always (LeavesNoTrace c) h s ↔ Throughout (HarmlessAfterClose settings c) h := by
  apply Run.always_iff_throughout_of_step hr
  · rintro ⟨x, hx, -⟩
    cases hx
  intro h r a t hr hp ha
  rcases step_handled settings ha with ⟨hn, hq⟩ | ⟨e, he, hmem, hserver⟩
  · refine iff_of_true ?_ fun _ e he => (by rw [hn] at he; cases he)
    intro hc
    rcases closed_cons.mp hc with ⟨e, he, -⟩ | hc
    · rw [hn] at he
      cases he
    · exact absent_of_quiet hq (hp hc)
  by_cases hd : e.disposes = some c
  · refine iff_of_true (fun _ => hserver ▸ Server.absent_of_disposes settings r.server hd) ?_
    intro _ e' he'
    rw [he] at he'
    cases he'
    exact harmless_of_disposes settings hd
  have hclosed : Closed c ((r, a) :: h) ↔ Closed c h := by
    rw [closed_cons]
    apply or_iff_right
    rintro ⟨e', he', hd'⟩
    rw [he] at he'
    cases he'
    exact hd hd'
  by_cases hc : Closed c h
  · -- The interactor is gone, and it was started, so no event connects it.
    have hcon : e ≠ .connected c := by
      rintro rfl
      exact started_of_closed settings hr hc ((Runs.lifecycle settings hr).connecting c hmem).2
    have hiff := Server.absent_iff_harmless settings (hp hc) hcon hd
    rw [← hserver] at hiff
    constructor
    · intro hnext _ e' he'
      rw [he] at he'
      cases he'
      exact hiff.mp (hnext (hclosed.mpr hc))
    · intro hg _
      exact hiff.mpr (hg hc e he)
  · exact iff_of_true (fun hc' => absurd (hclosed.mp hc') hc) fun hc' => absurd hc' hc

/-- An interactor that is closed for a failed write leaves no trace, if the message that
it had still sent is a request to unsubscribe. -/
theorem leaves_no_trace_of_remove :
    ∃ h s, Runs (.permissive true) h s ∧ events h =
        [some (.message ⟨1⟩ (.subscriptionRequest ⟨"F", "T", false⟩)),
          some (.error ⟨1⟩ (.io true)), none, none, none, none, none, none, none,
          some (.message ⟨1⟩ (.authorizationResponse ⟨⟨1⟩, "F", "T", true, none⟩)), none, none,
          some (.connected ⟨1⟩), none] ∧
      Always (LeavesNoTrace ⟨1⟩) h s := by
  obtain ⟨h, s, hr, he⟩ := exists_run_of_exec (step (.permissive true)) init
    [.accept ⟨1⟩, .process, .checkRead ⟨1⟩,
      .receive ⟨1⟩ (.authorizationResponse ⟨⟨1⟩, "F", "T", true, none⟩), .process, .checkRead ⟨1⟩,
      .checkWrite ⟨1⟩, .writeError ⟨1⟩ (.io true),
      .receive ⟨1⟩ (.subscriptionRequest ⟨"F", "T", false⟩), .endWrite ⟨1⟩, .checkRead ⟨1⟩,
      .endRead ⟨1⟩, .process, .process]
    (fun x => events x.1)
    [some (.message ⟨1⟩ (.subscriptionRequest ⟨"F", "T", false⟩)),
      some (.error ⟨1⟩ (.io true)), none, none, none, none, none, none, none,
      some (.message ⟨1⟩ (.authorizationResponse ⟨⟨1⟩, "F", "T", true, none⟩)), none, none,
      some (.connected ⟨1⟩), none] rfl
  have he : events h = _ := he
  have hharmless : ∀ x ∈ h, ∀ e, x.1.handled x.2 = some e →
      Server.Harmless (.permissive true) x.1.server ⟨1⟩ e := by
    intro x hx e hxe
    have hmem : some e ∈ events h := hxe ▸ List.mem_map_of_mem hx
    rw [he] at hmem
    simp only [List.mem_cons, Option.some.injEq, reduceCtorEq, List.not_mem_nil, or_false,
      false_or] at hmem
    rcases hmem with rfl | rfl | rfl | rfl <;> constructor <;> simp
  refine ⟨h, s, hr, he, (leaves_no_trace_iff (.permissive true) ⟨1⟩ hr).mpr ?_⟩
  exact (throughout_of_forall_mem (G := fun (r : System) (a : Action) => ∀ e,
    r.handled a = some e → Server.Harmless (.permissive true) r.server ⟨1⟩ e) hharmless).imp
      fun _ _ _ hg _ => hg

/-- An interactor that is closed for a failed write comes back by a request to subscribe
that it sent before. -/
theorem subscribed_after_close :
    ¬ ∀ (settings : Settings) (c : Guid) h s, Runs settings h s → Always (LeavesNoTrace c) h s := by
  intro hclaim
  obtain ⟨h, s, hr, hobs⟩ := exists_run_of_exec (step (.permissive false)) init
    [.accept ⟨1⟩, .process, .checkRead ⟨1⟩,
      .receive ⟨1⟩ (.subscriptionRequest ⟨"F", "T", true⟩), .process, .checkRead ⟨1⟩,
      .receive ⟨1⟩ (.multicastData ⟨"F", "T", "text", none⟩), .process, .checkRead ⟨1⟩,
      .checkWrite ⟨1⟩, .writeError ⟨1⟩ (.io true),
      .receive ⟨1⟩ (.subscriptionRequest ⟨"F", "T", true⟩), .endWrite ⟨1⟩, .checkRead ⟨1⟩,
      .endRead ⟨1⟩, .process, .process]
    (fun x => ((events x.1).any fun e => e = some (.error ⟨1⟩ (.io true)),
      (x.2.server.entry ⟨1⟩ "F" "T").isSome)) (true, true) (by decide)
  simp only [Prod.mk.injEq, List.any_eq_true, decide_eq_true_eq] at hobs
  obtain ⟨⟨e, hmem, rfl⟩, hentry⟩ := hobs
  obtain ⟨x, hx, he⟩ := List.mem_map.mp hmem
  have habsent := (hclaim (.permissive false) ⟨1⟩ h s hr).last ⟨x, hx, _, he, rfl⟩
  rw [habsent.entry "F" "T"] at hentry
  cases hentry

end System

end MessageBus.Distributor
