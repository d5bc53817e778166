import MessageBus.Distributor.System

/-!
# What a step does to one key

The facts about events, carried over to the steps of the system: a step that handles no
event leaves every key alone. Nothing is known of an interactor before it is started.
-/

namespace MessageBus.Distributor
open MessageBus.Base MessageBus.Common MessageBus.Messages

namespace System

variable (settings : Settings)

/-- A step handles an event of the queue, or it is quiet. -/
theorem step_handled {s s' : System} {a : Action} (h : step settings s a = some s') :
    (s.handled a = none ∧ Quiet s.server s'.server) ∨
    ∃ e, s.handled a = some e ∧ e ∈ s.eventQueue ∧
      s'.server = (s.server.onInteractorEvent settings e).1 := by
  rcases step_cases settings h with ⟨e, es, rfl, hq, -, -, rfl⟩ | ⟨ha, ht⟩
  · exact .inr ⟨e, by simp [handled, hq], hq ▸ List.mem_cons_self .., rfl⟩
  · refine .inl ⟨?_, ht.quiet⟩
    cases a with
    | process => exact absurd rfl ha
    | _ => rfl

/-- The event that a step handles is on the queue. -/
theorem mem_of_handled {s : System} {a : Action} {e : Event} (h : s.handled a = some e) :
    e ∈ s.eventQueue := by
  cases a with
  | process => exact List.mem_of_mem_head? h
  | _ => cases h

section quiet

variable {s s' : Server} (h : Quiet s s') (c : Guid) (f t : String)
include h

/-- A quiet step changes no entry. -/
theorem Quiet.entry : s'.entry c f t = s.entry c f t := by
  rw [Server.entry, h.subscriptions]
  rfl

/-- A quiet step changes no stored response. -/
theorem Quiet.cached : s'.cached c f t = s.cached c f t := by
  rw [Server.cached, Interactor.tryGetAuthorization, (h.object c).authorizations]
  rfl

/-- A quiet step registers no one, and no one leaves. -/
theorem Quiet.isRegistered : s'.IsRegistered c ↔ s.IsRegistered c := by
  rw [Server.IsRegistered, h.interactors]
  rfl

end quiet

section event

variable (s : Server) (e : Event) (c : Guid) (f t : String)

/-- A handler changes an entry as `entryChange` says. -/
theorem entry_onInteractorEvent : (s.onInteractorEvent settings e).1.entry c f t =
    (Server.entryChange settings s e c f t).apply (s.entry c f t) := by
  rw [Server.onInteractorEvent_eq]
  exact Server.entry_update settings s e c f t

/-- A handler stores a response where there is none, and only if it was accepted. -/
theorem cached_onInteractorEvent : (s.onInteractorEvent settings e).1.cached c f t =
    match Server.accepted settings s e with
    | some r =>
      if Server.IsFor r c f t ∧ s.cached c f f = none then some r else s.cached c f t
    | none => s.cached c f t := by
  have hd : (s.onInteractorEvent settings e).1.cached c f t =
      (Server.update settings s e).cached c f t := by
    rw [Server.onInteractorEvent_eq]
    simp [Server.cached, Server.deliver, Interactor.tryGetAuthorization]
  rw [hd]
  exact Server.cached_update settings s e c f t

/-- A handler registers what has connected and removes what is disposed. -/
theorem isRegistered_onInteractorEvent : (s.onInteractorEvent settings e).1.IsRegistered c ↔
    e.disposes ≠ some c ∧ (e = .connected c ∨ s.IsRegistered c) := by
  rw [Server.onInteractorEvent_eq]
  exact Server.isRegistered_update settings s e c

/-- A handler changes who is to be notified as the request says, and removes what is disposed. -/
theorem isNotifiable_onInteractorEvent :
    (s.onInteractorEvent settings e).1.notificationRepository.IsNotifiable c f ↔
      Server.asksNotice c f e = some true ∨ Server.asksNotice c f e = none ∧
        e.disposes ≠ some c ∧ s.notificationRepository.IsNotifiable c f := by
  rw [Server.onInteractorEvent_eq]
  exact Server.isNotifiable_update settings s e c f

/-- A handler adds what is published and removes what is disposed. -/
theorem hasPublished_onInteractorEvent (ft : FeedTopic) :
    (s.onInteractorEvent settings e).1.publisherRepository.HasPublished c ft ↔
      Server.publishes settings s c ft e ∨
      e.disposes ≠ some c ∧ s.publisherRepository.HasPublished c ft := by
  rw [Server.onInteractorEvent_eq]
  exact Server.hasPublished_update settings s e c ft

end event

/-! ### Delivery -/

/-- The messages that a step puts on the write queue of an interactor. -/
def delivered (c : Guid) (s : System) (a : Action) : List Message :=
  match s.handled a with
  | some e =>
    if (s.server.objects c).tokenSource = .live ∧ e.disposes ≠ some c then
      addressed c (Server.sends settings s.server e)
    else []
  | none => []

/-- What a step delivers is sent by the event it handles, to a live interactor that the
event does not dispose. -/
theorem mem_delivered {c : Guid} {s : System} {a : Action} {m : Message} :
    m ∈ delivered settings c s a ↔ ∃ e, s.handled a = some e ∧
      (s.server.objects c).tokenSource = .live ∧ e.disposes ≠ some c ∧
      (c, m) ∈ Server.sends settings s.server e := by
  unfold delivered
  cases s.handled a with
  | none => simp
  | some e => simp [mem_addressed, and_assoc]

/-- An event appends what it sends to a live interactor that it does not dispose. -/
theorem queued_onInteractorEvent (s : Server) (e : Event) (c : Guid) :
    ((s.onInteractorEvent settings e).1.objects c).queued = (s.objects c).queued ++
      if (s.objects c).tokenSource = .live ∧ e.disposes ≠ some c then
        addressed c (Server.sends settings s e)
      else [] := by
  rw [Server.onInteractorEvent_eq, Server.deliver, Interactors.queued_deliver]
  by_cases hd : e.disposes = some c
  · rw [Server.object_update_of_disposes settings s hd, if_neg, if_neg]
    · rfl
    · exact fun h => h.2 hd
    · simp [Interactor.dispose]
  · obtain ⟨hq, ht⟩ := Server.queued_update settings s hd
    rw [hq, ht]
    simp only [ne_eq, hd, not_false_eq_true, and_true]

/-- A step appends what it delivers to the messages queued so far. -/
theorem queued_step {s s' : System} {a : Action} (h : step settings s a = some s') (c : Guid) :
    (s'.server.objects c).queued = (s.server.objects c).queued ++ delivered settings c s a := by
  rcases step_handled settings h with ⟨hn, hq⟩ | ⟨e, he, -, hs⟩
  · rw [delivered, hn, (hq.object c).queued, List.append_nil]
  · rw [hs, delivered, he]
    exact queued_onInteractorEvent settings s.server e c

/-- An interactor that is live after a step was live before, and the step did not close
it. -/
theorem live_of_step {s s' : System} {a : Action} (h : step settings s a = some s') {c : Guid}
    (hl : (s'.server.objects c).tokenSource = .live) :
    (s.server.objects c).tokenSource = .live ∧
      ∀ e, s.handled a = some e → e.disposes ≠ some c := by
  rcases step_handled settings h with ⟨hn, hq⟩ | ⟨e, he, -, hs⟩
  · refine ⟨(hq.object c).live hl, ?_⟩
    rw [hn]
    rintro e ⟨⟩
  · rw [hs] at hl
    have hd : e.disposes ≠ some c := by
      intro hd
      rw [(tasks_of_disposes settings s.server hd).2.2] at hl
      cases hl
    rw [Server.onInteractorEvent_eq, Server.deliver, Interactors.tokenSource_deliver,
      (Server.queued_update settings s.server hd).2] at hl
    refine ⟨hl, ?_⟩
    rw [he]
    rintro e ⟨⟩
    exact hd

/-! ### The events of a run -/

/-- The events that a run has handled, newest first, `none` where a task stepped. -/
def events (h : History System Action) : List (Option Event) := h.map fun x => x.1.handled x.2

/-- The events handled are those that some step handles. -/
theorem mem_events {h : History System Action} {e : Event} :
    e ∈ (events h).filterMap id ↔ ∃ x ∈ h, x.1.handled x.2 = some e := by
  simp [events]

/-- A guard on the handled event holds throughout a run if it holds of all its events. -/
theorem throughout_of_events {h : History System Action} {G : Option Event → Prop}
    (hg : ∀ e ∈ events h, G e) : Throughout (fun _ s a => G (s.handled a)) h :=
  throughout_of_forall_mem fun _ hx => hg _ (List.mem_map_of_mem hx)

/-! ### Requests and responses -/

/-- A request of the client for the feed and topic: to add or to remove. -/
def asked (c : Guid) (f t : String) : Event → Option Bool
  | .message i (.subscriptionRequest m) =>
    if i = c ∧ m.feed = f ∧ m.topic = t then some m.isAdd else none
  | _ => none

/-- What asks for a topic is a subscription request for it. -/
theorem asked_eq_some_iff {c : Guid} {f t : String} {e : Event} {b : Bool} :
    asked c f t e = some b ↔ e = .message c (.subscriptionRequest ⟨f, t, b⟩) := by
  constructor
  · intro h
    cases e with
    | message i m =>
      cases m with
      | subscriptionRequest m =>
        obtain ⟨⟨rfl, rfl, rfl⟩, hb⟩ := Option.ite_none_right_eq_some.mp h
        cases hb
        rfl
      | _ => cases h
    | _ => cases h
  · rintro rfl
    simp [asked]

/-- An accepted response was sent by an interactor, or answers a request of the client. -/
theorem accepted_cases {s : Server} {e : Event} {r : AuthorizationResponse}
    (h : Server.accepted settings s e = some r) :
    (∃ a, e = .message a (.authorizationResponse r)) ∨
    (asked r.clientId r.feed r.topic e = some true ∧
      settings.distributorRole.isAuthorizationRequired = false ∧
      s.cached r.clientId r.feed r.topic = none ∧
      r = Server.automaticGrant r.clientId r.feed r.topic) := by
  cases e with
  | message i m =>
    cases m with
    | authorizationResponse r' =>
      obtain ⟨-, ⟨⟩⟩ := Option.ite_none_right_eq_some.mp h
      exact .inl ⟨i, rfl⟩
    | subscriptionRequest m =>
      obtain ⟨⟨-, hadd, hcached, hreq, -⟩, ⟨⟩⟩ := Option.ite_none_right_eq_some.mp h
      exact .inr ⟨by simp [asked, Server.automaticGrant, hadd], hreq, hcached, rfl⟩
    | _ => cases h
  | _ => cases h

/-- A request of a registered client that holds the role and finds nothing cached is
granted, where no authorization is required. -/
theorem accepted_of_add {s : Server} {c : Guid} {f t : String}
    (hrole : settings.hasRole c f .subscribe = true)
    (hreq : settings.distributorRole.isAuthorizationRequired = false) (hr : s.IsRegistered c)
    (hc : s.cached c f t = none) :
    Server.accepted settings s (.message c (.subscriptionRequest ⟨f, t, true⟩)) =
      some (Server.automaticGrant c f t) :=
  if_pos ⟨hrole, rfl, hc, hreq, hr⟩

/-- A removal accepts no response. -/
theorem accepted_of_remove (s : Server) (c : Guid) (f t : String) :
    Server.accepted settings s (.message c (.subscriptionRequest ⟨f, t, false⟩)) = none :=
  if_neg fun h => by cases h.2.1

/-- What the requests and responses about a key do to its entry; every other event but
the close of the client keeps it. -/
theorem entryChange_cases (s : Server) (e : Event) (c : Guid) (f t : String) :
    (∃ r, Server.accepted settings s e = some r ∧ Server.IsFor r c f t ∧
      Server.isDenial r = false ∧ Server.entryChange settings s e c f t = .grant (.ofResponse r)) ∨
    (∃ r, e = .message c (.subscriptionRequest ⟨f, t, true⟩) ∧
      settings.hasRole c f .subscribe = true ∧ s.cached c f t = some r ∧
      Server.entryChange settings s e c f t = .add (.ofResponse r)) ∨
    (e = .message c (.subscriptionRequest ⟨f, t, false⟩) ∧
      settings.hasRole c f .subscribe = true ∧
      Server.entryChange settings s e c f t = .remove) ∨
    (e.disposes = some c ∧ Server.entryChange settings s e c f t = .close) ∨
    Server.entryChange settings s e c f t = .keep := by
  cases ha : Server.accepted settings s e with
  | some r =>
    simp only [Server.entryChange, ha]
    by_cases hk : Server.IsFor r c f t ∧ Server.isDenial r = false
    · exact .inl ⟨r, rfl, hk.1, hk.2, if_pos hk⟩
    · exact .inr (.inr (.inr (.inr (if_neg hk))))
  | none =>
    simp only [Server.entryChange, ha]
    cases e with
    | connected i => exact .inr (.inr (.inr (.inr rfl)))
    | error i x =>
      by_cases hi : i = c
      · exact .inr (.inr (.inr (.inl ⟨congrArg some hi, if_pos hi⟩)))
      · exact .inr (.inr (.inr (.inr (if_neg hi))))
    | closed i =>
      by_cases hi : i = c
      · exact .inr (.inr (.inr (.inl ⟨congrArg some hi, if_pos hi⟩)))
      · exact .inr (.inr (.inr (.inr (if_neg hi))))
    | message i m =>
      cases m with
      | subscriptionRequest m =>
        by_cases hk : i = c ∧ m.feed = f ∧ m.topic = t ∧ settings.hasRole c f .subscribe = true
        · simp only [Server.ownChange, Server.requestChange, if_pos hk]
          obtain ⟨feed, topic, isAdd⟩ := m
          obtain ⟨rfl, rfl, rfl, hrole⟩ := hk
          cases isAdd with
          | true =>
            cases hc : s.cached i feed topic with
            | some r => exact .inr (.inl ⟨r, rfl, hrole, rfl, rfl⟩)
            | none => exact .inr (.inr (.inr (.inr rfl)))
          | false => exact .inr (.inr (.inl ⟨rfl, hrole, rfl⟩))
        · exact .inr (.inr (.inr (.inr (if_neg hk))))
      | _ => exact .inr (.inr (.inr (.inr rfl)))

/-- A request to unsubscribe removes. -/
theorem entryChange_of_remove (s : Server) {c : Guid} {f t : String}
    (hrole : settings.hasRole c f .subscribe = true) :
    Server.entryChange settings s (.message c (.subscriptionRequest ⟨f, t, false⟩)) c f t =
      .remove := by
  rw [Server.entryChange, accepted_of_remove]
  exact if_pos ⟨rfl, rfl, rfl, hrole⟩

/-- A request to subscribe that finds an authorization adds. -/
theorem entryChange_of_add {s : Server} {c : Guid} {f t : String} {r : AuthorizationResponse}
    (hrole : settings.hasRole c f .subscribe = true) (hc : s.cached c f t = some r) :
    Server.entryChange settings s (.message c (.subscriptionRequest ⟨f, t, true⟩)) c f t =
      .add (.ofResponse r) := by
  have hn : Server.accepted settings s (.message c (.subscriptionRequest ⟨f, t, true⟩)) = none :=
    if_neg fun h => by rw [hc] at h; cases h.2.2.1
  rw [Server.entryChange, hn]
  simp [Server.ownChange, Server.requestChange, hrole, hc]

/-- The event that closes the client closes its entries. -/
theorem entryChange_of_disposes (s : Server) {e : Event} {c : Guid} (hd : e.disposes = some c)
    (f t : String) : Server.entryChange settings s e c f t = .close := by
  cases e with
  | error i x => exact if_pos (Option.some.inj hd)
  | closed i => exact if_pos (Option.some.inj hd)
  | _ => cases hd

/-- An event that is no request of the client for the key, no response for the key and no
close of the client keeps the entry. -/
theorem entryChange_of_other (s : Server) {e : Event} {c : Guid} {f t : String}
    (hask : asked c f t e = none) (hd : e.disposes ≠ some c)
    (hresp : ∀ i r, e = .message i (.authorizationResponse r) → ¬ Server.IsFor r c f t) :
    Server.entryChange settings s e c f t = .keep := by
  rcases entryChange_cases settings s e c f t with ⟨x, hx, hk, -⟩ | ⟨x, rfl, -⟩ | ⟨rfl, -⟩ |
    ⟨hd', -⟩ | hk
  · rcases accepted_cases settings hx with ⟨i, rfl⟩ | ⟨hask', -⟩
    · exact absurd hk (hresp i x rfl)
    · obtain ⟨rfl, rfl, rfl⟩ := hk
      rw [hask] at hask'
      cases hask'
  · simp [asked] at hask
  · simp [asked] at hask
  · exact absurd hd' hd
  · exact hk

/-- An entry is removed by the request of a client that holds the role. -/
theorem entryChange_eq_remove_iff {s : Server} {e : Event} {c : Guid} {f t : String} :
    Server.entryChange settings s e c f t = .remove ↔
      e = .message c (.subscriptionRequest ⟨f, t, false⟩) ∧
        settings.hasRole c f .subscribe = true := by
  constructor
  · intro h
    rcases entryChange_cases settings s e c f t with ⟨x, -, -, -, hk⟩ | ⟨x, -, -, -, hk⟩ |
      ⟨he, hrole, -⟩ | ⟨-, hk⟩ | hk
    · rw [hk] at h; cases h
    · rw [hk] at h; cases h
    · exact ⟨he, hrole⟩
    · rw [hk] at h; cases h
    · rw [hk] at h; cases h
  · rintro ⟨rfl, hrole⟩
    exact entryChange_of_remove settings s hrole

/-- An entry is closed by the event that closes the client. -/
theorem entryChange_eq_close_iff {s : Server} {e : Event} {c : Guid} {f t : String} :
    Server.entryChange settings s e c f t = .close ↔ e.disposes = some c := by
  constructor
  · intro h
    rcases entryChange_cases settings s e c f t with ⟨x, -, -, -, hk⟩ | ⟨x, -, -, -, hk⟩ |
      ⟨-, -, hk⟩ | ⟨hd, -⟩ | hk
    · rw [hk] at h; cases h
    · rw [hk] at h; cases h
    · rw [hk] at h; cases h
    · exact hd
    · rw [hk] at h; cases h
  · exact fun hd => entryChange_of_disposes settings s hd f t

/-! ### Before the start -/

/-- The distributor holds nothing about the interactor. -/
structure Untouched (s : Server) (i : Guid) : Prop where
  entry : ∀ f t, s.entry i f t = none
  cached : ∀ f t, s.cached i f t = none
  notifiable : ∀ f, ¬ s.notificationRepository.IsNotifiable i f

/-- An event of the queue that names an unstarted interactor connects it, or is a
heartbeat. -/
theorem Lifecycle.event_of_unstarted {s : System} (hs : Lifecycle settings s) {e : Event}
    (he : e ∈ s.eventQueue) (hu : (s.server.objects e.interactor).readTask = .unstarted) :
    e = .connected e.interactor ∨ e = .message settings.heartbeat heartbeatMessage := by
  rcases hs.sender e he with h | h | h
  · exact .inl h
  · exact .inr h
  · exact absurd hu h

/-- If an interactor is unstarted after an event, the event does not name it, unless it is
a heartbeat. -/
theorem unstarted_of_handled {s : System} (hs : Lifecycle settings s) {e : Event}
    (he : e ∈ s.eventQueue) {i : Guid}
    (hu : ((s.server.onInteractorEvent settings e).1.objects i).readTask = .unstarted) :
    (s.server.objects i).readTask = .unstarted ∧
      (e.interactor = i → e = .message settings.heartbeat heartbeatMessage) := by
  have hbefore : (s.server.objects i).readTask = .unstarted :=
    Classical.byContradiction fun h => started_of_started settings hs he h hu
  refine ⟨hbefore, ?_⟩
  rintro rfl
  rcases hs.event_of_unstarted settings he hbefore with h | h
  · obtain ⟨i, rfl⟩ : ∃ i, e = .connected i := ⟨_, h⟩
    have hstarted := (tasks_of_connected settings hs he).1
    exact absurd (hstarted.symm.trans hu) (by simp)
  · exact h

/-- In every run an interactor that was not started is untouched. -/
theorem Runs.untouched {h : History System Action} {s : System} (hr : Runs settings h s)
    (i : Guid) (hu : (s.server.objects i).readTask = .unstarted) : Untouched s.server i := by
  induction hr with
  | start =>
    exact ⟨fun _ _ => rfl, fun _ _ => rfl,
      fun f => NotificationRepository.not_isNotifiable_empty i f⟩
  | next hr ha ih =>
    next h r t a =>
    rcases step_handled settings ha with ⟨-, hq⟩ | ⟨e, -, he, hserver⟩
    · have hi := ih ((hq.object i).unread.mp hu)
      refine ⟨fun f t => ?_, fun f t => ?_, fun f => ?_⟩
      · rw [hq.entry]; exact hi.entry f t
      · rw [hq.cached]; exact hi.cached f t
      · rw [hq.notifications]; exact hi.notifiable f
    · have hl := Runs.lifecycle settings hr
      rw [hserver] at hu ⊢
      obtain ⟨hbefore, hname⟩ := unstarted_of_handled settings hl he hu
      have hi := ih hbefore
      have hregistered : ∀ x, Server.accepted settings r.server e = some x → x.clientId ≠ i := by
        rintro x hx rfl
        exact hl.registered _ (Server.update_of_accepted settings hx).1 hbefore
      refine ⟨fun f t => ?_, fun f t => ?_, fun f => ?_⟩
      · rw [entry_onInteractorEvent]
        rcases entryChange_cases settings r.server e i f t with ⟨x, hx, hk, -⟩ | ⟨x, rfl, -⟩ |
          ⟨rfl, -⟩ | ⟨-, hk⟩ | hk
        · exact absurd hk.1 (hregistered x hx)
        · cases hname rfl
        · cases hname rfl
        · rw [hk]; rfl
        · rw [hk]; exact hi.entry f t
      · rw [cached_onInteractorEvent]
        cases hx : Server.accepted settings r.server e with
        | none => exact hi.cached f t
        | some x =>
          simp only
          rw [if_neg fun hk => hregistered x hx hk.1.1]
          exact hi.cached f t
      · rw [isNotifiable_onInteractorEvent]
        rintro (hk | ⟨-, -, hk⟩)
        · cases e with
          | message j m =>
            cases m with
            | notificationRequest m =>
              obtain ⟨⟨rfl, -⟩, -⟩ := Option.ite_none_right_eq_some.mp hk
              cases hname rfl
            | _ => cases hk
          | _ => cases hk
        · exact hi.notifiable f hk

/-- No event of an unstarted interactor has been handled, but heartbeats. -/
theorem Runs.unheard {h : History System Action} {s : System} (hr : Runs settings h s)
    {i : Guid} (hu : (s.server.objects i).readTask = .unstarted) {e : Event}
    (he : ∃ x ∈ h, x.1.handled x.2 = some e) (hi : e.interactor = i) :
    e = .message settings.heartbeat heartbeatMessage := by
  induction hr with
  | start =>
    obtain ⟨x, hx, -⟩ := he
    cases hx
  | next hr ha ih =>
    next h r t a =>
    obtain ⟨x, hx, hxe⟩ := he
    rcases step_handled settings ha with ⟨hn, hq⟩ | ⟨e', he', hmem, hserver⟩
    · rcases List.mem_cons.mp hx with rfl | hx
      · rw [hn] at hxe; cases hxe
      · exact ih ((hq.object i).unread.mp hu) ⟨x, hx, hxe⟩
    · rw [hserver] at hu
      obtain ⟨hbefore, hname⟩ := unstarted_of_handled settings (Runs.lifecycle settings hr) hmem hu
      rcases List.mem_cons.mp hx with rfl | hx
      · rw [he'] at hxe
        cases hxe
        exact hname hi
      · exact ih hbefore ⟨x, hx, hxe⟩

end System

end MessageBus.Distributor
