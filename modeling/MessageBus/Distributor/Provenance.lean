import MessageBus.Distributor.ReferenceCount

/-!
# Where subscriptions come from

A subscription should go back to a request of the subscriber itself. An entry is added by
such a request, or granted by a response; what a response says of its client, feed and
topic is taken from the wire, and nothing compares it with the requests that were made.
-/

namespace MessageBus.Distributor
open MessageBus.Base MessageBus.Common MessageBus.Messages

namespace System

variable (settings : Settings)

/-- A request of the client to subscribe has been handled, and the client may
subscribe. -/
def HasAsked (c : Guid) (f t : String) (h : History System Action) : Prop :=
  settings.hasRole c f .subscribe = true ∧
    ∃ x ∈ h, x.1.handled x.2 = some (.message c (.subscriptionRequest ⟨f, t, true⟩))

/-- Every subscriber has asked for its subscription. -/
def Solicited (h : History System Action) (s : System) : Prop :=
  ∀ c f t, c ∈ (s.server.subscriptionRepository.getSubscribersToFeedAndTopic f t).map Prod.fst →
    HasAsked settings c f t h

/-- A response that a client sent for a registered client grants only what that client
has asked for. -/
def AnswersRequest (h : History System Action) (s : System) (a : Action) : Prop :=
  ∀ i r, s.handled a = some (.message i (.authorizationResponse r)) →
    s.server.IsRegistered r.clientId → Server.isDenial r = false →
    HasAsked settings r.clientId r.feed r.topic h

private theorem solicited_iff {h : History System Action} {s : System} :
    Solicited settings h s ↔
      ∀ c f t, (s.server.entry c f t).isSome → HasAsked settings c f t h := by
  simp only [Solicited, mem_subscribers_iff]

private theorem hasAsked_cons {c : Guid} {f t : String} {h : History System Action} {s : System}
    {a : Action} : HasAsked settings c f t ((s, a) :: h) ↔
      (settings.hasRole c f .subscribe = true ∧
        s.handled a = some (.message c (.subscriptionRequest ⟨f, t, true⟩))) ∨
      HasAsked settings c f t h := by
  unfold HasAsked
  simp only [List.mem_cons, exists_eq_or_imp, and_or_left]

-- Only a request and a granting response put an entry where there was none.
private theorem entry_of_event {s : Server} {e : Event} {c : Guid} {f t : String}
    (h : ((s.onInteractorEvent settings e).1.entry c f t).isSome) :
    (s.entry c f t).isSome ∨
    (e = .message c (.subscriptionRequest ⟨f, t, true⟩) ∧
      settings.hasRole c f .subscribe = true) ∨
    ∃ i r, e = .message i (.authorizationResponse r) ∧ s.IsRegistered r.clientId ∧
      Server.IsFor r c f t ∧ Server.isDenial r = false := by
  rw [entry_onInteractorEvent] at h
  rcases entryChange_cases settings s e c f t with ⟨r, hacc, hk, hd, -⟩ | ⟨r, he, hrole, -⟩ |
    ⟨-, -, hchange⟩ | ⟨-, hchange⟩ | hchange
  · have hreg := (Server.update_of_accepted settings hacc).1
    cases e with
    | message i m =>
      cases m with
      | authorizationResponse r' =>
        obtain ⟨-, ⟨⟩⟩ := Option.ite_none_right_eq_some.mp hacc
        exact .inr (.inr ⟨i, r, rfl, hreg, hk, hd⟩)
      | subscriptionRequest m =>
        obtain ⟨⟨hrole, hadd, -⟩, ⟨⟩⟩ := Option.ite_none_right_eq_some.mp hacc
        obtain ⟨feed, topic, isAdd⟩ := m
        obtain ⟨rfl, rfl, rfl⟩ := hk
        cases hadd
        exact .inr (.inl ⟨rfl, hrole⟩)
      | _ => cases hacc
    | _ => cases hacc
  · exact .inr (.inl ⟨he, hrole⟩)
  · rw [hchange, EntryChange.apply] at h
    apply Or.inl
    cases hentry : s.entry c f t with
    | none =>
      rw [hentry] at h
      cases h
    | some state => rfl
  · rw [hchange] at h
    cases h
  · rw [hchange] at h
    exact .inl h

-- A granting response leaves an entry.
private theorem entry_of_grant {s : Server} {i : Guid} {r : AuthorizationResponse}
    (hreg : s.IsRegistered r.clientId) (hd : Server.isDenial r = false) :
    ((s.onInteractorEvent settings (.message i (.authorizationResponse r))).1.entry
      r.clientId r.feed r.topic).isSome := by
  have hacc : Server.accepted settings s (.message i (.authorizationResponse r)) = some r :=
    if_pos hreg
  have hk : Server.IsFor r r.clientId r.feed r.topic := ⟨rfl, rfl, rfl⟩
  rw [entry_onInteractorEvent, Server.entryChange, hacc]
  simp only [hk, hd, and_self, if_true]
  rfl

variable {settings} in
-- The step lemma: subscribers that have asked stay so exactly if a granting response answers a
-- request.
private theorem solicited_event_iff {h : History System Action} {s s' : System} {a : Action}
    {e : Event} (hp : ∀ c f t, (s.server.entry c f t).isSome → HasAsked settings c f t h)
    (he : s.handled a = some e) (hs : s'.server = (s.server.onInteractorEvent settings e).1) :
    (∀ c f t, (s'.server.entry c f t).isSome → HasAsked settings c f t ((s, a) :: h)) ↔
      AnswersRequest settings h s a := by
  rw [hs]
  constructor
  · intro hsolicited i r hr hreg hd
    rw [he] at hr
    obtain rfl := Option.some.inj hr
    have hasked := hsolicited _ _ _ (entry_of_grant settings hreg hd)
    rcases (hasAsked_cons settings).mp hasked with ⟨-, hreq⟩ | hasked
    · rw [he] at hreq
      cases hreq
    · exact hasked
  · intro hg c f t hentry
    apply (hasAsked_cons settings).mpr
    rcases entry_of_event settings hentry with hold | ⟨rfl, hrole⟩ | ⟨i, r, rfl, hreg, hk, hd⟩
    · exact .inr (hp c f t hold)
    · exact .inl ⟨hrole, he⟩
    · obtain ⟨rfl, rfl, rfl⟩ := hk
      exact .inr (hg i r he hreg hd)

/-- Every subscriber has asked for its subscription throughout a run exactly if every
granting response that the run accepts answers a request. -/
theorem solicited_iff_answersRequest {h : History System Action} {s : System}
    (hr : Runs settings h s) :
    Always (Solicited settings) h s ↔ Throughout (AnswersRequest settings) h := by
  apply Run.always_iff_throughout_of_step hr
  · exact (solicited_iff settings).mpr fun c f t hentry => by cases hentry
  intro h r a t' _ hp ha
  rw [solicited_iff] at hp ⊢
  rcases step_handled settings ha with ⟨hn, hq⟩ | ⟨e, he, -, hserver⟩
  · refine iff_of_true ?_ fun i x he => (by rw [hn] at he; cases he)
    intro c f t hentry
    rw [hq.entry] at hentry
    exact (hasAsked_cons settings).mpr (.inr (hp c f t hentry))
  · exact solicited_event_iff hp he hserver

/-- A client that asks, and is granted what it asked for, is a subscriber that has
asked. -/
theorem solicited_of_answer :
    ∃ h s, Runs (.permissive true) h s ∧ (events h).filterMap id =
        [.message ⟨2⟩ (.authorizationResponse ⟨⟨1⟩, "F", "T", false, none⟩),
          .message ⟨1⟩ (.subscriptionRequest ⟨"F", "T", true⟩), .connected ⟨2⟩, .connected ⟨1⟩] ∧
      Always (Solicited (.permissive true)) h s := by
  obtain ⟨h, s, hr, hobs⟩ := exists_run_of_exec (step (.permissive true)) init
    [.accept ⟨1⟩, .accept ⟨2⟩, .process, .process, .checkRead ⟨1⟩,
      .receive ⟨1⟩ (.subscriptionRequest ⟨"F", "T", true⟩), .process, .checkRead ⟨2⟩,
      .receive ⟨2⟩ (.authorizationResponse ⟨⟨1⟩, "F", "T", false, none⟩), .process]
    (fun x => ((events x.1).head?, (events x.1.tail).filterMap id))
    (some (some (.message ⟨2⟩ (.authorizationResponse ⟨⟨1⟩, "F", "T", false, none⟩))),
      [.message ⟨1⟩ (.subscriptionRequest ⟨"F", "T", true⟩), .connected ⟨2⟩, .connected ⟨1⟩]) rfl
  simp only [Prod.mk.injEq] at hobs
  obtain ⟨hhead, htail⟩ := hobs
  cases h with
  | nil => cases hhead
  | cons x h =>
    rw [List.tail_cons] at htail
    have hx : x.1.handled x.2 =
        some (.message ⟨2⟩ (.authorizationResponse ⟨⟨1⟩, "F", "T", false, none⟩)) :=
      Option.some.inj hhead
    refine ⟨x :: h, s, hr, ?_, (solicited_iff_answersRequest (.permissive true) hr).mpr ⟨?_, ?_⟩⟩
    · simp only [events, List.map_cons, hx, List.filterMap_cons, id] at htail ⊢
      rw [htail]
    · have hquiet : ∀ y ∈ h, ∀ i r,
          y.1.handled y.2 ≠ some (.message i (.authorizationResponse r)) := by
        intro y hy i r he
        have hmem := mem_events.mpr ⟨y, hy, he⟩
        rw [htail] at hmem
        simp at hmem
      apply (throughout_of_forall_mem (G := fun (r : System) (a : Action) => ∀ i x,
        r.handled a ≠ some (.message i (.authorizationResponse x))) hquiet).imp
      exact fun _ _ _ hg i x he => absurd he (hg i x)
    · intro i r he _ _
      rw [hx] at he
      cases he
      have hmem : Event.message ⟨1⟩ (.subscriptionRequest ⟨"F", "T", true⟩) ∈
          (events h).filterMap id := htail ▸ List.mem_cons_self ..
      exact ⟨rfl, mem_events.mp hmem⟩

/-- A response makes a client a subscriber that never asked for anything. -/
theorem subscribed_without_asking :
    ¬ ∀ (settings : Settings) h s, Runs settings h s → Always (Solicited settings) h s := by
  intro hclaim
  obtain ⟨h, s, hr, hobs⟩ := exists_run_of_exec (step (.permissive true)) init
    [.accept ⟨1⟩, .accept ⟨2⟩, .process, .process, .checkRead ⟨2⟩,
      .receive ⟨2⟩ (.authorizationResponse ⟨⟨1⟩, "F", "T", false, none⟩), .process]
    (fun x => ((events x.1).filterMap id, (x.2.server.entry ⟨1⟩ "F" "T").isSome))
    ([.message ⟨2⟩ (.authorizationResponse ⟨⟨1⟩, "F", "T", false, none⟩), .connected ⟨2⟩,
      .connected ⟨1⟩], true) rfl
  simp only [Prod.mk.injEq] at hobs
  obtain ⟨hevents, hentry⟩ := hobs
  obtain ⟨-, x, hx, he⟩ := (solicited_iff (.permissive true)).mp
    (hclaim (.permissive true) h s hr).last ⟨1⟩ "F" "T" hentry
  have hmem := mem_events.mpr ⟨x, hx, he⟩
  rw [hevents] at hmem
  simp at hmem

end System

end MessageBus.Distributor
