import MessageBus.Distributor.Entitlements
import MessageBus.Distributor.Notices
import MessageBus.Distributor.ReferenceCount

/-!
# Denied clients

Where authorization is required and every response for a client, feed and topic is a
denial, the client should stay out. A denial is cached like any other response, and a
request to subscribe that finds something cached does not look whether it denies.
-/

namespace MessageBus.Distributor
open MessageBus.Base MessageBus.Common MessageBus.Messages

/-- A message is multicast or unicast data for the feed and topic. -/
def IsDataOn (f t : String) : Message → Prop
  | .forwardedMulticastData m => m.feed = f ∧ m.topic = t
  | .forwardedUnicastData m => m.feed = f ∧ m.topic = t
  | _ => False

namespace System

variable (settings : Settings)

/-- Every response that the step accepts for the client, feed and topic is a denial. -/
def OnlyDenied (c : Guid) (f t : String) (_ : History System Action) (s : System) (a : Action) :
    Prop :=
  ∀ r, acceptedBy settings s a = some r → Server.IsFor r c f t → Server.isDenial r = true

/-- The step announces no addition for the client to anyone, and all that it delivers to
the client for the feed and topic is the message that rejects it. -/
structure OnlyRejected (c : Guid) (f t : String) (_ : History System Action) (s : System)
    (a : Action) : Prop where
  notices : ∀ e, s.handled a = some e →
    ∀ n, true ∉ told n c f t (Server.sends settings s.server e)
  data : ∀ m ∈ delivered settings c s a, IsDataOn f t m → m = noData f t ∧
    ∃ r, acceptedBy settings s a = some r ∧ Server.IsFor r c f t ∧ Server.isDenial r = true

/-- A request of the client to subscribe, which holds the role, finds no response
cached. -/
def FindsNothing (c : Guid) (f t : String) (_ : History System Action) (s : System)
    (a : Action) : Prop :=
  s.handled a = some (.message c (.subscriptionRequest ⟨f, t, true⟩)) →
    settings.hasRole c f .subscribe = true → s.server.cached c f t = none

variable {settings} in
private theorem acceptedBy_of_handled {s : System} {a : Action} {e : Event}
    (he : s.handled a = some e) :
    acceptedBy settings s a = Server.accepted settings s.server e := by
  rw [acceptedBy, he, Option.bind_some]

variable {settings} in
-- The step lemma: a client without an entry gets one exactly if its request finds a response.
private theorem entry_step_iff {c : Guid} {f t : String} {h : History System Action}
    {s s' : System} {a : Action} {e : Event} (hp : s.server.entry c f t = none)
    (hdenied : OnlyDenied settings c f t h s a) (he : s.handled a = some e)
    (hs : s'.server = (s.server.onInteractorEvent settings e).1) :
    s'.server.entry c f t = none ↔ FindsNothing settings c f t h s a := by
  rw [hs, entry_onInteractorEvent, hp]
  have hother (hne : e ≠ .message c (.subscriptionRequest ⟨f, t, true⟩)) :
      FindsNothing settings c f t h s a := by
    intro hreq
    rw [he] at hreq
    exact absurd (Option.some.inj hreq) hne
  rcases entryChange_cases settings s.server e c f t with ⟨r, hacc, hk, hd, -⟩ |
    ⟨r, rfl, hrole, hcached, hchange⟩ | ⟨rfl, -, hchange⟩ | ⟨hd, hchange⟩ | hchange
  · rw [hdenied r ((acceptedBy_of_handled he).trans hacc) hk] at hd
    cases hd
  · rw [hchange]
    refine iff_of_false (by simp [EntryChange.apply]) fun hg => ?_
    rw [hg he hrole] at hcached
    cases hcached
  · rw [hchange]
    exact iff_of_true rfl (hother (by simp))
  · rw [hchange]
    refine iff_of_true rfl (hother ?_)
    rintro rfl
    cases hd
  · rw [hchange]
    refine iff_of_true rfl fun hreq hrole => ?_
    rw [he] at hreq
    obtain rfl := Option.some.inj hreq
    cases hcached : s.server.cached c f t with
    | none => rfl
    | some r =>
      rw [entryChange_of_add settings hrole hcached] at hchange
      cases hchange

variable {settings} in
-- Where a client has no entry and its request finds nothing, it is only rejected.
private theorem onlyRejected_of_entry {c : Guid} {f t : String} {h : History System Action}
    {s : System} {a : Action} (hp : s.server.entry c f t = none)
    (hdenied : OnlyDenied settings c f t h s a) (hg : FindsNothing settings c f t h s a) :
    OnlyRejected settings c f t h s a := by
  have hsubscriber : ∀ info, (c, info) ∉
      s.server.subscriptionRepository.getSubscribersToFeedAndTopic f t := by
    intro info hm
    obtain ⟨state, hentry, -⟩ := SubscriptionRepository.mem_getSubscribersToFeedAndTopic.mp hm
    have hnone : s.server.entry c f t = some state := hentry
    rw [hp] at hnone
    cases hnone
  constructor
  · intro e he n htold
    by_cases hnew : s.server.notificationRepository.IsNotifiable n f ∨
        Server.asksNotice n f e ≠ some true
    · rw [Server.told_of_event settings hnew, hp] at htold
      split at htold
      · rcases entryChange_cases settings s.server e c f t with ⟨r, hacc, hk, hd, -⟩ |
          ⟨r, rfl, hrole, hcached, -⟩ | ⟨-, -, hchange⟩ | ⟨-, hchange⟩ | hchange
        · rw [hdenied r ((acceptedBy_of_handled he).trans hacc) hk] at hd
          cases hd
        · rw [hg he hrole] at hcached
          cases hcached
        · rw [hchange] at htold
          simp [Server.announced] at htold
        · rw [hchange] at htold
          simp [Server.announced] at htold
        · rw [hchange] at htold
          simp [Server.announced] at htold
      · cases htold
    · -- A new notifiable is told of the entries that there are.
      rw [not_or, not_ne_iff] at hnew
      rw [Server.told_of_new settings hnew.2 hnew.1, hp] at htold
      cases htold.2
  · intro m hm hdata
    obtain ⟨e, he, -, -, hsent⟩ := (mem_delivered settings).mp hm
    rcases Server.mem_sends_cases settings hsent with hn | ⟨i, data, info, -, -, hs, rfl⟩ |
      ⟨i, data, info, -, -, -, hs, rfl⟩
    · have hno : m = noData f t := by
        cases m with
        | forwardedMulticastData m =>
          obtain ⟨feed, topic, hno⟩ := hn
          rw [hno] at hdata ⊢
          obtain ⟨rfl, rfl⟩ := hdata
          rfl
        | forwardedUnicastData m =>
          obtain ⟨feed, topic, hno⟩ := hn
          cases hno
        | _ => exact hdata.elim
      subst hno
      obtain ⟨i, r, rfl, hreg, hd, hk⟩ :=
        Server.denial_of_mem_sends settings hsent hsubscriber
      exact ⟨rfl, r, (acceptedBy_of_handled he).trans (if_pos hreg), hk, hd⟩
    · obtain ⟨rfl, rfl⟩ := hdata
      exact absurd hs (hsubscriber info)
    · obtain ⟨rfl, rfl⟩ := hdata
      exact absurd hs (hsubscriber info)

/-- Where every response for a client denies, the client stays out throughout a run
exactly if its requests to subscribe find no response cached. -/
theorem denied_stays_out_iff (c : Guid) (f t : String) {h : History System Action} {s : System}
    (hr : Runs settings h s) (hdenied : Throughout (OnlyDenied settings c f t) h) :
    Always (fun _ s => c ∉
        (s.server.subscriptionRepository.getSubscribersToFeedAndTopic f t).map Prod.fst) h s ∧
      Throughout (OnlyRejected settings c f t) h ↔
    Throughout (FindsNothing settings c f t) h := by
  simp only [mem_subscribers_iff, Option.not_isSome_iff_eq_none]
  have hentry : Always (fun _ s => s.server.entry c f t = none) h s ↔
      Throughout (FindsNothing settings c f t) h := by
    apply Run.always_iff_throughout (I := fun _ _ => True) hr rfl trivial _ _ hdenied
    · intro h r a t' _ _ hp hd ha
      rcases step_handled settings ha with ⟨hn, hq⟩ | ⟨e, he, -, hserver⟩
      · rw [hq.entry]
        exact iff_of_true hp fun he => by rw [hn] at he; cases he
      · exact entry_step_iff hp hd he hserver
    · exact fun _ _ _ _ _ _ _ _ _ _ => trivial
  rw [← hentry]
  apply and_iff_left_of_imp
  intro hp
  exact hp.throughout_of (hdenied.and (hentry.mp hp)) fun h r a hn hg =>
    onlyRejected_of_entry hn hg.1 hg.2

/-- A client that asks once and is denied stays out. -/
theorem denied_stays_out_of_request :
    ∃ h s, Runs (.permissive true) h s ∧ (events h).filterMap id =
        [.message ⟨2⟩ (.authorizationResponse ⟨⟨1⟩, "F", "T", true, none⟩),
          .message ⟨1⟩ (.subscriptionRequest ⟨"F", "T", true⟩), .connected ⟨2⟩, .connected ⟨1⟩] ∧
      Always (fun _ s => (⟨1⟩ : Guid) ∉
        (s.server.subscriptionRepository.getSubscribersToFeedAndTopic "F" "T").map Prod.fst) h s ∧
      Throughout (OnlyRejected (.permissive true) ⟨1⟩ "F" "T") h := by
  obtain ⟨h, s, hr, hobs⟩ := exists_run_of_exec (step (.permissive true)) init
    [.accept ⟨1⟩, .accept ⟨2⟩, .process, .process, .checkRead ⟨1⟩,
      .receive ⟨1⟩ (.subscriptionRequest ⟨"F", "T", true⟩), .process, .checkRead ⟨2⟩,
      .receive ⟨2⟩ (.authorizationResponse ⟨⟨1⟩, "F", "T", true, none⟩), .process]
    (fun x => ((events x.1).filterMap id, x.1.all fun y =>
      (acceptedBy (.permissive true) y.1 y.2).all Server.isDenial &&
        (y.1.server.cached ⟨1⟩ "F" "T").isNone))
    ([.message ⟨2⟩ (.authorizationResponse ⟨⟨1⟩, "F", "T", true, none⟩),
      .message ⟨1⟩ (.subscriptionRequest ⟨"F", "T", true⟩), .connected ⟨2⟩, .connected ⟨1⟩],
      true) (by decide)
  simp only [Prod.mk.injEq, List.all_eq_true, Bool.and_eq_true, Option.isNone_iff_eq_none]
    at hobs
  obtain ⟨hevents, hall⟩ := hobs
  have hsteps := throughout_of_forall_mem (G := fun (r : System) (a : Action) =>
    (acceptedBy (.permissive true) r a).all Server.isDenial = true ∧
      r.server.cached ⟨1⟩ "F" "T" = none) hall
  refine ⟨h, s, hr, hevents, (denied_stays_out_iff (.permissive true) ⟨1⟩ "F" "T" hr ?_).mpr ?_⟩
  · apply hsteps.imp
    intro _ r a hg x hx _
    simpa [hx] using hg.1
  · exact hsteps.imp fun _ _ _ hg _ _ => hg.2

/-- A client that was denied asks again and is subscribed. -/
theorem subscribed_after_denial :
    ¬ ∀ (settings : Settings), settings.distributorRole.isAuthorizationRequired = true →
      ∀ (c : Guid) (f t : String) h s, Runs settings h s →
        Throughout (OnlyDenied settings c f t) h →
        Always (fun _ s => c ∉
          (s.server.subscriptionRepository.getSubscribersToFeedAndTopic f t).map Prod.fst) h s ∧
        Throughout (OnlyRejected settings c f t) h := by
  intro hclaim
  obtain ⟨h, s, hr, hobs⟩ := exists_run_of_exec (step (.permissive true)) init
    [.accept ⟨1⟩, .accept ⟨2⟩, .process, .process, .checkRead ⟨1⟩,
      .receive ⟨1⟩ (.subscriptionRequest ⟨"F", "T", true⟩), .process, .checkRead ⟨2⟩,
      .receive ⟨2⟩ (.authorizationResponse ⟨⟨1⟩, "F", "T", true, none⟩), .process, .checkRead ⟨1⟩,
      .receive ⟨1⟩ (.subscriptionRequest ⟨"F", "T", true⟩), .process]
    (fun x => ((x.2.server.entry ⟨1⟩ "F" "T").isSome, x.1.all fun y =>
      (acceptedBy (.permissive true) y.1 y.2).all Server.isDenial)) (true, true) (by decide)
  simp only [Prod.mk.injEq, List.all_eq_true] at hobs
  obtain ⟨hentry, hall⟩ := hobs
  have hdenied : Throughout (OnlyDenied (.permissive true) ⟨1⟩ "F" "T") h := by
    apply (throughout_of_forall_mem (G := fun (r : System) (a : Action) =>
      (acceptedBy (.permissive true) r a).all Server.isDenial = true) hall).imp
    intro _ r a hg x hx _
    simpa [hx] using hg
  have hout := (hclaim (.permissive true) rfl ⟨1⟩ "F" "T" h s hr hdenied).1.last
  exact hout (mem_subscribers_iff.mpr hentry)

end System

end MessageBus.Distributor
