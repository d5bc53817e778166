import MessageBus.Distributor.Steps

/-!
# Subscriptions are counted by request

Where no authorization is required, a client should be subscribed exactly while its
requests to subscribe outnumber those to unsubscribe. The first request is answered by the
automatic grant, whose event says that it is not initial, so it is stored as an update and
never counted.
-/

namespace MessageBus.Distributor
open MessageBus.Base MessageBus.Common MessageBus.Messages

namespace System

variable (settings : Settings)

/-- The outstanding requests of a client for a feed and topic: each add counts one, each
remove takes one back if there is one. -/
def requested (c : Guid) (f t : String) : History System Action → Nat
  | [] => 0
  | (s, a) :: h =>
    match (s.handled a).bind (asked c f t) with
    | some true => requested c f t h + 1
    | some false => requested c f t h - 1
    | none => requested c f t h

/-- A registered client is subscribed exactly while it has outstanding requests, and then
the stored count is their number. -/
def ReferenceCounted (c : Guid) (f t : String) (h : History System Action) (s : System) : Prop :=
  s.server.IsRegistered c →
    (c ∈ (s.server.subscriptionRepository.getSubscribersToFeedAndTopic f t).map Prod.fst ↔
      0 < requested c f t h) ∧
    ∀ state, s.server.entry c f t = some state → state.count.toInt = requested c f t h

/-- The step handles no response that a client sent. -/
def NoResponse (_ : History System Action) (s : System) (a : Action) : Prop :=
  ∀ i r, s.handled a ≠ some (.message i (.authorizationResponse r))

/-- The step handles no request to subscribe of the registered client. -/
def NoAdd (c : Guid) (f t : String) (_ : History System Action) (s : System) (a : Action) : Prop :=
  ¬ (s.server.IsRegistered c ∧ s.handled a = some (.message c (.subscriptionRequest ⟨f, t, true⟩)))

/-- The subscribers that are reported are those with an entry. -/
theorem mem_subscribers_iff {s : Server} {c : Guid} {f t : String} :
    c ∈ (s.subscriptionRepository.getSubscribersToFeedAndTopic f t).map Prod.fst ↔
      (s.entry c f t).isSome := by
  rw [List.mem_map, Option.isSome_iff_exists]
  constructor
  · rintro ⟨⟨c, info⟩, hm, rfl⟩
    obtain ⟨state, hs, -⟩ := SubscriptionRepository.mem_getSubscribersToFeedAndTopic.mp hm
    exact ⟨state, hs⟩
  · rintro ⟨state, hs⟩
    exact ⟨(c, state.authorizationInfo),
      SubscriptionRepository.mem_getSubscribersToFeedAndTopic.mpr ⟨state, hs, rfl⟩, rfl⟩

/-- The requests of a client are counted event by event. -/
theorem requested_cons (c : Guid) (f t : String) (h : History System Action) {s : System}
    {a : Action} {e : Event} (he : s.handled a = some e) :
    requested c f t ((s, a) :: h) =
      match asked c f t e with
      | some true => requested c f t h + 1
      | some false => requested c f t h - 1
      | none => requested c f t h := by
  rw [requested, he]
  rfl

/-- A step that handles no event requests nothing. -/
theorem requested_cons_of_quiet (c : Guid) (f t : String) (h : History System Action) {s : System}
    {a : Action} (he : s.handled a = none) :
    requested c f t ((s, a) :: h) = requested c f t h := by
  rw [requested, he]
  rfl

/-- A client that was never started has requested nothing. -/
theorem requested_of_unstarted {h : History System Action} {s : System} (hr : Runs settings h s)
    {c : Guid} (hu : (s.server.objects c).readTask = .unstarted) (f t : String) :
    requested c f t h = 0 := by
  have hheard : ∀ x ∈ h, (x.1.handled x.2).bind (asked c f t) = none := by
    intro x hx
    cases he : x.1.handled x.2 with
    | none => rfl
    | some e =>
      cases ha : asked c f t e with
      | none => exact ha
      | some b =>
        rw [asked_eq_some_iff] at ha
        have hb := Runs.unheard settings hr hu ⟨x, hx, he⟩ (by rw [ha]; rfl)
        rw [ha] at hb
        cases hb
  clear hu hr
  induction h with
  | nil => rfl
  | cons x h ih =>
    rw [requested, hheard x (List.mem_cons_self ..)]
    exact ih fun y hy => hheard y (List.mem_cons_of_mem _ hy)

-- The same statement about the entry.
private def Counted (c : Guid) (f t : String) (h : History System Action) (s : System) : Prop :=
  s.server.IsRegistered c →
    ((s.server.entry c f t).isSome ↔ 0 < requested c f t h) ∧
    ∀ state, s.server.entry c f t = some state → state.count.toInt = requested c f t h

private theorem referenceCounted_iff_counted {c : Guid} {f t : String}
    {h : History System Action} {s : System} :
    ReferenceCounted c f t h s ↔ Counted c f t h s := by
  rw [ReferenceCounted, Counted, mem_subscribers_iff]

-- A removal of a counted entry keeps it counted.
private theorem counted_removed {entry : Option SubscriptionState} {n : Nat}
    (hs : entry.isSome ↔ 0 < n) (hc : ∀ state, entry = some state → state.count.toInt = n) :
    ((SubscriptionRepository.removed entry false).isSome ↔ 0 < n - 1) ∧
    ∀ state, SubscriptionRepository.removed entry false = some state →
      state.count.toInt = (n - 1 : Nat) := by
  cases entry with
  | none =>
    have hn : ¬ 0 < n := fun h => by simpa using hs.mpr h
    exact ⟨⟨fun h => (by cases h), fun h => (by omega)⟩, fun state h => (by cases h)⟩
  | some state =>
    have hn : 0 < n := hs.mp rfl
    have hcount := hc state rfl
    simp only [SubscriptionRepository.removed, Bool.false_or, beq_iff_eq, sub_one_eq_zero_iff]
    split
    · next h1 =>
      have hone := toInt_eq_one_iff.mpr h1
      exact ⟨⟨fun h => (by cases h), fun h => (by omega)⟩, fun state h => (by cases h)⟩
    · next h1 =>
      have hne : state.count.toInt ≠ 1 := fun h => h1 (toInt_eq_one_iff.mp h)
      refine ⟨⟨fun _ => (by omega), fun _ => rfl⟩, ?_⟩
      rintro state' ⟨⟩
      show (state.count - 1).toInt = (n - 1 : Nat)
      rw [toInt_sub_one (by omega)]
      omega

variable {settings} in
-- Without requests to subscribe, and without responses, nothing is cached.
private theorem cached_keep {s s' : System} {a : Action} {h : History System Action}
    (ha : step settings s a = some s') {c : Guid} {f t : String}
    (hc : s.server.cached c f t = none) (hresp : NoResponse h s a) (hadd : NoAdd c f t h s a) :
    s'.server.cached c f t = none := by
  rcases step_handled settings ha with ⟨-, hq⟩ | ⟨e, he, -, hserver⟩
  · rw [hq.cached]
    exact hc
  · rw [hserver, cached_onInteractorEvent]
    cases hx : Server.accepted settings s.server e with
    | none => exact hc
    | some r =>
      simp only
      rw [if_neg]
      · exact hc
      · rintro ⟨⟨rfl, rfl, rfl⟩, -⟩
        rcases accepted_cases settings hx with ⟨i, rfl⟩ | ⟨hask, -⟩
        · exact hresp i r he
        · rw [asked_eq_some_iff] at hask
          exact hadd ⟨(Server.update_of_accepted settings hx).1, hask ▸ he⟩

-- The grant of the first request is stored as an update, which keeps the count.
variable {settings} in
private theorem not_counted_of_add (hreq : settings.distributorRole.isAuthorizationRequired = false)
    {c : Guid} {f t : String} (hrole : settings.hasRole c f .subscribe = true)
    {h : History System Action} {s : System} {a : Action}
    (he : s.handled a = some (.message c (.subscriptionRequest ⟨f, t, true⟩)))
    (hc : s.server.cached c f t = none) (hreg : s.server.IsRegistered c)
    (hp : Counted c f t h s) {s' : System}
    (hs : s'.server = (s.server.onInteractorEvent settings
      (.message c (.subscriptionRequest ⟨f, t, true⟩))).1) : ¬ Counted c f t ((s, a) :: h) s' := by
  intro hcounted
  rw [Counted, hs, isRegistered_onInteractorEvent, entry_onInteractorEvent,
    requested_cons c f t h he, Server.entryChange, accepted_of_add settings hrole hreq hreg hc]
    at hcounted
  have hkey : Server.IsFor (Server.automaticGrant c f t) c f t ∧
      Server.isDenial (Server.automaticGrant c f t) = false := ⟨⟨rfl, rfl, rfl⟩, rfl⟩
  simp only [if_pos hkey] at hcounted
  have hnew := (hcounted ⟨by simp [Event.disposes], .inr hreg⟩).2 _ rfl
  obtain ⟨hsub, hcount⟩ := hp hreg
  cases hentry : s.server.entry c f t with
  | none =>
    have hz : ¬ 0 < requested c f t h := by
      rw [← hsub, hentry]
      simp
    simp [hentry, SubscriptionRepository.added, asked] at hnew
    omega
  | some state =>
    have hold := hcount state hentry
    simp [hentry, SubscriptionRepository.added, asked] at hnew
    omega

/-- Where no authorization is required and no client responds, a client that holds the
role is reference counted throughout a run exactly if it never asks to subscribe. -/
theorem referenceCounted_iff (hreq : settings.distributorRole.isAuthorizationRequired = false)
    (c : Guid) (f t : String) (hrole : settings.hasRole c f .subscribe = true)
    {h : History System Action} {s : System} (hr : Runs settings h s)
    (hresp : Throughout NoResponse h) :
    Always (ReferenceCounted c f t) h s ↔ Throughout (NoAdd c f t) h := by
  refine Run.always_iff_throughout (I := fun _ s => s.server.cached c f t = none) hr ?_ rfl ?_
    (fun h r a t' hr hc _ hresp hadd ha => cached_keep ha hc hresp hadd) hresp
  · intro hreg
    exact absurd hreg (HashSet.notMem_empty _)
  intro h r a t' hr hc hp hresp ha
  rw [referenceCounted_iff_counted] at hp ⊢
  rcases step_handled settings ha with ⟨hn, hq⟩ | ⟨e, he, hmem, hserver⟩
  · refine iff_of_true ?_ (by simp [NoAdd, hn])
    rw [Counted, hq.isRegistered, hq.entry, requested_cons_of_quiet c f t h hn]
    exact hp
  by_cases hadd : r.server.IsRegistered c ∧ e = .message c (.subscriptionRequest ⟨f, t, true⟩)
  · obtain ⟨hreg, rfl⟩ := hadd
    exact iff_of_false (not_counted_of_add hreq hrole he hc hreg hp hserver)
      fun hg => hg ⟨hreg, he⟩
  · have hno : NoAdd c f t h r a := by
      rintro ⟨hreg, he'⟩
      rw [he] at he'
      exact hadd ⟨hreg, Option.some.inj he'⟩
    refine iff_of_true ?_ hno
    rw [Counted, hserver, isRegistered_onInteractorEvent, entry_onInteractorEvent,
      requested_cons c f t h he]
    rintro ⟨hd, hreg⟩
    cases hask : asked c f t e with
    | some b =>
      obtain rfl := asked_eq_some_iff.mp hask
      have hbefore : r.server.IsRegistered c := by
        rcases hreg with hcon | hreg
        · cases hcon
        · exact hreg
      cases b with
      | true => exact absurd ⟨hbefore, rfl⟩ hadd
      | false =>
        rw [entryChange_of_remove settings r.server hrole]
        exact counted_removed (hp hbefore).1 (hp hbefore).2
    | none =>
      rw [entryChange_of_other settings r.server hask hd fun i x hx => absurd (hx ▸ he) (hresp i x)]
      rcases hreg with rfl | hreg
      · have hu := ((Runs.lifecycle settings hr).connecting c hmem).2
        simp [EntryChange.apply, (Runs.untouched settings hr c hu).entry f t,
          requested_of_unstarted settings hr hu f t]
      · exact hp hreg

/-- A client that only unsubscribes is reference counted. -/
theorem referenceCounted_of_remove :
    ∃ h s, Runs (.permissive false) h s ∧
      events h = [some (.message ⟨1⟩ (.subscriptionRequest ⟨"F", "T", false⟩)), none, none,
        some (.connected ⟨1⟩), none] ∧ Always (ReferenceCounted ⟨1⟩ "F" "T") h s := by
  obtain ⟨h, s, hr, he⟩ := exists_run_of_exec (step (.permissive false)) init
    [.accept ⟨1⟩, .process, .checkRead ⟨1⟩,
      .receive ⟨1⟩ (.subscriptionRequest ⟨"F", "T", false⟩), .process]
    (fun x => events x.1)
    [some (.message ⟨1⟩ (.subscriptionRequest ⟨"F", "T", false⟩)), none, none,
      some (.connected ⟨1⟩), none] rfl
  have he : events h = _ := he
  refine ⟨h, s, hr, he, (referenceCounted_iff (.permissive false) rfl ⟨1⟩ "F" "T" rfl hr ?_).mpr ?_⟩
  · apply throughout_of_events
      (G := fun e => ∀ i r, e ≠ some (.message i (.authorizationResponse r)))
    simp [he]
  · have hno : Throughout (fun _ r a => r.handled a ≠
        some (.message ⟨1⟩ (.subscriptionRequest ⟨"F", "T", true⟩))) h := by
      apply throughout_of_events
        (G := fun e => e ≠ some (.message ⟨1⟩ (.subscriptionRequest ⟨"F", "T", true⟩)))
      simp [he]
    exact hno.imp fun _ _ _ hg hn => hg hn.2

/-- A client that subscribes once and unsubscribes once stays subscribed. -/
theorem subscribed_after_add_remove :
    ¬ ∀ (settings : Settings), settings.distributorRole.isAuthorizationRequired = false →
      ∀ (c : Guid) (f t : String), settings.hasRole c f .subscribe = true →
      ∀ h s, Runs settings h s → Throughout NoResponse h → Always (ReferenceCounted c f t) h s := by
  intro hclaim
  obtain ⟨h, s, hr, hobs⟩ := exists_run_of_exec (step (.permissive false)) init
    [.accept ⟨1⟩, .process, .checkRead ⟨1⟩,
      .receive ⟨1⟩ (.subscriptionRequest ⟨"F", "T", true⟩), .checkRead ⟨1⟩,
      .receive ⟨1⟩ (.subscriptionRequest ⟨"F", "T", false⟩), .process, .process]
    (fun x => (events x.1, decide (x.2.server.IsRegistered ⟨1⟩),
      (x.2.server.entry ⟨1⟩ "F" "T").isSome, requested ⟨1⟩ "F" "T" x.1))
    ([some (.message ⟨1⟩ (.subscriptionRequest ⟨"F", "T", false⟩)),
      some (.message ⟨1⟩ (.subscriptionRequest ⟨"F", "T", true⟩)),
      none, none, none, none, some (.connected ⟨1⟩), none], true, true, 0) (by decide)
  simp only [Prod.mk.injEq, decide_eq_true_eq] at hobs
  obtain ⟨he, hreg, hentry, hrc⟩ := hobs
  have hnone : Throughout NoResponse h := by
    apply throughout_of_events
      (G := fun e => ∀ i r, e ≠ some (.message i (.authorizationResponse r)))
    simp [he]
  have hcounted := (hclaim (.permissive false) rfl ⟨1⟩ "F" "T" rfl h s hr hnone).last hreg
  rw [mem_subscribers_iff, hrc] at hcounted
  exact absurd (hcounted.1.mp hentry) (Nat.lt_irrefl 0)

end System

end MessageBus.Distributor
