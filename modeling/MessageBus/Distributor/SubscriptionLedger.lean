import MessageBus.Distributor.Tasks

/-!
# The ledger of a subscription

Where no authorization is required, what the distributor holds of a client's subscription to
a feed and topic is an account of that client's own events, whatever other clients do. The
first request to subscribe is granted and leaves the count at zero, as the grant is stored
as an update; it is cached, unless a grant for the topic spelled like the feed is cached, and
only requests that find it cached are counted. A removal ends the subscription exactly where
it finds the count at one.
-/

namespace MessageBus.Distributor
open MessageBus.Base MessageBus.Common MessageBus.Messages

/-- The events of a client. -/
def System.ownEvents (c : Guid) (events : List Event) : List Event :=
  events.filter fun e => e.interactor == c

/-- The account of a subscription: whether the client is registered, whether grants for the
topic spelled like the feed and for the topic are cached, and the count of the entry. -/
structure Ledger where
  isRegistered : Bool := false
  isFeedGranted : Bool := false
  isGranted : Bool := false
  count : Option Int32 := none
  deriving DecidableEq

namespace Ledger

/-- The count after a request to subscribe: a request that finds the grant is counted. -/
def added (l : Ledger) : Option Int32 :=
  if l.isGranted then some (l.count.getD 0 + 1)
  else if l.isRegistered then some (l.count.getD 0)
  else l.count

/-- The count after a request to unsubscribe. -/
def removed (l : Ledger) : Option Int32 :=
  l.count.bind fun count => if count = 1 then none else some (count - 1)

/-- What an event enters in the account. -/
def enter (c : Guid) (f t : String) (l : Ledger) (e : Event) : Ledger where
  isRegistered := decide (e.disposes ≠ some c) && (decide (e = .connected c) || l.isRegistered)
  isFeedGranted := l.isFeedGranted ||
    decide (System.asked c f f e = some true) && l.isRegistered
  isGranted := l.isGranted ||
    decide (System.asked c f t e = some true) && l.isRegistered && !l.isFeedGranted
  count :=
    match System.asked c f t e with
    | some true => l.added
    | some false => l.removed
    | none => if e.disposes = some c then none else l.count

/-- The account of a list of events. -/
def of (c : Guid) (f t : String) (events : List Event) : Ledger := events.foldl (enter c f t) {}

/-- Only the events of the client itself are entered. -/
theorem enter_of_other {c : Guid} {f t : String} {e : Event} (he : e.interactor ≠ c)
    (l : Ledger) : l.enter c f t e = l := by
  have hd : e.disposes ≠ some c := by
    intro hd
    cases e with
    | error i x => exact he (Option.some.inj hd)
    | closed i => exact he (Option.some.inj hd)
    | _ => cases hd
  have hc : e ≠ .connected c := by
    rintro rfl
    exact he rfl
  have hask : ∀ x, System.asked c f x e = none := by
    intro x
    rw [Option.eq_none_iff_forall_ne_some]
    intro b hb
    rw [System.asked_eq_some_iff] at hb
    exact he (by rw [hb]; rfl)
  simp [enter, hd, hc, hask]

private theorem of_ownEvents (c : Guid) (f t : String) (events : List Event) :
    of c f t (System.ownEvents c events) = of c f t events := by
  unfold of System.ownEvents
  generalize ({} : Ledger) = l
  induction events generalizing l with
  | nil => rfl
  | cons e events ih =>
    by_cases he : e.interactor = c
    · rw [List.filter_cons_of_pos (by simpa using he), List.foldl_cons, List.foldl_cons, ih]
    · rw [List.filter_cons_of_neg (by simpa using he), List.foldl_cons, enter_of_other he, ih]

end Ledger

namespace System

variable {settings : Settings}

/-- The step handles no response that a client sent for the client and feed. -/
def NoResponseFor (c : Guid) (f : String) (s : System) (a : Action) : Prop :=
  ∀ i r, s.handled a = some (.message i (.authorizationResponse r)) →
    ¬ (r.clientId = c ∧ r.feed = f)

/-- The account that the distributor holds. -/
def ledger (c : Guid) (f t : String) (s : Server) : Ledger where
  isRegistered := decide (s.IsRegistered c)
  isFeedGranted := (s.cached c f f).isSome
  isGranted := (s.cached c f t).isSome
  count := (s.entry c f t).map (·.count)

/-- Requests of the client to subscribe to the feed are granted, and nobody else answers. -/
structure GrantsItself (settings : Settings) (c : Guid) (f : String) (e : Event) : Prop where
  automatic : settings.distributorRole.isAuthorizationRequired = false
  allowed : settings.hasRole c f .subscribe = true
  unanswered : ∀ i r, e = .message i (.authorizationResponse r) → ¬ (r.clientId = c ∧ r.feed = f)

section event

variable {s : Server} {e : Event} {c : Guid} {f : String}

-- A grant is accepted for a topic exactly on a request that finds none.
private theorem accepted_iff (hg : GrantsItself settings c f e) (x : String) :
    (∃ r, Server.accepted settings s e = some r ∧ Server.IsFor r c f x) ↔
      asked c f x e = some true ∧ s.IsRegistered c ∧ s.cached c f x = none := by
  constructor
  · rintro ⟨r, hr, rfl, rfl, rfl⟩
    rcases accepted_cases settings hr with ⟨i, rfl⟩ | ⟨hask, -, hc, -⟩
    · exact absurd ⟨rfl, rfl⟩ (hg.unanswered i r rfl)
    · exact ⟨hask, (Server.update_of_accepted settings hr).1, hc⟩
  · rintro ⟨hask, hr, hc⟩
    rw [asked_eq_some_iff] at hask
    rw [hask]
    exact ⟨_, accepted_of_add settings hg.allowed hg.automatic hr hc, rfl, rfl, rfl⟩

private theorem isSome_cached (hg : GrantsItself settings c f e) (x : String) :
    ((s.onInteractorEvent settings e).1.cached c f x).isSome =
      ((s.cached c f x).isSome ||
        decide (asked c f x e = some true) && decide (s.IsRegistered c) &&
          !(s.cached c f f).isSome) := by
  have hiff := accepted_iff (s := s) hg x
  by_cases hnew : (∃ r, Server.accepted settings s e = some r ∧ Server.IsFor r c f x) ∧
      s.cached c f f = none
  · obtain ⟨⟨r, hr, hfor⟩, hf⟩ := hnew
    obtain ⟨hask, hreg, -⟩ := hiff.mp ⟨r, hr, hfor⟩
    rw [cached_onInteractorEvent]
    simp [hr, hfor, hf, hask, hreg]
  · have hkeep : (s.onInteractorEvent settings e).1.cached c f x = s.cached c f x := by
      rw [cached_onInteractorEvent]
      cases hr : Server.accepted settings s e with
      | none => rfl
      | some r => exact if_neg fun h => hnew ⟨⟨r, hr, h.1⟩, h.2⟩
    rw [hkeep]
    cases hc : s.cached c f x with
    | some r => rfl
    | none =>
      rw [hiff] at hnew
      rw [Option.isSome_none, Bool.false_or, eq_comm, Bool.eq_false_iff]
      intro hx
      simp only [Bool.and_eq_true, decide_eq_true_eq, Bool.not_eq_true',
        Option.isSome_eq_false_iff, Option.isNone_iff_eq_none] at hx
      exact hnew ⟨⟨hx.1.1, hx.1.2, hc⟩, hx.2⟩

private theorem map_count_entry (hg : GrantsItself settings c f e) (t : String) :
    ((s.onInteractorEvent settings e).1.entry c f t).map (·.count) =
      ((ledger c f t s).enter c f t e).count := by
  rw [entry_onInteractorEvent]
  cases hask : asked c f t e with
  | none =>
    rw [Ledger.enter, hask]
    by_cases hd : e.disposes = some c
    · rw [entryChange_of_disposes settings s hd]
      simp [EntryChange.apply, hd]
    · have hkeep := entryChange_of_other settings s hask hd fun i r he hfor =>
        hg.unanswered i r he ⟨hfor.1, hfor.2.1⟩
      rw [hkeep]
      simp [EntryChange.apply, hd, ledger]
  | some isAdd =>
    rw [Ledger.enter, hask]
    rw [asked_eq_some_iff] at hask
    subst hask
    cases isAdd with
    | false =>
      rw [entryChange_of_remove settings s hg.allowed]
      cases he : s.entry c f t with
      | none => simp [EntryChange.apply, SubscriptionRepository.removed, Ledger.removed, ledger, he]
      | some state =>
        have hone : (state.count - 1 == 0) = decide (state.count = 1) := by
          rw [Bool.eq_iff_iff, beq_iff_eq, decide_eq_true_eq, sub_one_eq_zero_iff]
        simp only [EntryChange.apply, SubscriptionRepository.removed, Ledger.removed, ledger, he,
          Bool.false_or, hone, Option.map_some, Option.bind_some]
        by_cases h1 : state.count = 1 <;> simp [h1]
    | true =>
      cases hc : s.cached c f t with
      | some r =>
        rw [entryChange_of_add settings hg.allowed hc]
        cases he : s.entry c f t <;>
          simp [EntryChange.apply, SubscriptionRepository.added, Ledger.added, ledger, hc, he]
      | none =>
        by_cases hr : s.IsRegistered c
        · rw [Server.entryChange, accepted_of_add settings hg.allowed hg.automatic hr hc]
          have hkey : Server.IsFor (Server.automaticGrant c f t) c f t ∧
              Server.isDenial (Server.automaticGrant c f t) = false := ⟨⟨rfl, rfl, rfl⟩, rfl⟩
          simp only [if_pos hkey]
          cases he : s.entry c f t <;>
            simp [EntryChange.apply, SubscriptionRepository.added, Ledger.added, ledger, hc, he, hr]
        · have hn : Server.accepted settings s
              (.message c (.subscriptionRequest ⟨f, t, true⟩)) = none :=
            if_neg fun h => hr h.2.2.2.2
          rw [Server.entryChange, hn]
          simp [Server.ownChange, Server.requestChange, hc, EntryChange.apply, Ledger.added,
            ledger, hr]

-- Handling an event enters it in the account.
private theorem ledger_onInteractorEvent (hg : GrantsItself settings c f e) (t : String) :
    ledger c f t (s.onInteractorEvent settings e).1 = (ledger c f t s).enter c f t e := by
  have hregistered : decide ((s.onInteractorEvent settings e).1.IsRegistered c) =
      ((ledger c f t s).enter c f t e).isRegistered := by
    simp only [isRegistered_onInteractorEvent, Ledger.enter, ledger]
    grind
  have hcount := map_count_entry (s := s) hg t
  rw [ledger, hregistered, isSome_cached hg, isSome_cached hg, hcount]
  cases hf : (s.cached c f f).isSome <;> simp [Ledger.enter, ledger, hf]

end event

/-- In every run of a distributor that requires no authorization, the subscription of a client
that may subscribe is the account of its own events. -/
theorem subscription_of_ledger (hreq : settings.distributorRole.isAuthorizationRequired = false)
    {c : Guid} {f : String} (hrole : settings.hasRole c f .subscribe = true)
    {h : History System Action} {s : System} (hr : Runs settings h s)
    (hresp : ∀ x ∈ h, NoResponseFor c f x.1 x.2) (t : String) :
    ledger c f t s.server =
      .of c f t (ownEvents c (handledEvents h)) := by
  rw [Ledger.of_ownEvents]
  induction hr with
  | start => rfl
  | next hr ha ih =>
    next h s s' a =>
    have ih := ih fun x hx => hresp x (List.mem_cons_of_mem _ hx)
    rw [handledEvents, Ledger.of, List.foldl_append, ← Ledger.of, ← ih]
    rcases step_handled settings ha with ⟨hn, hq⟩ | ⟨e, he, -, hs⟩
    · rw [hn, ledger, ledger, hq.cached, hq.cached, hq.entry]
      simp [hq.isRegistered]
    · rw [he, hs, ledger_onInteractorEvent ⟨hreq, hrole, ?_⟩]
      · rfl
      · rintro i r rfl
        exact hresp _ (List.mem_cons_self ..) i r he

/-- A client that asked once is not freed by two requests to unsubscribe. -/
theorem subscription_of_ledger_of_removals :
    ∃ h s, Runs (.permissive false) h s ∧
      Ledger.of ⟨1⟩ "F" "T" (ownEvents ⟨1⟩ (handledEvents h)) =
        ⟨true, false, true, some (-2)⟩ ∧
      ledger ⟨1⟩ "F" "T" s.server = .of ⟨1⟩ "F" "T" (ownEvents ⟨1⟩ (handledEvents h)) := by
  obtain ⟨h, s, hr, hobs⟩ := exists_run_of_exec (step (.permissive false)) init
    [.accept ⟨1⟩, .accept ⟨2⟩, .process, .process, .checkRead ⟨1⟩,
      .receive ⟨1⟩ (.subscriptionRequest ⟨"F", "T", true⟩), .checkRead ⟨2⟩,
      .receive ⟨2⟩ (.subscriptionRequest ⟨"F", "T", true⟩), .checkRead ⟨1⟩,
      .receive ⟨1⟩ (.subscriptionRequest ⟨"F", "T", false⟩), .checkRead ⟨1⟩,
      .receive ⟨1⟩ (.subscriptionRequest ⟨"F", "T", false⟩), .process, .process, .process,
      .process]
    (fun x => (events x.1, Ledger.of ⟨1⟩ "F" "T" (ownEvents ⟨1⟩ (handledEvents x.1))))
    ([some (.message ⟨1⟩ (.subscriptionRequest ⟨"F", "T", false⟩)),
      some (.message ⟨1⟩ (.subscriptionRequest ⟨"F", "T", false⟩)),
      some (.message ⟨2⟩ (.subscriptionRequest ⟨"F", "T", true⟩)),
      some (.message ⟨1⟩ (.subscriptionRequest ⟨"F", "T", true⟩)), none, none, none, none, none,
      none, none, none, some (.connected ⟨2⟩), some (.connected ⟨1⟩), none, none],
      ⟨true, false, true, some (-2)⟩) (by decide)
  simp only [Prod.mk.injEq] at hobs
  obtain ⟨he, hledger⟩ := hobs
  have hresp : ∀ x ∈ h, NoResponseFor ⟨1⟩ "F" x.1 x.2 := by
    intro x hx i r hxe
    have hm : some (.message i (.authorizationResponse r)) ∈ events h :=
      hxe ▸ List.mem_map_of_mem (f := fun x : System × Action => x.1.handled x.2) hx
    rw [he] at hm
    simp at hm
  exact ⟨h, s, hr, hledger, subscription_of_ledger rfl rfl hr hresp "T"⟩

/-! ### The events of a connection -/

private theorem taskStep_disposed {o o' : Interactor} {a : Action} (h : o.taskStep a = some o')
    (hd : o'.tokenSource ≠ .disposed) : o.tokenSource ≠ .disposed := by
  intro ho
  cases a with
  | accept i => cases h
  | heartbeat => cases h
  | process => cases h
  | checkWrite i =>
    obtain ⟨-, h⟩ := Option.ite_none_right_eq_some.mp h
    simp only [ho, Option.some.injEq] at h
    exact hd (by rw [← h])
  | _ =>
    obtain ⟨-, ⟨⟩⟩ := Option.ite_none_right_eq_some.mp h
    simp [ho, TokenSource.cancel] at hd

private theorem filterMap_ownEvents (c : Guid) (events : List Event) :
    (ownEvents c events).filterMap (messageFrom c) = events.filterMap (messageFrom c) := by
  rw [ownEvents, List.filterMap_filter]
  congr 1
  funext e
  cases e <;> simp [Event.interactor, messageFrom]

private theorem disposed_step {s s' : System} {a : Action} (ha : step settings s a = some s')
    (hl : Lifecycle settings s) {c : Guid} (hd : (s'.server.objects c).tokenSource ≠ .disposed) :
    (s.server.objects c).tokenSource ≠ .disposed := by
  rcases object_step settings ha hl c with
    ⟨-, ho⟩ | ⟨e, -, -, -, ho⟩ | ⟨-, ho⟩ | ⟨-, -, ho⟩
  · exact taskStep_disposed ho hd
  · exact absurd ho.tokenSource hd
  · exact fun h => hd (ho.tokenSource.trans h)
  · exact fun h => hd (ho.tokenSource.trans h)

-- An event of a client that neither connects nor closes it is a message.
private theorem message_of_interactor {e : Event} {c : Guid} (he : e.interactor = c)
    (hd : e.disposes ≠ some c) (hc : e ≠ .connected c) : ∃ m, e = .message c m := by
  cases e with
  | connected i => exact absurd (congrArg Event.connected he) hc
  | error i x => exact absurd (congrArg some he) hd
  | closed i => exact absurd (congrArg some he) hd
  | message i m => exact ⟨m, congrArg (Event.message · m) he⟩

/-- The events of a client that have been handled: none before it is started; then, until it
is disposed, its connection and its messages. -/
theorem Runs.ownEvents {h : History System Action} {s : System} (hr : Runs settings h s)
    {c : Guid} (hc : c ≠ settings.heartbeat) :
    ((s.server.objects c).readTask = .unstarted → System.ownEvents c (handledEvents h) = []) ∧
    ((s.server.objects c).readTask ≠ .unstarted →
      (s.server.objects c).tokenSource ≠ .disposed →
      System.ownEvents c (handledEvents h) =
        .connected c :: ((handledEvents h).filterMap (messageFrom c)).map (.message c)) := by
  induction hr with
  | start => exact ⟨fun _ => rfl, fun hu => absurd rfl hu⟩
  | next hr ha ih =>
    next h s s' a =>
    have hl := Runs.lifecycle settings hr
    obtain ⟨ih, ih'⟩ := ih
    rw [handledEvents, System.ownEvents, List.filter_append, List.filterMap_append,
      ← System.ownEvents, ← System.ownEvents]
    rcases step_handled settings ha with ⟨hn, hq⟩ | ⟨e, he, hmem, hs⟩
    · rw [hn]
      simp only [Option.toList_none, System.ownEvents, List.filter_nil, List.append_nil,
        List.filterMap_nil, (hq.object c).unread]
      exact ⟨ih, fun hu hd => ih' (fun h => hu ((hq.object c).unread.mpr h))
        (disposed_step ha hl hd)⟩
    rw [he, Option.toList_some, hs]
    by_cases hd : e.disposes = some c
    · obtain ⟨hread, -, ht⟩ := tasks_of_disposes settings s.server hd
      refine ⟨fun hu => ?_, fun _ hne => absurd ht hne⟩
      rw [hread] at hu
      cases hu
    by_cases hcon : e = .connected c
    · subst hcon
      have hown := ih (hl.connecting c hmem).2
      refine ⟨fun hu => ?_, fun _ _ => ?_⟩
      · rw [(tasks_of_connected settings hl hmem).1] at hu
        cases hu
      · rw [hown, ← filterMap_ownEvents c (handledEvents h), hown]
        simp [System.ownEvents, Event.interactor, messageFrom]
    obtain ⟨hread, -, ht⟩ := tasks_of_other settings s.server hd hcon
    rw [hread, ht]
    by_cases hi : e.interactor = c
    · obtain ⟨m, rfl⟩ := message_of_interactor hi hd hcon
      have hstarted : (s.server.objects c).readTask ≠ .unstarted := by
        rcases hl.sender _ hmem with hx | hx | hx
        · cases hx
        · cases hx
          exact absurd rfl hc
        · exact hx
      refine ⟨fun hu => absurd hu hstarted, fun hu hne => ?_⟩
      rw [ih' hu hne]
      simp [System.ownEvents, Event.interactor, messageFrom]
    · have hmessage : messageFrom c e = none := by
        cases e with
        | message i m => exact if_neg hi
        | _ => rfl
      simp only [System.ownEvents, List.filter_singleton, beq_eq_false_iff_ne.mpr hi,
        cond_false, List.append_nil, List.filterMap_cons, hmessage,
        List.filterMap_nil]
      exact ⟨ih, ih'⟩

end System

end MessageBus.Distributor
