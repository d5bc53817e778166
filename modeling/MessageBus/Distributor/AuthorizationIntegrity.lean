import MessageBus.Distributor.Steps

/-!
# Who may authorize

A response should count only if its sender holds the role `Authorize` on its feed, and
the handler of responses does not ask for it. What clients can observe is the
authorizations that are cached and stored, up to the order in which a set of entitlements
is enumerated, and the messages on the write queues.
-/

namespace MessageBus.Distributor
open MessageBus.Base MessageBus.Common MessageBus.Messages

/-- What an authorization lets through: whether it filters, and the entitlements it has. -/
def AuthorizationInfo.effect (info : AuthorizationInfo) : Bool × (Int32 → Prop) :=
  (info.isAuthorizationRequired, fun e => e ∈ info.entitlements)

/-- The effect of an entry: its count, and what its authorization lets through. -/
def SubscriptionState.effect (state : SubscriptionState) : Int32 × Bool × (Int32 → Prop) :=
  (state.count, state.authorizationInfo.effect)

/-- The effect of a response that is cached. -/
def responseEffect (r : AuthorizationResponse) : Bool × (Int32 → Prop) :=
  (AuthorizationInfo.ofResponse r).effect

/-- What clients can observe of a distributor. -/
structure Observables where
  cached : Guid → String → String → Option (Bool × (Int32 → Prop))
  entry : Guid → String → String → Option (Int32 × Bool × (Int32 → Prop))
  queued : Guid → List Message

namespace Server

variable (settings : Settings)

/-- The observables of a server. -/
def observables (s : Server) : Observables where
  cached c f t := (s.cached c f t).map responseEffect
  entry c f t := (s.entry c f t).map SubscriptionState.effect
  queued c := (s.objects c).queued

/-- A response has nothing to change and nobody to tell: its client is not registered; or
the cache will not take it, or holds the same, and it is a denial for a client whose token
is cancelled, or it grants what is stored and no live interactor is notifiable. -/
def Idle (s : Server) (r : AuthorizationResponse) : Prop :=
  s.IsRegistered r.clientId →
    (s.cached r.clientId r.feed r.feed = none →
      (s.cached r.clientId r.feed r.topic).map responseEffect = some (responseEffect r)) ∧
    (isDenial r = true → (s.objects r.clientId).tokenSource ≠ .live) ∧
    (isDenial r = false →
      ((s.entry r.clientId r.feed r.topic).map fun state => state.authorizationInfo.effect) =
        some (responseEffect r) ∧
      ∀ n, s.notificationRepository.IsNotifiable n r.feed → (s.objects n).tokenSource ≠ .live)

private theorem accepted_response (s : Server) (a : Guid) (r : AuthorizationResponse) :
    accepted settings s (.message a (.authorizationResponse r)) =
      if s.IsRegistered r.clientId then some r else none := rfl

private theorem isFor_self (r : AuthorizationResponse) : IsFor r r.clientId r.feed r.topic :=
  ⟨rfl, rfl, rfl⟩

-- Nothing is appended to a queue exactly if the interactor is not live or not addressed.
private theorem queued_response (s : Server) (a c : Guid) (r : AuthorizationResponse) :
    ((onInteractorEvent settings s (.message a (.authorizationResponse r))).1.objects c).queued =
        (s.objects c).queued ↔
      ((s.objects c).tokenSource = .live → addressed c (responseSends settings s r) = []) := by
  rw [System.queued_onInteractorEvent]
  by_cases hl : (s.objects c).tokenSource = .live
  · simp [hl, Event.disposes, sends]
  · simp [hl]

private theorem addressed_responseSends (s : Server) (r : AuthorizationResponse)
    (hr : s.IsRegistered r.clientId) (c : Guid) : addressed c (responseSends settings s r) =
      if isDenial r then if c = r.clientId then [noData r.feed r.topic] else []
      else if s.notificationRepository.IsNotifiable c r.feed then
        [forwardedRequest settings r.clientId ⟨r.feed, r.topic, true⟩] else [] := by
  rw [responseSends, if_pos hr]
  split
  · by_cases hc : c = r.clientId
    · subst hc
      simp [addressed]
    · simp [addressed, hc, Ne.symm hc]
  · exact addressed_notices settings _ _ _ _

/-- A response leaves everything that clients can observe exactly if it is idle. -/
theorem observables_response_iff (s : Server) (a : Guid) (r : AuthorizationResponse) :
    (onInteractorEvent settings s (.message a (.authorizationResponse r))).1.observables =
      s.observables ↔ s.Idle r := by
  constructor
  · intro h hr
    have hcached := congrFun (congrFun (congrFun (congrArg Observables.cached h) r.clientId)
      r.feed) r.topic
    have hentry := congrFun (congrFun (congrFun (congrArg Observables.entry h) r.clientId)
      r.feed) r.topic
    have hqueued (c : Guid) := (queued_response settings s a c r).mp
      (congrFun (congrArg Observables.queued h) c)
    simp only [addressed_responseSends settings s r hr] at hqueued
    simp only [observables, System.cached_onInteractorEvent, System.entry_onInteractorEvent,
      entryChange, accepted_response, if_pos hr, isFor_self, true_and] at hcached hentry
    refine ⟨fun hff => ?_, fun hd hl => ?_, fun hd => ⟨?_, fun n hn hl => ?_⟩⟩
    · rw [if_pos hff] at hcached
      exact hcached.symm
    · simpa [hd] using hqueued r.clientId hl
    · rw [if_pos hd] at hentry
      cases hold : s.entry r.clientId r.feed r.topic with
      | none =>
        rw [hold] at hentry
        cases hentry
      | some state =>
        rw [hold] at hentry
        have heffect := congrArg Prod.snd (Option.some.inj hentry)
        exact congrArg some heffect.symm
    · simpa [hd, hn] using hqueued n hl
  · intro hidle
    by_cases hr : s.IsRegistered r.clientId
    · obtain ⟨hcache, hdenied, hgranted⟩ := hidle hr
      simp only [observables, Observables.mk.injEq]
      refine ⟨?_, ?_, ?_⟩
      · funext c f t
        rw [System.cached_onInteractorEvent, accepted_response, if_pos hr]
        simp only
        split
        · next hk =>
          obtain ⟨⟨rfl, rfl, rfl⟩, hff⟩ := hk
          exact (hcache hff).symm
        · rfl
      · funext c f t
        rw [System.entry_onInteractorEvent, entryChange, accepted_response, if_pos hr]
        simp only
        split
        · next hk =>
          obtain ⟨⟨rfl, rfl, rfl⟩, hd⟩ := hk
          have hstored := (hgranted hd).1
          cases hold : s.entry r.clientId r.feed r.topic with
          | none =>
            rw [hold] at hstored
            cases hstored
          | some state =>
            rw [hold] at hstored
            have heffect : responseEffect r = state.authorizationInfo.effect :=
              (Option.some.inj hstored).symm
            exact congrArg some (congrArg (Prod.mk state.count) heffect)
        · rfl
      · funext c
        rw [queued_response, addressed_responseSends settings s r hr]
        intro hl
        cases hd : isDenial r with
        | true =>
          rw [if_pos rfl, if_neg]
          rintro rfl
          exact hdenied hd hl
        | false =>
          rw [if_neg Bool.false_ne_true, if_neg]
          exact fun hn => (hgranted hd).2 c hn hl
    · have hsends : responseSends settings s r = [] := if_neg hr
      simp only [observables, Observables.mk.injEq]
      refine ⟨?_, ?_, ?_⟩
      · funext c f t
        rw [System.cached_onInteractorEvent, accepted_response, if_neg hr]
      · funext c f t
        rw [System.entry_onInteractorEvent, entryChange, accepted_response, if_neg hr]
        rfl
      · funext c
        rw [queued_response, hsends]
        exact fun _ => rfl

/-! ### Agreement -/

/-- Two distributors have the same clients, and store the same about them. -/
structure Agrees (s s' : Server) : Prop where
  registered : ∀ i, s.IsRegistered i ↔ s'.IsRegistered i
  cached : ∀ c f t, (s.cached c f t).map responseEffect = (s'.cached c f t).map responseEffect
  entry : ∀ c f t, (s.entry c f t).map SubscriptionState.effect =
    (s'.entry c f t).map SubscriptionState.effect

/-- A server agrees with itself. -/
theorem Agrees.refl (s : Server) : s.Agrees s :=
  ⟨fun _ => Iff.rfl, fun _ _ _ => rfl, fun _ _ _ => rfl⟩

/-- Agreement is transitive. -/
theorem Agrees.trans {s₁ s₂ s₃ : Server} (h₁ : s₁.Agrees s₂) (h₂ : s₂.Agrees s₃) :
    s₁.Agrees s₃ :=
  ⟨fun i => (h₁.registered i).trans (h₂.registered i),
    fun c f t => (h₁.cached c f t).trans (h₂.cached c f t),
    fun c f t => (h₁.entry c f t).trans (h₂.entry c f t)⟩

private theorem Agrees.cached_eq_none {s s' : Server} (h : s.Agrees s') (c : Guid)
    (f t : String) : s.cached c f t = none ↔ s'.cached c f t = none := by
  rw [← Option.map_eq_none_iff (f := responseEffect), h.cached, Option.map_eq_none_iff]

private theorem Agrees.accepted {s s' : Server} (h : s.Agrees s') (e : Event) :
    accepted settings s e = accepted settings s' e := by
  cases e with
  | message i m =>
    cases m with
    | authorizationResponse r => simp only [Server.accepted, h.registered]
    | subscriptionRequest m => simp only [Server.accepted, h.registered, h.cached_eq_none]
    | _ => rfl
  | _ => rfl

private theorem eq_of_effect {x y : Option SubscriptionState}
    (h : x.map SubscriptionState.effect = y.map SubscriptionState.effect) :
    x = none ∧ y = none ∨ ∃ state state', x = some state ∧ y = some state' ∧
      state.count = state'.count ∧
      state.authorizationInfo.effect = state'.authorizationInfo.effect := by
  cases x with
  | none =>
    cases y with
    | none => exact .inl ⟨rfl, rfl⟩
    | some y => cases h
  | some x =>
    cases y with
    | none => cases h
    | some y =>
      have heffect := Option.some.inj h
      exact .inr ⟨x, y, rfl, rfl, congrArg Prod.fst heffect, congrArg Prod.snd heffect⟩

private theorem effect_added {x y : Option SubscriptionState} {info info' : AuthorizationInfo}
    (h : x.map SubscriptionState.effect = y.map SubscriptionState.effect)
    (hi : info.effect = info'.effect) (update : Bool) :
    (SubscriptionRepository.added x info update).effect =
      (SubscriptionRepository.added y info' update).effect := by
  rcases eq_of_effect h with ⟨rfl, rfl⟩ | ⟨state, state', rfl, rfl, hcount, hinfo⟩
  · cases update <;> exact congrArg (Prod.mk _) hi
  · cases update with
    | true =>
      simp only [SubscriptionRepository.added, Option.getD_some, if_true,
        SubscriptionState.effect, hcount, hi]
    | false =>
      simp only [SubscriptionRepository.added, Option.getD_some, Bool.false_eq_true, if_false,
        SubscriptionState.effect, hcount, hinfo]

private theorem effect_removed {x y : Option SubscriptionState}
    (h : x.map SubscriptionState.effect = y.map SubscriptionState.effect) :
    (SubscriptionRepository.removed x false).map SubscriptionState.effect =
      (SubscriptionRepository.removed y false).map SubscriptionState.effect := by
  rcases eq_of_effect h with ⟨rfl, rfl⟩ | ⟨state, state', rfl, rfl, hcount, hinfo⟩
  · rfl
  · simp only [SubscriptionRepository.removed, hcount]
    split
    · rfl
    · simp only [Option.map_some, SubscriptionState.effect, hinfo]

private theorem effect_apply {x y : Option SubscriptionState}
    (h : x.map SubscriptionState.effect = y.map SubscriptionState.effect) (change : EntryChange) :
    (change.apply x).map SubscriptionState.effect =
      (change.apply y).map SubscriptionState.effect := by
  cases change with
  | keep => exact h
  | add info => exact congrArg some (effect_added h rfl false)
  | grant info => exact congrArg some (effect_added h rfl true)
  | remove => exact effect_removed h
  | close => rfl

private theorem Agrees.requestChange {s s' : Server} (h : s.Agrees s') (c : Guid)
    (f t : String) (i : Guid) (m : SubscriptionRequest) :
    ((requestChange settings s c f t i m).apply (s.entry c f t)).map SubscriptionState.effect =
      ((requestChange settings s' c f t i m).apply (s'.entry c f t)).map
        SubscriptionState.effect := by
  unfold Server.requestChange
  split
  · split
    · have hcached := h.cached c f t
      cases hx : s.cached c f t with
      | none =>
        rw [(h.cached_eq_none c f t).mp hx]
        exact h.entry c f t
      | some x =>
        cases hy : s'.cached c f t with
        | none =>
          rw [hx, hy] at hcached
          cases hcached
        | some y =>
          rw [hx, hy] at hcached
          exact congrArg some (effect_added (h.entry c f t) (Option.some.inj hcached) false)
    · exact effect_apply (h.entry c f t) _
  · exact h.entry c f t

/-- Distributors that agree still agree after the same event. -/
theorem Agrees.onInteractorEvent {s s' : Server} (h : s.Agrees s') (e : Event) :
    (onInteractorEvent settings s e).1.Agrees (onInteractorEvent settings s' e).1 := by
  have haccepted := h.accepted settings e
  constructor
  · intro i
    rw [System.isRegistered_onInteractorEvent, System.isRegistered_onInteractorEvent, h.registered]
  · intro c f t
    rw [System.cached_onInteractorEvent, System.cached_onInteractorEvent, ← haccepted]
    cases Server.accepted settings s e with
    | none => exact h.cached c f t
    | some r =>
      simp only [h.cached_eq_none c f f]
      split
      · rfl
      · exact h.cached c f t
  · intro c f t
    rw [System.entry_onInteractorEvent, System.entry_onInteractorEvent]
    unfold entryChange
    rw [← haccepted]
    cases Server.accepted settings s e with
    | some r => exact effect_apply (h.entry c f t) _
    | none =>
      cases e with
      | message i m =>
        cases m with
        | subscriptionRequest m => exact h.requestChange settings c f t i m
        | _ => exact effect_apply (h.entry c f t) _
      | _ => exact effect_apply (h.entry c f t) _

end Server

namespace System

variable (settings : Settings)

/-- A response from an interactor that does not hold the role `Authorize` on its feed. -/
def untrusted : Event → Bool
  | .message a (.authorizationResponse r) => !settings.hasRole a r.feed .authorize
  | _ => false

private theorem eq_of_untrusted {e : Event} (h : untrusted settings e = true) :
    ∃ a r, e = .message a (.authorizationResponse r) := by
  cases e with
  | message a m =>
    cases m with
    | authorizationResponse r => exact ⟨a, r, rfl⟩
    | _ => cases h
  | _ => cases h

/-- If the step handles an untrusted response, no client can observe it. -/
def Unobserved (_ : History System Action) (s : System) (a : Action) : Prop :=
  ∀ e, s.handled a = some e → untrusted settings e = true →
    (s.server.onInteractorEvent settings e).1.observables = s.server.observables

/-- If the step handles an untrusted response, the response is idle. -/
def IdleIfUntrusted (_ : History System Action) (s : System) (a : Action) : Prop :=
  ∀ i r, s.handled a = some (.message i (.authorizationResponse r)) →
    settings.hasRole i r.feed .authorize = false → s.server.Idle r

/-- The distributor that has handled the events of a run without the untrusted responses. -/
def replay : History System Action → Server
  | [] => {}
  | (s, a) :: h =>
    match s.handled a with
    | some e =>
      if untrusted settings e then replay h
      else ((replay h).onInteractorEvent settings e).1
    | none => replay h

/-- A step is unobserved exactly if its response is idle. -/
theorem unobserved_iff (h : History System Action) (s : System) (a : Action) :
    Unobserved settings h s a ↔ IdleIfUntrusted settings h s a := by
  constructor
  · intro hu i r he hrole
    rw [← Server.observables_response_iff settings s.server i r]
    exact hu _ he (by simp [untrusted, hrole])
  · intro hi e he hu
    obtain ⟨i, r, rfl⟩ := eq_of_untrusted settings hu
    rw [Server.observables_response_iff]
    exact hi i r he (by simpa [untrusted] using hu)

private theorem agrees_of_quiet {s s' : Server} (h : Quiet s s') : s'.Agrees s := by
  constructor
  · intro i
    exact h.isRegistered i
  · intro c f t
    rw [h.cached]
  · intro c f t
    rw [h.entry]

private theorem agrees_of_untrusted {s : Server} {e : Event}
    (hu : untrusted settings e = true)
    (h : (s.onInteractorEvent settings e).1.observables = s.observables) :
    (s.onInteractorEvent settings e).1.Agrees s := by
  obtain ⟨i, r, rfl⟩ := eq_of_untrusted settings hu
  constructor
  · intro c
    rw [isRegistered_onInteractorEvent]
    simp [Event.disposes]
  · intro c f t
    exact congrFun (congrFun (congrFun (congrArg Observables.cached h) c) f) t
  · intro c f t
    exact congrFun (congrFun (congrFun (congrArg Observables.entry h) c) f) t

/-- While untrusted responses go unobserved, what is stored is what the other events
alone would have led to. -/
theorem agrees_replay {h : History System Action} {s : System} (hr : Runs settings h s)
    (hg : Throughout (Unobserved settings) h) : s.server.Agrees (replay settings h) := by
  induction hr with
  | start => exact .refl _
  | next hr ha ih =>
    next h r t a =>
    have hagrees := ih hg.1
    rcases step_handled settings ha with ⟨hn, hq⟩ | ⟨e, he, -, hserver⟩
    · rw [replay, hn]
      exact (agrees_of_quiet hq).trans hagrees
    · rw [replay, he, hserver]
      simp only
      split
      · next hu => exact (agrees_of_untrusted settings hu (hg.2 e he hu)).trans hagrees
      · exact hagrees.onInteractorEvent settings e

/-- Untrusted responses go unobserved throughout a run exactly if each of them is idle,
and then subscribers and entitlements depend on the other events alone. -/
theorem authorization_integrity_iff {h : History System Action} {s : System}
    (hr : Runs settings h s) :
    (Throughout (Unobserved settings) h ↔ Throughout (IdleIfUntrusted settings) h) ∧
    (Throughout (IdleIfUntrusted settings) h → s.server.Agrees (replay settings h)) := by
  have hiff : Throughout (Unobserved settings) h ↔ Throughout (IdleIfUntrusted settings) h :=
    ⟨Throughout.imp fun h s a => (unobserved_iff settings h s a).mp,
      Throughout.imp fun h s a => (unobserved_iff settings h s a).mpr⟩
  exact ⟨hiff, fun hi => agrees_replay settings hr (hiff.mpr hi)⟩

/-- A client without the role `Authorize` that answers for a client nobody knows. -/
theorem authorization_integrity_unknown_client :
    ∃ h s, Runs (.uniform (.union .subscribe .publish) true) h s ∧
      events h = [some (.message ⟨2⟩ (.authorizationResponse ⟨⟨9⟩, "F", "T", false, none⟩)),
        none, none, some (.connected ⟨2⟩), none] ∧
      Throughout (Unobserved (.uniform (.union .subscribe .publish) true)) h := by
  obtain ⟨h, s, hr, hobs⟩ := exists_run_of_exec
    (step (.uniform (.union .subscribe .publish) true)) init
    [.accept ⟨2⟩, .process, .checkRead ⟨2⟩,
      .receive ⟨2⟩ (.authorizationResponse ⟨⟨9⟩, "F", "T", false, none⟩), .process]
    (fun x => (events x.1, x.1.all fun y => !decide (y.1.server.IsRegistered ⟨9⟩)))
    ([some (.message ⟨2⟩ (.authorizationResponse ⟨⟨9⟩, "F", "T", false, none⟩)),
        none, none, some (.connected ⟨2⟩), none], true) (by decide)
  simp only [Prod.mk.injEq, List.all_eq_true, Bool.not_eq_true', decide_eq_false_iff_not] at hobs
  obtain ⟨he, hun⟩ := hobs
  refine ⟨h, s, hr, he, (authorization_integrity_iff _ hr).1.mpr ?_⟩
  have hguard : ∀ y ∈ h, ¬ y.1.server.IsRegistered ⟨9⟩ ∧ ∀ i x,
      y.1.handled y.2 = some (.message i (.authorizationResponse x)) → x.clientId = ⟨9⟩ := by
    intro y hy
    refine ⟨hun y hy, fun i x hx => ?_⟩
    have hmem : some (Event.message i (.authorizationResponse x)) ∈ events h :=
      hx ▸ List.mem_map_of_mem hy
    rw [he] at hmem
    simp only [List.mem_cons, Option.some.injEq, Event.message.injEq,
      Message.authorizationResponse.injEq, reduceCtorEq, List.not_mem_nil, or_false] at hmem
    rw [hmem.2]
  apply (throughout_of_forall_mem (G := fun (r : System) (a : Action) =>
    ¬ r.server.IsRegistered ⟨9⟩ ∧ ∀ i x,
      r.handled a = some (.message i (.authorizationResponse x)) → x.clientId = ⟨9⟩) hguard).imp
  intro _ r a hg i x hx _ hreg
  rw [hg.2 i x hx] at hreg
  exact absurd hreg hg.1

/-- A client without the role `Authorize` subscribes another client. -/
theorem untrusted_response_subscribes :
    ¬ ∀ (settings : Settings) h s, Runs settings h s → Throughout (Unobserved settings) h := by
  intro hclaim
  obtain ⟨h, s, hr, hobs⟩ := exists_run_of_exec
    (step (.uniform (.union .subscribe .publish) true)) init
    [.accept ⟨1⟩, .accept ⟨2⟩, .process, .process, .checkRead ⟨2⟩,
      .receive ⟨2⟩ (.authorizationResponse ⟨⟨1⟩, "F", "T", false, none⟩), .process]
    (fun x => x.1.head?.map fun y => (y.1.handled y.2, y.1.server.entry ⟨1⟩ "F" "T",
      ((y.1.server.onInteractorEvent (.uniform (.union .subscribe .publish) true)
        (.message ⟨2⟩ (.authorizationResponse ⟨⟨1⟩, "F", "T", false, none⟩))).1.entry
          ⟨1⟩ "F" "T")))
    (some (some (.message ⟨2⟩ (.authorizationResponse ⟨⟨1⟩, "F", "T", false, none⟩)),
      none, some ⟨0, .new false none⟩)) (by decide)
  cases h with
  | nil => cases hobs
  | cons y h =>
    simp only [List.head?_cons, Option.map_some, Option.some.injEq, Prod.mk.injEq] at hobs
    obtain ⟨he, hbefore, hafter⟩ := hobs
    have hsame := (hclaim _ _ s hr).2 _ he rfl
    have hentry := congrFun (congrFun (congrFun (congrArg Observables.entry hsame) ⟨1⟩) "F") "T"
    simp only [Server.observables, hbefore, hafter] at hentry
    cases hentry

end System

end MessageBus.Distributor
