import MessageBus.Distributor.Sends
import MessageBus.Distributor.Steps

/-!
# Entitlements in force

Data reaches a client through the filter of the authorization in its subscription entry.
That authorization should be the one that was granted last; but a denial does not touch
the entry, and the cache that fills new entries is refreshed only while nothing is
cached under the feed as a topic.
-/

namespace MessageBus.Distributor
open MessageBus.Base MessageBus.Common MessageBus.Messages

/-- An authorization allows no more than another. -/
def AuthorizationInfo.Within (x y : AuthorizationInfo) : Prop :=
  y.isAuthorizationRequired = true →
    x.isAuthorizationRequired = true ∧ ∀ e ∈ x.entitlements, e ∈ y.entitlements

/-- Every authorization is within itself. -/
theorem AuthorizationInfo.Within.refl (x : AuthorizationInfo) : x.Within x :=
  fun h => ⟨h, fun _ he => he⟩

/-- The data packets for a feed and topic that a message carries to a client. -/
def packetsOn (f t : String) : Message → List DataPacket
  | .forwardedMulticastData m =>
    if m.feed = f ∧ m.topic = t then m.dataPackets.getD [] else []
  | .forwardedUnicastData m =>
    if m.feed = f ∧ m.topic = t then m.dataPackets.getD [] else []
  | _ => []

namespace Server

variable (settings : Settings)

/-- What the subscription entry of a client lets through. -/
def Admits (s : Server) (c : Guid) (f t : String) (packet : DataPacket) : Prop :=
  ∃ state, s.entry c f t = some state ∧
    (state.authorizationInfo.isAuthorizationRequired = true →
      packet.isAuthorized state.authorizationInfo.entitlements = true)

private theorem packetsOn_of_isNotice {m : Message} (h : IsNotice m) (f t : String) :
    packetsOn f t m = [] := by
  cases m with
  | forwardedMulticastData m =>
    obtain ⟨feed, topic, hm⟩ := h
    rw [hm, noData, packetsOn]
    split <;> rfl
  | forwardedUnicastData m =>
    obtain ⟨feed, topic, hm⟩ := h
    cases hm
  | _ => rfl

private theorem admits_of_mem {s : Server} {c : Guid} {f t : String} {info : AuthorizationInfo}
    {dataPackets : Option (List DataPacket)} {packet : DataPacket}
    (hs : (c, info) ∈ s.subscriptionRepository.getSubscribersToFeedAndTopic f t)
    (hp : packet ∈ (getAuthorizedData dataPackets info).getD []) : s.Admits c f t packet := by
  obtain ⟨state, hentry, rfl⟩ := SubscriptionRepository.mem_getSubscribersToFeedAndTopic.mp hs
  refine ⟨state, hentry, fun hrequired => ?_⟩
  cases hd : getAuthorizedData dataPackets state.authorizationInfo with
  | none =>
    rw [hd] at hp
    cases hp
  | some packets =>
    rw [hd] at hp
    exact isAuthorized_of_mem_getAuthorizedData hrequired hd hp

/-- Every data packet sent to a client passes the filter of its own entry. -/
theorem admits_of_mem_sends {s : Server} {e : Event} {c : Guid} {m : Message} {f t : String}
    {packet : DataPacket} (h : (c, m) ∈ sends settings s e) (hp : packet ∈ packetsOn f t m) :
    s.Admits c f t packet := by
  rcases mem_sends_cases settings h with hn | ⟨i, data, info, -, -, hs, rfl⟩ |
    ⟨i, data, info, -, -, -, hs, rfl⟩
  · rw [packetsOn_of_isNotice hn] at hp
    cases hp
  · obtain ⟨⟨rfl, rfl⟩, hpacket⟩ := List.mem_ite_nil_right.mp hp
    exact admits_of_mem hs hpacket
  · obtain ⟨⟨rfl, rfl⟩, hpacket⟩ := List.mem_ite_nil_right.mp hp
    exact admits_of_mem hs hpacket

end Server

namespace System

variable (settings : Settings)

/-- The response that a step makes the distributor accept. -/
def acceptedBy (s : System) (a : Action) : Option AuthorizationResponse :=
  (s.handled a).bind (Server.accepted settings s.server)

/-- The most recent response accepted for a client, feed and topic. -/
def latest (c : Guid) (f t : String) : History System Action → Option AuthorizationResponse
  | [] => none
  | (s, a) :: h =>
    match acceptedBy settings s a with
    | some r => if Server.IsFor r c f t then some r else latest c f t h
    | none => latest c f t h

/-- Every data packet that the step delivers to the client is within the entitlements of
the most recent response, if that requires authorization. -/
def DeliversEntitled (c : Guid) (f t : String) (h : History System Action) (s : System)
    (a : Action) : Prop :=
  ∀ r, latest settings c f t h = some r → r.isAuthorizationRequired = true →
    ∀ m ∈ delivered settings c s a, ∀ packet ∈ packetsOn f t m,
      ∃ entitlements, packet.entitlements = some entitlements ∧
        ∀ e ∈ entitlements, e ∈ r.entitlements.getD ∅

/-- A response that the step accepts for the client, feed and topic finds no wider
authorization where it will not be stored: in the cache, if something is cached under the
feed as a topic, and in the entry, if it is a denial. -/
structure Heeded (c : Guid) (f t : String) (_ : History System Action) (s : System) (a : Action) :
    Prop where
  cached : ∀ r, acceptedBy settings s a = some r → Server.IsFor r c f t →
    s.server.cached c f f ≠ none → ∀ x, s.server.cached c f t = some x →
    (AuthorizationInfo.ofResponse x).Within (.ofResponse r)
  denied : ∀ r, acceptedBy settings s a = some r → Server.IsFor r c f t →
    Server.isDenial r = true → ∀ state, s.server.entry c f t = some state →
    state.authorizationInfo.Within (.ofResponse r)

/-- Neither the entry nor the cache allows more than the most recent response. -/
structure InForce (c : Guid) (f t : String) (h : History System Action) (s : System) : Prop where
  entry : ∀ r, latest settings c f t h = some r → ∀ state, s.server.entry c f t = some state →
    state.authorizationInfo.Within (.ofResponse r)
  cached : ∀ r, latest settings c f t h = some r → ∀ x, s.server.cached c f t = some x →
    (AuthorizationInfo.ofResponse x).Within (.ofResponse r)

private theorem inForce_init (c : Guid) (f t : String) : InForce settings c f t [] init :=
  ⟨fun r h => (by cases h), fun r h => (by cases h)⟩

-- The authorization of an entry after a step that accepts no response: that of the entry
-- before, or of the cache.
private theorem info_of_not_accepted {s : Server} {e : Event} {c : Guid} {f t : String}
    (hn : Server.accepted settings s e = none) {state : SubscriptionState}
    (h : (s.onInteractorEvent settings e).1.entry c f t = some state) :
    (∃ old, s.entry c f t = some old ∧ state.authorizationInfo = old.authorizationInfo) ∨
    ∃ x, s.cached c f t = some x ∧ state.authorizationInfo = .ofResponse x := by
  rw [entry_onInteractorEvent] at h
  rcases entryChange_cases settings s e c f t with ⟨x, hx, -⟩ | ⟨x, -, -, hx, hchange⟩ |
    ⟨-, -, hchange⟩ | ⟨-, hchange⟩ | hchange
  · rw [hn] at hx
    cases hx
  · rw [hchange] at h
    cases h
    cases hentry : s.entry c f t with
    | none => exact .inr ⟨x, hx, rfl⟩
    | some old => exact .inl ⟨old, rfl, rfl⟩
  · rw [hchange] at h
    cases hentry : s.entry c f t with
    | none =>
      rw [hentry] at h
      cases h
    | some old =>
      rw [hentry] at h
      obtain ⟨-, ⟨⟩⟩ := Option.ite_none_left_eq_some.mp h
      exact .inl ⟨old, rfl, rfl⟩
  · rw [hchange] at h
    cases h
  · rw [hchange] at h
    exact .inl ⟨state, h, rfl⟩

variable {settings} in
-- The step lemma: a heeded response keeps what is in force within it.
private theorem inForce_step {c : Guid} {f t : String} {h : History System Action}
    {s s' : System} {a : Action} (hi : InForce settings c f t h s)
    (hg : Heeded settings c f t h s a) (ha : step settings s a = some s') :
    InForce settings c f t ((s, a) :: h) s' := by
  rcases step_handled settings ha with ⟨hn, hq⟩ | ⟨e, he, -, hserver⟩
  · have hlatest : latest settings c f t ((s, a) :: h) = latest settings c f t h := by
      rw [latest, acceptedBy, hn]
      rfl
    constructor
    · rw [hlatest, hq.entry]
      exact hi.entry
    · rw [hlatest, hq.cached]
      exact hi.cached
  have hby : acceptedBy settings s a = Server.accepted settings s.server e := by
    rw [acceptedBy, he]
    rfl
  cases hacc : Server.accepted settings s.server e with
  | none =>
    have hlatest : latest settings c f t ((s, a) :: h) = latest settings c f t h := by
      rw [latest, hby, hacc]
    constructor
    · intro r hr state hentry
      rw [hlatest] at hr
      rw [hserver] at hentry
      rcases info_of_not_accepted settings hacc hentry with ⟨old, hold, heq⟩ | ⟨x, hx, heq⟩
      · rw [heq]
        exact hi.entry r hr old hold
      · rw [heq]
        exact hi.cached r hr x hx
    · rw [hlatest, hserver, cached_onInteractorEvent, hacc]
      exact hi.cached
  | some x =>
    have hlatest : latest settings c f t ((s, a) :: h) =
        if Server.IsFor x c f t then some x else latest settings c f t h := by
      rw [latest, hby, hacc]
    by_cases hk : Server.IsFor x c f t
    · rw [if_pos hk] at hlatest
      constructor
      · intro r hr state hentry
        rw [hlatest] at hr
        cases hr
        rw [hserver, entry_onInteractorEvent, Server.entryChange, hacc] at hentry
        cases hd : Server.isDenial x with
        | false =>
          simp only [hk, hd, and_self, if_true] at hentry
          cases hentry
          exact .refl _
        | true =>
          simp only [hd, Bool.true_eq_false, and_false, if_false] at hentry
          exact hg.denied x (hby.trans hacc) hk hd state hentry
      · intro r hr y hy
        rw [hlatest] at hr
        cases hr
        rw [hserver, cached_onInteractorEvent, hacc] at hy
        simp only [hk, true_and] at hy
        split at hy
        · cases hy
          exact .refl _
        · next hff => exact hg.cached x (hby.trans hacc) hk hff y hy
    · rw [if_neg hk] at hlatest
      constructor
      · rw [hlatest, hserver, entry_onInteractorEvent, Server.entryChange, hacc]
        simp only [hk, false_and, if_false]
        exact hi.entry
      · rw [hlatest, hserver, cached_onInteractorEvent, hacc]
        simp only [hk, false_and, if_false]
        exact hi.cached

/-- In a run that heeds every response for a client, feed and topic, the client receives
no packet that the most recent response does not entitle it to. -/
theorem deliversEntitled_of_heeded (c : Guid) (f t : String) {h : History System Action}
    {s : System} (hr : Runs settings h s) (hg : Throughout (Heeded settings c f t) h) :
    Throughout (DeliversEntitled settings c f t) h := by
  have hforce : Always (InForce settings c f t) h s :=
    hr.always_of_throughout (inForce_init settings c f t)
      (fun _ _ _ _ _ hi hg ha => inForce_step hi hg ha) hg
  apply hforce.throughout
  intro h r a hi x hx hrequired m hm packet hp
  unfold delivered at hm
  split at hm
  · split at hm
    · obtain ⟨state, hentry, hauth⟩ :=
        Server.admits_of_mem_sends settings (mem_addressed.mp hm) hp
      obtain ⟨hreq, hwithin⟩ := hi.entry x hx state hentry hrequired
      obtain ⟨entitlements, hent, hall⟩ := DataPacket.isAuthorized_iff.mp (hauth hreq)
      exact ⟨entitlements, hent, fun e he => hwithin e (hall e he)⟩
    · cases hm
  · cases hm

/-- A client that is granted one entitlement, and then sent packets that need it and
another. -/
theorem deliversEntitled_of_grant :
    ∃ h s, Runs (.permissive true) h s ∧
      events h = [some (.message ⟨2⟩ (.multicastData ⟨"F", "T", "text",
          some [⟨some (.addAll ∅ [1]), none⟩, ⟨some (.addAll ∅ [2]), none⟩]⟩)),
        none, none,
        some (.message ⟨2⟩ (.authorizationResponse ⟨⟨1⟩, "F", "T", true, some (.addAll ∅ [1])⟩)),
        none, none, some (.connected ⟨2⟩), some (.connected ⟨1⟩), none, none] ∧
      Throughout (DeliversEntitled (.permissive true) ⟨1⟩ "F" "T") h := by
  obtain ⟨h, s, hr, hobs⟩ := exists_run_of_exec (step (.permissive true)) init
    [.accept ⟨1⟩, .accept ⟨2⟩, .process, .process, .checkRead ⟨2⟩,
      .receive ⟨2⟩ (.authorizationResponse ⟨⟨1⟩, "F", "T", true, some (.addAll ∅ [1])⟩), .process,
      .checkRead ⟨2⟩,
      .receive ⟨2⟩ (.multicastData ⟨"F", "T", "text",
        some [⟨some (.addAll ∅ [1]), none⟩, ⟨some (.addAll ∅ [2]), none⟩]⟩), .process]
    (fun x => (events x.1, x.1.all fun y => (acceptedBy (.permissive true) y.1 y.2).isNone ||
      ((y.1.server.cached ⟨1⟩ "F" "F").isNone && (y.1.server.entry ⟨1⟩ "F" "T").isNone)))
    ([some (.message ⟨2⟩ (.multicastData ⟨"F", "T", "text",
          some [⟨some (.addAll ∅ [1]), none⟩, ⟨some (.addAll ∅ [2]), none⟩]⟩)),
        none, none,
        some (.message ⟨2⟩ (.authorizationResponse ⟨⟨1⟩, "F", "T", true, some (.addAll ∅ [1])⟩)),
        none, none, some (.connected ⟨2⟩), some (.connected ⟨1⟩), none, none], true) (by decide)
  simp only [Prod.mk.injEq, List.all_eq_true, Bool.or_eq_true, Bool.and_eq_true,
    Option.isNone_iff_eq_none] at hobs
  refine ⟨h, s, hr, hobs.1, deliversEntitled_of_heeded (.permissive true) ⟨1⟩ "F" "T" hr ?_⟩
  apply (throughout_of_forall_mem (G := fun s a => acceptedBy (.permissive true) s a = none ∨
    s.server.cached ⟨1⟩ "F" "F" = none ∧ s.server.entry ⟨1⟩ "F" "T" = none) hobs.2).imp
  intro _ r a hg
  constructor
  · intro x hx _ hne
    rcases hg with hg | hg
    · rw [hg] at hx
      cases hx
    · exact absurd hg.1 hne
  · intro x hx _ _ state hentry
    rcases hg with hg | hg
    · rw [hg] at hx
      cases hx
    · rw [hg.2] at hentry
      cases hentry

/-- A client whose entitlement was revoked is still sent a packet that needs it. -/
theorem delivers_after_revocation :
    ¬ ∀ (settings : Settings), settings.distributorRole.isAuthorizationRequired = true →
      ∀ (c : Guid) (f t : String) h s, Runs settings h s →
        Throughout (DeliversEntitled settings c f t) h := by
  intro hclaim
  obtain ⟨h, s, hr, hobs⟩ := exists_run_of_exec (step (.permissive true)) init
    [.accept ⟨1⟩, .accept ⟨2⟩, .process, .process, .checkRead ⟨2⟩,
      .receive ⟨2⟩ (.authorizationResponse ⟨⟨1⟩, "F", "T", true, some (.addAll ∅ [1])⟩), .process,
      .checkRead ⟨2⟩,
      .receive ⟨2⟩ (.authorizationResponse ⟨⟨1⟩, "F", "T", true, none⟩), .process,
      .checkRead ⟨2⟩,
      .receive ⟨2⟩ (.multicastData ⟨"F", "T", "text", some [⟨some (.addAll ∅ [1]), none⟩]⟩),
      .process]
    (fun x => x.1.head?.map fun y => (latest (.permissive true) ⟨1⟩ "F" "T" x.1.tail,
      delivered (.permissive true) ⟨1⟩ y.1 y.2))
    (some (some ⟨⟨1⟩, "F", "T", true, none⟩,
      [.forwardedMulticastData ⟨"user", "host", "F", "T", "text",
        some [⟨some (.addAll ∅ [1]), none⟩]⟩])) (by decide)
  cases h with
  | nil => cases hobs
  | cons y h =>
    simp only [List.head?_cons, Option.map_some, List.tail_cons, Option.some.injEq,
      Prod.mk.injEq] at hobs
    have hlast := (hclaim (.permissive true) rfl ⟨1⟩ "F" "T" _ s hr).2
    obtain ⟨entitlements, hent, hall⟩ := hlast _ hobs.1 rfl _
      (by rw [hobs.2]; exact List.mem_singleton_self _)
      ⟨some (.addAll ∅ [1]), none⟩ (by simp [packetsOn])
    cases hent
    exact absurd (hall 1 (by decide)) (HashSet.notMem_empty _)

end System

end MessageBus.Distributor
