import MessageBus.Distributor.ReferenceCount

/-!
# Responses that come late

Where authorization is required, a request to subscribe is answered some time later, and
nothing records that it is pending. A request to unsubscribe is applied at once to
whatever is stored, so a response that comes after it still subscribes the client. An
entry that a response makes starts at zero, so the request to unsubscribe that should end
it does not.
-/

namespace MessageBus.Distributor
open MessageBus.Base MessageBus.Common MessageBus.Messages

namespace System

variable (settings : Settings)

/-- A client whose requests have all been cancelled is not subscribed. -/
def CancelledStaysOut (c : Guid) (f t : String) (h : History System Action) (s : System) : Prop :=
  requested c f t h = 0 →
    c ∉ (s.server.subscriptionRepository.getSubscribersToFeedAndTopic f t).map Prod.fst

/-- The step grants nothing to a client without an entry that awaits no response, and the
request that cancels the last outstanding one ends an entry whose count is one. -/
structure Timely (c : Guid) (f t : String) (h : History System Action) (s : System) (a : Action) :
    Prop where
  awaited : ∀ i r, s.handled a = some (.message i (.authorizationResponse r)) →
    s.server.IsRegistered c → Server.IsFor r c f t → Server.isDenial r = false →
    s.server.entry c f t = none → 0 < requested c f t h
  last : s.handled a = some (.message c (.subscriptionRequest ⟨f, t, false⟩)) →
    requested c f t h = 1 → ∀ state, s.server.entry c f t = some state →
    settings.hasRole c f .subscribe = true ∧ state.count = 1

private theorem cancelledStaysOut_iff {c : Guid} {f t : String} {h : History System Action}
    {s : System} :
    CancelledStaysOut c f t h s ↔ (requested c f t h = 0 → s.server.entry c f t = none) := by
  rw [CancelledStaysOut, mem_subscribers_iff, Option.not_isSome_iff_eq_none]

-- An event is timely if it neither grants nor removes.
private theorem timely_of_other {c : Guid} {f t : String} {h : History System Action}
    {s : System} {a : Action} {e : Event} (he : s.handled a = some e)
    (hgrant : ∀ r, Server.accepted settings s.server e = some r → Server.IsFor r c f t →
      Server.isDenial r = true)
    (hremove : e ≠ .message c (.subscriptionRequest ⟨f, t, false⟩)) :
    Timely settings c f t h s a := by
  constructor
  · intro i r he' hreg hk hd
    rw [he] at he'
    cases he'
    rw [hgrant r (if_pos (hk.1 ▸ hreg)) hk] at hd
    cases hd
  · intro he'
    rw [he] at he'
    exact absurd (Option.some.inj he') hremove

-- A grant keeps cancelled requests out exactly if it is awaited.
private theorem timely_of_grant_iff {c : Guid} {f t : String} {h : History System Action}
    {s : System} {a : Action} {i : Guid} {r : AuthorizationResponse}
    (he : s.handled a = some (.message i (.authorizationResponse r)))
    (hreg : s.server.IsRegistered c) (hk : Server.IsFor r c f t)
    (hd : Server.isDenial r = false)
    (hp : requested c f t h = 0 → s.server.entry c f t = none) :
    requested c f t h ≠ 0 ↔ Timely settings c f t h s a := by
  constructor
  · intro hne
    refine ⟨fun _ _ _ _ _ _ _ => Nat.pos_of_ne_zero hne, fun he' => ?_⟩
    rw [he] at he'
    cases he'
  · intro hg hz
    have hpos := hg.awaited i r he hreg hk hd (hp hz)
    omega

-- A request to unsubscribe keeps cancelled requests out exactly if the last one ends the entry.
private theorem timely_of_remove_iff {c : Guid} {f t : String} {h : History System Action}
    {s : System} {a : Action}
    (he : s.handled a = some (.message c (.subscriptionRequest ⟨f, t, false⟩)))
    (hp : requested c f t h = 0 → s.server.entry c f t = none) :
    (requested c f t h - 1 = 0 → ∀ state, s.server.entry c f t = some state →
      settings.hasRole c f .subscribe = true ∧ state.count = 1) ↔ Timely settings c f t h s a := by
  constructor
  · intro hlast
    refine ⟨fun i r he' => (by rw [he] at he'; cases he'), fun _ hone => hlast (by omega)⟩
  · intro hg hz state hentry
    have hne : requested c f t h ≠ 0 := fun h0 => by
      rw [hp h0] at hentry
      cases hentry
    exact hg.last he (by omega) state hentry

variable {settings} in
-- The step lemma: from a state in which cancelled requests stay out, exactly the timely events lead
-- to another.
private theorem cancelled_step_iff {c : Guid} {f t : String} {h : History System Action}
    {s s' : System} {a : Action} {e : Event}
    (hreq : settings.distributorRole.isAuthorizationRequired = true)
    (hp : requested c f t h = 0 → s.server.entry c f t = none) (he : s.handled a = some e)
    (hs : s'.server = (s.server.onInteractorEvent settings e).1) :
    (requested c f t ((s, a) :: h) = 0 → s'.server.entry c f t = none) ↔
      Timely settings c f t h s a := by
  rw [hs, entry_onInteractorEvent, requested_cons c f t h he]
  cases hask : asked c f t e with
  | some isAdd =>
    obtain rfl := asked_eq_some_iff.mp hask
    cases isAdd with
    | true =>
      refine iff_of_true (fun hz => absurd hz (Nat.succ_ne_zero _))
        (timely_of_other settings he ?_ (by simp))
      intro r hacc
      rcases accepted_cases settings hacc with ⟨i, hi⟩ | ⟨-, hfalse, -⟩
      · cases hi
      · rw [hreq] at hfalse
        cases hfalse
    | false =>
      rw [← timely_of_remove_iff settings he hp]
      apply forall_congr'
      intro _
      cases hrole : settings.hasRole c f .subscribe with
      | true =>
        rw [entryChange_of_remove settings s.server hrole, EntryChange.apply,
          SubscriptionRepository.removed_eq_none_iff]
        simp
      | false =>
        -- The request is rejected, so an entry stays.
        have hkeep : Server.entryChange settings s.server
            (.message c (.subscriptionRequest ⟨f, t, false⟩)) c f t = .keep := by
          rw [Server.entryChange, accepted_of_remove, Server.ownChange, Server.requestChange,
            if_neg fun h => by rw [hrole] at h; cases h.2.2.2]
        rw [hkeep, EntryChange.apply, Option.eq_none_iff_forall_ne_some]
        simp
  | none =>
    have hremove : e ≠ .message c (.subscriptionRequest ⟨f, t, false⟩) := by
      rintro rfl
      simp [asked] at hask
    rcases entryChange_cases settings s.server e c f t with ⟨r, hacc, hk, hd, hchange⟩ |
      ⟨r, rfl, -⟩ | ⟨rfl, -⟩ | ⟨hd, hchange⟩ | hchange
    · rcases accepted_cases settings hacc with ⟨i, rfl⟩ | ⟨-, hfalse, -⟩
      · have hreg : s.server.IsRegistered c := hk.1 ▸ (Server.update_of_accepted settings hacc).1
        rw [← timely_of_grant_iff settings he hreg hk hd hp, hchange, EntryChange.apply]
        simp
      · rw [hreq] at hfalse
        cases hfalse
    · simp [asked] at hask
    · exact absurd rfl hremove
    · rw [hchange]
      refine iff_of_true (fun _ => rfl) (timely_of_other settings he ?_ hremove)
      intro r hacc
      cases e with
      | message i m => cases hd
      | _ => cases hacc
    · rw [hchange]
      refine iff_of_true hp (timely_of_other settings he ?_ hremove)
      intro r hacc hk
      rw [Server.entryChange, hacc] at hchange
      simpa [hk] using hchange

/-- Where authorization is required, a client whose requests have all been cancelled stays
out throughout a run exactly if every step is timely. -/
theorem cancelled_stays_out_iff (hreq : settings.distributorRole.isAuthorizationRequired = true)
    (c : Guid) (f t : String) {h : History System Action} {s : System} (hr : Runs settings h s) :
    Always (CancelledStaysOut c f t) h s ↔ Throughout (Timely settings c f t) h := by
  apply Run.always_iff_throughout_of_step hr
  · rw [cancelledStaysOut_iff]
    exact fun _ => rfl
  intro h r a t' hr hp ha
  rw [cancelledStaysOut_iff] at hp ⊢
  rcases step_handled settings ha with ⟨hn, hq⟩ | ⟨e, he, -, hserver⟩
  · rw [hq.entry, requested_cons_of_quiet c f t h hn]
    exact iff_of_true hp ⟨fun i r he' => (by rw [hn] at he'; cases he'),
      fun he' => (by rw [hn] at he'; cases he')⟩
  · exact cancelled_step_iff hreq hp he hserver

/-- An unsolicited denial does not subscribe. -/
theorem cancelled_stays_out_of_denial :
    ∃ h s, Runs (.permissive true) h s ∧
      events h = [some (.message ⟨1⟩ (.authorizationResponse ⟨⟨1⟩, "F", "T", true, none⟩)),
        none, none, some (.connected ⟨1⟩), none] ∧
      Always (CancelledStaysOut ⟨1⟩ "F" "T") h s := by
  obtain ⟨h, s, hr, he⟩ := exists_run_of_exec (step (.permissive true)) init
    [.accept ⟨1⟩, .process, .checkRead ⟨1⟩,
      .receive ⟨1⟩ (.authorizationResponse ⟨⟨1⟩, "F", "T", true, none⟩), .process]
    (fun x => events x.1)
    [some (.message ⟨1⟩ (.authorizationResponse ⟨⟨1⟩, "F", "T", true, none⟩)), none, none,
      some (.connected ⟨1⟩), none] rfl
  have he : events h = _ := he
  refine ⟨h, s, hr, he, (cancelled_stays_out_iff (.permissive true) rfl ⟨1⟩ "F" "T" hr).mpr ?_⟩
  have hevents : Throughout (fun _ r a =>
      (∀ i x, r.handled a = some (.message i (.authorizationResponse x)) →
        Server.isDenial x = true) ∧
      r.handled a ≠ some (.message ⟨1⟩ (.subscriptionRequest ⟨"F", "T", false⟩))) h := by
    apply throughout_of_events (G := fun e =>
      (∀ i x, e = some (.message i (.authorizationResponse x)) → Server.isDenial x = true) ∧
      e ≠ some (.message ⟨1⟩ (.subscriptionRequest ⟨"F", "T", false⟩)))
    simp [he, Server.isDenial]
  apply hevents.imp
  intro _ r a hg
  refine ⟨fun i x he' _ _ hd => ?_, fun hremove => absurd hremove hg.2⟩
  rw [hg.1 i x he'] at hd
  cases hd

/-- A response that comes after the request was cancelled subscribes the client. -/
theorem subscribed_after_late_response :
    ¬ ∀ (settings : Settings), settings.distributorRole.isAuthorizationRequired = true →
      ∀ (c : Guid) (f t : String) h s, Runs settings h s →
        Always (CancelledStaysOut c f t) h s := by
  intro hclaim
  obtain ⟨h, s, hr, hobs⟩ := exists_run_of_exec (step (.permissive true)) init
    [.accept ⟨1⟩, .process, .accept ⟨2⟩, .process, .checkRead ⟨1⟩,
      .receive ⟨1⟩ (.subscriptionRequest ⟨"F", "T", true⟩), .process, .checkRead ⟨1⟩,
      .receive ⟨1⟩ (.subscriptionRequest ⟨"F", "T", false⟩), .process, .checkRead ⟨2⟩,
      .receive ⟨2⟩ (.authorizationResponse ⟨⟨1⟩, "F", "T", false, none⟩), .process]
    (fun x => ((x.2.server.entry ⟨1⟩ "F" "T").isSome, requested ⟨1⟩ "F" "T" x.1))
    (true, 0) (by decide)
  simp only [Prod.mk.injEq] at hobs
  obtain ⟨hentry, hrc⟩ := hobs
  have hout := (hclaim (.permissive true) rfl ⟨1⟩ "F" "T" h s hr).last
  rw [cancelledStaysOut_iff, hrc] at hout
  rw [hout rfl] at hentry
  cases hentry

end System

end MessageBus.Distributor
