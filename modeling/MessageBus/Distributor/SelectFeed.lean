import MessageBus.Distributor.Notices
import MessageBus.Distributor.ReferenceCount

/-!
# The select feed

A notifiable publisher keeps its own count of the subscriptions of a client, from the
notices that the distributor sends it (`documents/articles/selectfeed.md`). The two counts
are kept apart: every grant is announced as an addition, also where the distributor does
not count it, a late notifiable is told of a subscriber once whatever its count, and so is
every notifiable when a subscriber goes. A notifiable whose token is no longer live is still
registered until it is closed, and is sent nothing: what is announced then is lost.
-/

namespace MessageBus.Distributor
open MessageBus.Base MessageBus.Common MessageBus.Messages

/-- The count that a notifiable keeps, zero where it has no entry: `AddSubscription` and
`RemoveSubscription` of the select feed, `selectfeed.md:106–166`. -/
def countNotice (n : Nat) : Bool → Nat
  | true => n + 1
  | false => n - 1

namespace System

variable (settings : Settings)

/-- The count that a notifiable has of a client and topic, from the notices that were put on
its write queue since it was registered on the feed. -/
def view (n c : Guid) (f t : String) : History System Action → Nat
  | [] => 0
  | (s, a) :: h => ((delivered settings n s a).filterMap (notice c f t)).foldl countNotice
      (if s.server.notificationRepository.IsNotifiable n f then view n c f t h else 0)

/-- A notifiable has an entry for the client exactly if the client is subscribed. -/
def InStep (n c : Guid) (f t : String) (h : History System Action) (s : System) : Prop :=
  s.server.notificationRepository.IsNotifiable n f →
    (0 < view settings n c f t h ↔
      c ∈ (s.server.subscriptionRepository.getSubscribersToFeedAndTopic f t).map Prod.fst)

/-- The event subscribes the client: it accepts a grant for it, or the client asks with an
authorization cached. -/
def Subscribes (s : Server) (e : Event) (c : Guid) (f t : String) : Prop :=
  (∃ r, Server.accepted settings s e = some r ∧ Server.IsFor r c f t ∧
    Server.isDenial r = false) ∨
  e = .message c (.subscriptionRequest ⟨f, t, true⟩) ∧
    settings.hasRole c f .subscribe = true ∧ (s.cached c f t).isSome

/-- The interactor is notifiable on the feed, and its token is live. -/
def IsTold (s : System) (n : Guid) (f : String) : Prop :=
  s.server.notificationRepository.IsNotifiable n f ∧ (s.server.objects n).tokenSource = .live

/-- The interactor is notifiable on the feed, and its token is not live. -/
def IsDeaf (s : System) (n : Guid) (f : String) : Prop :=
  s.server.notificationRepository.IsNotifiable n f ∧ (s.server.objects n).tokenSource ≠ .live

/-- Where a removal finds an entry, a notifiable that is told of it counts one exactly if the
distributor does; where the client is closed, it counts one. What a notifiable is not told of
leaves the client subscribed or unsubscribed as it was. -/
structure KeepsStep (n c : Guid) (f t : String) (h : History System Action) (s : System)
    (a : Action) : Prop where
  remove : s.handled a = some (.message c (.subscriptionRequest ⟨f, t, false⟩)) →
    settings.hasRole c f .subscribe = true → s.IsTold n f →
    ∀ state, s.server.entry c f t = some state →
    (view settings n c f t h = 1 ↔ state.count = 1)
  close : ∀ e, s.handled a = some e → e.disposes = some c → c ≠ n → s.IsTold n f →
    (s.server.entry c f t).isSome → view settings n c f t h = 1
  missedAdd : ∀ e, s.handled a = some e → Subscribes settings s.server e c f t →
    s.IsDeaf n f → (s.server.entry c f t).isSome
  missedRemove : s.handled a = some (.message c (.subscriptionRequest ⟨f, t, false⟩)) →
    settings.hasRole c f .subscribe = true → s.IsDeaf n f →
    ∀ state, s.server.entry c f t = some state → state.count ≠ 1
  missedClose : ∀ e, s.handled a = some e → e.disposes = some c → c ≠ n → s.IsDeaf n f →
    s.server.entry c f t = none
  missedSnapshot : s.handled a = some (.message n (.notificationRequest ⟨f, true⟩)) →
    ¬ s.server.notificationRepository.IsNotifiable n f →
    (s.server.objects n).tokenSource ≠ .live → s.server.entry c f t = none

private theorem inStep_iff {n c : Guid} {f t : String} {h : History System Action} {s : System} :
    InStep settings n c f t h s ↔ (s.server.notificationRepository.IsNotifiable n f →
      (0 < view settings n c f t h ↔ (s.server.entry c f t).isSome)) := by
  rw [InStep, mem_subscribers_iff]

-- Additions only count up from what was there.
private theorem foldl_countNotice {bs : List Bool} (h : ∀ b ∈ bs, b = true) (k : Nat) :
    bs.foldl countNotice k = k + bs.length := by
  induction bs generalizing k with
  | nil => rfl
  | cons b bs ih =>
    obtain rfl := h b (List.mem_cons_self ..)
    rw [List.foldl_cons, ih (fun b hb => h b (List.mem_cons_of_mem _ hb)), List.length_cons]
    simp only [countNotice]
    omega

private theorem view_cons {n c : Guid} {f t : String} {h : History System Action} {s : System}
    {a : Action} {e : Event} (he : s.handled a = some e) :
    view settings n c f t ((s, a) :: h) =
      (if (s.server.objects n).tokenSource = .live ∧ e.disposes ≠ some n then
        told n c f t (Server.sends settings s.server e) else []).foldl countNotice
        (if s.server.notificationRepository.IsNotifiable n f then view settings n c f t h
          else 0) := by
  rw [view, delivered, he]
  dsimp only
  rw [apply_ite (List.filterMap (notice c f t))]
  rfl

private theorem view_cons_of_quiet {n c : Guid} {f t : String} {h : History System Action}
    {s : System} {a : Action} (he : s.handled a = none) :
    view settings n c f t ((s, a) :: h) =
      if s.server.notificationRepository.IsNotifiable n f then view settings n c f t h else 0 := by
  rw [view, delivered, he]
  rfl

private theorem event_of_asksNotice {n : Guid} {f : String} {e : Event} {isAdd : Bool} :
    Server.asksNotice n f e = some isAdd ↔ e = .message n (.notificationRequest ⟨f, isAdd⟩) := by
  constructor
  · intro h
    cases e with
    | message i m =>
      cases m with
      | notificationRequest m =>
        obtain ⟨⟨rfl, rfl⟩, hb⟩ := Option.ite_none_right_eq_some.mp h
        cases hb
        rfl
      | _ => cases h
    | _ => cases h
  · rintro rfl
    exact if_pos ⟨rfl, rfl⟩

-- A new notifiable is in step after the snapshot, unless it is not sent it.
private theorem inStep_of_new_iff {n c : Guid} {f t : String} {h : History System Action}
    {s : System} {a : Action} {e : Event} (he : s.handled a = some e)
    (hask : Server.asksNotice n f e = some true)
    (hn : ¬ s.server.notificationRepository.IsNotifiable n f) :
    (0 < view settings n c f t ((s, a) :: h) ↔ (s.server.entry c f t).isSome) ↔
      ((s.server.objects n).tokenSource ≠ .live → s.server.entry c f t = none) := by
  obtain rfl := event_of_asksNotice.mp hask
  rw [view_cons settings he, if_neg hn]
  by_cases hl : (s.server.objects n).tokenSource = .live
  · have htold := fun b => Server.told_of_new settings hask hn c t (b := b)
    rw [if_pos ⟨hl, by simp [Event.disposes]⟩, foldl_countNotice fun b hb => ((htold b).mp hb).1,
      Nat.zero_add, List.length_pos_iff_exists_mem]
    simp only [htold, exists_eq_left, true_iff]
    exact fun hl' => absurd hl hl'
  · rw [if_neg fun h => hl h.1]
    simp [hl]

/-- The effect of a change on the count of a notifiable and on the entry: what keeps them
in step. -/
theorem announced_inStep_iff {k : Nat} {entry : Option SubscriptionState}
    (hk : 0 < k ↔ entry.isSome) (change : EntryChange) :
    (0 < (Server.announced change entry).foldl countNotice k ↔ (change.apply entry).isSome) ↔
      (change = .remove → ∀ state, entry = some state → (k = 1 ↔ state.count = 1)) ∧
      (change = .close → entry.isSome → k = 1) := by
  cases change with
  | keep => simpa [Server.announced, EntryChange.apply] using hk
  | add info => simp [Server.announced, EntryChange.apply, countNotice]
  | grant info => simp [Server.announced, EntryChange.apply, countNotice]
  | remove =>
    cases entry with
    | none =>
      have hz : k = 0 := by simpa using hk
      simp [Server.announced, EntryChange.apply, SubscriptionRepository.removed, countNotice, hz]
    | some state =>
      have hpos : 0 < k := hk.mpr rfl
      have hremoved : (SubscriptionRepository.removed (some state) false).isSome ↔
          state.count ≠ 1 := by
        rw [Option.isSome_iff_ne_none, ne_eq, SubscriptionRepository.removed_eq_none_iff]
        simp
      simp only [Server.announced, List.foldl_cons, List.foldl_nil, countNotice,
        EntryChange.apply, hremoved, Option.some.injEq, forall_eq', true_implies, reduceCtorEq,
        false_implies, and_true]
      by_cases hcount : state.count = 1
      · simp only [hcount, ne_eq, not_true_eq_false, iff_false, iff_true]
        omega
      · simp only [hcount, ne_eq, not_false_eq_true, iff_true, iff_false]
        omega
  | close =>
    cases entry with
    | none =>
      have hz : k = 0 := by simpa using hk
      simp [Server.announced, EntryChange.apply, hz]
    | some state =>
      have hpos : 0 < k := hk.mpr rfl
      simp only [Server.announced, Option.isSome_some, if_true, List.foldl_cons, List.foldl_nil,
        countNotice, EntryChange.apply, Option.isSome_none, Bool.false_eq_true, iff_false,
        reduceCtorEq, false_implies, true_implies, true_and]
      omega

/-- A change that is not announced keeps step if it leaves an entry where there is one, and
none where there is none. -/
theorem missed_inStep_iff {k : Nat} {entry : Option SubscriptionState}
    (hk : 0 < k ↔ entry.isSome) (change : EntryChange) :
    (0 < k ↔ (change.apply entry).isSome) ↔
      ((∃ info, change = .add info ∨ change = .grant info) → entry.isSome) ∧
      (change = .remove → ∀ state, entry = some state → state.count ≠ 1) ∧
      (change = .close → entry = none) := by
  rw [hk]
  cases change with
  | keep => simp [EntryChange.apply]
  | add info => simp [EntryChange.apply]
  | grant info => simp [EntryChange.apply]
  | remove =>
    cases entry with
    | none => simp [EntryChange.apply, SubscriptionRepository.removed]
    | some state =>
      simp only [EntryChange.apply, Option.isSome_some, true_iff, Option.isSome_iff_ne_none,
        ne_eq, SubscriptionRepository.removed_eq_none_iff]
      simp
  | close => simp [EntryChange.apply, Option.isSome_iff_ne_none]

/-- An event subscribes the client if it adds to its entry. -/
theorem subscribes_iff {s : Server} {e : Event} {c : Guid} {f t : String} :
    Subscribes settings s e c f t ↔ ∃ info, Server.entryChange settings s e c f t = .add info ∨
      Server.entryChange settings s e c f t = .grant info := by
  constructor
  · rintro (⟨r, hr, hk⟩ | ⟨rfl, hrole, hc⟩)
    · refine ⟨.ofResponse r, .inr ?_⟩
      rw [Server.entryChange, hr]
      exact if_pos hk
    · obtain ⟨r, hr⟩ := Option.isSome_iff_exists.mp hc
      exact ⟨.ofResponse r, .inl (entryChange_of_add settings hrole hr)⟩
  · rintro ⟨info, hinfo⟩
    rcases entryChange_cases settings s e c f t with ⟨r, hr, hk, hd, -⟩ | ⟨r, he, hrole, hc, -⟩ |
      ⟨-, -, hk⟩ | ⟨-, hk⟩ | hk
    · exact .inl ⟨r, hr, hk, hd⟩
    · exact .inr ⟨he, hrole, by rw [hc]; rfl⟩
    · rw [hk] at hinfo
      simp at hinfo
    · rw [hk] at hinfo
      simp at hinfo
    · rw [hk] at hinfo
      simp at hinfo

private theorem entryChange_of_asksNotice {s : Server} {n : Guid} {f : String} {isAdd : Bool}
    (c : Guid) (f' t : String) : Server.entryChange settings s
      (.message n (.notificationRequest ⟨f, isAdd⟩)) c f' t = .keep := rfl

-- A step that handles no event keeps step.
private theorem keepsStep_of_quiet {n c : Guid} {f t : String} {h : History System Action}
    {s : System} {a : Action} (hn : s.handled a = none) : KeepsStep settings n c f t h s a := by
  have hnone (e : Event) : s.handled a ≠ some e := by
    rw [hn]
    simp
  exact ⟨fun he => absurd he (hnone _), fun e he => absurd he (hnone e),
    fun e he => absurd he (hnone e), fun he => absurd he (hnone _),
    fun e he => absurd he (hnone e), fun he => absurd he (hnone _)⟩

section keepsStep

variable {n c : Guid} {f t : String} {h : History System Action} {s : System} {a : Action}
  {e : Event} (he : s.handled a = some e)
include he

-- What keeps step of a notifiable that is told of the event.
private theorem keepsStep_iff_of_told (hn : s.IsTold n f) :
    KeepsStep settings n c f t h s a ↔
      (Server.entryChange settings s.server e c f t = .remove → ∀ state,
        s.server.entry c f t = some state → (view settings n c f t h = 1 ↔ state.count = 1)) ∧
      (Server.entryChange settings s.server e c f t = .close → c ≠ n →
        (s.server.entry c f t).isSome → view settings n c f t h = 1) := by
  have hdeaf : ¬ s.IsDeaf n f := fun hd => hd.2 hn.2
  rw [entryChange_eq_remove_iff, entryChange_eq_close_iff]
  constructor
  · intro hk
    refine ⟨?_, fun hd hne hs => hk.close e he hd hne hn hs⟩
    rintro ⟨rfl, hrole⟩ state hs
    exact hk.remove he hrole hn state hs
  · rintro ⟨hremove, hclose⟩
    refine ⟨fun he' hrole _ => hremove ⟨Option.some.inj (he.symm.trans he'), hrole⟩,
      fun e' he' hd hne _ => ?_, fun _ _ _ hd => absurd hd hdeaf, fun _ _ hd => absurd hd hdeaf,
      fun _ _ _ _ hd => absurd hd hdeaf, fun _ hn' => absurd hn.1 hn'⟩
    obtain rfl := Option.some.inj (he.symm.trans he')
    exact hclose hd hne

-- What keeps step of a notifiable that is not told of it.
private theorem keepsStep_iff_of_deaf (hn : s.IsDeaf n f) :
    KeepsStep settings n c f t h s a ↔
      ((∃ info, Server.entryChange settings s.server e c f t = .add info ∨
        Server.entryChange settings s.server e c f t = .grant info) →
          (s.server.entry c f t).isSome) ∧
      (Server.entryChange settings s.server e c f t = .remove → ∀ state,
        s.server.entry c f t = some state → state.count ≠ 1) ∧
      (Server.entryChange settings s.server e c f t = .close → c ≠ n →
        s.server.entry c f t = none) := by
  have htold : ¬ s.IsTold n f := fun ht => hn.2 ht.2
  rw [entryChange_eq_remove_iff, entryChange_eq_close_iff, ← subscribes_iff]
  constructor
  · intro hk
    refine ⟨fun hs => hk.missedAdd e he hs hn, ?_, fun hd hne => hk.missedClose e he hd hne hn⟩
    rintro ⟨rfl, hrole⟩ state hs
    exact hk.missedRemove he hrole hn state hs
  · rintro ⟨hadd, hremove, hclose⟩
    refine ⟨fun _ _ ht => absurd ht htold, fun _ _ _ _ ht => absurd ht htold,
      fun e' he' hs _ => ?_, fun he' hrole _ =>
        hremove ⟨Option.some.inj (he.symm.trans he'), hrole⟩, fun e' he' hd hne _ => ?_,
      fun _ hn' => absurd hn.1 hn'⟩
    · obtain rfl := Option.some.inj (he.symm.trans he')
      exact hadd hs
    · obtain rfl := Option.some.inj (he.symm.trans he')
      exact hclose hd hne

-- What keeps step of an interactor that is not notifiable.
private theorem keepsStep_iff_of_new (hn : ¬ s.server.notificationRepository.IsNotifiable n f) :
    KeepsStep settings n c f t h s a ↔ (Server.asksNotice n f e = some true →
      (s.server.objects n).tokenSource ≠ .live → s.server.entry c f t = none) := by
  rw [event_of_asksNotice]
  constructor
  · rintro hk rfl
    exact hk.missedSnapshot he hn
  · intro hk
    exact ⟨fun _ _ ht => absurd ht.1 hn, fun _ _ _ _ ht => absurd ht.1 hn,
      fun _ _ _ hd => absurd hd.1 hn, fun _ _ hd => absurd hd.1 hn,
      fun _ _ _ _ hd => absurd hd.1 hn,
      fun he' _ => hk (Option.some.inj (he.symm.trans he'))⟩

-- The event that closes the notifiable itself keeps step.
private theorem keepsStep_of_disposes (hd : e.disposes = some n) :
    KeepsStep settings n c f t h s a := by
  have hclosed (e' : Event) (he' : s.handled a = some e') (hd' : e'.disposes = some c) :
      c = n := by
    obtain rfl := Option.some.inj (he.symm.trans he')
    exact Option.some.inj (hd'.symm.trans hd)
  have hmessage (i : Guid) (m : Message) : s.handled a ≠ some (.message i m) := by
    intro he'
    obtain rfl := Option.some.inj (he.symm.trans he')
    cases hd
  refine ⟨fun he' => absurd he' (hmessage _ _),
    fun e' he' hd' hne => absurd (hclosed e' he' hd') hne, fun e' he' hs _ => ?_,
    fun he' => absurd he' (hmessage _ _), fun e' he' hd' hne => absurd (hclosed e' he' hd') hne,
    fun he' => absurd he' (hmessage _ _)⟩
  obtain rfl := Option.some.inj (he.symm.trans he')
  rcases hs with ⟨r, hr, -⟩ | ⟨rfl, -⟩
  · exact absurd hd (Server.disposes_of_accepted settings hr n)
  · cases hd

omit he in
-- A notifiable that the event does not close stays one, unless it asks not to be.
private theorem stays_notifiable_iff {P : Prop}
    (hn : s.server.notificationRepository.IsNotifiable n f) (hd : e.disposes ≠ some n)
    (hask : (∃ isAdd, e = .message n (.notificationRequest ⟨f, isAdd⟩)) → P) :
    ((Server.asksNotice n f e = some true ∨ Server.asksNotice n f e = none ∧
      e.disposes ≠ some n ∧ s.server.notificationRepository.IsNotifiable n f) → P) ↔ P := by
  cases hx : Server.asksNotice n f e with
  | none => simp [hn, hd]
  | some isAdd =>
    have hp := hask ⟨isAdd, event_of_asksNotice.mp hx⟩
    exact iff_of_true (fun _ => hp) hp

variable {settings} in
-- The step lemma: from a state in step, exactly the events that keep step lead to another.
private theorem inStep_event_iff {s' : System}
    (hp : s.server.notificationRepository.IsNotifiable n f →
      (0 < view settings n c f t h ↔ (s.server.entry c f t).isSome))
    (hs : s'.server = (s.server.onInteractorEvent settings e).1) :
    (s'.server.notificationRepository.IsNotifiable n f →
      (0 < view settings n c f t ((s, a) :: h) ↔ (s'.server.entry c f t).isSome)) ↔
    KeepsStep settings n c f t h s a := by
  rw [hs, isNotifiable_onInteractorEvent, entry_onInteractorEvent]
  by_cases hd : e.disposes = some n
  · refine iff_of_true ?_ (keepsStep_of_disposes settings he hd)
    rintro (hask | ⟨-, hd', -⟩)
    · obtain rfl := event_of_asksNotice.mp hask
      cases hd
    · exact absurd hd hd'
  by_cases hn : s.server.notificationRepository.IsNotifiable n f
  · have hclose : Server.entryChange settings s.server e c f t = .close → c ≠ n := by
      rw [entryChange_eq_close_iff]
      rintro hc rfl
      exact hd hc
    rw [view_cons settings he, if_pos hn]
    by_cases hl : (s.server.objects n).tokenSource = .live
    · -- It is told of the change.
      rw [if_pos ⟨hl, hd⟩, Server.told_of_event settings (.inl hn) c t, if_pos ⟨hn, hd⟩,
        keepsStep_iff_of_told settings he ⟨hn, hl⟩]
      have hiff := announced_inStep_iff (hp hn) (Server.entryChange settings s.server e c f t)
      rw [stays_notifiable_iff hn hd fun hask => hiff.mpr (by
        obtain ⟨_, rfl⟩ := hask
        exact ⟨nofun, nofun⟩), hiff]
      exact and_congr_right fun _ => forall_congr' fun hc => by simp [hclose hc]
    · -- It is not told of it.
      rw [if_neg fun h => hl h.1, List.foldl_nil, keepsStep_iff_of_deaf settings he ⟨hn, hl⟩]
      have hiff := missed_inStep_iff (hp hn) (Server.entryChange settings s.server e c f t)
      rw [stays_notifiable_iff hn hd fun hask => hiff.mpr (by
        obtain ⟨_, rfl⟩ := hask
        exact ⟨by simp [entryChange_of_asksNotice], nofun, nofun⟩), hiff]
      exact and_congr_right fun _ => and_congr_right fun _ => forall_congr' fun hc => by
        simp [hclose hc]
  · -- It may become notifiable, and is then told of every subscriber.
    rw [keepsStep_iff_of_new settings he hn]
    constructor
    · intro hstep hask
      have hiff := inStep_of_new_iff settings he hask hn (c := c) (t := t) (h := h)
      obtain rfl := event_of_asksNotice.mp hask
      exact hiff.mp (hstep (.inl hask))
    · rintro hk (hask | ⟨-, -, hn'⟩)
      · have hiff := (inStep_of_new_iff settings he hask hn (h := h)).mpr (hk hask)
        obtain rfl := event_of_asksNotice.mp hask
        exact hiff
      · exact absurd hn' hn

end keepsStep

/-- A notifiable and the distributor are in step about a client and topic throughout a run
exactly if every step keeps them so. -/
theorem in_step_iff (n c : Guid) (f t : String) {h : History System Action} {s : System}
    (hr : Runs settings h s) :
    Always (InStep settings n c f t) h s ↔ Throughout (KeepsStep settings n c f t) h := by
  apply Run.always_iff_throughout_of_step hr
  · intro hn
    exact absurd hn (NotificationRepository.not_isNotifiable_empty n f)
  intro h r a t' _ hp ha
  rw [inStep_iff] at hp ⊢
  rcases step_handled settings ha with ⟨hn, hq⟩ | ⟨e, he, -, hserver⟩
  · rw [view_cons_of_quiet settings hn, hq.notifications, hq.entry]
    refine iff_of_true (fun hreg => ?_) (keepsStep_of_quiet settings hn)
    rw [if_pos hreg]
    exact hp hreg
  · exact inStep_event_iff he hp hserver

variable {settings} in
/-- An interactor that is live at the end of a run was live at each of its steps. -/
theorem Runs.live_throughout {h : History System Action} {s : System} (hr : Runs settings h s)
    {n : Guid} (hl : (s.server.objects n).tokenSource = .live) :
    Throughout (fun _ r _ => (r.server.objects n).tokenSource = .live) h := by
  induction hr with
  | start => trivial
  | next hr ha ih =>
    have hlive := (live_of_step settings ha hl).1
    exact ⟨ih hlive, hlive⟩

/-- A notifiable that registers when the count has become one stays in step over the
removal. -/
theorem in_step_of_late_notifiable :
    ∃ h s, Runs (.permissive false) h s ∧ (events h).filterMap id =
        [.message ⟨1⟩ (.subscriptionRequest ⟨"F", "T", false⟩),
          .message ⟨2⟩ (.notificationRequest ⟨"F", true⟩),
          .message ⟨1⟩ (.subscriptionRequest ⟨"F", "T", true⟩),
          .message ⟨1⟩ (.subscriptionRequest ⟨"F", "T", true⟩), .connected ⟨2⟩, .connected ⟨1⟩] ∧
      Always (InStep (.permissive false) ⟨2⟩ ⟨1⟩ "F" "T") h s := by
  obtain ⟨h, s, hr, hobs⟩ := exists_run_of_exec (step (.permissive false)) init
    [.accept ⟨1⟩, .accept ⟨2⟩, .process, .process, .checkRead ⟨1⟩,
      .receive ⟨1⟩ (.subscriptionRequest ⟨"F", "T", true⟩), .process, .checkRead ⟨1⟩,
      .receive ⟨1⟩ (.subscriptionRequest ⟨"F", "T", true⟩), .process, .checkRead ⟨2⟩,
      .receive ⟨2⟩ (.notificationRequest ⟨"F", true⟩), .process, .checkRead ⟨1⟩,
      .receive ⟨1⟩ (.subscriptionRequest ⟨"F", "T", false⟩), .process]
    (fun x => ((events x.1).filterMap id, (events x.1.tail).filterMap id,
      decide ((x.2.server.objects ⟨2⟩).tokenSource = .live),
      view (.permissive false) ⟨2⟩ ⟨1⟩ "F" "T" x.1.tail,
      x.1.head?.map fun y => (y.1.handled y.2,
        (y.1.server.entry ⟨1⟩ "F" "T").map SubscriptionState.count)))
    ([.message ⟨1⟩ (.subscriptionRequest ⟨"F", "T", false⟩),
        .message ⟨2⟩ (.notificationRequest ⟨"F", true⟩),
        .message ⟨1⟩ (.subscriptionRequest ⟨"F", "T", true⟩),
        .message ⟨1⟩ (.subscriptionRequest ⟨"F", "T", true⟩), .connected ⟨2⟩, .connected ⟨1⟩],
      [.message ⟨2⟩ (.notificationRequest ⟨"F", true⟩),
        .message ⟨1⟩ (.subscriptionRequest ⟨"F", "T", true⟩),
        .message ⟨1⟩ (.subscriptionRequest ⟨"F", "T", true⟩), .connected ⟨2⟩, .connected ⟨1⟩],
      true, 1, some (some (.message ⟨1⟩ (.subscriptionRequest ⟨"F", "T", false⟩)), some 1)) rfl
  simp only [Prod.mk.injEq, decide_eq_true_eq] at hobs
  obtain ⟨hevents, htail, hlive, hview, hhead⟩ := hobs
  refine ⟨h, s, hr, hevents, (in_step_iff (.permissive false) ⟨2⟩ ⟨1⟩ "F" "T" hr).mpr ?_⟩
  have hl := Runs.live_throughout hr hlive
  cases h with
  | nil => cases hhead
  | cons y h =>
    simp only [List.head?_cons, Option.map_some, Option.some.injEq, Prod.mk.injEq] at hhead
    have hother : ∀ x ∈ h, ∀ e, x.1.handled x.2 = some e →
        e ≠ .message ⟨1⟩ (.subscriptionRequest ⟨"F", "T", false⟩) ∧ e.disposes = none := by
      intro x hx e he
      have hmem := mem_events.mpr ⟨x, hx, he⟩
      rw [List.tail_cons] at htail
      rw [htail] at hmem
      simp only [List.mem_cons, List.not_mem_nil, or_false] at hmem
      rcases hmem with rfl | rfl | rfl | rfl | rfl <;> simp [Event.disposes]
    refine ⟨?_, fun _ _ _ state hs => iff_of_true hview ?_, fun e he hd => ?_,
      fun _ _ _ hd => absurd hl.2 hd.2, fun _ _ hd => absurd hl.2 hd.2,
      fun _ _ _ _ hd => absurd hl.2 hd.2, fun _ _ hd => absurd hl.2 hd⟩
    · apply ((throughout_of_forall_mem (G := fun (r : System) (a : Action) => ∀ e,
        r.handled a = some e → e ≠ .message ⟨1⟩ (.subscriptionRequest ⟨"F", "T", false⟩) ∧
          e.disposes = none) hother).and hl.1).imp
      rintro _ r a ⟨hg, hl⟩
      refine ⟨fun he => absurd rfl (hg _ he).1, fun e he hd => ?_,
        fun _ _ _ hd => absurd hl hd.2, fun _ _ hd => absurd hl hd.2,
        fun _ _ _ _ hd => absurd hl hd.2, fun _ _ hd => absurd hl hd⟩
      rw [(hg e he).2] at hd
      cases hd
    · rw [hs] at hhead
      exact Option.some.inj hhead.2
    · rw [hhead.1] at he
      cases he
      cases hd

/-- A client that subscribes and unsubscribes once is gone for the notifiable, and stays
subscribed for the distributor. -/
theorem out_of_step_after_add_remove :
    ¬ ∀ (settings : Settings) (n c : Guid) (f t : String) h s, Runs settings h s →
      Always (InStep settings n c f t) h s := by
  intro hclaim
  obtain ⟨h, s, hr, hobs⟩ := exists_run_of_exec (step (.permissive false)) init
    [.accept ⟨1⟩, .accept ⟨2⟩, .process, .process, .checkRead ⟨2⟩,
      .receive ⟨2⟩ (.notificationRequest ⟨"F", true⟩), .process, .checkRead ⟨1⟩,
      .receive ⟨1⟩ (.subscriptionRequest ⟨"F", "T", true⟩), .process, .checkRead ⟨1⟩,
      .receive ⟨1⟩ (.subscriptionRequest ⟨"F", "T", false⟩), .process]
    (fun x => (decide (x.2.server.notificationRepository.IsNotifiable ⟨2⟩ "F"),
      (x.2.server.entry ⟨1⟩ "F" "T").isSome, view (.permissive false) ⟨2⟩ ⟨1⟩ "F" "T" x.1))
    (true, true, 0) (by decide)
  simp only [Prod.mk.injEq, decide_eq_true_eq] at hobs
  obtain ⟨hn, hentry, hview⟩ := hobs
  have hstep := (inStep_iff (.permissive false)).mp
    (hclaim (.permissive false) ⟨2⟩ ⟨1⟩ "F" "T" h s hr).last hn
  rw [hview] at hstep
  exact absurd (hstep.mpr hentry) (Nat.lt_irrefl 0)

end System

end MessageBus.Distributor
