import Mathlib.Data.List.Induction
import MessageBus.Distributor.Server

/-!
# The notification repository as a set of pairs

The notification repository after any sequence of requests and removals: for each feed the
interactors whose last request was not taken back since, with no entry for a feed that has
none, and a gauge that tells the two apart.
-/

namespace MessageBus.Distributor.NotificationRepository
open MessageBus.Base MessageBus.Common MessageBus.Messages

/-! ### Sequences of calls -/

/-- The methods that change the repository. -/
inductive Call where
  | addRequest (notifiable : Guid) (feed : String)
  | removeRequest (notifiable : Guid) (feed : String)
  | removeInteractor (interactor : Guid)

/-- A call takes back the request of an interactor for a feed. -/
def Call.TakesBack : Call → Guid → String → Prop
  | .addRequest _ _, _, _ => False
  | .removeRequest notifiable feed, n, f => n = notifiable ∧ f = feed
  | .removeInteractor interactor, n, _ => n = interactor

/-- The repository after a call. -/
def call (r : NotificationRepository) : Call → NotificationRepository
  | .addRequest notifiable feed => (r.addRequest notifiable feed).1
  | .removeRequest notifiable feed => r.removeRequest notifiable feed
  | .removeInteractor interactor => r.removeInteractor interactor

/-- The repository after calls one after another. -/
def calls (r : NotificationRepository) (cs : List Call) : NotificationRepository :=
  cs.foldl call r

/-- The last request of the interactor for the feed was not taken back since. -/
def Registered (cs : List Call) (n : Guid) (f : String) : Prop :=
  ∃ before after, cs = before ++ .addRequest n f :: after ∧
    ∀ c ∈ after, c ≠ .addRequest n f ∧ ¬ c.TakesBack n f

private theorem calls_concat (cs : List Call) (c : Call) :
    calls {} (cs ++ [c]) = (calls {} cs).call c :=
  List.foldl_concat ..

private theorem not_registered_nil (n : Guid) (f : String) : ¬ Registered [] n f := by
  rintro ⟨before, after, h, -⟩
  exact absurd h (by simp)

/-- What one more call does to the registered pairs. -/
theorem registered_concat {cs : List Call} {c : Call} {n : Guid} {f : String} :
    Registered (cs ++ [c]) n f ↔
      c = .addRequest n f ∨ ¬ c.TakesBack n f ∧ Registered cs n f := by
  constructor
  · rintro ⟨before, after, h, hafter⟩
    rcases List.eq_nil_or_concat' after with rfl | ⟨after, c', rfl⟩
    · left
      exact (List.cons.inj (List.append_inj' h rfl).2).1
    · right
      have hsplit : cs ++ [c] = (before ++ .addRequest n f :: after) ++ [c'] := by
        rw [h, List.append_assoc, List.cons_append]
      obtain ⟨hcs, hc⟩ := List.append_inj' hsplit rfl
      obtain rfl := (List.cons.inj hc).1
      exact ⟨(hafter c (by simp)).2, before, after, hcs,
        fun d hd => hafter d (List.mem_append_left _ hd)⟩
  · intro h
    by_cases hc : c = .addRequest n f
    · subst hc
      exact ⟨cs, [], rfl, nofun⟩
    · obtain ⟨htakes, before, after, rfl, hafter⟩ := h.resolve_left hc
      refine ⟨before, after ++ [c], by simp, fun d hd => ?_⟩
      rcases List.mem_append.mp hd with hd | hd
      · exact hafter d hd
      · rw [List.mem_singleton.mp hd]
        exact ⟨hc, htakes⟩

/-! ### The registered pairs are those found -/

private theorem isNotifiable_call {r : NotificationRepository} {c : Call} {n : Guid} {f : String} :
    (r.call c).IsNotifiable n f ↔
      c = .addRequest n f ∨ ¬ c.TakesBack n f ∧ r.IsNotifiable n f := by
  cases c with
  | addRequest notifiable feed =>
    rw [call, isNotifiable_addRequest, Call.addRequest.injEq, Call.TakesBack]
    constructor
    · rintro (⟨rfl, rfl⟩ | h)
      · exact .inl ⟨rfl, rfl⟩
      · exact .inr ⟨id, h⟩
    · rintro (⟨rfl, rfl⟩ | h)
      · exact .inl ⟨rfl, rfl⟩
      · exact .inr h.2
  | removeRequest notifiable feed =>
    rw [call, isNotifiable_removeRequest, Call.TakesBack]
    exact ⟨.inr, fun h => h.resolve_left nofun⟩
  | removeInteractor interactor =>
    rw [call, isNotifiable_removeInteractor, Call.TakesBack]
    exact ⟨.inr, fun h => h.resolve_left nofun⟩

private theorem isNotifiable_calls_iff (cs : List Call) (n : Guid) (f : String) :
    (calls {} cs).IsNotifiable n f ↔ Registered cs n f := by
  induction cs using List.reverseRecOn with
  | nil => exact iff_of_false (not_isNotifiable_empty n f) (not_registered_nil n f)
  | append_singleton cs c ih => rw [calls_concat, isNotifiable_call, registered_concat, ih]

/-! ### No set is empty, and the gauge is exact -/

/-- No stored set is empty, and the gauge of a pair is one if it is registered and zero if it
is not. -/
structure Kept (r : NotificationRepository) : Prop where
  nonempty : ∀ f notifiables, r.feedToNotifiables.lookup f = some notifiables →
    notifiables.isEmpty = false
  gauge : ∀ n f, r.feedRequests n f = if r.IsNotifiable n f then 1 else 0

private theorem kept_empty : Kept {} where
  nonempty := by
    intro f notifiables h
    cases h
  gauge n f := (if_neg (not_isNotifiable_empty n f)).symm

private theorem nonempty_call {r : NotificationRepository} (h : r.Kept) (c : Call) (f : String)
    (notifiables : HashSet Guid) (hf : (r.call c).feedToNotifiables.lookup f = some notifiables) :
    notifiables.isEmpty = false := by
  cases c with
  | addRequest notifiable feed =>
    simp only [call, addRequest] at hf
    split at hf
    · exact h.nonempty f notifiables hf
    · simp only [Dictionary.lookup_insert] at hf
      split at hf
      · cases hf
        exact HashSet.isEmpty_add ..
      · exact h.nonempty f notifiables hf
  | removeRequest notifiable feed =>
    simp only [call, removeRequest] at hf
    split at hf
    · exact h.nonempty f notifiables hf
    · split at hf
      · simp only at hf
        split at hf
        · rw [Dictionary.lookup_erase] at hf
          split at hf
          · cases hf
          · exact h.nonempty f notifiables hf
        · next hrest =>
          rw [Dictionary.lookup_insert] at hf
          split at hf
          · cases hf
            exact Bool.eq_false_iff.mpr hrest
          · exact h.nonempty f notifiables hf
      · exact h.nonempty f notifiables hf
  | removeInteractor interactor =>
    simp only [call, removeInteractor, Dictionary.lookup_mapValues,
      Dictionary.lookup_filterEntries] at hf
    obtain ⟨before, hbefore, rfl⟩ := Option.map_eq_some_iff.mp hf
    obtain ⟨hlookup, hkept⟩ := Option.filter_eq_some_iff.mp hbefore
    by_cases hi : interactor ∈ before
    · simpa [hi] using hkept
    · rw [HashSet.remove_of_notMem hi]
      exact h.nonempty f before hlookup

/-- A new request counts, a repeated one does not. -/
theorem feedRequests_addRequest (r : NotificationRepository) (i n : Guid) (feed f : String) :
    (r.addRequest i feed).1.feedRequests n f =
      r.feedRequests n f + if (n = i ∧ f = feed) ∧ ¬ r.IsNotifiable n f then 1 else 0 := by
  simp only [addRequest]
  split
  · next hi =>
    have hnot : ¬ ((n = i ∧ f = feed) ∧ ¬ r.IsNotifiable n f) := by
      rintro ⟨⟨rfl, rfl⟩, hn⟩
      exact hn hi
    rw [if_neg hnot, Int.add_zero]
  · next hi =>
    by_cases hk : n = i ∧ f = feed
    · obtain ⟨rfl, rfl⟩ := hk
      have hn : ¬ r.IsNotifiable n f := hi
      simp [incFeedRequests, hn]
    · simp [incFeedRequests, hk]

/-- A request that is there is counted down when it goes. -/
theorem feedRequests_removeRequest (r : NotificationRepository) (i n : Guid) (feed f : String) :
    (r.removeRequest i feed).feedRequests n f =
      r.feedRequests n f - if (n = i ∧ f = feed) ∧ r.IsNotifiable n f then 1 else 0 := by
  have habsent (h : ¬ r.IsNotifiable i feed) : r.feedRequests n f =
      r.feedRequests n f - if (n = i ∧ f = feed) ∧ r.IsNotifiable n f then 1 else 0 := by
    have hnot : ¬ ((n = i ∧ f = feed) ∧ r.IsNotifiable n f) := by
      rintro ⟨⟨rfl, rfl⟩, hn⟩
      exact h hn
    rw [if_neg hnot, Int.sub_zero]
  unfold removeRequest
  split
  · next hl => exact habsent (by simp [IsNotifiable, hl])
  · next notifiables hl =>
    split
    · next hi =>
      have hi' : r.IsNotifiable i feed := by simpa [IsNotifiable, hl] using hi
      by_cases hk : n = i ∧ f = feed
      · obtain ⟨rfl, rfl⟩ := hk
        simp [incFeedRequests, hi', Int.sub_eq_add_neg]
      · simp [incFeedRequests, hk]
    · next hi => exact habsent (by simpa [IsNotifiable, hl] using hi)

/-- Every request of an interactor is counted down when it goes. -/
theorem feedRequests_removeInteractor (r : NotificationRepository) (i n : Guid) (f : String) :
    (r.removeInteractor i).feedRequests n f =
      r.feedRequests n f - if n = i ∧ r.IsNotifiable n f then 1 else 0 := by
  simp only [removeInteractor, incFeedRequests, decide_eq_true_eq]
  by_cases hn : n = i
  · subst hn
    by_cases hf : r.IsNotifiable n f
    · simp [hf, Int.sub_eq_add_neg]
    · simp [hf]
  · simp [hn]

private theorem gauge_call {r : NotificationRepository} (h : r.Kept) (c : Call) (n : Guid)
    (f : String) : (r.call c).feedRequests n f = if (r.call c).IsNotifiable n f then 1 else 0 := by
  cases c with
  | addRequest i feed =>
    simp only [call, feedRequests_addRequest, isNotifiable_addRequest, h.gauge]
    by_cases hn : r.IsNotifiable n f
    · simp [hn]
    · simp [hn]
  | removeRequest i feed =>
    simp only [call, feedRequests_removeRequest, isNotifiable_removeRequest, h.gauge]
    by_cases hn : r.IsNotifiable n f
    · by_cases hk : n = i ∧ f = feed
      · simp [hk]
      · simp [hk]
    · simp [hn]
  | removeInteractor i =>
    simp only [call, feedRequests_removeInteractor, isNotifiable_removeInteractor, h.gauge]
    by_cases hn : r.IsNotifiable n f
    · by_cases hi : n = i
      · simp [hi]
      · simp [hi]
    · simp [hn]

/-- A call keeps the repository in shape. -/
theorem Kept.call {r : NotificationRepository} (h : r.Kept) (c : Call) : (r.call c).Kept :=
  ⟨nonempty_call h c, gauge_call h c⟩

private theorem kept_calls (cs : List Call) : (calls {} cs).Kept :=
  List.foldlRecOn cs NotificationRepository.call kept_empty fun _ h c _ => h.call c

/-! ### What the repository answers -/

/-- Of a repository without empty sets, what is found for a feed is null exactly where nobody
is registered. -/
theorem Kept.findNotifiables_eq_none_iff {r : NotificationRepository} (h : r.Kept) {f : String} :
    r.findNotifiables f = none ↔ ∀ n, ¬ r.IsNotifiable n f := by
  unfold findNotifiables IsNotifiable
  cases hl : r.feedToNotifiables.lookup f with
  | none => simp
  | some notifiables =>
    obtain ⟨n, hn⟩ := HashSet.isEmpty_eq_false_iff.mp (h.nonempty f notifiables hl)
    exact iff_of_false nofun fun hnone => hnone n hn

/-- The snapshot for a request that is new, and nothing for one that is not. -/
theorem requestNotification_add (settings : Settings) (s : Server) (n : Guid) (f : String) :
    s.requestNotification settings n ⟨f, true⟩ =
      if s.notificationRepository.IsNotifiable n f then (s, none)
      else
        let s' := { s with
          notificationRepository := (s.notificationRepository.addRequest n f).1 }
        Server.sendSnapshot settings n (Server.snapshot settings s' f) s' := by
  unfold Server.requestNotification
  by_cases hn : s.notificationRepository.IsNotifiable n f
  · have hadd : s.notificationRepository.addRequest n f = (s.notificationRepository, false) :=
      if_pos hn
    rw [if_pos hn, hadd]
    rfl
  · rw [if_neg hn]
    simp [addRequest_eq_true_iff, hn]

/-- After any requests and removals: what is found for a feed is null exactly where nobody is
registered, and otherwise the set of those registered, whose last request was not taken back
since; a request is new exactly where its pair is absent, and only then is the snapshot sent;
and the gauge of a pair is one if it is registered and zero if it is not. -/
theorem calls_refine_pairs (cs : List Call) :
    (∀ f, (calls {} cs).findNotifiables f = none ↔ ∀ n, ¬ Registered cs n f) ∧
      (∀ f notifiables, (calls {} cs).findNotifiables f = some notifiables →
        ∀ n, n ∈ notifiables ↔ Registered cs n f) ∧
      (∀ n f, ((calls {} cs).addRequest n f).2 = true ↔ ¬ Registered cs n f) ∧
      (∀ (settings : Settings) (s : Server) (n : Guid) (f : String),
        s.notificationRepository = calls {} cs →
        (Registered cs n f → s.requestNotification settings n ⟨f, true⟩ = (s, none)) ∧
        (¬ Registered cs n f →
          let s' := { s with notificationRepository := calls {} (cs ++ [.addRequest n f]) }
          s.requestNotification settings n ⟨f, true⟩ =
            Server.sendSnapshot settings n (Server.snapshot settings s' f) s')) ∧
      ∀ n f, (Registered cs n f → (calls {} cs).feedRequests n f = 1) ∧
        (¬ Registered cs n f → (calls {} cs).feedRequests n f = 0) := by
  have hkept := kept_calls cs
  have hpairs := isNotifiable_calls_iff cs
  refine ⟨fun f => ?_, fun f notifiables hf n => ?_, fun n f => ?_, fun settings s n f hs => ?_,
    fun n f => ?_⟩
  · rw [hkept.findNotifiables_eq_none_iff]
    simp only [hpairs]
  · rw [← hpairs, IsNotifiable, ← findNotifiables, hf, Option.getD_some]
  · rw [addRequest_eq_true_iff, hpairs]
  · rw [requestNotification_add, hs, ← hpairs, calls_concat]
    exact ⟨fun h => if_pos h, fun h => if_neg h⟩
  · rw [hkept.gauge, ← hpairs]
    exact ⟨fun h => if_pos h, fun h => if_neg h⟩

end MessageBus.Distributor.NotificationRepository
