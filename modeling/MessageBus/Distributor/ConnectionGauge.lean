import MessageBus.Distributor.Closing

/-!
# The gauge of connections

`Add` and `Remove` of the interactor repository move the gauge `messagebus_interactors`
whatever they find in the map. The read task and the write task of an interactor may both
report an error, and each report is handled by a close, so `Remove` may be called twice
for one interactor.
-/

namespace MessageBus.Distributor
open MessageBus.Base MessageBus.Common MessageBus.Messages

namespace Server

variable (settings : Settings)

/-- The gauge is the number of interactors in the repository. -/
def GaugeExact (s : Server) : Prop :=
  s.interactorRepository.gauge = s.interactorRepository.interactors.toList.length

/-- A close removes the interactor from the repository. -/
theorem interactorRepository_of_disposes (s : Server) {e : Event} {c : Guid}
    (hd : e.disposes = some c) : (onInteractorEvent settings s e).1.interactorRepository =
      s.interactorRepository.remove c := by
  rw [onInteractorEvent_eq]
  cases e with
  | error i x =>
    cases hd
    rfl
  | closed i =>
    cases hd
    rfl
  | _ => cases hd

/-- A new interactor keeps the gauge exact. -/
theorem gaugeExact_of_connected {s : Server} (hs : s.GaugeExact) {c : Guid}
    (hc : ¬ s.IsRegistered c) : (onInteractorEvent settings s (.connected c)).1.GaugeExact := by
  have hadd : (onInteractorEvent settings s (.connected c)).1.interactorRepository =
      (s.interactorRepository.add settings c).1 :=
    interactorRepository_onInteractorConnected settings s c
  have hn : c ∉ s.interactorRepository.interactors := hc
  have hlength := HashSet.length_add hn
  unfold GaugeExact at hs ⊢
  rw [hadd]
  simp only [InteractorRepository.add, if_neg hn]
  omega

/-- A close keeps the gauge exact if and only if it finds the interactor. -/
theorem gaugeExact_of_disposes_iff {s : Server} (hs : s.GaugeExact) {e : Event} {c : Guid}
    (hd : e.disposes = some c) :
    (onInteractorEvent settings s e).1.GaugeExact ↔ s.IsRegistered c := by
  unfold GaugeExact at hs ⊢
  rw [interactorRepository_of_disposes settings s hd]
  simp only [InteractorRepository.remove]
  by_cases hc : c ∈ s.interactorRepository.interactors
  · have hlength := HashSet.length_remove hc
    exact iff_of_true (by omega) hc
  · rw [HashSet.remove_of_notMem hc]
    exact iff_of_false (by omega) hc

/-- A message leaves the repository of interactors alone. -/
theorem gaugeExact_of_message {s : Server} (hs : s.GaugeExact) (i : Guid) (m : Message) :
    (onInteractorEvent settings s (.message i m)).1.GaugeExact := by
  have hkeep : (onInteractorEvent settings s (.message i m)).1.interactorRepository =
      s.interactorRepository := by
    rw [onInteractorEvent_eq]
    exact interactorRepository_update settings s i m
  unfold GaugeExact at hs ⊢
  rw [hkeep]
  exact hs

end Server

namespace System

variable (settings : Settings)

/-- Handling a close or an error of an interactor that was closed before leaves every
repository, and so the gauge, as it was. -/
def CloseIdempotent (h : History System Action) (s : System) (a : Action) : Prop :=
  ∀ e c, s.handled a = some e → e.disposes = some c → Closed c h →
    let s' := (s.server.onInteractorEvent settings e).1
    s'.interactorRepository = s.server.interactorRepository ∧
    s'.notificationRepository = s.server.notificationRepository ∧
    s'.publisherRepository = s.server.publisherRepository ∧
    s'.subscriptionRepository = s.server.subscriptionRepository

/-- The step handles no close or error of an interactor that was closed before. -/
def ClosesOnce (h : History System Action) (s : System) (a : Action) : Prop :=
  ∀ e c, s.handled a = some e → e.disposes = some c → ¬ Closed c h

/-- The interactors that a run has closed, newest first. -/
def closes (h : History System Action) : List Guid :=
  (events h).filterMap fun e => e.bind Event.disposes

private theorem mem_closes {h : History System Action} {c : Guid} : c ∈ closes h ↔ Closed c h := by
  unfold closes events Closed
  simp only [List.mem_filterMap, List.mem_map, exists_exists_and_eq_and, Option.bind_eq_some_iff]

/-- Interactors are closed once throughout a run exactly if none is closed twice in it. -/
theorem throughout_closesOnce_iff {h : History System Action} :
    Throughout ClosesOnce h ↔ (closes h).Nodup := by
  induction h with
  | nil => exact iff_of_true trivial List.nodup_nil
  | cons x h ih =>
    obtain ⟨s, a⟩ := x
    cases hc : (s.handled a).bind Event.disposes with
    | none =>
      have hcons : closes ((s, a) :: h) = closes h := List.filterMap_cons_none hc
      rw [Throughout, ih, hcons]
      refine and_iff_left fun e c he hd => ?_
      rw [he, Option.bind_some, hd] at hc
      cases hc
    | some c =>
      obtain ⟨e, he, hd⟩ := Option.bind_eq_some_iff.mp hc
      have hcons : closes ((s, a) :: h) = c :: closes h := List.filterMap_cons_some hc
      rw [Throughout, ih, hcons, List.nodup_cons, mem_closes, and_comm]
      apply and_congr_left'
      constructor
      · exact fun hg => hg e c he hd
      · intro hn e' c' he' hd'
        rw [he] at he'
        cases he'
        rw [hd] at hd'
        cases hd'
        exact hn

/-- An interactor that has been started is registered until it is closed. -/
theorem Runs.isRegistered_iff {h : History System Action} {s : System} (hr : Runs settings h s)
    {c : Guid} (hc : (s.server.objects c).readTask ≠ .unstarted) :
    s.server.IsRegistered c ↔ ¬ Closed c h := by
  induction hr with
  | start => exact absurd rfl hc
  | next hr ha ih =>
    next h r t a =>
    have hl := Runs.lifecycle settings hr
    rw [closed_cons]
    rcases step_handled settings ha with ⟨hn, hq⟩ | ⟨e, he, hmem, hserver⟩
    · rw [hq.isRegistered, hn]
      simpa using ih fun hu => hc ((hq.object c).unread.mpr hu)
    · rw [hserver, isRegistered_onInteractorEvent, he]
      by_cases hd : e.disposes = some c
      · simp [hd]
      · by_cases hcon : e = .connected c
        · subst hcon
          have hnot : ¬ Closed c h := fun h =>
            started_of_closed settings hr h (hl.connecting c hmem).2
          simp [Event.disposes, hnot]
        · rw [hserver, (tasks_of_other settings r.server hd hcon).1] at hc
          simpa [hd, hcon] using ih hc

/-- The events on the queue that close an interactor are those of a started one. -/
theorem Lifecycle.started_of_disposes {s : System} (hs : Lifecycle settings s) {e : Event}
    (he : e ∈ s.eventQueue) {c : Guid} (hd : e.disposes = some c) :
    (s.server.objects c).readTask ≠ .unstarted := by
  have hc : e.interactor = c := by
    cases e with
    | error i x => exact Option.some.inj hd
    | closed i => exact Option.some.inj hd
    | _ => cases hd
  subst hc
  rcases hs.sender e he with h | h | h
  · rw [h] at hd
    cases hd
  · rw [h] at hd
    cases hd
  · exact h

/-- The gauge of connections is exact, and a second close changes nothing, throughout a
run exactly if no interactor is closed twice in it. -/
theorem gauge_exact_iff {h : History System Action} {s : System} (hr : Runs settings h s) :
    Always (fun _ s => s.server.GaugeExact) h s ∧ Throughout (CloseIdempotent settings) h ↔
      Throughout ClosesOnce h := by
  have hgauge : Always (fun _ s => s.server.GaugeExact) h s ↔ Throughout ClosesOnce h := by
    apply Run.always_iff_throughout_of_step hr rfl
    intro h r a t hr hp ha
    rcases step_handled settings ha with ⟨hn, hq⟩ | ⟨e, he, hmem, hserver⟩
    · refine iff_of_true ?_ fun e c he => (by rw [hn] at he; cases he)
      rw [Server.GaugeExact, hq.interactors]
      exact hp
    have hl := Runs.lifecycle settings hr
    have honce : ClosesOnce h r a ↔ ∀ c, e.disposes = some c → ¬ Closed c h := by
      constructor
      · exact fun hg c hd => hg e c he hd
      · intro hg e' c he' hd
        rw [he] at he'
        cases he'
        exact hg c hd
    rw [honce, hserver]
    cases hd : e.disposes with
    | some c =>
      have hstarted := hl.started_of_disposes settings hmem hd
      rw [Server.gaugeExact_of_disposes_iff settings hp hd,
        Runs.isRegistered_iff settings hr hstarted]
      simp
    | none =>
      refine iff_of_true ?_ (by simp)
      cases e with
      | connected i =>
        exact Server.gaugeExact_of_connected settings hp fun hi =>
          hl.registered i hi (hl.connecting i hmem).2
      | message i m => exact Server.gaugeExact_of_message settings hp i m
      | _ => cases hd
  rw [hgauge]
  refine and_iff_left_of_imp fun ht => ht.imp ?_
  intro h r a hg e c he hd hc
  exact absurd hc (hg e c he hd)

/-- An interactor that disconnects is taken off the gauge once. -/
theorem gauge_exact_of_disconnect :
    ∃ h s, Runs (.permissive false) h s ∧ events h =
        [some (.error ⟨1⟩ .endOfStream), none, none, none, none, none, some (.connected ⟨1⟩),
          none] ∧
      Always (fun _ s => s.server.GaugeExact) h s ∧
      Throughout (CloseIdempotent (.permissive false)) h := by
  obtain ⟨h, s, hr, he⟩ := exists_run_of_exec (step (.permissive false)) init
    [.accept ⟨1⟩, .process, .checkRead ⟨1⟩, .readError ⟨1⟩ .endOfStream, .endRead ⟨1⟩,
      .checkWrite ⟨1⟩, .endWrite ⟨1⟩, .process]
    (fun x => events x.1)
    [some (.error ⟨1⟩ .endOfStream), none, none, none, none, none, some (.connected ⟨1⟩), none]
    rfl
  have he : events h = _ := he
  refine ⟨h, s, hr, he, (gauge_exact_iff (.permissive false) hr).mpr ?_⟩
  rw [throughout_closesOnce_iff, closes, he]
  exact List.nodup_singleton _

/-- An interactor whose read and write both fail is taken off the gauge twice. -/
theorem gauge_drifts_after_second_error :
    ¬ ∀ (settings : Settings) h s, Runs settings h s →
      Always (fun _ s => s.server.GaugeExact) h s ∧ Throughout (CloseIdempotent settings) h := by
  intro hclaim
  obtain ⟨h, s, hr, hobs⟩ := exists_run_of_exec (step (.permissive true)) init
    [.accept ⟨1⟩, .process, .checkRead ⟨1⟩,
      .receive ⟨1⟩ (.authorizationResponse ⟨⟨1⟩, "F", "T", true, none⟩), .process,
      .checkRead ⟨1⟩, .checkWrite ⟨1⟩, .readError ⟨1⟩ .endOfStream, .writeError ⟨1⟩ (.io true),
      .endRead ⟨1⟩, .endWrite ⟨1⟩, .process, .process]
    (fun x => (x.2.server.interactorRepository.gauge,
      x.2.server.interactorRepository.interactors.toList.length)) (-1, 0) (by decide)
  simp only [Prod.mk.injEq] at hobs
  have hexact : s.server.GaugeExact := (hclaim (.permissive true) h s hr).1.last
  rw [Server.GaugeExact, hobs.1, hobs.2] at hexact
  cases hexact

end System

end MessageBus.Distributor
