import MessageBus.Distributor.Steps

/-!
# What a handler throws

Sends are wrapped in `try` and `catch`, and the maps that an indexer reads carry their
invariants; what is left of the handlers that throws is the `catch` block of the snapshot for
a new notifiable, whose own log call has two places and one value.
-/

namespace MessageBus.Distributor
open MessageBus.Base MessageBus.Common MessageBus.Messages

namespace Server

variable (settings : Settings)

/-- The request adds a notifiable to a feed that has a subscriber, the interactor is
disposed, and the failed send is logged. -/
structure FailsToLog (s : Server) (i : Guid) (request : NotificationRequest) : Prop where
  debug : settings.isDebugEnabled = true
  isAdd : request.isAdd = true
  new : ¬ s.notificationRepository.IsNotifiable i request.feed
  subscribed : ∃ c t, (s.entry c request.feed t).isSome
  disposed : (s.objects i).tokenSource = .disposed

private theorem sendSnapshot_of_not_disposed {n : Guid} {s : Server}
    (h : (s.objects n).tokenSource ≠ .disposed) (messages : List Message) :
    (sendSnapshot settings n messages s).2 = none := by
  induction messages generalizing s with
  | nil => rfl
  | cons message messages ih =>
    rw [sendSnapshot]
    cases ht : (s.objects n).tokenSource with
    | live =>
      simp only [Interactor.sendMessage, ht]
      apply ih
      simp [Interactors.modify_apply]
    | cancelled =>
      simp only [Interactor.sendMessage, ht]
      apply ih
      simp [Interactors.modify_apply, ht]
    | disposed => exact absurd ht h

private theorem sendSnapshot_of_disposed {n : Guid} {s : Server}
    (h : (s.objects n).tokenSource = .disposed) (messages : List Message) :
    (sendSnapshot settings n messages s).2 = none ↔
      (settings.isDebugEnabled = true → messages = []) := by
  induction messages with
  | nil => exact iff_of_true rfl fun _ => rfl
  | cons message messages ih =>
    rw [sendSnapshot]
    simp only [Interactor.sendMessage, h]
    cases hdebug : settings.isDebugEnabled with
    | true => simp
    | false =>
      simp only [Bool.false_eq_true, if_false, false_implies, iff_true]
      rw [ih]
      simp [hdebug]

/-- There is nothing to tell a new notifiable of exactly if the feed has no subscriber. -/
theorem snapshot_eq_nil_iff {s : Server} {feed : String} :
    snapshot settings s feed = [] ↔ ¬ ∃ c t, (s.entry c feed t).isSome := by
  rw [snapshot, List.flatMap_eq_nil_iff]
  constructor
  · rintro h ⟨c, t, hs⟩
    obtain ⟨cs, hm, hc⟩ := SubscriptionRepository.mem_getSubscribersToFeed.mpr hs
    have hnil := List.map_eq_nil_iff.mp (h _ hm)
    exact List.ne_nil_of_mem hc hnil
  · rintro h ⟨t, cs⟩ hm
    rw [List.map_eq_nil_iff, List.eq_nil_iff_forall_not_mem]
    exact fun c hc => h ⟨c, t, SubscriptionRepository.mem_getSubscribersToFeed.mp ⟨cs, hm, hc⟩⟩

/-- A request to be notified returns normally unless it fails to log a failed send. -/
theorem requestNotification_returns_iff {s : Server} {i : Guid} {request : NotificationRequest} :
    (requestNotification settings s i request).2 = none ↔ ¬ FailsToLog settings s i request := by
  unfold requestNotification
  cases hadd : request.isAdd with
  | false =>
    simp only [Bool.false_eq_true, if_false, true_iff]
    intro hf
    rw [hf.isAdd] at hadd
    cases hadd
  | true =>
    by_cases hn : s.notificationRepository.IsNotifiable i request.feed
    · have hnew : (s.notificationRepository.addRequest i request.feed).2 = false := by
        rw [Bool.eq_false_iff, Ne, NotificationRepository.addRequest_eq_true_iff]
        exact not_not_intro hn
      simp only [if_true, hnew, Bool.false_eq_true, if_false, true_iff]
      exact fun hf => hf.new hn
    · have hnew := NotificationRepository.addRequest_eq_true_iff.mpr hn
      simp only [if_true, hnew]
      let s' := { s with
        notificationRepository := (s.notificationRepository.addRequest i request.feed).1 }
      by_cases hd : (s.objects i).tokenSource = .disposed
      · rw [sendSnapshot_of_disposed settings (s := s') hd, snapshot_eq_nil_iff]
        constructor
        · exact fun h hf => h hf.debug hf.subscribed
        · exact fun h hdebug hs => h ⟨hdebug, hadd, hn, hs, hd⟩
      · exact iff_of_true (sendSnapshot_of_not_disposed settings (s := s') hd _)
          fun hf => hd hf.disposed

end Server

namespace System

variable {settings : Settings}

/-- The handler of an event of the queue throws nothing exactly if it logs failed sends. -/
theorem Lifecycle.throws_none_iff {s : System} (hs : Lifecycle settings s) {e : Event}
    (he : e ∈ s.eventQueue) : (s.server.onInteractorEvent settings e).2 = none ↔
      ∀ i request, e = .message i (.notificationRequest request) →
        ¬ s.server.FailsToLog settings i request := by
  cases e with
  | connected i =>
    have hread := (hs.connecting i he).2
    have hreg : ¬ s.server.IsRegistered i := fun h => hs.registered i h hread
    exact iff_of_true (Server.object_update_of_connected settings s.server hreg (hs.fresh i hread)
      hread ((hs.unstarted i).mp hread)).2 (by simp)
  | error i x => exact iff_of_true rfl (by simp)
  | closed i => exact iff_of_true rfl (by simp)
  | message i m =>
    cases m with
    | notificationRequest request =>
      have hthrown : (s.server.onInteractorEvent settings
          (.message i (.notificationRequest request))).2 =
          (Server.requestNotification settings s.server i request).2 := rfl
      rw [hthrown, Server.requestNotification_returns_iff]
      constructor
      · rintro hf _ _ ⟨⟩
        exact hf
      · exact fun hg => hg i request rfl
    | _ => exact iff_of_true rfl (by simp)

end System

end MessageBus.Distributor
