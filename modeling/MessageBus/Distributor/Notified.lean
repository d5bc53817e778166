import MessageBus.Distributor.Publications
import MessageBus.Distributor.SelectFeed

/-!
# What a notifiable is told

The notices of a run that a notifiable is sent, on all feeds and topics. They are of feeds
that it asked to be notified on, and while it stays notifiable its count of a client and
topic is that of all notices about them.
-/

namespace MessageBus.Distributor
open MessageBus.Base MessageBus.Common MessageBus.Messages

/-- A notice of a subscription. -/
def isForwardedSubscription : Message → Bool
  | .forwardedSubscriptionRequest _ => true
  | _ => false

namespace Server

variable (settings : Settings)

/-- The notices that an event sends to a notifiable. -/
def noticesTo (n : Guid) (s : Server) (e : Event) : List Message :=
  (addressed n (sends settings s e)).filter isForwardedSubscription

/-- A notice is of a feed on which its addressee is notifiable, or asks to be. -/
theorem notifiable_of_mem {n : Guid} {s : Server} {e : Event} {m : ForwardedSubscriptionRequest}
    (hm : .forwardedSubscriptionRequest m ∈ noticesTo settings n s e) :
    s.notificationRepository.IsNotifiable n m.feed ∨ asksNotice n m.feed e = some true := by
  by_contra hnot
  rw [not_or] at hnot
  have htold := told_of_event settings (.inr hnot.2) m.clientId m.topic (s := s)
  rw [if_neg fun h => hnot.1 h.1] at htold
  have hmem : m.isAdd ∈ told n m.clientId m.feed m.topic (sends settings s e) := by
    refine List.mem_filterMap.mpr ⟨_, (List.mem_filter.mp hm).1, if_pos ⟨rfl, rfl, rfl⟩⟩
  rw [htold] at hmem
  cases hmem

/-- What is told of a client, feed and topic is in the notices. -/
theorem told_eq_filterMap (n c : Guid) (f t : String) (s : Server) (e : Event) :
    told n c f t (sends settings s e) = (noticesTo settings n s e).filterMap (notice c f t) := by
  rw [told, noticesTo, List.filterMap_filter]
  apply List.filterMap_congr
  intro m _
  cases m <;> rfl

end Server

namespace System

variable {settings : Settings}

/-- The notices that the events of a run send to a notifiable. -/
def noticesTo (settings : Settings) (n : Guid) : History System Action → List Message :=
  collect (Server.noticesTo settings n)

/-- A notice is a forwarded subscription request. -/
theorem isForwardedSubscription_of_mem {n : Guid} {h : History System Action} {m : Message}
    (hm : m ∈ noticesTo settings n h) : isForwardedSubscription m = true := by
  induction h with
  | nil => cases hm
  | cons x h ih =>
    obtain ⟨s, a⟩ := x
    rw [noticesTo, collect, List.mem_append] at hm
    rcases hm with hm | hm
    · exact ih hm
    · obtain ⟨e, -, hm⟩ := List.mem_flatMap.mp hm
      exact (List.mem_filter.mp hm).2

/-- Where an interactor is notifiable, it asked for it. -/
theorem Runs.asked_of_isNotifiable {h : History System Action} {s : System}
    (hr : Runs settings h s) {n : Guid} {f : String}
    (hn : s.server.notificationRepository.IsNotifiable n f) :
    ∃ e ∈ handledEvents h, Server.asksNotice n f e = some true := by
  induction hr with
  | start => exact absurd hn (NotificationRepository.not_isNotifiable_empty n f)
  | next hr ha ih =>
    next h s s' a =>
    rw [handledEvents]
    rcases step_handled settings ha with ⟨-, hq⟩ | ⟨e, he, -, hserver⟩
    · rw [hq.notifications] at hn
      obtain ⟨e, hmem, hasks⟩ := ih hn
      exact ⟨e, List.mem_append_left _ hmem, hasks⟩
    · rw [hserver, isNotifiable_onInteractorEvent] at hn
      rcases hn with hasks | ⟨-, -, hn⟩
      · refine ⟨e, List.mem_append_right _ ?_, hasks⟩
        rw [he]
        exact List.mem_singleton_self e
      · obtain ⟨e, hmem, hasks⟩ := ih hn
        exact ⟨e, List.mem_append_left _ hmem, hasks⟩

/-- Every notice of a run is of a feed that its addressee asked to be notified on. -/
theorem Runs.asked_of_mem {h : History System Action} {s : System} (hr : Runs settings h s)
    {n : Guid} {m : ForwardedSubscriptionRequest}
    (hm : .forwardedSubscriptionRequest m ∈ noticesTo settings n h) :
    ∃ e ∈ handledEvents h, Server.asksNotice n m.feed e = some true := by
  induction hr with
  | start => cases hm
  | next hr ha ih =>
    next h s s' a =>
    rw [noticesTo, collect, List.mem_append] at hm
    rw [handledEvents]
    rcases hm with hm | hm
    · obtain ⟨e, hmem, hasks⟩ := ih hm
      exact ⟨e, List.mem_append_left _ hmem, hasks⟩
    · obtain ⟨e, he, hm⟩ := List.mem_flatMap.mp hm
      rcases Server.notifiable_of_mem settings hm with hn | hasks
      · obtain ⟨e, hmem, hasks⟩ := Runs.asked_of_isNotifiable hr hn
        exact ⟨e, List.mem_append_left _ hmem, hasks⟩
      · exact ⟨e, List.mem_append_right _ he, hasks⟩

/-- The count of a live notifiable that never asked not to be notified is that of all that it
is told of the client and topic: before it is notifiable it is told nothing. -/
theorem Runs.view_eq {h : History System Action} {s : System} (hr : Runs settings h s)
    {n : Guid} {f : String} (hl : (s.server.objects n).tokenSource = .live)
    (hstays : ∀ e ∈ handledEvents h, Server.asksNotice n f e ≠ some false) (c : Guid)
    (t : String) :
    view settings n c f t h =
        ((noticesTo settings n h).filterMap (notice c f t)).foldl countNotice 0 ∧
      (¬ s.server.notificationRepository.IsNotifiable n f →
        (noticesTo settings n h).filterMap (notice c f t) = []) := by
  induction hr with
  | start => exact ⟨rfl, fun _ => rfl⟩
  | next hr ha ih =>
    next h s s' a =>
    obtain ⟨hlive, hopen⟩ := live_of_step settings ha hl
    obtain ⟨hview, hnone⟩ := ih hlive fun e he => hstays e (List.mem_append_left _ he)
    rw [noticesTo, collect, ← noticesTo, List.filterMap_append, view, delivered]
    rcases step_handled settings ha with ⟨hn, hq⟩ | ⟨e, he, -, hserver⟩
    · rw [hn, hq.notifications]
      simp only [Option.toList_none, List.flatMap_nil, List.filterMap_nil, List.append_nil,
        List.foldl_nil]
      refine ⟨?_, hnone⟩
      rw [← hview]
      split
      · rfl
      · next hnot => rw [hview, hnone hnot]; rfl
    · have hasks := hstays e (List.mem_append_right _ (by rw [he]; simp))
      have htold := Server.told_eq_filterMap settings n c f t s.server e
      have hsent : (if (s.server.objects n).tokenSource = .live ∧ e.disposes ≠ some n then
          addressed n (Server.sends settings s.server e) else []) =
          addressed n (Server.sends settings s.server e) := if_pos ⟨hlive, hopen e he⟩
      rw [he, Option.toList_some, List.flatMap_singleton, ← htold, List.foldl_append, ← hview]
      dsimp only
      rw [hsent, ← told, hserver, isNotifiable_onInteractorEvent]
      by_cases hn : s.server.notificationRepository.IsNotifiable n f
      · rw [if_pos hn]
        refine ⟨rfl, fun hn' => ?_⟩
        cases hx : Server.asksNotice n f e with
        | none => exact absurd (.inr ⟨hx, hopen e he, hn⟩) hn'
        | some isAdd =>
          cases isAdd with
          | true => exact absurd (.inl hx) hn'
          | false => exact absurd hx hasks
      · rw [if_neg hn, hview, hnone hn]
        refine ⟨rfl, fun hn' => ?_⟩
        have hquiet := Server.told_of_event settings (.inr fun hx => hn' (.inl hx)) c t
          (s := s.server)
        rw [if_neg fun h => hn h.1] at hquiet
        rw [hquiet]
        rfl

end System

end MessageBus.Distributor
