import MessageBus.Distributor.Steps

/-!
# Stale topics

When an interactor is closed, the subscribers of each topic on which it was the only
publisher are told that the data is stale, by a message without data. Who is a publisher
is a matter of the history: of the publications that were passed on, and of the closes
after them.
-/

namespace MessageBus.Distributor
open MessageBus.Base MessageBus.Common MessageBus.Messages

/-- A message is multicast data for the feed and topic that has no data. -/
def isNullData (f t : String) : Message → Bool
  | .forwardedMulticastData m => m.feed == f && m.topic == t && m.dataPackets.isNone
  | _ => false

/-- The messages without data for a feed and topic among those sent to one interactor. -/
def nullsSent (c : Guid) (f t : String) (sends : List (Guid × Message)) : List Message :=
  (addressed c sends).filter (isNullData f t)

/-- The messages without data for a feed and topic that were put on the write queue of an
interactor. -/
def nullsQueued (c : Guid) (f t : String) (s : Server) : List Message :=
  (s.objects c).queued.filter (isNullData f t)

namespace Server

variable (settings : Settings)

private theorem nullsSent_notices (r : NotificationRepository) (i c : Guid) (f t : String)
    (request : SubscriptionRequest) : nullsSent c f t (notices settings r i request) = [] := by
  rw [nullsSent, addressed_notices]
  split <;> rfl

private theorem nullsSent_endSends (s : Server) (p c : Guid) (f t : String) :
    nullsSent c f t (endSends settings s p) = [] := by
  rw [nullsSent, endSends, addressed_flatMap, List.filter_flatMap, List.flatMap_eq_nil_iff]
  exact fun ft _ => nullsSent_notices settings _ p c f t ⟨ft.feed, ft.topic, false⟩

-- A subscriber to the topic is sent one message without data, and it is about the topic.
private theorem nullsSent_onStaleTopic (s : Server) (c : Guid) (f t : String) (stale : FeedTopic) :
    nullsSent c f t ((s.subscriptionRepository.getSubscribersToFeedAndTopic stale.feed
        stale.topic).map fun subscriber => (subscriber.1, noData stale.feed stale.topic)) =
      if stale = ⟨f, t⟩ then
        if c ∈ (s.subscriptionRepository.getSubscribersToFeedAndTopic f t).map Prod.fst then
          [noData f t]
        else []
      else [] := by
  obtain ⟨feed, topic⟩ := stale
  have hmap : ((s.subscriptionRepository.getSubscribersToFeedAndTopic feed topic).map
      fun subscriber => (subscriber.1, noData feed topic)) =
      ((s.subscriptionRepository.getSubscribersToFeedAndTopic feed topic).map Prod.fst).map
        fun id => (id, noData feed topic) := by
    rw [List.map_map]
    rfl
  rw [nullsSent, hmap, addressed_map_const c _
    (SubscriptionRepository.nodup_getSubscribersToFeedAndTopic _ feed topic)]
  by_cases hk : (⟨feed, topic⟩ : FeedTopic) = ⟨f, t⟩
  · obtain ⟨rfl, rfl⟩ := FeedTopic.mk.inj hk
    rw [if_pos rfl]
    split
    · simp [noData, isNullData]
    · rfl
  · have hk' : ¬ (feed = f ∧ topic = t) := fun h => hk (by rw [h.1, h.2])
    rw [if_neg hk]
    split
    · simpa [noData, isNullData] using hk'
    · rfl

/-- A close sends each subscriber one message without data for every topic on which it
removes the only publisher, and no other. -/
theorem nullsSent_of_disposes (s : Server) {e : Event} {p : Guid} (hd : e.disposes = some p)
    (c : Guid) (f t : String) : nullsSent c f t (sends settings s e) =
      if (⟨f, t⟩ : FeedTopic) ∈ (s.publisherRepository.removePublisher p).2 ∧
          c ∈ (s.subscriptionRepository.getSubscribersToFeedAndTopic f t).map Prod.fst then
        [noData f t]
      else [] := by
  have hsends : sends settings s e = staleSends s p ++ endSends settings s p := by
    cases e with
    | error i x =>
      cases hd
      rfl
    | closed i =>
      cases hd
      rfl
    | _ => cases hd
  have hend := nullsSent_endSends settings s p c f t
  rw [nullsSent] at hend
  rw [hsends, nullsSent, addressed_append, List.filter_append, hend, List.append_nil, staleSends,
    addressed_flatMap, List.filter_flatMap]
  have htopic := nullsSent_onStaleTopic s c f t
  simp only [nullsSent] at htopic
  simp only [htopic]
  by_cases hc : c ∈ (s.subscriptionRepository.getSubscribersToFeedAndTopic f t).map Prod.fst
  · simp only [hc, if_true, and_true]
    exact flatMap_ite_eq (PublisherRepository.nodup_removePublisher _ p) _ _
  · simp [hc]

end Server

namespace System

variable (settings : Settings)

/-- The interactor has published on the topic, to a recipient and with the Publish role,
and has not been closed since. -/
def Publishing (p : Guid) (ft : FeedTopic) : History System Action → Prop
  | [] => False
  | (s, a) :: h =>
    match s.handled a with
    | some e => Server.publishes settings s.server p ft e ∨
        e.disposes ≠ some p ∧ Publishing p ft h
    | none => Publishing p ft h

/-- The interactor is publishing on the topic, and no other is. -/
def OnlyPublishing (p : Guid) (ft : FeedTopic) (h : History System Action) : Prop :=
  Publishing settings p ft h ∧ ∀ p', Publishing settings p' ft h → p' = p

/-- A close tells every other subscriber of a topic once that the data is stale, if the
closed interactor was the only one publishing on it: the one message that it sends for the topic
is put on the write queue of each that is live. Otherwise it sends none, and puts none on any
write queue. -/
def AnnouncesStaleness (h : History System Action) (s : System) (a : Action) : Prop :=
  ∀ e p s', s.handled a = some e → e.disposes = some p → step settings s a = some s' → ∀ f t,
    (OnlyPublishing settings p ⟨f, t⟩ h → ∀ c ≠ p,
      c ∈ (s.server.subscriptionRepository.getSubscribersToFeedAndTopic f t).map Prod.fst →
      nullsSent c f t (Server.sends settings s.server e) = [noData f t] ∧
      ((s.server.objects c).tokenSource = .live →
        nullsQueued c f t s'.server = nullsQueued c f t s.server ++ [noData f t])) ∧
    (¬ OnlyPublishing settings p ⟨f, t⟩ h → ∀ c,
      nullsSent c f t (Server.sends settings s.server e) = [] ∧
      nullsQueued c f t s'.server = nullsQueued c f t s.server)

/-- The publishers that the repository records are those that are publishing. -/
theorem hasPublished_iff_publishing {h : History System Action} {s : System}
    (hr : Runs settings h s) (p : Guid) (ft : FeedTopic) :
    s.server.publisherRepository.HasPublished p ft ↔ Publishing settings p ft h := by
  induction hr with
  | start => exact iff_of_false (PublisherRepository.not_hasPublished_empty p ft) id
  | next hr ha ih =>
    rcases step_handled settings ha with ⟨hn, hq⟩ | ⟨e, he, -, hserver⟩
    · rw [Publishing, hn, hq.publishers]
      exact ih
    · rw [Publishing, he, hserver, hasPublished_onInteractorEvent, ih]

/-- Every close of every run tells of staleness exactly where the last publisher goes. -/
theorem staleness_announced {h : History System Action} {s : System} (hr : Runs settings h s) :
    Throughout (AnnouncesStaleness settings) h := by
  have hpublishers : Always (fun h s => ∀ p ft,
      s.server.publisherRepository.HasPublished p ft ↔ Publishing settings p ft h) h s :=
    hr.always fun _ _ hr => hasPublished_iff_publishing settings hr
  apply hpublishers.throughout
  intro h r a hp e p r' he hd ha f t
  have hqueued (c : Guid) : nullsQueued c f t r'.server =
      nullsQueued c f t r.server ++ (delivered settings c r a).filter (isNullData f t) := by
    rw [nullsQueued, queued_step settings ha c, List.filter_append]
    rfl
  have hstale : (⟨f, t⟩ : FeedTopic) ∈ (r.server.publisherRepository.removePublisher p).2 ↔
      OnlyPublishing settings p ⟨f, t⟩ h := by
    simp only [PublisherRepository.mem_removePublisher, hp, OnlyPublishing]
  have hnulls := fun c => Server.nullsSent_of_disposes settings r.server hd c f t
  have hdelivered (c : Guid) (hlive : (r.server.objects c).tokenSource = .live) (hc : c ≠ p) :
      (delivered settings c r a).filter (isNullData f t) =
        nullsSent c f t (Server.sends settings r.server e) := by
    have hother : e.disposes ≠ some c := fun h => hc (Option.some.inj (h.symm.trans hd))
    simp only [delivered, he, hlive, ne_eq, hother, not_false_eq_true, and_self, if_true]
    rfl
  constructor
  · intro honly c hc hsub
    have hone : nullsSent c f t (Server.sends settings r.server e) = [noData f t] := by
      rw [hnulls, if_pos ⟨hstale.mpr honly, hsub⟩]
    refine ⟨hone, fun hlive => ?_⟩
    rw [hqueued, hdelivered c hlive hc, hone]
  · intro honly c
    have hnone : nullsSent c f t (Server.sends settings r.server e) = [] := by
      rw [hnulls, if_neg fun h => honly (hstale.mp h.1)]
    have hdropped : (delivered settings c r a).filter (isNullData f t) = [] := by
      refine List.filter_eq_nil_iff.mpr fun m hm => ?_
      obtain ⟨e', he', -, -, hsent⟩ := (mem_delivered settings).mp hm
      rw [he] at he'
      cases he'
      exact List.filter_eq_nil_iff.mp hnone m (mem_addressed.mpr hsent)
    exact ⟨hnone, by rw [hqueued, hdropped, List.append_nil]⟩

/-- A subscriber is told when its only publisher disconnects. -/
theorem staleness_announced_of_disconnect :
    ∃ h s, Runs (.permissive false) h s ∧ (events h).filterMap id =
        [.error ⟨2⟩ .endOfStream, .message ⟨2⟩ (.multicastData ⟨"F", "T", "text", none⟩),
          .message ⟨1⟩ (.subscriptionRequest ⟨"F", "T", true⟩), .connected ⟨2⟩, .connected ⟨1⟩] ∧
      Throughout (AnnouncesStaleness (.permissive false)) h := by
  obtain ⟨h, s, hr, he⟩ := exists_run_of_exec (step (.permissive false)) init
    [.accept ⟨1⟩, .accept ⟨2⟩, .process, .process, .checkRead ⟨1⟩,
      .receive ⟨1⟩ (.subscriptionRequest ⟨"F", "T", true⟩), .process, .checkRead ⟨2⟩,
      .receive ⟨2⟩ (.multicastData ⟨"F", "T", "text", none⟩), .process, .checkRead ⟨2⟩,
      .readError ⟨2⟩ .endOfStream, .endRead ⟨2⟩, .checkWrite ⟨2⟩, .endWrite ⟨2⟩, .process]
    (fun x => (events x.1).filterMap id)
    [.error ⟨2⟩ .endOfStream, .message ⟨2⟩ (.multicastData ⟨"F", "T", "text", none⟩),
      .message ⟨1⟩ (.subscriptionRequest ⟨"F", "T", true⟩), .connected ⟨2⟩, .connected ⟨1⟩] rfl
  exact ⟨h, s, hr, he, staleness_announced (.permissive false) hr⟩

end System

end MessageBus.Distributor
