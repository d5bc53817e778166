import MessageBus.Bus.EndToEnd
import MessageBus.Distributor.Notified
import MessageBus.Examples.SelectfeedPublisher

/-!
# The select feed on the bus

The publisher of the select feed as the application of one client. In a state at rest it has
counted every notice that the distributor sent it, in order, whatever other clients do, and
the distributor has handled all that it sent and published.
-/

namespace MessageBus
open Base Common Messages Adapters Distributor Selectfeed

/-- The event is a notice of a subscription. -/
def Adapters.ClientEvent.isNotice : ClientEvent → Bool
  | .forwardedSubscription _ _ _ _ _ _ => true
  | _ => false

namespace Bus

variable {settings : Settings} {h : History Bus Action} {b : Bus}

private theorem raises_notices : Raises isForwardedSubscription ClientEvent.isNotice where
  event m e h := by
    cases m with
    | forwardedMulticastData m =>
      cases h
      unfold Client.raiseOnDataOrHeartbeat
      split <;> rfl
    | forwardedUnicastData m =>
      cases h
      rfl
    | forwardedSubscriptionRequest m =>
      cases h
      rfl
    | authorizationRequest m =>
      cases h
      rfl
    | _ => cases h
  answer e h := by
    cases e with
    | forwardedSubscription user host c f t isAdd => rfl
    | _ => cases h
  wire m := by cases m <;> rfl

-- A client that is settled and still reads has raised every notice that its interactor was sent.
private theorem notices_raised (hr : Runs settings h b) {n : Guid} (hs : Settled h b n)
    (hread : (b.client n).readTask = .running)
    (hdown : ∀ m ∈ (b.system.server.objects n).queued, m.sent.Fits) :
    (b.client n).raised.filter ClientEvent.isNotice =
      (System.noticesTo settings n (distributed h)).map fun m => eventFor m.sent.received := by
  obtain ⟨pre, -, hall, hqueued⟩ := System.Runs.collected
    (fun _ s e _ => (List.map_id (Server.noticesTo settings n s.server e)).symm) (Runs.system hr)
  have hfilter : (b.system.server.objects n).queued.filter isForwardedSubscription =
      System.noticesTo settings n (distributed h) := by
    rw [System.noticesTo, ← hall hs.live, ← List.map_id pre]
    exact hqueued
  rw [raises_notices.settled hs hread hdown, hfilter]

variable {ο : Type} {x : Exchange ο} {inputs : List (Input ο)} {n : Guid}

/-- The application of a client is the publisher: among the events of the exchange it has
handled those that the client raised, no handler threw, and its calls are those that were made of
the client. -/
structure Serves (x : Exchange ο) (inputs : List (Input ο)) (n : Guid) (h : History Bus Action)
    (b : Bus) : Prop where
  events : inputs.filterMap Input.event = (b.client n).raised
  thrown : (Publisher.run x inputs).thrown = none
  calls : requested n h = (Publisher.run x inputs).calls.filterMap Client.Call.message

-- The publisher asks for notices of its feed, and for no others.
private theorem feed_of_asksNotice (hserves : Serves x inputs n h b)
    (hbound : Tally.Bounded x inputs)
    (hhandled : handledFrom n h = (requested n h).map Message.received) {e : Distributor.Event}
    (he : e ∈ System.handledEvents (distributed h)) {f : String} {isAdd : Bool}
    (hasks : Server.asksNotice n f e = some isAdd) : f = feed ∧ isAdd = true := by
  cases e with
  | message i m =>
    cases m with
    | notificationRequest m =>
      obtain ⟨⟨rfl, rfl⟩, ⟨⟩⟩ := Option.ite_none_right_eq_some.mp hasks
      have hfrom : .notificationRequest m ∈ handledFrom i h :=
        List.mem_filterMap.mpr ⟨_, he, if_pos rfl⟩
      rw [hhandled, hserves.calls] at hfrom
      obtain ⟨sent, hsent, hreceived⟩ := List.mem_map.mp hfrom
      obtain ⟨call, hcall, hmessage⟩ := List.mem_filterMap.mp hsent
      cases sent with
      | notificationRequest r =>
        have htally := congrArg Tally.calls (Publisher.tally_run x hbound)
        have hcall' : call ∈ (Tally.run x inputs).calls := htally ▸ hcall
        rcases Tally.call_of_run x hcall' with rfl | hnone
        · cases hmessage
          cases hreceived
          exact ⟨rfl, rfl⟩
        · exact absurd hmessage (hnone r)
      | _ => cases hreceived
    | _ => cases hasks
  | _ => cases hasks

private theorem noticeOf_eventFor {m : Message} (hm : isForwardedSubscription m = true)
    (hfeed : ∀ r, m = .forwardedSubscriptionRequest r → r.feed = feed) (t : String) (c : Guid) :
    noticeOf t c (eventFor m.sent.received) = notice c feed t m := by
  cases m with
  | forwardedSubscriptionRequest r =>
    have hfeed := hfeed r rfl
    change (if r.topic = t ∧ r.clientId = c then some r.isAdd else none) =
      if r.clientId = c ∧ r.feed = feed ∧ r.topic = t then some r.isAdd else none
    simp only [hfeed, true_and]
    exact if_congr and_comm rfl rfl
  | _ => cases hm

-- What the publisher is told is what its interactor was sent.
private theorem noticeOf_raised (hr : Runs settings h b) (hs : Settled h b n)
    (hread : (b.client n).readTask = .running)
    (hdown : ∀ m ∈ (b.system.server.objects n).queued, m.sent.Fits)
    (hserves : Serves x inputs n h b) (hbound : Tally.Bounded x inputs)
    (hhandled : handledFrom n h = (requested n h).map Message.received) (t : String) (c : Guid) :
    (b.client n).raised.filterMap (noticeOf t c) =
      (System.noticesTo settings n (distributed h)).filterMap (notice c feed t) := by
  have hnotice : (b.client n).raised.filterMap (noticeOf t c) =
      ((b.client n).raised.filter ClientEvent.isNotice).filterMap (noticeOf t c) := by
    rw [List.filterMap_filter]
    apply List.filterMap_congr
    intro e _
    cases e <;> rfl
  rw [hnotice, notices_raised hr hs hread hdown, List.filterMap_map]
  apply List.filterMap_congr
  intro m hm
  refine noticeOf_eventFor (System.isForwardedSubscription_of_mem hm) ?_ t c
  rintro r rfl
  obtain ⟨e, he, hasks⟩ := System.Runs.asked_of_mem (Runs.system hr) hm
  exact (feed_of_asksNotice hserves hbound hhandled he hasks).1

/-- In a state at rest in which the event loop is not stopped and not stalled, and with the
publisher as the application of a client that still reads and writes, none of whose counts has
reached `2 ^ 31`, the publisher has the count of every ticker and client that the notices of the
distributor make, and so it publishes a ticker exactly if one of these counts is not zero. All that
it sent and published has been handled, in order. -/
theorem counts_of_notices (hr : Runs settings h b) (hrest : AtRest (step settings) Internal b)
    (hrun : b.system.isRunning = true) (hs : ∀ i, ¬ b.system.Stalled i)
    (hn : n ∈ b.system.accepted) (hl : (b.system.server.objects n).tokenSource ≠ .disposed)
    (hread : (b.client n).readTask = .running) (hwrite : (b.client n).writeTask = .checking)
    (hup : ∀ m ∈ requested n h, m.Fits)
    (hdown : ∀ m ∈ (b.system.server.objects n).queued, m.sent.Fits)
    (hserves : Serves x inputs n h b) (hbound : Tally.Bounded x inputs) :
    (∀ t c, (Publisher.run x inputs).count t c =
      System.view settings n c feed t (distributed h)) ∧
    (∀ t, ((Publisher.run x inputs).subscriptions.lookup t).isSome ↔
      ∃ c, 0 < System.view settings n c feed t (distributed h)) ∧
    handledFrom n h =
      ((Publisher.run x inputs).calls.filterMap Client.Call.message).map Message.received := by
  have hsettled := settled_of_running hr hrest hrun hs hn hl
  have hhandled := hsettled.handled hwrite hup
  have hsys := Runs.system hr
  have hstays : ∀ e ∈ System.handledEvents (distributed h),
      Server.asksNotice n feed e ≠ some false := by
    intro e he hasks
    cases (feed_of_asksNotice hserves hbound hhandled he hasks).2
  have hthrown : (Tally.run x inputs).thrown = none := by
    rw [← Publisher.tally_run x hbound]
    exact hserves.thrown
  have hcount : ∀ t c, (Tally.run x inputs).count t c =
      System.view settings n c feed t (distributed h) := by
    intro t c
    rw [Tally.count_run x hthrown, hserves.events,
      noticeOf_raised hr hsettled hread hdown hserves hbound hhandled,
      (System.Runs.view_eq hsys hsettled.live hstays c t).1]
  refine ⟨fun t c => ?_, fun t => ?_, ?_⟩
  · rw [← hcount, ← Publisher.tally_run x hbound]
    rfl
  · rw [Publisher.isSome_lookup_run x hbound, Tally.IsWanted]
    simp only [hcount]
  · rw [hhandled, hserves.calls]

/-! ### One image -/

/-- An exchange with one ticker, whose only field is its name. -/
def vodafone : Exchange String where
  data := AList.singleton "VOD" (AList.singleton "NAME" "Vodafone Group PLC")
  serializeObject dataFrame :=
    let quote (s : String) := "\"" ++ s ++ "\""
    let object (fields : List (String × String)) := "\x7b" ++
      ",".intercalate (fields.map fun field => quote field.1 ++ ":" ++ field.2) ++ "\x7d"
    object (dataFrame.entries.map fun ticker => (ticker.1,
      object (ticker.2.entries.map fun field => (field.1, quote field.2))))

/-- The publisher is notified, a client subscribes to a ticker, the publisher sends it the
image, and all wait. -/
def oneImage : List Action :=
  let notification : Message (Option String) := .notificationRequest ⟨some feed, true⟩
  let subscription : Message (Option String) :=
    .subscriptionRequest ⟨some feed, some "VOD", true⟩
  let notice : Message :=
    .forwardedSubscriptionRequest ⟨"user", "host", ⟨1⟩, feed, "VOD", true⟩
  let packets := toDataPackets vodafone "VOD" (AList.singleton "NAME" "Vodafone Group PLC")
  let image : Message (Option String) :=
    .unicastData ⟨⟨1⟩, some feed, some "VOD", some "", some packets⟩
  let forwarded : Message :=
    .forwardedUnicastData ⟨"user", "host", ⟨1⟩, feed, "VOD", "", some packets⟩
  [.connect ⟨1⟩, .connect ⟨2⟩, .distributor (.accept ⟨1⟩), .distributor (.accept ⟨2⟩),
    .distributor .process, .distributor .process, .client ⟨1⟩ .start, .client ⟨2⟩ .start,
    .client ⟨2⟩ (.call (.addNotification (some feed))), .client ⟨2⟩ .checkWrite,
    .clientPut ⟨2⟩ notification.write.length, .client ⟨2⟩ .wrote, .distributor (.checkRead ⟨2⟩),
    .distributor (.receive ⟨2⟩ notification.received), .distributor (.checkRead ⟨2⟩),
    .distributor .process,
    .client ⟨1⟩ (.call (.addSubscription (some feed) (some "VOD"))), .client ⟨1⟩ .checkWrite,
    .clientPut ⟨1⟩ subscription.write.length, .client ⟨1⟩ .wrote, .distributor (.checkRead ⟨1⟩),
    .distributor (.receive ⟨1⟩ subscription.received), .distributor (.checkRead ⟨1⟩),
    .distributor .process,
    .distributor (.checkWrite ⟨2⟩), .distributorPut ⟨2⟩ notice.sent.write.length,
    .distributor (.wrote ⟨2⟩), .client ⟨2⟩ .checkRead, .client ⟨2⟩ (.receive notice),
    .client ⟨2⟩ .checkRead,
    .client ⟨2⟩ (.call (.send ⟨1⟩ (some feed) (some "VOD") (some "") (some packets))),
    .client ⟨2⟩ .checkWrite, .clientPut ⟨2⟩ image.write.length, .client ⟨2⟩ .wrote,
    .distributor (.receive ⟨2⟩ image.received), .distributor (.checkRead ⟨2⟩),
    .distributor .process,
    .distributor (.checkWrite ⟨1⟩), .distributorPut ⟨1⟩ forwarded.sent.write.length,
    .distributor (.wrote ⟨1⟩), .client ⟨1⟩ .checkRead, .client ⟨1⟩ (.receive forwarded),
    .client ⟨1⟩ .checkRead]

/-- The publisher counts the client that was sent the image. -/
theorem counts_of_notices_of_image :
    ∃ h b, Runs (.permissive false) h b ∧
      System.view (.permissive false) ⟨2⟩ ⟨1⟩ feed "VOD" (distributed h) = 1 ∧
      ∃ inputs, (b.client ⟨2⟩).raised = inputs.filterMap Input.event ∧
        (∀ t c, (Publisher.run vodafone inputs).count t c =
          System.view (.permissive false) ⟨2⟩ c feed t (distributed h)) ∧
        (∀ t, ((Publisher.run vodafone inputs).subscriptions.lookup t).isSome ↔
          ∃ c, 0 < System.view (.permissive false) ⟨2⟩ c feed t (distributed h)) ∧
        handledFrom ⟨2⟩ h = ((Publisher.run vodafone inputs).calls.filterMap
          Client.Call.message).map Message.received := by
  let inputs : List (Input String) :=
    [.client (.forwardedSubscription "user" "host" ⟨1⟩ feed "VOD" true)]
  obtain ⟨h, b, hr, hobs⟩ := exists_run_of_exec (step (.permissive false)) init oneImage
    (fun y : History Bus Action × Bus =>
      ((y.2.system.isRunning, decide (y.2.system.eventQueue = []),
        decide (∀ i ∈ y.2.clients, y.2.Idle i)),
      (decide (⟨2⟩ ∈ y.2.system.accepted), decide (y.2.Idle ⟨2⟩),
        decide (∀ m ∈ requested ⟨2⟩ y.1, m.Fits),
        decide (∀ m ∈ (y.2.system.server.objects ⟨2⟩).queued, m.sent.Fits)),
      (System.view (.permissive false) ⟨2⟩ ⟨1⟩ feed "VOD" (distributed y.1),
        decide (inputs.filterMap Input.event = (y.2.client ⟨2⟩).raised),
        decide ((Publisher.run vodafone inputs).thrown = none),
        decide (requested ⟨2⟩ y.1 = (Publisher.run vodafone inputs).calls.filterMap
          Client.Call.message))))
    ((true, true, true), (true, true, true, true), (1, true, true, true)) (by decide +kernel)
  simp only [Prod.mk.injEq, decide_eq_true_eq] at hobs
  obtain ⟨⟨hrun, hq, hi⟩, ⟨hn, hidle, hup, hdown⟩, ⟨hview, hevents, hthrown, hcalls⟩⟩ := hobs
  have hs : ∀ i, ¬ b.system.Stalled i := by
    rintro i ⟨hnext, -⟩
    rw [hq] at hnext
    cases hnext
  have hl : (b.system.server.objects ⟨2⟩).tokenSource ≠ .disposed := by
    rw [hidle.token]
    decide
  have hbound : Tally.Bounded vodafone inputs := Tally.bounded_of_length vodafone (by decide)
  exact ⟨h, b, hr, hview, inputs, hevents.symm, counts_of_notices hr (atRest_of_idle hr hq hi) hrun
    hs hn hl hidle.clientRead hidle.clientWrite hup hdown ⟨hevents, hthrown, hcalls⟩ hbound⟩

end Bus

end MessageBus
