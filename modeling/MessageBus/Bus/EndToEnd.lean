import MessageBus.Bus.Quiescence
import MessageBus.Distributor.Publications

/-!
# End to end

From the call of `Publish` or `Send` in one client to the event that another raises. The
data events of a client are those of the publications that were carried to it, in order,
and of the denials and the stale topics between them; of each publisher they are some of
what its application published, in that order and once each. In a state at rest nothing is
missing.
-/

namespace MessageBus
open Base Common Messages Adapters Distributor

/-- The event brings data, or is the heartbeat. -/
def Adapters.ClientEvent.isData : ClientEvent → Bool
  | .dataReceived _ _ _ _ _ _ => true
  | .heartbeat => true
  | _ => false

/-- The event tells that there is no data. -/
def Adapters.ClientEvent.IsNoData (e : ClientEvent) : Prop :=
  e = .heartbeat ∨ ∃ f t, e = .dataReceived "" "" f t none ""

namespace Distributor.Carried

/-- The event that is raised for a publication. -/
def raised (settings : Settings) : Carried → ClientEvent
  | multicast publisher data authorization =>
    if data.feed = "__admin__" ∧ data.topic = "heartbeat" then .heartbeat
    else .dataReceived (settings.user publisher) (settings.host publisher) data.feed data.topic
      (receivedDataPackets (entitledPackets authorization data.dataPackets)) data.contentType
  | unicast publisher data authorization =>
    .dataReceived (settings.user publisher) (settings.host publisher) data.feed data.topic
      (receivedDataPackets (entitledPackets authorization data.dataPackets)) data.contentType

private theorem onMessage_forwarded (settings : Settings) (x : Carried) :
    Client.onMessage (x.forwarded settings).sent.received = .ok (x.raised settings) := by
  cases x with
  | multicast publisher data authorization =>
    rw [raised, ← getAuthorizedData_eq]
    rfl
  | unicast publisher data authorization =>
    rw [raised, ← getAuthorizedData_eq]
    rfl

end Distributor.Carried

/-- The event that is raised for what a client is told of data. -/
def Distributor.DataItem.raised (settings : Settings) : DataItem → ClientEvent
  | .publication carried => carried.raised settings
  | .absence feed topic =>
    if feed = "__admin__" ∧ topic = "heartbeat" then .heartbeat
    else .dataReceived "" "" feed topic none ""

namespace Bus

variable {settings : Settings} {h : History Bus Action} {b : Bus}

/-! ### Classes of messages -/

/-- The event that `Read` raises for a message. -/
def eventFor (m : Message) : ClientEvent :=
  match Client.onMessage m with
  | .ok event => event
  | .error error => Client.connectionLost error

/-- A class of messages that is known by the events it raises: a message is of the class also
when it has been sent and read. -/
structure Raises (p : Message → Bool) (q : ClientEvent → Bool) : Prop where
  event : ∀ m e, Client.onMessage m = .ok e → q e = p m
  answer : ∀ e, q e = true → e.isAnswer = true
  wire : ∀ m : Message, p m.sent.received = p m

/-- What was cut off is not read as a message of the class. -/
def Unguessed (p : Message → Bool) : Prop :=
  ∀ (m : Message (Option String)) m', m.guess = some m' → p m' = false

namespace Raises

variable {p : Message → Bool} {q : ClientEvent → Bool}

private theorem filter_onMessage (hp : Raises p q) {seen : List Message}
    {events : List ClientEvent} (h : seen.map Client.onMessage = events.map .ok) :
    (seen.filter p).map eventFor = events.filter q := by
  induction seen generalizing events with
  | nil =>
    rw [List.map_nil, eq_comm, List.map_eq_nil_iff] at h
    rw [h]
    rfl
  | cons m seen ih =>
    obtain ⟨e, events', rfl, he, hrest⟩ := List.map_eq_cons_iff.mp h.symm
    have ih := ih hrest.symm
    rw [List.filter_cons, List.filter_cons, hp.event m e he.symm]
    split
    · rw [List.map_cons, ih, eventFor, ← he]
    · exact ih

private theorem filter_answers (hp : Raises p q) (c : Client) :
    c.answers.filter q = c.raised.filter q := by
  rw [Client.answers, List.filter_filter]
  apply List.filter_congr
  intro e _
  cases hq : q e with
  | false => rfl
  | true => rw [hp.answer e hq, Bool.and_self]

private theorem filter_received (hp : Raises p q) (ms : List Message) :
    (ms.map (Message.received ∘ Message.sent)).filter p =
      (ms.filter p).map (Message.received ∘ Message.sent) := by
  rw [List.filter_map]
  congr 1
  exact List.filter_congr fun m _ => hp.wire m

/-- The events of a class that is not guessed are those of its messages queued to the
interactor, up to some message. -/
theorem initial (hp : Raises p q) (hguess : Unguessed p) (hr : Runs settings h b) {c : Guid}
    (hf : ∀ m ∈ (b.system.server.objects c).queued, m.sent.Fits) :
    (b.client c).raised.filter q <+:
      ((b.system.server.objects c).queued.filter p).map fun m => eventFor m.sent.received := by
  obtain ⟨hd, hraised⟩ := Runs.raised hr c hf
  have hpre := (hd.filter_initial hguess).map eventFor
  rw [hp.filter_onMessage hraised, hp.filter_answers, List.map_map, hp.filter_received,
    List.map_map] at hpre
  exact hpre

/-- A client that is settled and still reads has raised them all. -/
theorem settled (hp : Raises p q) {c : Guid} (hs : Settled h b c)
    (hread : (b.client c).readTask = .running)
    (hf : ∀ m ∈ (b.system.server.objects c).queued, m.sent.Fits) :
    (b.client c).raised.filter q =
      ((b.system.server.objects c).queued.filter p).map fun m => eventFor m.sent.received := by
  have hraised : ((b.system.server.objects c).queued.map
      (Message.received ∘ Message.sent)).map Client.onMessage = (b.client c).answers.map .ok := by
    rw [List.map_map]
    exact hs.raised hread hf
  have hall := hp.filter_onMessage hraised
  rw [hp.filter_answers, hp.filter_received, List.map_map] at hall
  exact hall.symm

/-- Where the events of the distributor send to a client, of a class that is not guessed, what
they make, the client raises the events of what is made, up to some item; and if it is settled
and still reads, of all that is made. -/
theorem collected (hp : Raises p q) (hguess : Unguessed p) {β : Type}
    (make : Server → Distributor.Event → List β) {f : β → Message} {c : Guid}
    (hmake : ∀ h s e, System.Runs settings h s →
      (addressed c (Server.sends settings s.server e)).filter p = (make s.server e).map f)
    (hr : Runs settings h b) (hf : ∀ m ∈ (b.system.server.objects c).queued, m.sent.Fits) :
    ∃ pre, pre <+: System.collect make (distributed h) ∧
      (b.client c).raised.filter q = pre.map (fun x => eventFor (f x).sent.received) ∧
      (Settled h b c → (b.client c).readTask = .running →
        pre = System.collect make (distributed h)) := by
  obtain ⟨queued, hq, hall, hqueued⟩ := System.Runs.collected hmake (Runs.system hr)
  by_cases hs : Settled h b c ∧ (b.client c).readTask = .running
  · refine ⟨queued, hq, ?_, fun hs _ => hall hs.live⟩
    rw [hp.settled hs.1 hs.2 hf, hqueued, List.map_map]
    rfl
  · have hinitial := hp.initial hguess hr hf
    rw [hqueued, List.map_map] at hinitial
    obtain ⟨rest, hrest⟩ := hinitial
    obtain ⟨pre, tail, rfl, hpre, -⟩ := List.map_eq_append_iff.mp hrest.symm
    exact ⟨pre, (List.prefix_append ..).trans hq, hpre.symm,
      fun hs' hread => absurd ⟨hs', hread⟩ hs⟩

end Raises

/-! ### Messages that carry data -/

private theorem eventFor_forwarded (x : DataItem) :
    eventFor (x.forwarded settings).sent.received = x.raised settings := by
  cases x with
  | publication carried =>
    rw [eventFor, DataItem.forwarded, Carried.onMessage_forwarded]
    rfl
  | absence feed topic => rfl

private theorem raises_data : Raises isForwardedData ClientEvent.isData where
  event m e h := by
    cases m with
    | forwardedMulticastData m =>
      cases h
      unfold Client.raiseOnDataOrHeartbeat
      split <;> rfl
    | forwardedUnicastData m =>
      cases h
      rfl
    | forwardedSubscriptionRequest m =>
      cases h
      rfl
    | authorizationRequest m =>
      cases h
      rfl
    | _ => cases h
  answer e h := by
    cases e with
    | connectionChanged state error => cases h
    | _ => rfl
  wire m := by cases m <;> rfl

private theorem unguessed_data : Unguessed isForwardedData := by
  intro m m' h
  rcases Message.request_of_guess h with ⟨r, rfl⟩ | ⟨r, rfl⟩ | ⟨r, rfl⟩ <;> rfl

/-- A message that a client publishes. -/
def isPublication : Message → Bool
  | .multicastData _ => true
  | .unicastData _ => true
  | _ => false

/-- Whether a message is a publication does not depend on the guessed byte. -/
theorem unguessed_publication : Unguessed isPublication := by
  intro m m' h
  rcases Message.request_of_guess h with ⟨r, rfl⟩ | ⟨r, rfl⟩ | ⟨r, rfl⟩ <;> rfl

private theorem isPublication_publishedBy (i : Guid) (xs : List Carried) :
    (Carried.publishedBy i xs).filter isPublication = Carried.publishedBy i xs := by
  rw [List.filter_eq_self]
  intro m hm
  obtain ⟨x, -, rfl⟩ := List.mem_map.mp hm
  cases x <;> rfl

/-! ### From the publisher to the subscriber -/

section run

/-- What a run has a client told of data. -/
def dataTo (settings : Settings) (c : Guid) (h : History Bus Action) : List DataItem :=
  System.dataTo settings c (distributed h)

/-- What was handled of a client is what its application asked for, in order and once each, up
to some message, of the classes of messages that are not guessed. -/
theorem handledFrom_sublist (hr : Runs settings h b) {i : Guid} (hi : i ≠ settings.heartbeat)
    (hf : ∀ x ∈ h, ∀ m ∈ x.2.request, m.Fits) {p : Message → Bool} (hp : Unguessed p) :
    ((handledFrom i h).filter p).Sublist ((requested i h).map Message.received) := by
  have hfits : ∀ m ∈ requested i h, m.Fits := by
    intro m hm
    obtain ⟨x, hx, hxm⟩ := request_of_requested hm
    exact hf x hx m hxm
  have hhandled : handledFrom i h <+: receivedFrom settings i h := by
    rw [handledFrom, receivedFrom, System.Runs.posted_eq settings (Runs.system hr),
      List.filterMap_append]
    exact List.prefix_append ..
  have hd := (Runs.heard hr hi hfits).filter_initial hp
  exact ((hhandled.sublist.filter p).trans hd.sublist).trans List.filter_sublist

/-- What the heartbeat interactor has handled is heartbeats. -/
theorem heartbeat_of_handled (hr : Runs settings h b) {m : Message}
    (hm : .message settings.heartbeat m ∈ System.handledEvents (distributed h)) :
    m = heartbeatMessage := by
  have hall := (Runs.system hr).always fun _ _ hr => System.Runs.lifecycle settings hr
  have hevery := hall.throughout (G := fun _ s _ => System.Lifecycle settings s) fun _ _ _ hl => hl
  obtain ⟨x, hx, he⟩ := System.mem_handledEvents.mp hm
  have hl := Throughout.forall_mem hevery x hx
  rcases hl.sender _ (System.mem_of_handled he) with hs | hs | hs
  · cases hs
  · cases hs
    rfl
  · exact absurd (hl.accepted _ hs) hl.heartbeat

/-- A message that was handled, and that cannot have been guessed, was asked for by the
application of its client. -/
theorem requested_of_handled (hr : Runs settings h b)
    (hf : ∀ x ∈ h, ∀ m ∈ x.2.request, m.Fits) {p : Message → Bool} (hp : Unguessed p)
    {i : Guid} {m : Message} (hm : .message i m ∈ System.handledEvents (distributed h))
    (hpm : p m = true) :
    m = heartbeatMessage ∨ ∃ m' ∈ requested i h, m'.received = m := by
  by_cases hi : i = settings.heartbeat
  · subst hi
    exact .inl (heartbeat_of_handled hr hm)
  · have hfrom : m ∈ handledFrom i h := List.mem_filterMap.mpr ⟨_, hm, if_pos rfl⟩
    have hrequested := (handledFrom_sublist hr hi hf hp).subset
      (List.mem_filter.mpr ⟨hfrom, hpm⟩)
    exact .inr (List.mem_map.mp hrequested)

private theorem publishedBy_sublist (hr : Runs settings h b) {c i : Guid} {pre : List DataItem}
    (hpre : pre <+: dataTo settings c h) (hi : i ≠ settings.heartbeat)
    (hf : ∀ x ∈ h, ∀ m ∈ x.2.request, m.Fits) :
    (Carried.publishedBy i (pre.filterMap DataItem.carried)).Sublist
      ((requested i h).map Message.received) := by
  have hcarried := hpre.sublist.filterMap DataItem.carried
  rw [dataTo, System.filterMap_dataTo] at hcarried
  have hhandled : (Carried.publishedBy i (pre.filterMap DataItem.carried)).Sublist
      (handledFrom i h) :=
    ((hcarried.filter _).map _).trans (System.publishedBy_carried settings c i (distributed h))
  rw [← isPublication_publishedBy]
  exact (hhandled.filter _).trans (handledFrom_sublist hr hi hf unguessed_publication)

/-- The data events of a client are those of what it was told, up to some item; if it is settled
and still reads, of all of it. -/
theorem data_collected (hr : Runs settings h b) {c : Guid}
    (hdown : ∀ m ∈ (b.system.server.objects c).queued, m.sent.Fits) :
    ∃ pre, pre <+: dataTo settings c h ∧
      (b.client c).raised.filter ClientEvent.isData = pre.map (DataItem.raised settings) ∧
      (Settled h b c → (b.client c).readTask = .running → pre = dataTo settings c h) := by
  obtain ⟨pre, hpre, hraised, hall⟩ := raises_data.collected unguessed_data
    (Server.dataTo settings c) (fun _ s e _ => Server.addressed_sends settings s.server e c) hr
    hdown
  simp only [eventFor_forwarded] at hraised
  exact ⟨pre, hpre, hraised, hall⟩

/-- In every run, the data events of a client are those of what the distributor has it told, in
order and once each, up to some item: of the publications that were carried to it, of denials and
of topics that went stale. Of each publisher they are some of the publications that its
application asked for, in that order. -/
theorem data_raised (hr : Runs settings h b) (c : Guid)
    (hup : ∀ x ∈ h, ∀ m ∈ x.2.request, m.Fits)
    (hdown : ∀ m ∈ (b.system.server.objects c).queued, m.sent.Fits) :
    ∃ pre, pre <+: dataTo settings c h ∧
      (b.client c).raised.filter ClientEvent.isData = pre.map (DataItem.raised settings) ∧
      ∀ i, i ≠ settings.heartbeat →
        (Carried.publishedBy i (pre.filterMap DataItem.carried)).Sublist
          ((requested i h).map Message.received) := by
  obtain ⟨pre, hpre, hraised, -⟩ := data_collected hr hdown
  exact ⟨pre, hpre, hraised, fun i hi => publishedBy_sublist hr hpre hi hup⟩

/-- In a state at rest in which the event loop is not stopped and not stalled, a client that
still reads has raised an event for each publication that was carried to it, each denial and each
topic that went stale, and no other data event. -/
theorem all_data_raised (hr : Runs settings h b) (hrest : AtRest (step settings) Internal b)
    (hrun : b.system.isRunning = true) (hs : ∀ i, ¬ b.system.Stalled i) {c : Guid}
    (hc : c ∈ b.system.accepted) (hl : (b.system.server.objects c).tokenSource ≠ .disposed)
    (hread : (b.client c).readTask = .running)
    (hdown : ∀ m ∈ (b.system.server.objects c).queued, m.sent.Fits) :
    (b.client c).raised.filter ClientEvent.isData =
      (dataTo settings c h).map (DataItem.raised settings) := by
  obtain ⟨pre, -, hraised, hall⟩ := data_collected hr hdown
  rw [hraised, hall (settled_of_running hr hrest hrun hs hc hl) hread]

end run

/-- A publication is raised where it is subscribed to. -/
theorem data_raised_of_publication :
    ∃ h b, Runs (.permissive false) h b ∧
      (b.client ⟨1⟩).raised = [.dataReceived "user" "host" "F" "T" none "text"] ∧
      ∃ pre, pre <+: dataTo (.permissive false) ⟨1⟩ h ∧
        (b.client ⟨1⟩).raised.filter ClientEvent.isData =
          pre.map (DataItem.raised (.permissive false)) ∧
        ∀ i, i ≠ (Settings.permissive false).heartbeat →
          (Carried.publishedBy i (pre.filterMap DataItem.carried)).Sublist
            ((requested i h).map Message.received) := by
  obtain ⟨h, b, hr, hobs⟩ := exists_run_of_exec (step (.permissive false)) init onePublication
    (fun x => ((x.2.client ⟨1⟩).raised, decide (∀ y ∈ x.1, ∀ m ∈ y.2.request, m.Fits),
      decide (∀ m ∈ (x.2.system.server.objects ⟨1⟩).queued, m.sent.Fits)))
    ([.dataReceived "user" "host" "F" "T" none "text"], true, true) (by decide +kernel)
  simp only [Prod.mk.injEq, decide_eq_true_eq] at hobs
  obtain ⟨hraised, hup, hdown⟩ := hobs
  exact ⟨h, b, hr, hraised, data_raised hr ⟨1⟩ hup hdown⟩

/-- The publication is all that the subscriber is told. -/
theorem all_data_raised_of_publication :
    ∃ h b, Runs (.permissive false) h b ∧
      (dataTo (.permissive false) ⟨1⟩ h).map (DataItem.raised (.permissive false)) =
        [.dataReceived "user" "host" "F" "T" none "text"] ∧
      (b.client ⟨1⟩).raised.filter ClientEvent.isData =
        (dataTo (.permissive false) ⟨1⟩ h).map (DataItem.raised (.permissive false)) := by
  obtain ⟨h, b, hr, hobs⟩ := exists_run_of_exec (step (.permissive false)) init onePublication
    (fun x => ((x.2.system.isRunning, decide (x.2.system.eventQueue = []),
        decide (∀ i ∈ x.2.clients, x.2.Idle i)),
      (decide (⟨1⟩ ∈ x.2.system.accepted), decide (x.2.Idle ⟨1⟩),
        decide (∀ m ∈ (x.2.system.server.objects ⟨1⟩).queued, m.sent.Fits)),
      (dataTo (.permissive false) ⟨1⟩ x.1).map (DataItem.raised (.permissive false))))
    ((true, true, true), (true, true, true),
      [.dataReceived "user" "host" "F" "T" none "text"]) (by decide +kernel)
  simp only [Prod.mk.injEq, decide_eq_true_eq] at hobs
  obtain ⟨⟨hrun, hq, hi⟩, ⟨hc, hidle, hdown⟩, hcarried⟩ := hobs
  have hs : ∀ i, ¬ b.system.Stalled i := by
    rintro i ⟨hnext, -⟩
    rw [hq] at hnext
    cases hnext
  have hl : (b.system.server.objects ⟨1⟩).tokenSource ≠ .disposed := by
    rw [hidle.token]
    decide
  exact ⟨h, b, hr, hcarried, all_data_raised hr (atRest_of_idle hr hq hi) hrun hs hc hl
    hidle.clientRead hdown⟩

end Bus

end MessageBus
