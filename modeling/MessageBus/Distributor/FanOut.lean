import MessageBus.Distributor.Sends
import MessageBus.Distributor.Steps

/-!
# Fan-out

What a client receives is determined by the publications handled while it had a
subscription entry: one message each, filtered by the authorization of the entry as it
was then, in the order in which the publications were handled.
-/

namespace MessageBus.Distributor
open MessageBus.Base MessageBus.Common MessageBus.Messages

/-! ### What is expected -/

/-- The packets that an authorization entitles to: all of them where none is required,
otherwise those with entitlements that are all held. -/
def entitledPackets (info : AuthorizationInfo) (dataPackets : Option (List DataPacket)) :
    Option (List DataPacket) :=
  if info.isAuthorizationRequired then
    dataPackets.map (List.filter fun packet => packet.entitlements.any fun entitlements =>
      entitlements.toList.all fun e => decide (e ∈ info.entitlements))
  else dataPackets

/-- The packets that are sent are those that the entitlements let through. -/
theorem getAuthorizedData_eq (dataPackets : Option (List DataPacket)) (info : AuthorizationInfo) :
    getAuthorizedData dataPackets info = entitledPackets info dataPackets := by
  have hfilter : (fun packet : DataPacket => packet.isAuthorized info.entitlements) =
      fun packet => packet.entitlements.any fun entitlements =>
        entitlements.toList.all fun e => decide (e ∈ info.entitlements) := by
    funext packet
    unfold DataPacket.isAuthorized
    cases packet.entitlements <;> rfl
  rw [getAuthorizedData, entitledPackets, hfilter]

/-- Multicast data for a feed and topic, as it is forwarded. -/
def isMulticastOn (f t : String) : Message → Bool
  | .forwardedMulticastData m => m.feed == f && m.topic == t
  | _ => false

/-- Unicast data for a feed and topic, as it is forwarded. -/
def isUnicastOn (f t : String) : Message → Bool
  | .forwardedUnicastData m => m.feed == f && m.topic == t
  | _ => false

namespace Server

variable (settings : Settings)

/-- What a client should receive of an event on a feed and topic by multicast. -/
def multicastTo (c : Guid) (f t : String) (s : Server) : Event → List Message
  | .message publisher (.multicastData m) =>
    if m.feed = f ∧ m.topic = t ∧ settings.hasRole publisher f .publish then
      match s.entry c f t with
      | some state => [.forwardedMulticastData
          { user := settings.user publisher, host := settings.host publisher,
            feed := f, topic := t, contentType := m.contentType,
            dataPackets := entitledPackets state.authorizationInfo m.dataPackets }]
      | none => []
    else []
  | _ => []

/-- What a client should receive of an event on a feed and topic by unicast. -/
def unicastTo (c : Guid) (f t : String) (s : Server) : Event → List Message
  | .message publisher (.unicastData m) =>
    if m.clientId = c ∧ m.feed = f ∧ m.topic = t ∧ settings.hasRole publisher f .publish then
      match s.entry c f t with
      | some state => [.forwardedUnicastData
          { user := settings.user publisher, host := settings.host publisher, clientId := c,
            feed := f, topic := t, contentType := m.contentType,
            dataPackets := entitledPackets state.authorizationInfo m.dataPackets }]
      | none => []
    else []
  | _ => []

/-! ### What one event sends -/

private theorem addressed_of_notMem {c : Guid} {subscribers : List (Guid × AuthorizationInfo)}
    (h : c ∉ subscribers.map Prod.fst) (message : AuthorizationInfo → Message) :
    addressed c (subscribers.map fun x => (x.1, message x.2)) = [] := by
  rw [List.eq_nil_iff_forall_not_mem]
  intro m hm
  obtain ⟨x, hx, he⟩ := List.mem_map.mp (mem_addressed.mp hm)
  cases he
  exact h (List.mem_map_of_mem hx)

private theorem addressed_of_mem {c : Guid} {info : AuthorizationInfo}
    {subscribers : List (Guid × AuthorizationInfo)} (hn : (subscribers.map Prod.fst).Nodup)
    (h : (c, info) ∈ subscribers) (message : AuthorizationInfo → Message) :
    addressed c (subscribers.map fun x => (x.1, message x.2)) = [message info] := by
  induction subscribers with
  | nil => cases h
  | cons x subscribers ih =>
    obtain ⟨hx, hn⟩ := List.nodup_cons.mp hn
    rw [List.map_cons]
    rcases List.mem_cons.mp h with rfl | h
    · have hrest := addressed_of_notMem hx message
      simp only [addressed] at hrest ⊢
      simp [hrest]
    · have hne : x.1 ≠ c := fun hc => hx (hc ▸ List.mem_map_of_mem (f := Prod.fst) h)
      have hrest := ih hn h
      simp only [addressed] at hrest ⊢
      simp [hne, hrest]

/-- Sending to the subscribers of a feed and topic sends one message to each. -/
theorem addressed_subscribers (r : SubscriptionRepository) (c : Guid) (f t : String)
    (message : AuthorizationInfo → Message) :
    addressed c ((r.getSubscribersToFeedAndTopic f t).map fun x => (x.1, message x.2)) =
      match r.entry c f t with
      | some state => [message state.authorizationInfo]
      | none => [] := by
  cases he : r.entry c f t with
  | some state =>
    exact addressed_of_mem (r.nodup_getSubscribersToFeedAndTopic f t)
      (SubscriptionRepository.mem_getSubscribersToFeedAndTopic.mpr ⟨state, he, rfl⟩) message
  | none =>
    apply addressed_of_notMem
    intro hc
    obtain ⟨⟨c, info⟩, hm, rfl⟩ := List.mem_map.mp hc
    obtain ⟨state, hs, -⟩ := SubscriptionRepository.mem_getSubscribersToFeedAndTopic.mp hm
    rw [he] at hs
    cases hs

private theorem eq_noData_of_isNotice {m : Message} {f t : String} (hn : IsNotice m)
    (hm : isMulticastOn f t m = true) : m = noData f t := by
  cases m with
  | forwardedMulticastData m =>
    obtain ⟨feed, topic, he⟩ := hn
    rw [he] at hm ⊢
    simp only [noData, isMulticastOn, Bool.and_eq_true, beq_iff_eq] at hm ⊢
    rw [hm.1, hm.2]
  | _ => cases hm

private theorem not_isUnicastOn_of_isNotice {m : Message} (f t : String) (hn : IsNotice m) :
    isUnicastOn f t m = false := by
  cases m with
  | forwardedUnicastData m =>
    obtain ⟨feed, topic, he⟩ := hn
    cases he
  | _ => rfl

private theorem multicast_of_publication (s : Server) (publisher : Guid) (data : MulticastData)
    (c : Guid) (f t : String) :
    (addressed c (multicastSends settings s publisher data)).filter (isMulticastOn f t) =
      multicastTo settings c f t s (.message publisher (.multicastData data)) := by
  simp only [multicastSends, multicastTo]
  by_cases hk : data.feed = f ∧ data.topic = t ∧ settings.hasRole publisher f .publish = true
  · obtain ⟨rfl, rfl, hrole⟩ := hk
    rw [if_pos hrole, if_pos ⟨rfl, rfl, hrole⟩, entry,
      addressed_subscribers s.subscriptionRepository c data.feed data.topic
        fun info => forwardedMulticast settings (some publisher) info data]
    cases s.subscriptionRepository.entry c data.feed data.topic with
    | none => rfl
    | some state => simp [forwardedMulticast, isMulticastOn, getAuthorizedData_eq]
  · rw [if_neg hk, List.filter_eq_nil_iff]
    intro m hm hon
    obtain ⟨hrole, hm⟩ := List.mem_ite_nil_right.mp (mem_addressed.mp hm)
    obtain ⟨x, -, he⟩ := List.mem_map.mp hm
    cases he
    simp only [forwardedMulticast, isMulticastOn, Bool.and_eq_true, beq_iff_eq] at hon
    obtain ⟨rfl, rfl⟩ := hon
    exact hk ⟨rfl, rfl, hrole⟩

/-- What an event sends to a client by multicast on a feed and topic: what is expected, or
messages without data. -/
theorem multicast_of_event (s : Server) (e : Event) (c : Guid) (f t : String) :
    Interspersed (· = noData f t) (multicastTo settings c f t s e)
      ((addressed c (sends settings s e)).filter (isMulticastOn f t)) := by
  by_cases hm : ∃ publisher data, e = .message publisher (.multicastData data)
  · obtain ⟨publisher, data, rfl⟩ := hm
    rw [sends, multicast_of_publication]
    exact .refl _
  · have hnil : multicastTo settings c f t s e = [] := by
      cases e with
      | message i m =>
        cases m with
        | multicastData data => exact absurd ⟨i, data, rfl⟩ hm
        | _ => rfl
      | _ => rfl
    rw [hnil]
    apply Interspersed.of_forall
    intro m hmem
    obtain ⟨hmem, hon⟩ := List.mem_filter.mp hmem
    rcases mem_sends_cases settings (mem_addressed.mp hmem) with
      hn | ⟨i, data, info, he, -⟩ | ⟨i, data, info, -, -, -, -, rfl⟩
    · exact eq_noData_of_isNotice hn hon
    · exact absurd ⟨i, data, he⟩ hm
    · cases hon

private theorem unicast_of_publication (s : Server) (publisher : Guid) (data : UnicastData)
    (c : Guid) (f t : String) :
    (addressed c (unicastSends settings s publisher data)).filter (isUnicastOn f t) =
      unicastTo settings c f t s (.message publisher (.unicastData data)) := by
  simp only [unicastSends, unicastTo]
  by_cases hk : data.clientId = c ∧ data.feed = f ∧ data.topic = t ∧
      settings.hasRole publisher f .publish = true
  · obtain ⟨rfl, rfl, rfl, hrole⟩ := hk
    rw [if_pos ⟨rfl, rfl, rfl, hrole⟩]
    simp only [if_pos hrole]
    cases ht : s.unicastTarget data with
    | none =>
      have hentry : s.entry data.clientId data.feed data.topic = none := by
        rw [Option.eq_none_iff_forall_ne_some]
        intro state hs
        have hm := SubscriptionRepository.mem_getSubscribersToFeedAndTopic.mpr ⟨state, hs, rfl⟩
        exact absurd (List.find?_eq_none.mp ht _ hm) (by simp)
      rw [hentry]
      rfl
    | some target =>
      obtain ⟨id, info⟩ := target
      obtain ⟨rfl, hs⟩ := mem_unicastTarget ht
      obtain ⟨state, he, rfl⟩ := SubscriptionRepository.mem_getSubscribersToFeedAndTopic.mp hs
      have hentry : s.entry data.clientId data.feed data.topic = some state := he
      rw [hentry]
      simp [forwardedUnicast, isUnicastOn, getAuthorizedData_eq, addressed]
  · rw [if_neg hk, List.filter_eq_nil_iff]
    intro m hm hon
    rw [mem_addressed] at hm
    split at hm
    · cases hm
    · next target ht =>
      obtain ⟨hrole, hm⟩ := List.mem_ite_nil_right.mp hm
      cases List.mem_singleton.mp hm
      simp only [forwardedUnicast, isUnicastOn, Bool.and_eq_true, beq_iff_eq] at hon
      obtain ⟨rfl, rfl⟩ := hon
      exact hk ⟨(mem_unicastTarget ht).1.symm, rfl, rfl, hrole⟩

/-- What an event sends to a client by unicast on a feed and topic is what is expected. -/
theorem unicast_of_event (s : Server) (e : Event) (c : Guid) (f t : String) :
    (addressed c (sends settings s e)).filter (isUnicastOn f t) =
      unicastTo settings c f t s e := by
  by_cases hm : ∃ publisher data, e = .message publisher (.unicastData data)
  · obtain ⟨publisher, data, rfl⟩ := hm
    exact unicast_of_publication settings s publisher data c f t
  · have hnil : unicastTo settings c f t s e = [] := by
      cases e with
      | message i m =>
        cases m with
        | unicastData data => exact absurd ⟨i, data, rfl⟩ hm
        | _ => rfl
      | _ => rfl
    rw [hnil, List.filter_eq_nil_iff]
    intro m hmem hon
    rcases mem_sends_cases settings (mem_addressed.mp hmem) with
      hn | ⟨i, data, info, -, -, -, rfl⟩ | ⟨i, data, info, he, -⟩
    · rw [not_isUnicastOn_of_isNotice f t hn] at hon
      cases hon
    · cases hon
    · exact absurd ⟨i, data, he⟩ hm

end Server

namespace System

variable (settings : Settings)

/-! ### Whole runs -/

/-- The interactor is registered, and its token is not cancelled: neither of its tasks has
ended. -/
def Connected (s : System) (c : Guid) : Prop :=
  s.server.IsRegistered c ∧ (s.server.objects c).tokenSource = .live

/-- The messages that each event of a run gives rise to, in the order of the events. -/
def expected (each : Server → Event → List Message) : History System Action → List Message
  | [] => []
  | (s, a) :: h =>
    expected each h ++
      match s.handled a with
      | some e => each s.server e
      | none => []

-- A live interactor is sent everything that is addressed to it.
private theorem delivered_of_live {s s' : System} {a : Action} (h : step settings s a = some s')
    {c : Guid} (hl : (s'.server.objects c).tokenSource = .live) : delivered settings c s a =
      match s.handled a with
      | some e => addressed c (Server.sends settings s.server e)
      | none => [] := by
  obtain ⟨hl, hd⟩ := live_of_step settings h hl
  unfold delivered
  cases he : s.handled a with
  | none => rfl
  | some e => exact if_pos ⟨hl, hd e he⟩

private theorem fanOut_of_live (c : Guid) (f t : String) {h : History System Action} {s : System}
    (hr : Runs settings h s) (hl : (s.server.objects c).tokenSource = .live) :
    Interspersed (· = noData f t) (expected (Server.multicastTo settings c f t) h)
      ((s.server.objects c).queued.filter (isMulticastOn f t)) ∧
    (s.server.objects c).queued.filter (isUnicastOn f t) =
      expected (Server.unicastTo settings c f t) h := by
  induction hr with
  | start => exact ⟨.nil, rfl⟩
  | next hr ha ih =>
    next h r t' a =>
    obtain ⟨hm, hu⟩ := ih (live_of_step settings ha hl).1
    rw [queued_step settings ha c, delivered_of_live settings ha hl, List.filter_append,
      List.filter_append, hu]
    refine ⟨hm.append ?_, congrArg (_ ++ ·) ?_⟩
    · cases r.handled a with
      | none => exact .nil
      | some e => exact Server.multicast_of_event settings r.server e c f t
    · cases r.handled a with
      | none => rfl
      | some e => exact Server.unicast_of_event settings r.server e c f t

/-- In every run, the data on the write queue of a connected interactor is, in order and
once each, that of the publications handled while it was subscribed, filtered by what it
was then entitled to; by multicast with messages without data in between. -/
theorem fan_out (c : Guid) (f t : String) {h : History System Action} {s : System}
    (hr : Runs settings h s) (hc : s.Connected c) :
    Interspersed (· = noData f t) (expected (Server.multicastTo settings c f t) h)
      ((s.server.objects c).queued.filter (isMulticastOn f t)) ∧
    (s.server.objects c).queued.filter (isUnicastOn f t) =
      expected (Server.unicastTo settings c f t) h :=
  fanOut_of_live settings c f t hr hc.2

/-- A client that has subscribed twice is sent multicast data once. -/
theorem fan_out_subscribed_twice :
    ∃ h s, Runs (.permissive false) h s ∧ s.Connected ⟨1⟩ ∧
      expected (Server.multicastTo (.permissive false) ⟨1⟩ "F" "T") h =
        [.forwardedMulticastData ⟨"user", "host", "F", "T", "text", some [⟨none, none⟩]⟩] ∧
      Interspersed (· = noData "F" "T")
        (expected (Server.multicastTo (.permissive false) ⟨1⟩ "F" "T") h)
        ((s.server.objects ⟨1⟩).queued.filter (isMulticastOn "F" "T")) := by
  obtain ⟨h, s, hr, hobs⟩ := exists_run_of_exec (step (.permissive false)) init
    [.accept ⟨1⟩, .accept ⟨2⟩, .process, .process, .checkRead ⟨1⟩,
      .receive ⟨1⟩ (.subscriptionRequest ⟨"F", "T", true⟩), .checkRead ⟨1⟩,
      .receive ⟨1⟩ (.subscriptionRequest ⟨"F", "T", true⟩), .process, .process, .checkRead ⟨2⟩,
      .receive ⟨2⟩ (.multicastData ⟨"F", "T", "text", some [⟨none, none⟩]⟩), .process]
    (fun x => (decide (x.2.server.IsRegistered ⟨1⟩),
      decide ((x.2.server.objects ⟨1⟩).tokenSource = .live),
      expected (Server.multicastTo (.permissive false) ⟨1⟩ "F" "T") x.1))
    (true, true,
      [.forwardedMulticastData ⟨"user", "host", "F", "T", "text", some [⟨none, none⟩]⟩])
    (by decide)
  simp only [Prod.mk.injEq, decide_eq_true_eq] at hobs
  obtain ⟨hreg, hl, he⟩ := hobs
  exact ⟨h, s, hr, ⟨hreg, hl⟩, he, (fan_out (.permissive false) ⟨1⟩ "F" "T" hr ⟨hreg, hl⟩).1⟩

end System

end MessageBus.Distributor
