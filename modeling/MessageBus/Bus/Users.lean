import MessageBus.Bus.EndToEnd
import MessageBus.Distributor.NamedUsers

/-!
# Users

What an application is told of users: every event names the user and the host of an
interactor that was accepted, as `Create` made it of credentials that the authenticator has
checked. Also a message that was cut off as its stream was closed names no other.
-/

namespace MessageBus
open Base Common Messages Adapters Authentication Distributor

/-- The users and hosts that an event names are known, and so is a client that it tells of. -/
def Adapters.ClientEvent.NamesOnly (known : Guid → String → String → Prop) : ClientEvent → Prop
  | .dataReceived user host f t packets contentType =>
    (ClientEvent.dataReceived user host f t packets contentType).IsNoData ∨
      ∃ i, known i user host
  | .forwardedSubscription user host i _ _ _ => known i user host
  | .authorizationRequest i host user _ _ => known i user host
  | _ => True

namespace Bus

variable {settings : Settings} {h : History Bus Action} {b : Bus}

private theorem namesOnly_of_onMessage {s : System} {m : Message} {e : ClientEvent}
    (hm : s.NamesAccepted settings m) (he : Client.onMessage m.sent.received = .ok e) :
    e.NamesOnly (s.Names settings) := by
  cases m with
  | authorizationRequest m =>
    cases he
    exact hm
  | forwardedSubscriptionRequest m =>
    cases he
    exact hm
  | forwardedUnicastData m =>
    cases he
    exact .inr hm
  | forwardedMulticastData m =>
    cases he
    unfold Client.raiseOnDataOrHeartbeat
    split
    · trivial
    · next hbeat =>
      obtain ⟨f, t, hnone⟩ | hm | hm := hm
      · cases hnone
        exact .inl (.inr ⟨f, t, rfl⟩)
      · exact absurd hm hbeat
      · exact .inr hm
  | _ => cases hm

-- A message whose last byte is missing names who the message names.
private theorem namesAccepted_of_guess {s : System} {m : Message}
    (hm : s.NamesAccepted settings m) {m' : Message} (hg : m.sent.guess = some m') :
    s.NamesAccepted settings m' ∧ m'.sent.received = m' := by
  obtain ⟨hb, ⟨⟩⟩ := Option.ite_none_right_eq_some.mp hg
  cases m with
  | forwardedSubscriptionRequest m => exact ⟨hm, rfl⟩
  | subscriptionRequest m => cases hm
  | notificationRequest m => cases hm
  | _ => cases hb

/-- What an event of a client was raised for, read of what was queued to its interactor. -/
theorem namesOnly_of_raised (hr : Runs settings h b) {c : Guid}
    (hdown : ∀ m ∈ (b.system.server.objects c).queued, m.sent.Fits) {e : ClientEvent}
    (he : e ∈ (b.client c).raised) : e.NamesOnly (b.system.Names settings) := by
  by_cases ha : e.isAnswer = true
  · have hqueued := System.Runs.namesAccepted (Runs.system hr) c
    obtain ⟨⟨read, unread, hsent, hreceived⟩, hraised⟩ := Runs.raised hr c hdown
    have hanswer : .ok e ∈ (b.downstream c).received.map Client.onMessage := by
      rw [hraised]
      exact List.mem_map_of_mem (List.mem_filter.mpr ⟨he, ha⟩)
    obtain ⟨m, hm, hevent⟩ := List.mem_map.mp hanswer
    have hfrom : ∀ x ∈ read ++ unread, ∃ m ∈ (b.system.server.objects c).queued, x = m.sent := by
      intro x hx
      rw [← hsent] at hx
      obtain ⟨m, hm, rfl⟩ := List.mem_map.mp hx
      exact ⟨m, hm, rfl⟩
    have hread : m ∈ read.map Message.received → e.NamesOnly (b.system.Names settings) := by
      intro hm
      obtain ⟨x, hx, rfl⟩ := List.mem_map.mp hm
      obtain ⟨q, hq, rfl⟩ := hfrom x (List.mem_append_left _ hx)
      exact namesOnly_of_onMessage (hqueued q hq) hevent
    rcases hreceived with hall | ⟨-, x, rest, m', rfl, hg, hcut⟩
    · rw [hall] at hm
      exact hread hm
    · rw [hcut, List.mem_append, List.mem_singleton] at hm
      rcases hm with hm | rfl
      · exact hread hm
      · obtain ⟨q, hq, rfl⟩ := hfrom x (by simp)
        obtain ⟨hnames, hwire⟩ := namesAccepted_of_guess (hqueued q hq) hg
        rw [← hwire] at hevent
        exact namesOnly_of_onMessage hnames hevent
  · cases e with
    | connectionChanged state error => trivial
    | _ => exact absurd rfl ha

/-- In every run of a bus whose interactors were made of their connections by `Create` or
`CreateSspi`, every event that a client raises names, unless it tells that there is no data, the
user and the host of an accepted interactor, and of this interactor if it tells of one: the user
for whom the authenticator vouched on the connection of that interactor and the host that this
connection was made from, or others only where the distributor allows to claim them. -/
theorem users_vouched (hr : Runs settings h b) {toUpper : UInt16 → UInt16}
    {authenticator : Authenticator} {connection : Guid → Connection}
    (hcreated : ∀ i ∈ b.system.accepted,
      settings.Created toUpper authenticator i (connection i)) (c : Guid)
    (hdown : ∀ m ∈ (b.system.server.objects c).queued, m.sent.Fits) :
    ∀ e ∈ (b.client c).raised, e.NamesOnly fun i user host =>
      b.system.Names settings i user host ∧
        (connection i).Identifies authenticator settings.distributorRole user host := by
  intro e he
  have hknown {i : Guid} {user host : String} (hn : b.system.Names settings i user host) :
      b.system.Names settings i user host ∧
        (connection i).Identifies authenticator settings.distributorRole user host := by
    obtain ⟨hi, rfl, rfl⟩ := hn
    exact ⟨⟨hi, rfl, rfl⟩, (hcreated i hi).identifies⟩
  have hnames := namesOnly_of_raised hr hdown he
  cases e with
  | dataReceived user host f t packets contentType =>
    exact hnames.imp_right fun ⟨i, hi⟩ => ⟨i, hknown hi⟩
  | forwardedSubscription user host i f t isAdd => exact hknown hnames
  | authorizationRequest i host user f t => exact hknown hnames
  | connectionChanged state error => trivial
  | heartbeat => trivial

/-- The user that a publication names has given the password. -/
theorem users_vouched_of_password :
    ∃ h b, Runs (.permissive false) h b ∧
      (b.client ⟨1⟩).raised = [.dataReceived "user" "host" "F" "T" none "text"] ∧
      ∀ e ∈ (b.client ⟨1⟩).raised, e.NamesOnly fun i user host =>
        b.system.Names (.permissive false) i user host ∧
          Connection.Identifies ⟨"host", "Username=user;Password=trustno1", none⟩
            (.passwordFile (fun username password => username = "user" &&
              password = "trustno1") ∅) (Settings.permissive false).distributorRole user host := by
  obtain ⟨h, b, hr, hobs⟩ := exists_run_of_exec (step (.permissive false)) init onePublication
    (fun x => ((x.2.client ⟨1⟩).raised, x.2.system.accepted,
      decide (∀ m ∈ (x.2.system.server.objects ⟨1⟩).queued, m.sent.Fits)))
    ([.dataReceived "user" "host" "F" "T" none "text"], [⟨2⟩, ⟨1⟩], true) (by decide +kernel)
  simp only [Prod.mk.injEq, decide_eq_true_eq] at hobs
  obtain ⟨hraised, haccepted, hdown⟩ := hobs
  have hcreated : ∀ i ∈ b.system.accepted, (Settings.permissive false).Created id
      (.passwordFile (fun username password => username = "user" && password = "trustno1") ∅)
      i ⟨"host", "Username=user;Password=trustno1", none⟩ := by
    intro i hi
    have hother : i ≠ ⟨0⟩ := by
      rintro rfl
      rw [haccepted] at hi
      exact absurd hi (by decide)
    have hmanager : (Settings.permissive false).roleManager i =
        RoleManager.bare (Settings.permissive false).distributorRole "host" "user" none none :=
      if_neg hother
    refine ⟨⟨"user", "unspecified", (Settings.permissive false).roleManager i⟩, rfl, ?_⟩
    rw [hmanager]
    rfl
  exact ⟨h, b, hr, hraised, users_vouched hr hcreated ⟨1⟩ hdown⟩

end Bus

end MessageBus
