import MessageBus.Bus.Authorizing
import MessageBus.Distributor.SubscriptionLedger

/-!
# Subscribing

In a state at rest the distributor's account of a subscription is that of the calls of the
one application, in the order in which it made them. So after any calls of
`RemoveSubscription` a client may still be subscribed, and what other applications do does
not matter.
-/

namespace MessageBus
open Base Common Messages Adapters Distributor

/-- A message answers for a client and feed. -/
def Messages.Message.AnswersFor (c : Guid) (f : String) : Message (Option String) → Prop
  | .authorizationResponse m => m.clientId = c ∧ m.feed.getD "" = f
  | _ => False

/-- Whether a message answers for a client and a feed can be computed. -/
instance (c : Guid) (f : String) : (m : Message (Option String)) → Decidable (m.AnswersFor c f)
  | .authorizationResponse _ => inferInstanceAs (Decidable (_ ∧ _))
  | .authorizationRequest _ | .multicastData _ | .unicastData _ | .forwardedMulticastData _
  | .forwardedUnicastData _ | .forwardedSubscriptionRequest _ | .subscriptionRequest _
  | .notificationRequest _ => isFalse id

namespace Bus

variable {settings : Settings} {h : History Bus Action} {b : Bus}

-- Where no application answers for a client and feed, no such response is handled.
private theorem unanswered (hr : Runs settings h b) {c : Guid} {f : String}
    (hup : ∀ x ∈ h, ∀ m ∈ x.2.request, m.Fits ∧ ¬ m.AnswersFor c f) :
    ∀ x ∈ distributed h, System.NoResponseFor c f x.1 x.2 := by
  rintro x hx i r he ⟨hc, hfeed⟩
  have hhandled := System.mem_handledEvents.mpr ⟨x, hx, he⟩
  obtain ⟨m, hm, hreceived⟩ :=
    response_of_handled hr (fun y hy m hm => (hup y hy m hm).1) hhandled
  obtain ⟨y, hy, hym⟩ := request_of_requested hm
  apply (hup y hy _ hym).2
  cases hreceived
  exact ⟨hc, hfeed⟩

/-- In a state at rest in which the event loop is not stopped and not stalled, and on a
distributor that requires no authorization, the account of a subscription is that of the
calls that the application has made. -/
theorem subscription_of_calls (hr : Runs settings h b)
    (hrest : AtRest (step settings) Internal b) (hrun : b.system.isRunning = true)
    (hs : ∀ i, ¬ b.system.Stalled i) {c : Guid} (hc : c ∈ b.system.accepted)
    (hl : (b.system.server.objects c).tokenSource ≠ .disposed)
    (hw : (b.client c).writeTask = .checking)
    (hreq : settings.distributorRole.isAuthorizationRequired = false) {f : String}
    (hrole : settings.hasRole c f .subscribe = true)
    (hup : ∀ x ∈ h, ∀ m ∈ x.2.request, m.Fits ∧ ¬ m.AnswersFor c f) (t : String) :
    System.ledger c f t b.system.server = .of c f t
      (.connected c :: ((requested c h).map Message.received).map (.message c)) := by
  have hsys := Runs.system hr
  have hlife := System.Runs.lifecycle settings hsys
  have hsettled := settled_of_running hr hrest hrun hs hc hl
  have hstarted : (b.system.server.objects c).readTask ≠ .unstarted := by
    intro hu
    have hawaits := System.Runs.awaits settings hsys c hc hu
    rw [handled_of_running hr hrest hrun hs] at hawaits
    cases hawaits
  have hbeat : c ≠ settings.heartbeat := fun h => hlife.heartbeat (h ▸ hc)
  have hfits : ∀ m ∈ requested c h, m.Fits := by
    intro m hm
    obtain ⟨y, hy, hym⟩ := request_of_requested hm
    exact (hup y hy m hym).1
  have hhandled : (System.handledEvents (distributed h)).filterMap (System.messageFrom c) =
      (requested c h).map Message.received := hsettled.handled hw hfits
  have hown := (System.Runs.ownEvents hsys hbeat).2 hstarted hl
  rw [hhandled] at hown
  rw [← hown]
  exact System.subscription_of_ledger hreq hrole hsys (unanswered hr hup) t

/-- One call of `AddSubscription` leaves a subscription of count zero. -/
theorem subscription_of_calls_of_publication :
    ∃ h b, Runs (.permissive false) h b ∧
      System.ledger ⟨1⟩ "F" "T" b.system.server = ⟨true, false, true, some 0⟩ ∧
      System.ledger ⟨1⟩ "F" "T" b.system.server = .of ⟨1⟩ "F" "T"
        (.connected ⟨1⟩ :: ((requested ⟨1⟩ h).map Message.received).map (.message ⟨1⟩)) := by
  obtain ⟨h, b, hr, hobs⟩ := exists_run_of_exec (step (.permissive false)) init onePublication
    (fun x => ((x.2.system.isRunning, decide (x.2.system.eventQueue = []),
        decide (∀ i ∈ x.2.clients, x.2.Idle i)),
      (decide (⟨1⟩ ∈ x.2.system.accepted), decide (x.2.Idle ⟨1⟩),
        decide (∀ y ∈ x.1, ∀ m ∈ y.2.request, m.Fits ∧ ¬ m.AnswersFor ⟨1⟩ "F")),
      System.ledger ⟨1⟩ "F" "T" x.2.system.server))
    ((true, true, true), (true, true, true), ⟨true, false, true, some 0⟩) (by decide +kernel)
  simp only [Prod.mk.injEq, decide_eq_true_eq] at hobs
  obtain ⟨⟨hrun, hq, hi⟩, ⟨hc, hidle, hup⟩, hledger⟩ := hobs
  have hs : ∀ i, ¬ b.system.Stalled i := by
    rintro i ⟨hnext, -⟩
    rw [hq] at hnext
    cases hnext
  have hl : (b.system.server.objects ⟨1⟩).tokenSource ≠ .disposed := by
    rw [hidle.token]
    decide
  exact ⟨h, b, hr, hledger, subscription_of_calls hr (atRest_of_idle hr hq hi) hrun hs hc hl
    hidle.clientWrite rfl rfl hup "T"⟩

end Bus

end MessageBus
