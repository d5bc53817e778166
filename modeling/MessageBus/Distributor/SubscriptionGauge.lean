import Mathlib.Algebra.Order.BigOperators.Group.List
import MessageBus.Base.Run
import MessageBus.Distributor.SubscriptionShape

/-!
# The subscriptions gauge

`messagebus_subscriptions` of an interactor and a feed against the counts that the cache
stores for them. `AddSubscription` moves the gauge on every call
(`SubscriptionRepository.cs:20`) and the count only when the call is no authorization
update (lines 34–37); `RemoveSubscription` takes from both alike. The two therefore drift
apart by one for each update, and where a count wraps.
-/

namespace MessageBus.Distributor.SubscriptionRepository
open MessageBus.Base MessageBus.Common

/-- The subscriptions counted for an interactor on a topic. -/
def countOf (i : Guid) (subscribersForTopic : Subscribers) : Int :=
  (subscribersForTopic.lookup i).elim 0 fun state => state.count.toInt

/-- The subscriptions counted for an interactor on all the topics of a feed. -/
def storedCount (r : SubscriptionRepository) (i : Guid) (feed : String) : Int :=
  Dictionary.sumBy (fun _ => countOf i) ((r.cache.lookup feed).getD ∅)

/-- How far the gauge is above the counts. -/
def drift (r : SubscriptionRepository) (i : Guid) (feed : String) : Int :=
  r.subscriptions i feed - r.storedCount i feed

/-- The call is an authorization update of the interactor on the feed. -/
def Call.updates (i : Guid) (f : String) : Call → Bool
  | .addSubscription subscriber feed _ _ isAuthorizationUpdate =>
    subscriber = i && feed = f && isAuthorizationUpdate
  | .removeSubscription .. => false

/-- The call counts one more subscription of the interactor on the feed, where its count is the
largest `int`. -/
def Call.wraps (i : Guid) (f : String) (r : SubscriptionRepository) : Call → Bool
  | .addSubscription subscriber feed topic _ isAuthorizationUpdate =>
    subscriber = i && feed = f && !isAuthorizationUpdate &&
      (r.entry i f topic).any fun state => state.count == Int32.maxValue
  | .removeSubscription .. => false

/-- Every entry of the interactor on the feed counts a subscription. -/
def EntriesCount (r : SubscriptionRepository) (i : Guid) (f : String) : Prop :=
  ∀ t state, r.entry i f t = some state → 0 < state.count.toInt

/-! ### What a call does to the sum -/

private theorem countOf_insert (i c : Guid) (subs : Subscribers) (state : SubscriptionState) :
    countOf i (subs.insert c state) = if i = c then state.count.toInt else countOf i subs := by
  unfold countOf
  rw [Dictionary.lookup_insert]
  split
  · rfl
  · rfl

private theorem countOf_erase (i c : Guid) (subs : Subscribers) :
    countOf i (subs.erase c) = if i = c then 0 else countOf i subs := by
  unfold countOf
  rw [Dictionary.lookup_erase]
  split
  · rfl
  · rfl

/-- The subscribers of one topic are replaced. -/
theorem sumBy_countOf_insert (i : Guid) (topics : Dictionary String Subscribers) (topic : String)
    (subs : Subscribers) :
    Dictionary.sumBy (fun _ => countOf i) (topics.insert topic subs) =
      Dictionary.sumBy (fun _ => countOf i) topics + countOf i subs -
        countOf i ((topics.lookup topic).getD ∅) := by
  have hsum := Dictionary.sumBy_insert (fun _ => countOf i) topics topic subs
  cases hl : topics.lookup topic with
  | none =>
    rw [hl] at hsum
    simpa [countOf] using hsum
  | some old =>
    rw [hl] at hsum
    rw [← hsum, Option.getD_some]
    simp

private theorem sumBy_countOf_store (i : Guid) (topics : Dictionary String Subscribers)
    (topic : String) (subs old : Subscribers) (hl : topics.lookup topic = some old) :
    Dictionary.sumBy (fun _ => countOf i) (topics.store topic subs) =
      Dictionary.sumBy (fun _ => countOf i) topics + countOf i subs - countOf i old := by
  have hsum := Dictionary.sumBy_store (fun _ => countOf i) topics topic subs rfl
  rw [hl] at hsum
  rw [← hsum]
  simp

private theorem lookup_subscribers_eq_entry {r : SubscriptionRepository} {f t : String}
    {topics : Dictionary String Subscribers} {subs : Subscribers}
    (hf : r.cache.lookup f = some topics) (ht : topics.lookup t = some subs) (i : Guid) :
    subs.lookup i = r.entry i f t := by
  simp [entry, subscribers, hf, ht]

private theorem drift_addSubscription (r : SubscriptionRepository) (c : Guid) (feed topic : String)
    (info : AuthorizationInfo) (update : Bool) (i : Guid) (f : String) :
    (r.addSubscription c feed topic info update).drift i f = r.drift i f +
      (if c = i ∧ feed = f ∧ update then 1 else 0) +
      if (Call.addSubscription c feed topic info update).wraps i f r then 2 ^ 32 else 0 := by
  by_cases hf : feed = f
  · subst hf
    unfold drift storedCount addSubscription incSubscriptions
    simp only [Dictionary.lookup_insert, if_true, Option.getD_some, sumBy_countOf_insert,
      countOf_insert, and_true]
    by_cases hi : i = c
    · subst hi
      -- the count of the entry goes up by one, unless the call is an update
      have hentry : ((((r.cache.lookup feed).getD ∅).lookup topic).getD ∅).lookup i =
          r.entry i feed topic := rfl
      cases hl : r.entry i feed topic with
      | none =>
        cases update
        · simp [countOf, hentry, hl, Call.wraps]
        · simp [countOf, hentry, hl, Call.wraps]
          omega
      | some state =>
        cases update
        · by_cases hmax : state.count = Int32.maxValue
          · simp [countOf, hentry, hl, Call.wraps, hmax, toInt_add_one_of_maxValue,
              -Int32.toInt_add]
            omega
          · simp [countOf, hentry, hl, Call.wraps, hmax, toInt_add_one hmax]
            omega
        · simp [countOf, hentry, hl, Call.wraps]
          omega
    · simp [hi, Ne.symm hi, Call.wraps]
  · unfold drift storedCount addSubscription incSubscriptions
    simp [hf, Ne.symm hf, Call.wraps]

private theorem drift_removeSubscription {r : SubscriptionRepository} {i : Guid} {f : String}
    (h : r.EntriesCount i f) (c : Guid) (feed topic : String) (removeAll : Bool) :
    (r.removeSubscription c feed topic removeAll).drift i f = r.drift i f := by
  unfold removeSubscription
  split
  · rfl
  · next topics hfeed =>
    split
    · rfl
    · next subs htopic =>
      split
      · rfl
      · next state hc =>
        unfold drift storedCount incSubscriptions
        simp only [Dictionary.getD_lookup_store]
        by_cases hf : f = feed
        · subst hf
          simp only [if_true, sumBy_countOf_store i topics topic _ subs htopic, hfeed,
            Option.getD_some, and_true]
          by_cases hi : i = c
          · subst hi
            have hstate : countOf i subs = state.count.toInt := by rw [countOf, hc]; rfl
            have hpos : 0 < state.count.toInt :=
              h topic state (by rw [← lookup_subscribers_eq_entry hfeed htopic, hc])
            -- the gauge and the count go down by the same number
            cases removeAll with
            | true =>
              simp [hstate, countOf_erase]
              omega
            | false =>
              by_cases h1 : state.count = 1
              · simp [hstate, h1, countOf_erase]
                omega
              · simp [hstate, sub_one_eq_zero_iff, h1, countOf_insert, toInt_sub_one hpos]
                omega
          · have hkeep (b : Bool) (state : SubscriptionState) :
                countOf i (if b then subs.erase c else subs.insert c state) = countOf i subs := by
              split
              · rw [countOf_erase, if_neg hi]
              · rw [countOf_insert, if_neg hi]
            rw [hkeep, if_neg hi]
            omega
        · simp [hf]

/-- The gauge gains one over the counts with each update, and `2 ^ 32` where a count wraps. -/
theorem drift_call {r : SubscriptionRepository} {i : Guid} {f : String}
    (h : r.EntriesCount i f) (c : Call) : (r.call c).drift i f = r.drift i f +
      (if c.updates i f then 1 else 0) + if c.wraps i f r then 2 ^ 32 else 0 := by
  cases c with
  | addSubscription subscriber feed topic info update =>
    refine (drift_addSubscription r subscriber feed topic info update i f).trans ?_
    simp [Call.updates, and_assoc]
  | removeSubscription subscriber feed topic removeAll =>
    refine (drift_removeSubscription h subscriber feed topic removeAll).trans ?_
    simp [Call.updates, Call.wraps]

/-! ### What the counts are -/

/-- Every topic that contributes to the sum has an entry of the interactor. -/
theorem countOf_of_mem {r : SubscriptionRepository} {i : Guid} {f : String}
    {e : Sigma fun _ : String => Subscribers}
    (he : e ∈ ((r.cache.lookup f).getD ∅).entries) :
    countOf i e.2 = (r.entry i f e.1).elim 0 fun state => state.count.toInt := by
  cases hf : r.cache.lookup f with
  | none =>
    rw [hf] at he
    cases he
  | some topics =>
    rw [hf, Option.getD_some] at he
    rw [countOf, lookup_subscribers_eq_entry hf (Dictionary.mem_entries_iff.mp he)]

private theorem storedCount_eq_zero {r : SubscriptionRepository} {i : Guid} {f : String}
    (h : ∀ t, ¬ r.IsSubscriber i f t) : r.storedCount i f = 0 := by
  apply List.sum_eq_zero
  intro n hn
  obtain ⟨e, he, rfl⟩ := List.mem_map.mp hn
  change countOf i e.2 = 0
  rw [countOf_of_mem he, Option.not_isSome_iff_eq_none.mp (h e.1)]
  rfl

private theorem storedCount_nonneg {r : SubscriptionRepository} {i : Guid} {f : String}
    (h : r.EntriesCount i f) : 0 ≤ r.storedCount i f := by
  apply List.sum_nonneg
  intro n hn
  obtain ⟨e, he, rfl⟩ := List.mem_map.mp hn
  change 0 ≤ countOf i e.2
  rw [countOf_of_mem he]
  cases hentry : r.entry i f e.1 with
  | none => exact le_refl 0
  | some state => exact (h e.1 state hentry).le

/-- The call is no authorization update of the interactor on the feed, and wraps no count. -/
def Call.Conserves (i : Guid) (f : String) (r : SubscriptionRepository) (c : Call) : Prop :=
  c.updates i f = false ∧ c.wraps i f r = false

/-- Without updates, no entry is left that counts nothing. -/
theorem entriesCount_call {r : SubscriptionRepository} {c : Call} {i : Guid} {f : String}
    (h : r.EntriesCount i f) (hc : c.Conserves i f r) : (r.call c).EntriesCount i f := by
  intro t state hs
  by_cases hn : c.Names i f t
  · cases c with
    | addSubscription subscriber feed topic info update =>
      obtain ⟨rfl, rfl, rfl⟩ := hn
      obtain rfl : update = false := by simpa [Call.updates] using hc.1
      have hentry := entry_addSubscription r i i f t f t info false
      rw [if_pos ⟨rfl, rfl, rfl⟩] at hentry
      obtain rfl : added (r.entry i f t) info false = state :=
        Option.some.inj (hentry.symm.trans hs)
      cases hold : r.entry i f t with
      | none => simp [added]
      | some old =>
        have hpos := h t old hold
        have hmax : old.count ≠ Int32.maxValue := by
          intro hmax
          have hwraps := hc.2
          simp [Call.wraps, hold, hmax] at hwraps
        show 0 < (old.count + 1).toInt
        rw [toInt_add_one hmax]
        omega
    | removeSubscription subscriber feed topic removeAll =>
      obtain ⟨rfl, rfl, rfl⟩ := hn
      have hentry := entry_removeSubscription r i i f t f t removeAll
      rw [if_pos ⟨rfl, rfl, rfl⟩] at hentry
      have hleft : removed (r.entry i f t) removeAll = some state :=
        hentry.symm.trans hs
      cases hold : r.entry i f t with
      | none =>
        rw [hold] at hleft
        cases hleft
      | some old =>
        have hpos := h t old hold
        simp only [hold, removed] at hleft
        split at hleft
        · cases hleft
        · next hne =>
          cases hleft
          have hone : old.count ≠ 1 := fun hone => hne (by simp [hone])
          have hne1 : old.count.toInt ≠ 1 := fun he => hone (toInt_eq_one_iff.mp he)
          show 0 < (old.count - 1).toInt
          rw [toInt_sub_one hpos]
          omega
  · exact h t state (by rwa [entry_call_of_not_names r hn] at hs)

/-! ### Conservation -/

/-- The gauge of an interactor and a feed is the sum of the counts stored for them, is not
negative, and is back at zero once the interactor has no entry on the feed. -/
structure GaugeConserved (r : SubscriptionRepository) (i : Guid) (f : String) : Prop where
  eq_storedCount : r.subscriptions i f = r.storedCount i f
  nonneg : 0 ≤ r.subscriptions i f
  eq_zero : (∀ t, ¬ r.IsSubscriber i f t) → r.subscriptions i f = 0

/-- Where every entry counts, the gauge is conserved if it has not drifted. -/
theorem gaugeConserved_iff_drift {r : SubscriptionRepository} {i : Guid} {f : String}
    (h : r.EntriesCount i f) : r.GaugeConserved i f ↔ r.drift i f = 0 := by
  constructor
  · intro hg
    rw [drift, hg.eq_storedCount, sub_self]
  · intro hd
    have heq : r.subscriptions i f = r.storedCount i f := by
      rw [drift] at hd
      omega
    refine ⟨heq, ?_, fun hnone => ?_⟩
    · rw [heq]
      exact storedCount_nonneg h
    · rw [heq, storedCount_eq_zero hnone]

/-- A call leaves the gauge conserved exactly if it is no update and wraps no count. -/
theorem gaugeConserved_call_iff {r : SubscriptionRepository} {c : Call} {i : Guid} {f : String}
    (h : r.EntriesCount i f) (hg : r.GaugeConserved i f) :
    (r.call c).GaugeConserved i f ↔ c.Conserves i f r := by
  have hzero := (gaugeConserved_iff_drift h).mp hg
  have hdrift := drift_call h c
  rw [hzero] at hdrift
  constructor
  · intro hcall
    have hd : (r.call c).drift i f = 0 := by rw [drift, hcall.eq_storedCount, sub_self]
    rw [hd] at hdrift
    cases hu : c.updates i f <;> cases hw : c.wraps i f r <;> simp [hu, hw] at hdrift
    exact ⟨hu, hw⟩
  · intro hc
    rw [gaugeConserved_iff_drift (entriesCount_call h hc), hdrift, hc.1, hc.2]
    rfl

/-- In a run of calls on an empty repository, the gauge of an interactor and a feed is conserved
throughout exactly if no call is an authorization update of that interactor on that feed, or counts
one more subscription where the count is the largest `int`. -/
theorem gauge_conserved_iff (i : Guid) (f : String) {h : History SubscriptionRepository Call}
    {r : SubscriptionRepository} (hr : Run (fun r c => some (call r c)) {} h r) :
    Always (fun _ r => r.GaugeConserved i f) h r ↔
      Throughout (fun _ r c => c.Conserves i f r) h := by
  apply Run.always_iff_throughout (I := fun _ r => r.EntriesCount i f)
    (H := fun _ _ _ => True) hr
  · exact ⟨rfl, le_refl 0, fun _ => rfl⟩
  · intro t state hnone
    cases hnone
  · rintro _ r c t - hcount hg - ⟨⟩
    exact gaugeConserved_call_iff hcount hg
  · rintro _ r c t - hcount - - hc ⟨⟩
    exact entriesCount_call hcount hc
  · exact throughout_of_forall_mem (G := fun _ _ => True) fun _ _ => trivial

/-- Two additions and two removals conserve the gauge. -/
theorem gauge_conserved_of_removals :
    ∃ h r, Run (fun r c => some (call r c)) {} h r ∧
      h.map Prod.snd = [.removeSubscription ⟨1⟩ "FX" "EURUSD" false,
        .removeSubscription ⟨1⟩ "FX" "EURUSD" false,
        .addSubscription ⟨1⟩ "FX" "EURUSD" ⟨true, ∅⟩ false,
        .addSubscription ⟨1⟩ "FX" "EURUSD" ⟨true, ∅⟩ false] ∧
      Always (fun _ r => r.GaugeConserved ⟨1⟩ "FX") h r := by
  obtain ⟨h, r, hr, hobs⟩ := exists_run_of_exec (fun r c => some (call r c)) {}
    [.addSubscription ⟨1⟩ "FX" "EURUSD" ⟨true, ∅⟩ false,
      .addSubscription ⟨1⟩ "FX" "EURUSD" ⟨true, ∅⟩ false,
      .removeSubscription ⟨1⟩ "FX" "EURUSD" false, .removeSubscription ⟨1⟩ "FX" "EURUSD" false]
    (fun x => (x.1.map Prod.snd,
      x.1.all fun y => !y.2.updates ⟨1⟩ "FX" && !y.2.wraps ⟨1⟩ "FX" y.1)) (_, true) rfl
  simp only [Prod.mk.injEq, List.all_eq_true, Bool.and_eq_true, Bool.not_eq_true'] at hobs
  obtain ⟨hcalls, hconserves⟩ := hobs
  refine ⟨h, r, hr, hcalls, (gauge_conserved_iff ⟨1⟩ "FX" hr).mpr ?_⟩
  exact throughout_of_forall_mem (G := fun r (c : Call) => c.Conserves ⟨1⟩ "FX" r) hconserves

/-- A subscription that only ever was authorized is counted by the gauge, and by no entry. -/
theorem update_not_conserved :
    ¬ ∀ (cs : List Call) (i : Guid) (f : String), (calls {} cs).GaugeConserved i f := by
  intro h
  have heq := (h [.addSubscription ⟨1⟩ "FX" "EURUSD" ⟨true, ∅⟩ true] ⟨1⟩ "FX").eq_storedCount
  exact absurd heq (by decide)

end MessageBus.Distributor.SubscriptionRepository
