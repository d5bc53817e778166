import MessageBus.Common.Values

/-!
# The notification repository

`core/src/JetBlack.MessageBus.Distributor/Notifiers/NotificationRepository.cs`: for each
feed the interactors to be notified of its subscriptions, and the gauge
`messagebus_notification_requests` of each interactor and feed.
-/

namespace MessageBus.Distributor
open MessageBus.Base MessageBus.Common

/-- `NotificationRepository.cs:10`, and the gauge of each notifiable and feed. -/
structure NotificationRepository where
  feedToNotifiables : Dictionary String (HashSet Guid) := ∅
  feedRequests : Guid → String → Int := fun _ _ => 0

namespace NotificationRepository

/-- The interactor is among the notifiables of the feed. -/
def IsNotifiable (r : NotificationRepository) (interactor : Guid) (feed : String) : Prop :=
  interactor ∈ (r.feedToNotifiables.lookup feed).getD ∅

/-- Whether an interactor is to be notified can be computed. -/
instance (r : NotificationRepository) (interactor : Guid) (feed : String) :
    Decidable (r.IsNotifiable interactor feed) :=
  inferInstanceAs (Decidable (interactor ∈ (r.feedToNotifiables.lookup feed).getD ∅))

/-- Add to the gauge of one interactor on the feeds that satisfy a test. -/
def incFeedRequests (r : NotificationRepository) (interactor : Guid) (feeds : String → Bool)
    (increment : Int) : Guid → String → Int :=
  fun interactor' feed => if interactor' = interactor ∧ feeds feed = true then
    r.feedRequests interactor' feed + increment else r.feedRequests interactor' feed

/-- `RemoveInteractor`, `NotificationRepository.cs:16–33`: a feed goes with the last of
its notifiables. -/
def removeInteractor (r : NotificationRepository) (interactor : Guid) :
    NotificationRepository :=
  { feedToNotifiables :=
      (r.feedToNotifiables.filterEntries fun _ feedInteractors =>
        !(decide (interactor ∈ feedInteractors) &&
          (feedInteractors.remove interactor).isEmpty)).mapValues
        fun _ feedInteractors => feedInteractors.remove interactor
    feedRequests := r.incFeedRequests interactor (fun feed => r.IsNotifiable interactor feed) (-1) }

/-- `AddRequest`, `NotificationRepository.cs:35–47`: whether the request is new. -/
def addRequest (r : NotificationRepository) (notifiable : Guid) (feed : String) :
    NotificationRepository × Bool :=
  let notifiables := (r.feedToNotifiables.lookup feed).getD ∅
  if notifiable ∈ notifiables then (r, false)
  else
    ({ feedToNotifiables := r.feedToNotifiables.insert feed (notifiables.add notifiable)
       feedRequests := r.incFeedRequests notifiable (· == feed) 1 }, true)

/-- `RemoveRequest`, `NotificationRepository.cs:49–69`. -/
def removeRequest (r : NotificationRepository) (notifiable : Guid) (feed : String) :
    NotificationRepository :=
  match r.feedToNotifiables.lookup feed with
  | none => r
  | some notifiables =>
    if notifiable ∈ notifiables then
      let notifiables := notifiables.remove notifiable
      { feedToNotifiables :=
          if notifiables.isEmpty then r.feedToNotifiables.erase feed
          else r.feedToNotifiables.insert feed notifiables
        feedRequests := r.incFeedRequests notifiable (· == feed) (-1) }
    else r

/-- `FindNotifiables`, `NotificationRepository.cs:71–74`. -/
def findNotifiables (r : NotificationRepository) (feed : String) : Option (HashSet Guid) :=
  r.feedToNotifiables.lookup feed

/-- The empty repository has no one to notify. -/
@[simp] theorem not_isNotifiable_empty (interactor : Guid) (feed : String) :
    ¬ ({} : NotificationRepository).IsNotifiable interactor feed := by
  simp [IsNotifiable]

/-- Removing an interactor removes its requests and no others. -/
theorem isNotifiable_removeInteractor {r : NotificationRepository} {i n : Guid} {feed : String} :
    (r.removeInteractor i).IsNotifiable n feed ↔ n ≠ i ∧ r.IsNotifiable n feed := by
  simp only [IsNotifiable, removeInteractor, Dictionary.lookup_mapValues,
    Dictionary.lookup_filterEntries]
  cases hl : r.feedToNotifiables.lookup feed with
  | none => simp
  | some notifiables =>
    rw [Option.filter_some]
    split
    · simp
    · next hk =>
      have he : (notifiables.remove i).isEmpty = true := by simp_all
      have hn := HashSet.isEmpty_iff.mp he n
      rw [HashSet.mem_remove] at hn
      simpa using hn

/-- A new request adds itself and no other. -/
theorem isNotifiable_addRequest {r : NotificationRepository} {i n : Guid} {feed feed' : String} :
    (r.addRequest i feed).1.IsNotifiable n feed' ↔
      n = i ∧ feed' = feed ∨ r.IsNotifiable n feed' := by
  unfold addRequest
  simp only
  split
  · next h =>
    constructor
    · exact .inr
    · rintro (⟨rfl, rfl⟩ | h')
      · exact h
      · exact h'
  · simp only [IsNotifiable, Dictionary.lookup_insert]
    by_cases hf : feed' = feed
    · subst hf
      simp [HashSet.mem_add]
    · simp [hf]

/-- A request is new exactly if it was not registered. -/
theorem addRequest_eq_true_iff {r : NotificationRepository} {i : Guid} {feed : String} :
    (r.addRequest i feed).2 = true ↔ ¬ r.IsNotifiable i feed := by
  unfold addRequest
  simp only
  split
  · next h => simpa [IsNotifiable] using h
  · next h => simpa [IsNotifiable] using h

/-- Removing a request removes itself and no other. -/
theorem isNotifiable_removeRequest {r : NotificationRepository} {i n : Guid}
    {feed feed' : String} : (r.removeRequest i feed).IsNotifiable n feed' ↔
      ¬ (n = i ∧ feed' = feed) ∧ r.IsNotifiable n feed' := by
  have hkeep (h : ¬ r.IsNotifiable i feed) : r.IsNotifiable n feed' ↔
      ¬ (n = i ∧ feed' = feed) ∧ r.IsNotifiable n feed' := by
    constructor
    · intro hn
      refine ⟨?_, hn⟩
      rintro ⟨rfl, rfl⟩
      exact h hn
    · exact And.right
  unfold removeRequest
  split
  · next hl => exact hkeep (by simp [IsNotifiable, hl])
  · next notifiables hl =>
    split
    · have hset : ((if (notifiables.remove i).isEmpty = true then r.feedToNotifiables.erase feed
          else r.feedToNotifiables.insert feed (notifiables.remove i)).lookup feed').getD ∅ =
          if feed' = feed then (if (notifiables.remove i).isEmpty then ∅ else notifiables.remove i)
          else (r.feedToNotifiables.lookup feed').getD ∅ := by
        by_cases he : (notifiables.remove i).isEmpty = true
        · rw [if_pos he, if_pos he, Dictionary.lookup_erase]
          split <;> rfl
        · rw [if_neg he, if_neg he, Dictionary.lookup_insert]
          split <;> rfl
      simp only [IsNotifiable, hset]
      by_cases hf : feed' = feed
      · subst hf
        rw [if_pos rfl, hl, Option.getD_some]
        by_cases he : (notifiables.remove i).isEmpty = true
        · have hn := HashSet.isEmpty_iff.mp he n
          rw [HashSet.mem_remove] at hn
          rw [if_pos he]
          simpa using hn
        · rw [if_neg he, HashSet.mem_remove]
          simp
      · simp [hf]
    · next hn => exact hkeep (by simpa [IsNotifiable, hl] using hn)

end NotificationRepository

end MessageBus.Distributor
