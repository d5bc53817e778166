import MessageBus.Common.TwoWaySet
import MessageBus.Distributor.Subscriptions

/-!
# The publisher repository and the entitlement filter

`core/src/JetBlack.MessageBus.Distributor/Publishers`: which interactors have published
on which topics, and the packets that a subscriber is authorized to receive.
-/

namespace MessageBus.Distributor
open MessageBus.Base MessageBus.Common

/-- `PublisherRepository.cs:11`. -/
abbrev PublisherRepository := TwoWaySet FeedTopic Guid

namespace PublisherRepository

/-- `AddPublisher`, `PublisherRepository.cs:17–20`. -/
def addPublisher (r : PublisherRepository) (publisher : Guid) (feed topic : String) :
    PublisherRepository := TwoWaySet.add r ⟨feed, topic⟩ publisher

/-- `RemovePublisher`, `PublisherRepository.cs:22–25`. -/
def removePublisher (r : PublisherRepository) (publisher : Guid) :
    PublisherRepository × List FeedTopic :=
  let (r, feedTopics) := TwoWaySet.removeSecond r publisher
  (r, (feedTopics.getD ∅).toList)

/-- The interactor has published on the topic. -/
def HasPublished (r : PublisherRepository) (publisher : Guid) (feedTopic : FeedTopic) : Prop :=
  TwoWaySet.Contains r feedTopic publisher

/-- `AddPublisher` adds one pair. -/
theorem hasPublished_addPublisher {r : PublisherRepository} {p p' : Guid} {feed topic : String}
    {ft : FeedTopic} : (r.addPublisher p feed topic).HasPublished p' ft ↔
      ft = ⟨feed, topic⟩ ∧ p' = p ∨ r.HasPublished p' ft := TwoWaySet.contains_add

/-- `RemovePublisher` removes the pairs of the interactor. -/
theorem hasPublished_removePublisher {r : PublisherRepository} {p p' : Guid} {ft : FeedTopic} :
    (r.removePublisher p).1.HasPublished p' ft ↔ p' ≠ p ∧ r.HasPublished p' ft :=
  TwoWaySet.contains_removeSecond

/-- Removing a publisher reports the topics on which it was the only one. -/
theorem mem_removePublisher {r : PublisherRepository} {p : Guid} {ft : FeedTopic} :
    ft ∈ (r.removePublisher p).2 ↔
      r.HasPublished p ft ∧ ∀ p', r.HasPublished p' ft → p' = p :=
  TwoWaySet.mem_removeSecond_report

/-- `RemovePublisher` reports nothing twice. -/
theorem nodup_removePublisher (r : PublisherRepository) (p : Guid) :
    (r.removePublisher p).2.Nodup := HashSet.nodup _

/-- Nothing has been published at the start. -/
theorem not_hasPublished_empty (p : Guid) (ft : FeedTopic) :
    ¬ HasPublished TwoWaySet.empty p ft := HashSet.notMem_empty p

end PublisherRepository

/-- `GetAuthorizedData`, `PublisherManager.cs:126–131`. -/
def getAuthorizedData (dataPackets : Option (List DataPacket))
    (authorization : AuthorizationInfo) : Option (List DataPacket) :=
  if authorization.isAuthorizationRequired then
    dataPackets.map (List.filter fun packet => packet.isAuthorized authorization.entitlements)
  else dataPackets

/-- Where authorization is required, only packets are left whose entitlements the
authorization contains. -/
theorem isAuthorized_of_mem_getAuthorizedData {dataPackets : Option (List DataPacket)}
    {authorization : AuthorizationInfo} {packets : List DataPacket} {packet : DataPacket}
    (hr : authorization.isAuthorizationRequired = true)
    (h : getAuthorizedData dataPackets authorization = some packets) (hp : packet ∈ packets) :
    packet.isAuthorized authorization.entitlements = true := by
  rw [getAuthorizedData, if_pos hr, Option.map_eq_some_iff] at h
  obtain ⟨all, -, rfl⟩ := h
  exact (List.mem_filter.mp hp).2

end MessageBus.Distributor
