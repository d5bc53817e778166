import MessageBus.Common.Framing
import MessageBus.Distributor.Publishers

/-!
# Filtering and the wire

The entitlement filter before and after an array of packets is written and read back. The
data writer has one encoding for null and for the empty set, which the data reader takes
for null; the filter lets a packet with the empty set pass and one with null never.
-/

namespace MessageBus.Distributor
open MessageBus.Base MessageBus.Common DataReader DataWriter

/-- The packets that are sent are those that a client is entitled to, where that is asked for. -/
theorem getD_getAuthorizedData (packets : Option (List DataPacket)) (a : AuthorizationInfo) :
    (getAuthorizedData packets a).getD [] =
      if a.isAuthorizationRequired then
        (packets.getD []).filter fun packet => packet.isAuthorized a.entitlements
      else packets.getD [] := by
  rw [getAuthorizedData]
  split
  · cases packets <;> rfl
  · rfl

/-- The filter leaves an array that can be written. -/
theorem dataPacketsFit_getAuthorizedData {packets : Option (List DataPacket)}
    (h : DataPacketsFit packets) (a : AuthorizationInfo) :
    DataPacketsFit (getAuthorizedData packets a) := by
  have hsub : ((getAuthorizedData packets a).getD []).Sublist (packets.getD []) := by
    rw [getD_getAuthorizedData]
    split
    · exact List.filter_sublist
    · exact List.Sublist.refl _
  exact ⟨Nat.le_trans hsub.length_le h.1, fun packet hp => h.2 packet (hsub.subset hp)⟩

/-- Filtering what is read back leaves the same as reading back what is filtered exactly
where nothing is filtered or no packet has an empty set of entitlements. -/
theorem filter_received_iff (packets : Option (List DataPacket)) (a : AuthorizationInfo) :
    (getAuthorizedData (receivedDataPackets packets) a).getD [] =
        (receivedDataPackets (getAuthorizedData packets a)).getD [] ↔
      (a.isAuthorizationRequired = true →
        ∀ packet ∈ packets.getD [], packet.entitlements ≠ some ∅) := by
  rw [getD_getAuthorizedData, getD_receivedDataPackets, getD_receivedDataPackets,
    getD_getAuthorizedData]
  split
  · next hrequired =>
    rw [List.filter_map]
    constructor
    · intro heq _ packet hp he
      have hauthorized : packet.isAuthorized a.entitlements = true := by
        rw [DataPacket.isAuthorized, he]
        rfl
      have hmem : packet.received ∈ ((packets.getD []).filter
          fun packet => packet.isAuthorized a.entitlements).map DataPacket.received :=
        List.mem_map_of_mem (List.mem_filter.mpr ⟨hp, hauthorized⟩)
      rw [← heq, ← List.filter_map] at hmem
      have hreceived := (List.mem_filter.mp hmem).2
      rw [DataPacket.isAuthorized_received, he] at hreceived
      simp at hreceived
    · intro h
      congr 1
      apply List.filter_congr
      intro packet hp
      exact DataPacket.isAuthorized_received_iff.mpr (h hrequired packet hp) a.entitlements
  · next hrequired => exact ⟨fun _ h => absurd h hrequired, fun _ => rfl⟩

/-- An array of packets that is written, read back and then filtered is the one that is
filtered, written and read back, null taken for the empty list, exactly where authorization
is not required or no packet has an empty set of entitlements. The packets with such a set
are those for which the wire changes an answer of `IsAuthorized`. -/
theorem filter_transport_iff (packets : Option (List DataPacket)) (a : AuthorizationInfo)
    (h : DataPacketsFit packets) :
    ∃ transported filtered,
      ReadsBack readBinaryDataPacketArray (writeDataPacketArray packets) transported ∧
      ReadsBack readBinaryDataPacketArray (writeDataPacketArray (getAuthorizedData packets a))
        filtered ∧
      ((getAuthorizedData transported a).getD [] = filtered.getD [] ↔
        (a.isAuthorizationRequired = true →
          ∀ packet ∈ packets.getD [], packet.entitlements ≠ some ∅)) ∧
      ∀ packet ∈ packets.getD [], ∃ received,
        ReadsBack readBinaryDataPacket (writeDataPacket packet) received ∧
        ((∀ all, received.isAuthorized all = packet.isAuthorized all) ↔
          packet.entitlements ≠ some ∅) := by
  have htransported := readsBack_of_frames (frames_readBinaryDataPacketArray packets h)
  have hfiltered := readsBack_of_frames
    (frames_readBinaryDataPacketArray _ (dataPacketsFit_getAuthorizedData h a))
  refine ⟨_, _, htransported, hfiltered, filter_received_iff packets a, fun packet hp => ?_⟩
  exact ⟨_, readsBack_of_frames (frames_readBinaryDataPacket packet (h.2 packet hp)),
    DataPacket.isAuthorized_received_iff⟩

/-- Packets with null, a held and a missing set of entitlements, for a client that needs
an authorization. -/
theorem filter_transport_three :
    ∃ transported filtered,
      ReadsBack readBinaryDataPacketArray (writeDataPacketArray (some [⟨none, some [1]⟩,
        ⟨some (HashSet.add ∅ 1), some []⟩, ⟨some (HashSet.add ∅ 2), none⟩])) transported ∧
      ReadsBack readBinaryDataPacketArray (writeDataPacketArray (getAuthorizedData
        (some [⟨none, some [1]⟩, ⟨some (HashSet.add ∅ 1), some []⟩,
          ⟨some (HashSet.add ∅ 2), none⟩]) ⟨true, HashSet.add ∅ 1⟩)) filtered ∧
      (getAuthorizedData transported ⟨true, HashSet.add ∅ 1⟩).getD [] = filtered.getD [] := by
  obtain ⟨transported, filtered, htransported, hfiltered, hiff, -⟩ :=
    filter_transport_iff (some [⟨none, some [1]⟩, ⟨some (HashSet.add ∅ 1), some []⟩,
      ⟨some (HashSet.add ∅ 2), none⟩]) ⟨true, HashSet.add ∅ 1⟩ (by decide)
  exact ⟨transported, filtered, htransported, hfiltered, hiff.mpr fun _ => by decide⟩

/-- A packet with an empty set of entitlements passes the filter before the wire, and is
stopped by it after. -/
theorem filter_transport_empty_set :
    ¬ ∀ (packets : Option (List DataPacket)) (a : AuthorizationInfo), DataPacketsFit packets →
      ∃ transported filtered,
        ReadsBack readBinaryDataPacketArray (writeDataPacketArray packets) transported ∧
        ReadsBack readBinaryDataPacketArray (writeDataPacketArray (getAuthorizedData packets a))
          filtered ∧
        (getAuthorizedData transported a).getD [] = filtered.getD [] := by
  intro hclaim
  let packets : Option (List DataPacket) := some [⟨some ∅, some [7]⟩]
  let a : AuthorizationInfo := ⟨true, HashSet.add ∅ 1⟩
  have hfit : DataPacketsFit packets := by decide
  obtain ⟨transported, filtered, htransported, hfiltered, heq⟩ := hclaim packets a hfit
  have ht := htransported.unique (readsBack_of_frames (frames_readBinaryDataPacketArray _ hfit))
  have hf := hfiltered.unique (readsBack_of_frames
    (frames_readBinaryDataPacketArray _ (dataPacketsFit_getAuthorizedData hfit a)))
  rw [ht, hf] at heq
  exact absurd heq (by decide)

end MessageBus.Distributor
