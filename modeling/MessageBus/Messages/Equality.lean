import MessageBus.Base.Comparison
import MessageBus.Messages.Survival

/-!
# Equality of messages

`Equals` of `DataPacket.cs` and of the nine message classes. Each class compares its
fields one after another and stops at the first that differs; `ISet.SetEquals` and
`Enumerable.SequenceEqual` throw where an operand is null. `string.Compare`, used for
content types, follows the rules of a culture, of which no more is assumed than that a
string compares as equal to itself.
-/

namespace MessageBus.Common
open MessageBus.Base MessageBus.Base.Comparison

/-- The rules by which strings are compared. -/
structure Culture where
  compare : String → String → Int
  compare_self : ∀ s, compare s s = 0

/-- The comparison of strings by their code points. -/
def Culture.ordinal : Culture where
  compare a b := if a = b then 0 else if a < b then -1 else 1
  compare_self _ := if_pos rfl

/-- `string.Compare`: null is less than every string. -/
def Culture.stringCompare (culture : Culture) : Option String → Option String → Int
  | none, none => 0
  | none, some _ => -1
  | some _, none => 1
  | some a, some b => culture.compare a b

@[simp] private theorem Culture.stringCompare_self (culture : Culture) (s : Option String) :
    culture.stringCompare s s = 0 := by
  cases s with
  | none => rfl
  | some s => exact culture.compare_self s

/-- `ISet.SetEquals`. -/
def setEquals (set : HashSet Int32) : Option (HashSet Int32) → Except Exception Bool
  | none => .error .argument
  | some other => .ok (set.subset other && other.subset set)

/-- `Enumerable.SequenceEqual` of collections: lengths first, then the elements in order. -/
def sequenceEqual {α : Type} (equals : α → α → Except Exception Bool) :
    Option (List α) → Option (List α) → Except Exception Bool
  | some first, some second =>
    if first.length = second.length then elementsEqual equals first second else .ok false
  | _, _ => .error .argument

/-- `DataPacket.Equals`, `DataPacket.cs:37–50`. -/
def DataPacket.equals (packet other : DataPacket) : Except Exception Bool :=
  andThen
    (match packet.entitlements with
      | none => .ok other.entitlements.isNone
      | some entitlements => setEquals entitlements other.entitlements)
    (match packet.data with
      | none => .ok other.data.isNone
      | some data => sequenceEqual (fun a b => .ok (a == b)) (some data) other.data)

end MessageBus.Common

namespace MessageBus.Messages
open MessageBus.Base MessageBus.Base.Comparison MessageBus.Common

/-! ### The comparisons of the source -/

/-- The comparison of packets that the data classes share: a null operand is looked for on
both sides. -/
def dataPacketsEqual : Option (List DataPacket) → Option (List DataPacket) →
    Except Exception Bool
  | none, none => .ok true
  | some packets, some other => sequenceEqual DataPacket.equals (some packets) (some other)
  | _, _ => .ok false

variable (culture : Culture)

/-- The end of `Equals` in the data classes: content types, then packets. -/
def contentEqual (contentType contentType' : Option String)
    (dataPackets dataPackets' : Option (List DataPacket)) : Except Exception Bool :=
  if culture.stringCompare contentType contentType' = 0 then
    dataPacketsEqual dataPackets dataPackets'
  else .ok false

/-- `MulticastData.Equals`, `MulticastData.cs:76–88`. -/
def MulticastData.equals (m other : MulticastData (Option String)) : Except Exception Bool :=
  if m.feed = other.feed ∧ m.topic = other.topic then
    contentEqual culture m.contentType other.contentType m.dataPackets other.dataPackets
  else .ok false

/-- `UnicastData.Equals`. -/
def UnicastData.equals (m other : UnicastData (Option String)) : Except Exception Bool :=
  if m.clientId = other.clientId ∧ m.feed = other.feed ∧ m.topic = other.topic then
    contentEqual culture m.contentType other.contentType m.dataPackets other.dataPackets
  else .ok false

/-- `ForwardedMulticastData.Equals`. -/
def ForwardedMulticastData.equals (m other : ForwardedMulticastData (Option String)) :
    Except Exception Bool :=
  if m.user = other.user ∧ m.host = other.host ∧ m.feed = other.feed ∧ m.topic = other.topic then
    contentEqual culture m.contentType other.contentType m.dataPackets other.dataPackets
  else .ok false

/-- `ForwardedUnicastData.Equals`. -/
def ForwardedUnicastData.equals (m other : ForwardedUnicastData (Option String)) :
    Except Exception Bool :=
  if m.user = other.user ∧ m.host = other.host ∧ m.clientId = other.clientId ∧
      m.feed = other.feed ∧ m.topic = other.topic then
    contentEqual culture m.contentType other.contentType m.dataPackets other.dataPackets
  else .ok false

/-- `ForwardedSubscriptionRequest.Equals`. -/
def ForwardedSubscriptionRequest.equals (m other : ForwardedSubscriptionRequest (Option String)) :
    Except Exception Bool :=
  .ok (m.user == other.user && m.host == other.host && m.clientId == other.clientId &&
    m.feed == other.feed && m.topic == other.topic && m.isAdd == other.isAdd)

/-- `NotificationRequest.Equals`. -/
def NotificationRequest.equals (m other : NotificationRequest (Option String)) :
    Except Exception Bool :=
  .ok (m.feed == other.feed && m.isAdd == other.isAdd)

/-- `SubscriptionRequest.Equals`. -/
def SubscriptionRequest.equals (m other : SubscriptionRequest (Option String)) :
    Except Exception Bool :=
  .ok (m.feed == other.feed && m.topic == other.topic && m.isAdd == other.isAdd)

/-- `AuthorizationRequest.Equals`. -/
def AuthorizationRequest.equals (m other : AuthorizationRequest (Option String)) :
    Except Exception Bool :=
  .ok (m.clientId == other.clientId && m.host == other.host && m.user == other.user &&
    m.feed == other.feed && m.topic == other.topic)

/-- `AuthorizationResponse.Equals`, `AuthorizationResponse.cs:85–93`: the sets are compared in
the order in which they enumerate their members. -/
def AuthorizationResponse.equals (m other : AuthorizationResponse (Option String)) :
    Except Exception Bool :=
  if m.clientId = other.clientId ∧ m.feed = other.feed ∧ m.topic = other.topic ∧
      m.isAuthorizationRequired = other.isAuthorizationRequired then
    sequenceEqual (fun a b => .ok (a == b)) (m.entitlements.map HashSet.toList)
      (other.entitlements.map HashSet.toList)
  else .ok false

/-- `Equals` of two messages; a message of another class is not equal. -/
def Message.equals : Message (Option String) → Message (Option String) → Except Exception Bool
  | .multicastData m, .multicastData other => m.equals culture other
  | .unicastData m, .unicastData other => m.equals culture other
  | .forwardedSubscriptionRequest m, .forwardedSubscriptionRequest other => m.equals other
  | .notificationRequest m, .notificationRequest other => m.equals other
  | .subscriptionRequest m, .subscriptionRequest other => m.equals other
  | .authorizationRequest m, .authorizationRequest other => m.equals other
  | .authorizationResponse m, .authorizationResponse other => m.equals other
  | .forwardedMulticastData m, .forwardedMulticastData other => m.equals culture other
  | .forwardedUnicastData m, .forwardedUnicastData other => m.equals culture other
  | _, _ => .ok false

/-! ### Values -/

/-- The value of a field: of a set its members, of a packet array the packets in order, null
distinguished from every other value. -/
inductive FieldValue where
  | guid (value : Guid)
  | boolean (value : Bool)
  | string (value : Option String)
  | entitlements (value : Option (Finset Int32))
  | dataPackets (value : Option (List (Option (Finset Int32) × Option (List UInt8))))

/-- The class of a message and the values of its fields. -/
def Message.values : Message (Option String) → MessageType × List FieldValue
  | .multicastData m => (.multicastData, [.string m.feed, .string m.topic, .string m.contentType,
      .dataPackets (viewDataPackets m.dataPackets)])
  | .unicastData m => (.unicastData, [.guid m.clientId, .string m.feed, .string m.topic,
      .string m.contentType, .dataPackets (viewDataPackets m.dataPackets)])
  | .forwardedSubscriptionRequest m => (.forwardedSubscriptionRequest, [.string m.user,
      .string m.host, .guid m.clientId, .string m.feed, .string m.topic, .boolean m.isAdd])
  | .notificationRequest m => (.notificationRequest, [.string m.feed, .boolean m.isAdd])
  | .subscriptionRequest m =>
    (.subscriptionRequest, [.string m.feed, .string m.topic, .boolean m.isAdd])
  | .authorizationRequest m => (.authorizationRequest, [.guid m.clientId, .string m.host,
      .string m.user, .string m.feed, .string m.topic])
  | .authorizationResponse m => (.authorizationResponse, [.guid m.clientId, .string m.feed,
      .string m.topic, .boolean m.isAuthorizationRequired,
      .entitlements (viewInt32Set m.entitlements)])
  | .forwardedMulticastData m => (.forwardedMulticastData, [.string m.user, .string m.host,
      .string m.feed, .string m.topic, .string m.contentType,
      .dataPackets (viewDataPackets m.dataPackets)])
  | .forwardedUnicastData m => (.forwardedUnicastData, [.string m.user, .string m.host,
      .guid m.clientId, .string m.feed, .string m.topic, .string m.contentType,
      .dataPackets (viewDataPackets m.dataPackets)])

/-- Messages are of one class and all their fields are equal as values. -/
def Message.ValueEqual (m m' : Message (Option String)) : Prop := m.values = m'.values

/-- No operand that is null meets one that is not, where the comparison gets that far. -/
def DataPacketComparable (packet other : DataPacket) : Prop :=
  (packet.entitlements.isSome → other.entitlements.isSome) ∧
    (viewInt32Set packet.entitlements = viewInt32Set other.entitlements →
      packet.data.isSome → other.data.isSome)

/-- Arrays of one length whose packets are comparable up to the first that differs. -/
def DataPacketsComparable : Option (List DataPacket) → Option (List DataPacket) → Prop
  | some packets, some other => packets.length = other.length →
    UpToFirst (fun x y => viewDataPacket x = viewDataPacket y) DataPacketComparable packets other
  | _, _ => True

/-- Where the culture takes the content types for equal, the packets are comparable, and if
they are the same, so are the content types. -/
def ContentComparable (contentType contentType' : Option String)
    (dataPackets dataPackets' : Option (List DataPacket)) : Prop :=
  culture.stringCompare contentType contentType' = 0 →
    DataPacketsComparable dataPackets dataPackets' ∧
      (viewDataPackets dataPackets = viewDataPackets dataPackets' → contentType = contentType')

/-- Neither set of entitlements is null, and equal sets enumerate alike. -/
def EntitlementsComparable (entitlements entitlements' : Option (HashSet Int32)) : Prop :=
  entitlements.isSome ∧ entitlements'.isSome ∧
    (viewInt32Set entitlements = viewInt32Set entitlements' → entitlements = entitlements')

/-- What a comparison of two messages needs where their other fields agree. -/
def Message.Comparable : Message (Option String) → Message (Option String) → Prop
  | .multicastData m, .multicastData m' =>
    m.feed = m'.feed ∧ m.topic = m'.topic →
      ContentComparable culture m.contentType m'.contentType m.dataPackets m'.dataPackets
  | .unicastData m, .unicastData m' =>
    m.clientId = m'.clientId ∧ m.feed = m'.feed ∧ m.topic = m'.topic →
      ContentComparable culture m.contentType m'.contentType m.dataPackets m'.dataPackets
  | .authorizationResponse m, .authorizationResponse m' =>
    m.clientId = m'.clientId ∧ m.feed = m'.feed ∧ m.topic = m'.topic ∧
        m.isAuthorizationRequired = m'.isAuthorizationRequired →
      EntitlementsComparable m.entitlements m'.entitlements
  | .forwardedMulticastData m, .forwardedMulticastData m' =>
    m.user = m'.user ∧ m.host = m'.host ∧ m.feed = m'.feed ∧ m.topic = m'.topic →
      ContentComparable culture m.contentType m'.contentType m.dataPackets m'.dataPackets
  | .forwardedUnicastData m, .forwardedUnicastData m' =>
    m.user = m'.user ∧ m.host = m'.host ∧ m.clientId = m'.clientId ∧ m.feed = m'.feed ∧
        m.topic = m'.topic →
      ContentComparable culture m.contentType m'.contentType m.dataPackets m'.dataPackets
  | _, _ => True

/-! ### Packets -/

private theorem members_eq_iff {set other : HashSet Int32} :
    members set = members other ↔ set.subset other = true ∧ other.subset set = true := by
  rw [HashSet.subset_iff, HashSet.subset_iff, Finset.ext_iff]
  constructor
  · exact fun h => ⟨fun e => (h e).mp, fun e => (h e).mpr⟩
  · exact fun h e => ⟨h.1 e, h.2 e⟩

private theorem decides_setEquals (set other : HashSet Int32) :
    Decides (setEquals set (some other)) (members set = members other) := by
  apply decides_ok.mpr
  rw [members_eq_iff, Bool.and_eq_true]

/-- The test of the entitlements in `DataPacket.Equals`. -/
theorem decides_entitlements_iff (entitlements other : Option (HashSet Int32)) :
    let test := match entitlements with
      | none => Except.ok other.isNone
      | some entitlements => setEquals entitlements other
    Sound test (viewInt32Set entitlements = viewInt32Set other) ∧
      (Decides test (viewInt32Set entitlements = viewInt32Set other) ↔
        (entitlements.isSome → other.isSome)) := by
  cases entitlements with
  | none =>
    have h : Decides (ε := Exception) (.ok other.isNone)
        (viewInt32Set none = viewInt32Set other) := by
      cases other <;> simp [decides_ok, viewInt32Set]
    exact ⟨h.sound, iff_of_true h (by simp)⟩
  | some set =>
    cases other with
    | none => exact ⟨sound_error, iff_of_false not_decides_error (by simp)⟩
    | some other =>
      have h := decides_setEquals set other
      rw [← Option.some_inj] at h
      exact ⟨h.sound, iff_of_true h fun _ => rfl⟩

/-- The test of the bytes in `DataPacket.Equals`. -/
theorem decides_data_iff (data other : Option (List UInt8)) :
    let test := match data with
      | none => Except.ok other.isNone
      | some data => sequenceEqual (fun a b => .ok (a == b)) (some data) other
    Sound test (data = other) ∧ (Decides test (data = other) ↔ (data.isSome → other.isSome)) := by
  cases data with
  | none =>
    have h : Decides (ε := Exception) (.ok other.isNone) (none = other) := by
      cases other <;> simp [decides_ok]
    exact ⟨h.sound, iff_of_true h (by simp)⟩
  | some data =>
    cases other with
    | none => exact ⟨sound_error, iff_of_false not_decides_error (by simp)⟩
    | some other =>
      have h : Decides (sequenceEqual (fun a b => .ok (a == b)) (some data) (some other))
          (some data = some other) := by
        rw [Option.some_inj, sequenceEqual]
        split
        · exact decides_elementsEqual_beq data other
        · next hl => exact decides_ok.mpr (by simp; exact fun he => hl (congrArg _ he))
      exact ⟨h.sound, iff_of_true h fun _ => rfl⟩

private theorem viewDataPacket_eq_iff {packet other : DataPacket} :
    viewDataPacket packet = viewDataPacket other ↔
      viewInt32Set packet.entitlements = viewInt32Set other.entitlements ∧
        packet.data = other.data := Prod.mk_inj

private theorem sound_equals (packet other : DataPacket) :
    Sound (packet.equals other) (viewDataPacket packet = viewDataPacket other) := by
  rw [viewDataPacket_eq_iff]
  exact sound_andThen (decides_entitlements_iff ..).1 fun _ => (decides_data_iff ..).1

/-- Packets are compared by their values exactly if they are comparable. -/
theorem decides_equals_iff (packet other : DataPacket) :
    Decides (packet.equals other) (viewDataPacket packet = viewDataPacket other) ↔
      DataPacketComparable packet other := by
  rw [viewDataPacket_eq_iff, DataPacket.equals,
    decides_andThen_iff (decides_entitlements_iff ..).1, (decides_entitlements_iff ..).2,
    (decides_data_iff ..).2]
  rfl

private theorem viewDataPackets_eq_iff {packets other : List DataPacket} :
    viewDataPackets (some packets) = viewDataPackets (some other) ↔
      List.Forall₂ (fun x y => viewDataPacket x = viewDataPacket y) packets other := by
  rw [viewDataPackets, viewDataPackets, Option.map_some, Option.map_some, Option.some_inj,
    ← List.forall₂_eq_eq_eq, List.forall₂_map_left_iff, List.forall₂_map_right_iff]

private theorem dataPacketsEqual_spec (packets other : Option (List DataPacket)) :
    Sound (dataPacketsEqual packets other) (viewDataPackets packets = viewDataPackets other) ∧
      (Decides (dataPacketsEqual packets other) (viewDataPackets packets = viewDataPackets other) ↔
        DataPacketsComparable packets other) := by
  have hof {b : Bool} {P C : Prop} (h : b = true ↔ P) (hc : C) :
      Sound (Except.ok b : Except Exception Bool) P ∧
        (Decides (Except.ok b : Except Exception Bool) P ↔ C) :=
    ⟨(decides_ok.mpr h).sound, iff_of_true (decides_ok.mpr h) hc⟩
  cases packets with
  | none =>
    cases other with
    | none => exact hof (by simp) trivial
    | some other => exact hof (by simp [viewDataPackets]) trivial
  | some packets =>
    cases other with
    | none => exact hof (by simp [viewDataPackets]) trivial
    | some other =>
      rw [viewDataPackets_eq_iff, dataPacketsEqual, sequenceEqual]
      split
      · next hl =>
        have hdecides := decides_elementsEqual_iff sound_equals packets other
        simp only [decides_equals_iff] at hdecides
        rw [hdecides]
        exact ⟨sound_elementsEqual sound_equals packets other, fun h _ => h, fun h => h hl⟩
      · next hl =>
        have hn : ¬ List.Forall₂ (fun x y => viewDataPacket x = viewDataPacket y) packets other :=
          fun h => hl h.length_eq
        exact hof (iff_of_false Bool.false_ne_true hn) fun h => absurd h hl

/-- The common end of the data classes. -/
theorem decides_contentEqual_iff (contentType contentType' : Option String)
    (packets packets' : Option (List DataPacket)) :
    Decides (contentEqual culture contentType contentType' packets packets')
        (contentType = contentType' ∧ viewDataPackets packets = viewDataPackets packets') ↔
      ContentComparable culture contentType contentType' packets packets' := by
  obtain ⟨hsound, hdecides⟩ := dataPacketsEqual_spec packets packets'
  unfold contentEqual ContentComparable
  split
  · next hc =>
    rw [← hdecides]
    constructor
    · rintro ⟨b, hb, hv⟩ -
      have hview := hsound b hb
      exact ⟨⟨b, hb, hview⟩, fun he => (hv.mp (hview.mpr he)).1⟩
    · intro h
      obtain ⟨⟨b, hb, hview⟩, hct⟩ := h hc
      exact ⟨b, hb, hview.trans ⟨fun he => ⟨hct he, he⟩, And.right⟩⟩
  · next hc =>
    refine iff_of_true (decides_ok.mpr (iff_of_false Bool.false_ne_true ?_)) fun h => absurd h hc
    rintro ⟨rfl, -⟩
    exact hc (culture.stringCompare_self contentType)

/-! ### Messages -/

private theorem decides_entitlementsEqual_iff (entitlements other : Option (HashSet Int32)) :
    Decides (sequenceEqual (fun a b => .ok (a == b)) (entitlements.map HashSet.toList)
        (other.map HashSet.toList)) (viewInt32Set entitlements = viewInt32Set other) ↔
      EntitlementsComparable entitlements other := by
  unfold EntitlementsComparable
  cases entitlements with
  | none => exact iff_of_false not_decides_error fun h => nomatch h.1
  | some set =>
    cases other with
    | none => exact iff_of_false not_decides_error fun h => nomatch h.2.1
    | some other =>
      have hlists : Decides (sequenceEqual (fun a b => .ok (a == b)) (some set.toList)
          (some other.toList)) (some set = some other) := by
        have hset : (some set = some other) = (set.toList = other.toList) := by
          rw [Option.some_inj]
          exact propext ⟨congrArg _, fun h => by cases set; cases other; simpa using h⟩
        rw [hset, sequenceEqual]
        split
        · exact decides_elementsEqual_beq _ _
        · next hl => exact decides_ok.mpr (iff_of_false Bool.false_ne_true fun h => hl (by rw [h]))
      obtain ⟨b, hb, heq⟩ := hlists
      rw [Option.map_some, Option.map_some, hb, decides_ok, heq]
      constructor
      · exact fun h => ⟨rfl, rfl, h.mpr⟩
      · exact fun h => ⟨fun he => by rw [he], h.2.2⟩

/-- `Equals` returns, and true exactly for equal values, where the messages are
comparable. -/
theorem Message.decides_equals_iff (m m' : Message (Option String)) :
    Decides (m.equals culture m') (m.ValueEqual m') ↔ m.Comparable culture m' := by
  have hother {c c' : MessageType} {fs fs' : List FieldValue} {C : Prop} (hne : c ≠ c')
      (hc : C) : Decides (Except.ok false : Except Exception Bool) ((c, fs) = (c', fs')) ↔ C :=
    iff_of_true (decides_ok.mpr (iff_of_false Bool.false_ne_true fun h => hne (Prod.mk.inj h).1)) hc
  have hends {H Q P C : Prop} [Decidable H] {c : Except Exception Bool} (hp : P ↔ H ∧ Q)
      (hc : Decides c Q ↔ C) : Decides (if H then c else .ok false) P ↔ (H → C) := by
    rw [hp, decides_ite_iff, hc]
  have hflat {b : Bool} {P : Prop} (h : b = true ↔ P) :
      Decides (Except.ok b : Except Exception Bool) P ↔ True :=
    iff_of_true (decides_ok.mpr h) trivial
  unfold ValueEqual
  cases m with
  | multicastData m =>
    cases m' with
    | multicastData m' =>
      exact hends (by simp [values, and_assoc]) (decides_contentEqual_iff ..)
    | _ => exact hother nofun trivial
  | unicastData m =>
    cases m' with
    | unicastData m' =>
      exact hends (by simp [values, and_assoc]) (decides_contentEqual_iff ..)
    | _ => exact hother nofun trivial
  | forwardedMulticastData m =>
    cases m' with
    | forwardedMulticastData m' =>
      exact hends (by simp [values, and_assoc]) (decides_contentEqual_iff ..)
    | _ => exact hother nofun trivial
  | forwardedUnicastData m =>
    cases m' with
    | forwardedUnicastData m' =>
      exact hends (by simp [values, and_assoc]) (decides_contentEqual_iff ..)
    | _ => exact hother nofun trivial
  | authorizationResponse m =>
    cases m' with
    | authorizationResponse m' =>
      exact hends (by simp [values, and_assoc]) (decides_entitlementsEqual_iff ..)
    | _ => exact hother nofun trivial
  | forwardedSubscriptionRequest m =>
    cases m' with
    | forwardedSubscriptionRequest m' => exact hflat (by simp [values, and_assoc])
    | _ => exact hother nofun trivial
  | notificationRequest m =>
    cases m' with
    | notificationRequest m' => exact hflat (by simp [values])
    | _ => exact hother nofun trivial
  | subscriptionRequest m =>
    cases m' with
    | subscriptionRequest m' => exact hflat (by simp [values, and_assoc])
    | _ => exact hother nofun trivial
  | authorizationRequest m =>
    cases m' with
    | authorizationRequest m' => exact hflat (by simp [values, and_assoc])
    | _ => exact hother nofun trivial

/-- Two packets, and two messages, are compared by their values exactly if they are
comparable; among packets, or messages, that are comparable with each other, `Equals` is an
equivalence. -/
theorem equals_decides_value_iff :
    (∀ packet other : DataPacket,
      Decides (packet.equals other) (viewDataPacket packet = viewDataPacket other) ↔
        DataPacketComparable packet other) ∧
    (∀ m m' : Message (Option String),
      Decides (m.equals culture m') (m.ValueEqual m') ↔ m.Comparable culture m') ∧
    (∀ s : Set DataPacket, (∀ x ∈ s, ∀ y ∈ s, DataPacketComparable x y) →
      Equivalence fun x y : s => x.1.equals y.1 = .ok true) ∧
    ∀ s : Set (Message (Option String)), (∀ m ∈ s, ∀ m' ∈ s, m.Comparable culture m') →
      Equivalence fun m m' : s => m.1.equals culture m'.1 = .ok true := by
  refine ⟨decides_equals_iff, Message.decides_equals_iff culture, fun s h => ?_, fun s h => ?_⟩
  · exact equivalence_of_decides fun x hx y hy => (decides_equals_iff x y).mpr (h x hx y hy)
  · exact equivalence_of_decides fun m hm m' hm' =>
      (m.decides_equals_iff culture m').mpr (h m hm m' hm')

/-- An answer that requires an authorization and grants the entitlements. -/
def responseOf (entitlements : Option (HashSet Int32)) : Message (Option String) :=
  .authorizationResponse ⟨⟨1⟩, some "FX", some "EURUSD", true, entitlements⟩

/-- `Equals` throws for a packet with entitlements against one without, and for a response
without entitlements against itself; it is false for responses with one set of entitlements,
its members put in in different orders. -/
theorem equals_not_value :
    ¬ (∀ packet other : DataPacket,
      Decides (packet.equals other) (viewDataPacket packet = viewDataPacket other)) ∧
    ∀ entitlements ∈ [none, some (HashSet.addAll ∅ [1, 2])],
      ¬ Decides ((responseOf entitlements).equals .ordinal
          (responseOf (entitlements.map fun _ => HashSet.addAll ∅ [2, 1])))
        ((responseOf entitlements).ValueEqual
          (responseOf (entitlements.map fun _ => HashSet.addAll ∅ [2, 1]))) := by
  constructor
  · intro h
    exact not_decides_error (h ⟨some (HashSet.addAll ∅ [1]), none⟩ ⟨none, none⟩)
  · intro entitlements hm
    rw [Message.decides_equals_iff]
    intro h
    obtain ⟨hsome, -, horder⟩ := h ⟨rfl, rfl, rfl, rfl⟩
    rcases List.mem_pair.mp hm with rfl | rfl
    · cases hsome
    · exact absurd (horder (by decide)) (by decide)

end MessageBus.Messages
