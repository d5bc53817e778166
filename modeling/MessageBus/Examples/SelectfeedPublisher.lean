import MessageBus.Adapters.Client
import MessageBus.Base.Counter
import MessageBus.Distributor.SelectFeed

/-!
# The select feed publisher

`examples/selectfeed/publisher/Publisher.cs`. The publisher counts the subscriptions of each
client to each ticker from the notices of the distributor; it sends an image to a client
that it did not count, and publishes the changes of the tickers that it counts any client
for. The counts are 32 bit integers, kept in dictionaries inside a dictionary, which hold no
count of zero and no ticker without clients: below they are numbers of their own, as long as none
of these reaches `2 ^ 31`.
-/

namespace MessageBus.Selectfeed
open MessageBus.Base MessageBus.Common MessageBus.Adapters MessageBus.Distributor

/-- The data of a ticker, or of some of its fields. -/
abbrev TickerData (ο : Type) := Dictionary String ο

/-- `ExchangeData.cs:9–38`, the fields of each ticker, with values that are text or numbers,
and `JsonConvert.SerializeObject`. -/
structure Exchange (ο : Type) where
  data : Dictionary String (TickerData ο)
  serializeObject : Dictionary String (TickerData ο) → String

/-- The exception of `_exchangeFeed.Data[topic]`, known by the key that was not found. -/
structure KeyNotFoundException where
  key : String
  deriving DecidableEq

/-- What the publisher handles: an event of its client, or of the exchange feed. -/
inductive Input (ο : Type) where
  | client (event : ClientEvent)
  | exchange (ticker : String) (delta : TickerData ο)

/-- The event of the client. -/
def Input.event {ο : Type} : Input ο → Option ClientEvent
  | .client event => some event
  | .exchange _ _ => none

/-- `Publisher.cs:15–20`, with the calls that were made of the methods of `_client`, and what a
handler threw into `Client.Read`. -/
structure Publisher where
  subscriptions : Dictionary String (Dictionary Guid Int32) := ∅
  calls : List Client.Call := []
  thrown : Option KeyNotFoundException := none

/-- `Publisher.cs:15`. -/
def feed : String := "LSE"

variable {ο : Type} (x : Exchange ο)

/-- `ToDataPackets`, `Publisher.cs:115–127`. -/
def toDataPackets (topic : String) (data : TickerData ο) : List DataPacket :=
  let dataFrame := AList.singleton topic data
  [⟨none, some (UTF8.getBytes (x.serializeObject dataFrame))⟩]

namespace Publisher

/-- `Publisher`, `Publisher.cs:22–30`. -/
def new : Publisher := { calls := [.addNotification (some feed)] }

/-- A call of a method of the client. -/
def call (p : Publisher) (call : Client.Call) : Publisher := { p with calls := p.calls ++ [call] }

/-- `HandleExchangeData`, `Publisher.cs:32–42`. -/
def handleExchangeData (p : Publisher) (ticker : String) (delta : TickerData ο) : Publisher :=
  if (p.subscriptions.lookup ticker).isNone then p
  else p.call (.publish (some feed) (some ticker) (some "") (some (toDataPackets x ticker delta)))

/-- `topicSubscriptions[clientId] = count`, for the dictionary that is kept for the topic. -/
def setCount (p : Publisher) (topic : String) (topicSubscriptions : Dictionary Guid Int32)
    (clientId : Guid) (count : Int32) : Publisher :=
  { p with
    subscriptions := p.subscriptions.insert topic (topicSubscriptions.insert clientId count) }

/-- `AddSubscription`, `Publisher.cs:59–80`. The count is set before the image is looked up. -/
def addSubscription (p : Publisher) (clientId : Guid) (feed topic : String) : Publisher :=
  let topicSubscriptions := (p.subscriptions.lookup topic).getD ∅
  match topicSubscriptions.lookup clientId with
  | some count => p.setCount topic topicSubscriptions clientId (count + 1)
  | none =>
    let p := p.setCount topic topicSubscriptions clientId 1
    match x.data.lookup topic with
    | none => { p with thrown := some ⟨topic⟩ }
    | some data => p.call
        (.send clientId (some feed) (some topic) (some "") (some (toDataPackets x topic data)))

/-- `RemoveSubscription`, `Publisher.cs:82–113`. -/
def removeSubscription (p : Publisher) (clientId : Guid) (topic : String) : Publisher :=
  match p.subscriptions.lookup topic with
  | none => p
  | some topicSubscriptions =>
    match topicSubscriptions.lookup clientId with
    | none => p
    | some count =>
      if 0 < count - 1 then
        p.setCount topic topicSubscriptions clientId (count - 1)
      else
        let topicSubscriptions := topicSubscriptions.erase clientId
        if !Dictionary.isEmpty topicSubscriptions then
          { p with subscriptions := p.subscriptions.insert topic topicSubscriptions }
        else { p with subscriptions := p.subscriptions.erase topic }

/-- `HandleForwardedSubscription`, `Publisher.cs:44–57`. -/
def handleForwardedSubscription (p : Publisher) (clientId : Guid) (feed topic : String)
    (isAdd : Bool) : Publisher :=
  if isAdd then p.addSubscription x clientId feed topic
  else p.removeSubscription clientId topic

/-- The next state. `Client.Read` catches what a handler throws and ends, `Client.cs:193–203`:
from then on there are no events of the client. -/
def handle (p : Publisher) : Input ο → Publisher
  | .client (.forwardedSubscription _ _ clientId feed topic isAdd) =>
    match p.thrown with
    | some _ => p
    | none => p.handleForwardedSubscription x clientId feed topic isAdd
  | .client _ => p
  | .exchange ticker delta => p.handleExchangeData x ticker delta

/-- The publisher after some inputs. -/
def run (inputs : List (Input ο)) : Publisher := inputs.foldl (handle x) new

end Publisher

/-! ### Counts of their own -/

/-- The publisher as it is meant: a count for every ticker and client. -/
structure Tally where
  count : String → Guid → Nat
  calls : List Client.Call
  thrown : Option KeyNotFoundException

namespace Tally

/-- A ticker that has a subscriber. -/
def IsWanted (s : Tally) (ticker : String) : Prop := ∃ clientId, 0 < s.count ticker clientId

/-- One count is changed by a notice. -/
def noticed (count : String → Guid → Nat) (clientId : Guid) (topic : String) (isAdd : Bool) :
    String → Guid → Nat := fun topic' clientId' =>
  if topic' = topic ∧ clientId' = clientId then countNotice (count topic' clientId') isAdd
  else count topic' clientId'

/-- The image that is sent to a client which was not counted. -/
def image (clientId : Guid) (feed topic : String) : Option Client.Call :=
  (x.data.lookup topic).map fun data =>
    .send clientId (some feed) (some topic) (some "") (some (toDataPackets x topic data))

open Classical in
/-- The next state: a notice changes one count, an image is sent where a count leaves zero, and a
change is published where the ticker is wanted. -/
noncomputable def handle (s : Tally) : Input ο → Tally
  | .client (.forwardedSubscription _ _ clientId feed topic isAdd) =>
    if s.thrown.isSome then s
    else if isAdd ∧ s.count topic clientId = 0 then
      { count := noticed s.count clientId topic isAdd
        calls := s.calls ++ (image x clientId feed topic).toList
        thrown := if (x.data.lookup topic).isNone then some ⟨topic⟩ else none }
    else { s with count := noticed s.count clientId topic isAdd }
  | .client _ => s
  | .exchange ticker delta =>
    if s.IsWanted ticker then
      { s with calls := s.calls ++
          [.publish (some feed) (some ticker) (some "") (some (toDataPackets x ticker delta))] }
    else s

/-- Nobody is counted, and notices are asked for. -/
def new : Tally where
  count _ _ := 0
  calls := [.addNotification (some feed)]
  thrown := none

/-- The counts after some inputs. -/
noncomputable def run (inputs : List (Input ο)) : Tally := inputs.foldl (handle x) new

/-- No count reaches `2 ^ 31` while the inputs are handled. -/
def Bounded (inputs : List (Input ο)) : Prop :=
  ∀ inputs', inputs' <+: inputs → ∀ ticker clientId, (run x inputs').count ticker clientId < 2 ^ 31

end Tally

/-! ### What is counted -/

/-- What an event tells the publisher of a ticker and client: it does not look at the feed. -/
def noticeOf (ticker : String) (clientId : Guid) : ClientEvent → Option Bool
  | .forwardedSubscription _ _ clientId' _ topic isAdd =>
    if topic = ticker ∧ clientId' = clientId then some isAdd else none
  | _ => none

namespace Tally

private theorem thrown_foldl (inputs : List (Input ο)) {s : Tally} {e : KeyNotFoundException}
    (h : s.thrown = some e) : (inputs.foldl (handle x) s).thrown = some e := by
  induction inputs generalizing s with
  | nil => exact h
  | cons input inputs ih =>
    apply ih
    cases input with
    | exchange ticker delta =>
      rw [handle]
      split
      · exact h
      · exact h
    | client event =>
      cases event with
      | forwardedSubscription user host clientId feed topic isAdd =>
        rw [handle, if_pos (by rw [h]; rfl)]
        exact h
      | _ => exact h

-- An input changes a count if it is a notice about the ticker and client.
private theorem count_handle {s : Tally} (h : s.thrown = none) (input : Input ο)
    (ticker : String) (clientId : Guid) : (s.handle x input).count ticker clientId =
      ((input.event.bind (noticeOf ticker clientId)).toList).foldl countNotice
        (s.count ticker clientId) := by
  cases input with
  | exchange ticker' delta =>
    rw [handle]
    split
    · rfl
    · rfl
  | client event =>
    cases event with
    | forwardedSubscription user host clientId' feed topic isAdd =>
      have hcount : (s.handle x (.client (.forwardedSubscription user host clientId' feed topic
          isAdd))).count = noticed s.count clientId' topic isAdd := by
        rw [handle, if_neg (by rw [h]; exact Bool.false_ne_true)]
        split
        · rfl
        · rfl
      rw [hcount, noticed, Input.event, Option.bind_some, noticeOf]
      by_cases hk : topic = ticker ∧ clientId' = clientId
      · rw [if_pos hk, if_pos ⟨hk.1.symm, hk.2.symm⟩]
        rfl
      · rw [if_neg hk, if_neg fun h => hk ⟨h.1.symm, h.2.symm⟩]
        rfl
    | _ => rfl

private theorem count_foldl (inputs : List (Input ο)) {s : Tally}
    (h : (inputs.foldl (handle x) s).thrown = none) (ticker : String) (clientId : Guid) :
    (inputs.foldl (handle x) s).count ticker clientId =
      ((inputs.filterMap Input.event).filterMap (noticeOf ticker clientId)).foldl countNotice
        (s.count ticker clientId) := by
  induction inputs generalizing s with
  | nil => rfl
  | cons input inputs ih =>
    have hs : s.thrown = none := by
      rw [Option.eq_none_iff_forall_ne_some]
      intro e he
      have hthrown := thrown_foldl x (input :: inputs) he
      rw [h] at hthrown
      cases hthrown
    rw [List.foldl_cons, ih h, count_handle x hs]
    cases he : input.event with
    | none => simp [he]
    | some event =>
      rw [List.filterMap_cons_some he, List.filterMap_cons, Option.bind_some]
      cases noticeOf ticker clientId event <;> rfl

/-- Where no handler threw, a count is that of the notices about its ticker and client. -/
theorem count_run {inputs : List (Input ο)} (h : (run x inputs).thrown = none) (ticker : String)
    (clientId : Guid) : (run x inputs).count ticker clientId =
      ((inputs.filterMap Input.event).filterMap (noticeOf ticker clientId)).foldl countNotice 0 :=
  count_foldl x inputs h ticker clientId

/-- The only notices that are asked for are those of the feed. -/
theorem call_of_run {inputs : List (Input ο)} {call : Client.Call}
    (h : call ∈ (run x inputs).calls) : call = .addNotification (some feed) ∨
      ∀ request, call.message ≠ some (.notificationRequest request) := by
  have hdata (s : Tally) (input : Input ο) : ∀ c ∈ (s.handle x input).calls,
      c ∈ s.calls ∨ ∀ request, c.message ≠ some (.notificationRequest request) := by
    intro c hc
    cases input with
    | exchange ticker delta =>
      rw [handle] at hc
      split at hc
      · refine (List.mem_append.mp hc).imp_right fun hc => ?_
        rw [List.mem_singleton.mp hc]
        simp [Client.Call.message]
      · exact .inl hc
    | client event =>
      cases event with
      | forwardedSubscription user host clientId feed topic isAdd =>
        rw [handle] at hc
        split at hc
        · exact .inl hc
        · split at hc
          · refine (List.mem_append.mp hc).imp_right fun hc => ?_
            obtain ⟨data, -, rfl⟩ := Option.map_eq_some_iff.mp (Option.mem_toList.mp hc)
            simp [Client.Call.message]
          · exact .inl hc
      | _ => exact .inl hc
  have hall (inputs : List (Input ο)) (s : Tally) : ∀ c ∈ (inputs.foldl (handle x) s).calls,
      c ∈ s.calls ∨ ∀ request, c.message ≠ some (.notificationRequest request) := by
    induction inputs generalizing s with
    | nil => exact fun c hc => .inl hc
    | cons input inputs ih =>
      intro c hc
      rcases ih (s.handle x input) c hc with hc | hc
      · exact hdata s input c hc
      · exact .inr hc
  exact (hall inputs new call h).imp_left List.mem_singleton.mp

private theorem count_handle_le (s : Tally) (input : Input ο) (ticker : String)
    (clientId : Guid) : (s.handle x input).count ticker clientId ≤ s.count ticker clientId + 1 := by
  have hnoticed (clientId' : Guid) (topic : String) (isAdd : Bool) :
      noticed s.count clientId' topic isAdd ticker clientId ≤ s.count ticker clientId + 1 := by
    rw [noticed]
    split
    · cases isAdd
      · exact (Nat.sub_le _ _).trans (Nat.le_succ _)
      · exact Nat.le_refl _
    · exact Nat.le_succ _
  cases input with
  | exchange ticker' delta =>
    rw [handle]
    split <;> exact Nat.le_succ _
  | client event =>
    cases event with
    | forwardedSubscription user host clientId' feed topic isAdd =>
      rw [handle]
      split
      · exact Nat.le_succ _
      · split <;> exact hnoticed clientId' topic isAdd
    | _ => exact Nat.le_succ _

/-- Fewer than `2 ^ 31` inputs bring no count there. -/
theorem bounded_of_length {inputs : List (Input ο)} (h : inputs.length < 2 ^ 31) :
    Bounded x inputs := by
  have hle (inputs : List (Input ο)) (s : Tally) (ticker : String) (clientId : Guid) :
      (inputs.foldl (handle x) s).count ticker clientId ≤
        s.count ticker clientId + inputs.length := by
    induction inputs generalizing s with
    | nil => exact Nat.le_refl _
    | cons input inputs ih =>
      have hstep := count_handle_le x s input ticker clientId
      have hrest := ih (s.handle x input)
      rw [List.foldl_cons, List.length_cons]
      omega
  intro inputs' hprefix ticker clientId
  have hcount := hle inputs' new ticker clientId
  have hlength := hprefix.length_le
  rw [new, Nat.zero_add] at hcount
  exact (hcount.trans hlength).trans_lt h

end Tally

/-! ### The publisher counts -/

namespace Publisher

/-- The count of a client as a number, zero where there is none. -/
def count (p : Publisher) (topic : String) (clientId : Guid) : Nat :=
  ((((p.subscriptions.lookup topic).getD ∅).lookup clientId).getD 0).toNatClampNeg

/-- The publisher as it is meant. -/
def tally (p : Publisher) : Tally := ⟨p.count, p.calls, p.thrown⟩

/-- No count of zero is kept, and no ticker without clients. -/
structure Sound (subscriptions : Dictionary String (Dictionary Guid Int32)) : Prop where
  positive : ∀ topic topicSubscriptions, subscriptions.lookup topic = some topicSubscriptions →
    ∀ clientId count, topicSubscriptions.lookup clientId = some count → 0 < count.toNatClampNeg
  kept : ∀ topic topicSubscriptions, subscriptions.lookup topic = some topicSubscriptions →
    Dictionary.isEmpty topicSubscriptions = false

private theorem Sound.store {subscriptions : Dictionary String (Dictionary Guid Int32)}
    (hs : Sound subscriptions) (topic : String) {topicSubscriptions : Dictionary Guid Int32}
    (hpos : ∀ clientId count, topicSubscriptions.lookup clientId = some count →
      0 < count.toNatClampNeg) :
    Sound (Dictionary.store subscriptions topic topicSubscriptions) := by
  constructor
  · intro topic' stored hstored
    rw [Dictionary.lookup_store] at hstored
    split at hstored
    · obtain ⟨-, ⟨⟩⟩ := Option.ite_none_left_eq_some.mp hstored
      exact hpos
    · exact hs.positive topic' stored hstored
  · exact fun topic' stored hstored => Dictionary.isEmpty_of_lookup_store hstored hs.kept

/-- A ticker is kept exactly if some client is counted for it. -/
theorem isSome_lookup_iff {p : Publisher} (hs : Sound p.subscriptions) (ticker : String) :
    (p.subscriptions.lookup ticker).isSome ↔ p.tally.IsWanted ticker := by
  cases hl : p.subscriptions.lookup ticker with
  | none =>
    refine iff_of_false (by simp) ?_
    rintro ⟨c, hc⟩
    simp [tally, count, hl] at hc
  | some topicSubscriptions =>
    refine iff_of_true rfl ?_
    have hkept := hs.kept ticker topicSubscriptions hl
    rw [Bool.eq_false_iff, ne_eq, Dictionary.isEmpty_iff, not_forall] at hkept
    obtain ⟨c, hc⟩ := hkept
    obtain ⟨n, hn⟩ := Option.ne_none_iff_exists'.mp hc
    have hcount : p.count ticker c = n.toNatClampNeg := by simp [count, hl, hn]
    refine ⟨c, ?_⟩
    change 0 < p.count ticker c
    rw [hcount]
    exact hs.positive ticker topicSubscriptions hl c n hn

-- The publisher with a dictionary kept for a topic, or dropped with the topic.
private def keep (p : Publisher) (topic : String) (topicSubscriptions : Dictionary Guid Int32) :
    Publisher :=
  { p with subscriptions := Dictionary.store p.subscriptions topic topicSubscriptions }

private theorem count_keep (p : Publisher) (topic topic' : String)
    (topicSubscriptions : Dictionary Guid Int32) (clientId : Guid) :
    (p.keep topic topicSubscriptions).count topic' clientId =
      if topic' = topic then ((topicSubscriptions.lookup clientId).getD 0).toNatClampNeg
      else p.count topic' clientId := by
  rw [count, keep, Dictionary.getD_lookup_store]
  split
  · rfl
  · rfl

private theorem setCount_eq (p : Publisher) (topic : String)
    (topicSubscriptions : Dictionary Guid Int32) (clientId : Guid) (n : Int32) :
    p.setCount topic topicSubscriptions clientId n =
      p.keep topic (topicSubscriptions.insert clientId n) := by
  have hne : ¬ Dictionary.isEmpty (topicSubscriptions.insert clientId n) = true := by
    rw [Dictionary.isEmpty_insert]
    exact Bool.false_ne_true
  rw [setCount, keep, Dictionary.store, if_neg hne]

-- A topic is kept with counts that are positive, if its dictionary was.
private theorem positive_getD {p : Publisher} (hs : Sound p.subscriptions) (topic : String)
    {clientId : Guid} {n : Int32}
    (hn : ((p.subscriptions.lookup topic).getD ∅).lookup clientId = some n) :
    0 < n.toNatClampNeg := by
  cases hl : p.subscriptions.lookup topic with
  | none =>
    rw [hl] at hn
    cases hn
  | some topicSubscriptions =>
    rw [hl] at hn
    exact hs.positive topic _ hl clientId n hn

-- A count that is set is the only one to change.
private theorem noticed_setCount {p : Publisher} (hs : Sound p.subscriptions) (topic : String)
    (clientId : Guid) (isAdd : Bool) {n : Int32} (hn : 0 < n.toNatClampNeg)
    (hc : countNotice (p.count topic clientId) isAdd = n.toNatClampNeg) :
    let p' := p.setCount topic ((p.subscriptions.lookup topic).getD ∅) clientId n
    p'.count = Tally.noticed p.count clientId topic isAdd ∧ Sound p'.subscriptions := by
  rw [setCount_eq]
  constructor
  · funext topic' clientId'
    rw [count_keep, Dictionary.lookup_insert, Tally.noticed]
    by_cases ht : topic' = topic
    · subst ht
      by_cases hi : clientId' = clientId
      · subst hi
        simp [hc]
      · simp [hi, count]
    · simp [ht]
  · rw [keep]
    dsimp only
    apply hs.store
    intro c k hk
    rw [Dictionary.lookup_insert] at hk
    split at hk
    · cases hk
      exact hn
    · exact positive_getD hs topic hk

-- A count that becomes zero is dropped.
private theorem noticed_erase {p : Publisher} (hs : Sound p.subscriptions) (topic : String)
    (clientId : Guid) (hc : countNotice (p.count topic clientId) false = 0) :
    let p' := p.keep topic (((p.subscriptions.lookup topic).getD ∅).erase clientId)
    p'.count = Tally.noticed p.count clientId topic false ∧ Sound p'.subscriptions := by
  constructor
  · funext topic' clientId'
    rw [count_keep, Dictionary.lookup_erase, Tally.noticed]
    by_cases ht : topic' = topic
    · subst ht
      by_cases hi : clientId' = clientId
      · subst hi
        simp [hc]
      · simp [hi, count]
    · simp [ht]
  · rw [keep]
    dsimp only
    apply hs.store
    intro c k hk
    rw [Dictionary.lookup_erase] at hk
    split at hk
    · cases hk
    · exact positive_getD hs topic hk

-- A removal counts down; where nothing is counted it changes nothing.
private theorem noticed_removeSubscription {p : Publisher} (hs : Sound p.subscriptions)
    (clientId : Guid) (topic : String) :
    (p.removeSubscription clientId topic).tally =
        { p.tally with count := Tally.noticed p.count clientId topic false } ∧
      Sound (p.removeSubscription clientId topic).subscriptions := by
  have hnone (hz : p.count topic clientId = 0) :
      p.count = Tally.noticed p.count clientId topic false := by
    funext topic' clientId'
    rw [Tally.noticed]
    split
    · next h =>
      obtain ⟨rfl, rfl⟩ := h
      rw [hz]
      rfl
    · rfl
  unfold removeSubscription
  cases hl : p.subscriptions.lookup topic with
  | none =>
    have hz : p.count topic clientId = 0 := by simp [count, hl]
    exact ⟨congrArg (Tally.mk · p.calls p.thrown) (hnone hz), hs⟩
  | some topicSubscriptions =>
    dsimp only
    cases hn : topicSubscriptions.lookup clientId with
    | none =>
      have hz : p.count topic clientId = 0 := by simp [count, hl, hn]
      exact ⟨congrArg (Tally.mk · p.calls p.thrown) (hnone hz), hs⟩
    | some n =>
      have hcount : p.count topic clientId = n.toNatClampNeg := by simp [count, hl, hn]
      have hpos := hs.positive topic topicSubscriptions hl clientId n hn
      have hless : countNotice (p.count topic clientId) false = (n - 1).toNatClampNeg := by
        rw [hcount, toNat_sub_one hpos]
        rfl
      dsimp only
      split
      · next hlt =>
        have hset := noticed_setCount hs topic clientId false (toNat_pos_iff.mpr hlt) hless
        rw [hl] at hset
        exact ⟨congrArg (Tally.mk · p.calls p.thrown) hset.1, hset.2⟩
      · next hle =>
        rw [← toNat_pos_iff, Nat.pos_iff_ne_zero, not_not] at hle
        have herase := noticed_erase hs topic clientId (hless.trans hle)
        rw [hl] at herase
        have hkeep : p.keep topic (topicSubscriptions.erase clientId) =
            if !Dictionary.isEmpty (topicSubscriptions.erase clientId) then
              { p with
                subscriptions := p.subscriptions.insert topic (topicSubscriptions.erase clientId) }
            else { p with subscriptions := p.subscriptions.erase topic } := by
          rw [keep, Dictionary.store]
          cases Dictionary.isEmpty (topicSubscriptions.erase clientId) <;> rfl
        rw [← hkeep]
        exact ⟨congrArg (Tally.mk · p.calls p.thrown) herase.1, herase.2⟩

-- An addition counts up; a client that was not counted is sent the image, if there is one.
private theorem noticed_addSubscription {p : Publisher} (hs : Sound p.subscriptions)
    (clientId : Guid) (feed topic : String) (hlt : p.count topic clientId + 1 < 2 ^ 31) :
    (p.addSubscription x clientId feed topic).count =
        Tally.noticed p.count clientId topic true ∧
      Sound (p.addSubscription x clientId feed topic).subscriptions ∧
      (p.addSubscription x clientId feed topic).calls =
        (if p.count topic clientId = 0 then
          p.calls ++ (Tally.image x clientId feed topic).toList else p.calls) ∧
      (p.addSubscription x clientId feed topic).thrown =
        if p.count topic clientId = 0 ∧ (x.data.lookup topic).isNone then some ⟨topic⟩
        else p.thrown := by
  unfold addSubscription
  dsimp only
  cases hn : ((p.subscriptions.lookup topic).getD ∅).lookup clientId with
  | some n =>
    have hcount : p.count topic clientId = n.toNatClampNeg := by rw [count, hn, Option.getD_some]
    have hpos := positive_getD hs topic hn
    have hmore : (n + 1).toNatClampNeg = n.toNatClampNeg + 1 := by
      refine toNat_add_one hpos ?_
      rintro rfl
      rw [hcount] at hlt
      exact absurd hlt (by decide)
    have hset := noticed_setCount hs topic clientId true (n := n + 1) (by omega)
      (by rw [hcount, hmore]; rfl)
    have hne : p.count topic clientId ≠ 0 := by omega
    refine ⟨hset.1, hset.2, ?_, ?_⟩
    · rw [if_neg hne]
      rfl
    · rw [if_neg fun h => hne h.1]
      rfl
  | none =>
    have hz : p.count topic clientId = 0 := by
      rw [count, hn, Option.getD_none]
      rfl
    have hset := noticed_setCount hs topic clientId true (n := 1) Nat.one_pos (by rw [hz]; rfl)
    rw [if_pos hz]
    cases hx : x.data.lookup topic with
    | none => exact ⟨hset.1, hset.2, by simp [Tally.image, hx, setCount], by simp [hz]⟩
    | some data =>
      refine ⟨hset.1, hset.2, by simp [Tally.image, hx, setCount, call], ?_⟩
      simp [setCount, call]

-- The step lemma: one input changes the dictionaries as it changes the counts.
private theorem tally_handle {p : Publisher} (hs : Sound p.subscriptions) (input : Input ο)
    (hlt : ∀ t c, (p.tally.handle x input).count t c < 2 ^ 31) :
    (p.handle x input).tally = p.tally.handle x input ∧
      Sound (p.handle x input).subscriptions := by
  cases input with
  | exchange ticker delta =>
    have hwanted := isSome_lookup_iff hs ticker
    rw [handle, handleExchangeData, Tally.handle]
    cases hl : p.subscriptions.lookup ticker with
    | none =>
      rw [hl] at hwanted
      rw [Option.isNone_none, if_pos rfl, if_neg fun h => absurd (hwanted.mpr h) (by simp)]
      exact ⟨rfl, hs⟩
    | some topicSubscriptions =>
      rw [hl] at hwanted
      rw [if_neg (by simp), if_pos (hwanted.mp rfl)]
      exact ⟨rfl, hs⟩
  | client event =>
    cases event with
    | forwardedSubscription user host clientId feed topic isAdd =>
      rw [handle, Tally.handle]
      cases ht : p.thrown with
      | some e => exact ⟨(if_pos (by simp [tally, ht])).symm, hs⟩
      | none =>
        have hcounts := hlt topic clientId
        rw [Tally.count_handle x ht] at hcounts
        rw [if_neg (by simp [tally, ht])]
        dsimp only
        rw [handleForwardedSubscription]
        cases isAdd with
        | false =>
          obtain ⟨htally, hsound⟩ := noticed_removeSubscription hs clientId topic
          exact ⟨htally, hsound⟩
        | true =>
          obtain ⟨hcount, hsound, hcalls, hthrown⟩ :=
            noticed_addSubscription x hs clientId feed topic (by
              simpa [Input.event, noticeOf, countNotice, tally] using hcounts)
          refine ⟨?_, hsound⟩
          rw [if_pos rfl, tally, hcount, hcalls, hthrown, ht]
          by_cases hz : p.count topic clientId = 0
          · simp [tally, hz]
          · simp [tally, hz, ht]
    | _ => exact ⟨rfl, hs⟩

private theorem tally_foldl (inputs : List (Input ο)) {p : Publisher} (hs : Sound p.subscriptions)
    (hlt : ∀ inputs', inputs' <+: inputs → ∀ t c,
      (inputs'.foldl (Tally.handle x) p.tally).count t c < 2 ^ 31) :
    (inputs.foldl (handle x) p).tally = inputs.foldl (Tally.handle x) p.tally ∧
      Sound (inputs.foldl (handle x) p).subscriptions := by
  induction inputs generalizing p with
  | nil => exact ⟨rfl, hs⟩
  | cons input inputs ih =>
    obtain ⟨htally, hsound⟩ := tally_handle x hs input (hlt [input] (List.prefix_append [input] _))
    rw [List.foldl_cons, List.foldl_cons, ← htally]
    refine ih hsound fun inputs' hprefix => ?_
    rw [htally]
    exact hlt (input :: inputs') ((List.prefix_cons_inj input).mpr hprefix)

private theorem sound_new : Sound new.subscriptions :=
  ⟨fun _ _ h => (by cases h), fun _ _ h => (by cases h)⟩

/-- Where the counts stay below their bound, the publisher is as it is meant. -/
theorem tally_run {inputs : List (Input ο)} (h : Tally.Bounded x inputs) :
    (run x inputs).tally = Tally.run x inputs :=
  (tally_foldl x inputs sound_new h).1

/-- Where the counts stay below their bound, the tickers that are wanted are kept. -/
theorem isSome_lookup_run {inputs : List (Input ο)} (h : Tally.Bounded x inputs)
    (ticker : String) : ((run x inputs).subscriptions.lookup ticker).isSome ↔
      (Tally.run x inputs).IsWanted ticker := by
  rw [← tally_run x h]
  exact isSome_lookup_iff (tally_foldl x inputs sound_new h).2 ticker

/-- Throughout any inputs the publisher, with its dictionaries inside a dictionary, does what the
counts of each client and ticker do, exactly if none of these counts reaches `2 ^ 31`: an image is
sent where a count leaves zero, a change is published exactly where some count is not zero, and so
a ticker is kept exactly as long as this is so. -/
theorem publisher_refines_iff (inputs : List (Input ο)) :
    (∀ inputs', inputs' <+: inputs → (run x inputs').tally = Tally.run x inputs' ∧
      ∀ ticker, ((run x inputs').subscriptions.lookup ticker).isSome ↔
        (Tally.run x inputs').IsWanted ticker) ↔
    Tally.Bounded x inputs := by
  constructor
  · intro h inputs' hprefix t c
    rw [← (h inputs' hprefix).1]
    exact toNat_lt _
  · intro h inputs' hprefix
    have hbounded : Tally.Bounded x inputs' := fun inputs'' h' => h inputs'' (h'.trans hprefix)
    exact ⟨tally_run x hbounded, isSome_lookup_run x hbounded⟩

end Publisher

end MessageBus.Selectfeed
