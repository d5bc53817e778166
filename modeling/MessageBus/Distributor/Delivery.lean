import MessageBus.Distributor.Server

/-!
# Delivery

A list of sends, delivered, appends to each write queue what is addressed to it and
leaves everything else of every interactor as it was.
-/

namespace MessageBus.Distributor
open MessageBus.Base MessageBus.Common MessageBus.Messages

/-- The messages of a list of sends that go to one interactor. -/
def addressed (c : Guid) (sends : List (Guid × Message)) : List Message :=
  (sends.filter fun send => send.1 == c).map Prod.snd

@[simp] private theorem addressed_nil (c : Guid) : addressed c [] = [] := rfl

/-- What two lists address to an interactor is addressed in their order. -/
@[simp] theorem addressed_append (c : Guid) (xs ys : List (Guid × Message)) :
    addressed c (xs ++ ys) = addressed c xs ++ addressed c ys := by
  simp [addressed]

/-- What lists address to an interactor is addressed in their order. -/
theorem addressed_flatMap {α : Type} (c : Guid) (xs : List α) (f : α → List (Guid × Message)) :
    addressed c (xs.flatMap f) = xs.flatMap fun x => addressed c (f x) := by
  induction xs with
  | nil => rfl
  | cons x xs ih => rw [List.flatMap_cons, List.flatMap_cons, addressed_append, ih]

/-- A message that is addressed to an interactor is one of the sends. -/
theorem mem_addressed {c : Guid} {sends : List (Guid × Message)} {m : Message} :
    m ∈ addressed c sends ↔ (c, m) ∈ sends := by
  simp [addressed]

/-- The messages sent to one interactor, the same message to each of a list. -/
theorem addressed_map_const (c : Guid) (ids : List Guid) (hn : ids.Nodup) (m : Message) :
    addressed c (ids.map fun id => (id, m)) = if c ∈ ids then [m] else [] := by
  induction ids with
  | nil => rfl
  | cons id ids ih =>
    obtain ⟨hid, hn⟩ := List.nodup_cons.mp hn
    have ih := ih hn
    simp only [addressed, List.map_cons, List.filter_cons] at ih ⊢
    by_cases hc : id = c
    · subst hc
      simpa [hid] using ih
    · have hc' : c ≠ id := Ne.symm hc
      simpa [hc, hc'] using ih

namespace Interactors

/-- Nothing to deliver changes nothing. -/
@[simp] theorem deliver_nil (objects : Interactors) : objects.deliver [] = objects := rfl

/-- Messages are delivered one by one. -/
@[simp] theorem deliver_cons (objects : Interactors) (send : Guid × Message)
    (sends : List (Guid × Message)) :
    objects.deliver (send :: sends) = (objects.trySend send.1 send.2).deliver sends := rfl

/-- Messages are delivered in their order. -/
theorem deliver_append (objects : Interactors) (xs ys : List (Guid × Message)) :
    objects.deliver (xs ++ ys) = (objects.deliver xs).deliver ys := List.foldl_append

private theorem trySend_apply (objects : Interactors) (id c : Guid) (m : Message) :
    objects.trySend id m c = if c = id then (objects c).trySendMessage m else objects c := rfl

/-- Delivery appends to the write queues of live interactors, and changes nothing else. -/
theorem deliver_apply (objects : Interactors) (sends : List (Guid × Message)) (c : Guid) :
    objects.deliver sends c = if (objects c).tokenSource = .live then
      { objects c with writeQueue := (objects c).writeQueue ++ addressed c sends }
      else objects c := by
  induction sends generalizing objects with
  | nil => simp
  | cons send sends ih =>
    have htoken : (objects.trySend send.1 send.2 c).tokenSource = (objects c).tokenSource := by
      rw [trySend_apply]
      split
      · exact Interactor.tokenSource_trySendMessage _ _
      · rfl
    rw [deliver_cons, ih, htoken]
    by_cases hl : (objects c).tokenSource = .live
    · rw [if_pos hl, if_pos hl, trySend_apply]
      by_cases hc : c = send.1
      · rw [if_pos hc, Interactor.trySendMessage_eq, if_pos hl]
        simp [addressed, hc]
      · have hc' : send.1 ≠ c := Ne.symm hc
        rw [if_neg hc]
        simp [addressed, hc']
    · rw [if_neg hl, if_neg hl, trySend_apply]
      split
      · rw [Interactor.trySendMessage_eq, if_neg hl]
      · rfl

@[simp] private theorem authorizations_deliver (objects : Interactors)
    (sends : List (Guid × Message))
    (c : Guid) : (objects.deliver sends c).authorizations = (objects c).authorizations := by
  rw [deliver_apply]
  split <;> rfl

/-- A delivery leaves the tokens alone. -/
@[simp] theorem tokenSource_deliver (objects : Interactors) (sends : List (Guid × Message))
    (c : Guid) : (objects.deliver sends c).tokenSource = (objects c).tokenSource := by
  rw [deliver_apply]
  split <;> rfl

@[simp] private theorem readTask_deliver (objects : Interactors) (sends : List (Guid × Message))
    (c : Guid) : (objects.deliver sends c).readTask = (objects c).readTask := by
  rw [deliver_apply]
  split <;> rfl

@[simp] private theorem writeTask_deliver (objects : Interactors) (sends : List (Guid × Message))
    (c : Guid) : (objects.deliver sends c).writeTask = (objects c).writeTask := by
  rw [deliver_apply]
  split <;> rfl

/-- What delivery adds to the messages queued to one interactor. -/
theorem queued_deliver (objects : Interactors) (sends : List (Guid × Message)) (c : Guid) :
    (objects.deliver sends c).queued = (objects c).queued ++
      if (objects c).tokenSource = .live then addressed c sends else [] := by
  rw [deliver_apply]
  split
  · simp [Interactor.queued]
  · simp

end Interactors

namespace Server

/-- Nothing to deliver changes nothing at the server. -/
@[simp] theorem deliver_nil (s : Server) : s.deliver [] = s := rfl

/-- Messages are delivered in their order at the server. -/
theorem deliver_append (s : Server) (xs ys : List (Guid × Message)) :
    s.deliver (xs ++ ys) = (s.deliver xs).deliver ys := by
  simp only [deliver, Interactors.deliver_append]

end Server

end MessageBus.Distributor
