import MessageBus.Distributor.Tasks

/-!
# Failing interactors

A task that leaves its loop cancels the other by way of the token, and an error on the event
queue has the event loop close the interactor: each task reports at most one. The event loop
calls `Interactor.Dispose`, which waits for both tasks. Where the write task has failed the
read task may be in `Message.Read`, where no cancellation reaches it: until that client
sends something or its connection fails, no event of any client is handled.
-/

namespace MessageBus.Distributor
open MessageBus.Base MessageBus.Common MessageBus.Messages

/-! ### Failures are reported -/

/-- The error of the read task of an interactor that an action reports. -/
def Action.readErrorOf (c : Guid) : Action → Option Exception
  | .readError i error => if i = c then some error else none
  | _ => none

/-- The error of the write task of an interactor that an action reports. -/
def Action.writeErrorOf (c : Guid) : Action → Option Exception
  | .writeError i error => if i = c then some error else none
  | _ => none

namespace Interactor

/-- Whether the read task has left its loop, as a number. -/
def endedRead (o : Interactor) : Nat :=
  if o.readTask = .ending ∨ o.readTask = .completed then 1 else 0

/-- Whether the write task has left its loop, as a number. -/
def endedWrite (o : Interactor) : Nat :=
  if o.writeTask = .ending ∨ o.writeTask = .completed then 1 else 0

private theorem ended_le (o : Interactor) : o.endedRead ≤ 1 ∧ o.endedWrite ≤ 1 := by
  unfold endedRead endedWrite
  split <;> split <;> decide

-- A task that reports an error has left its loop then, and not before.
private theorem ended_taskStep {o o' : Interactor} {a : Action} {i : Guid}
    (h : o.taskStep a = some o') (ha : a.task = some i) :
    o.endedRead + (a.readErrorOf i).toList.length ≤ o'.endedRead ∧
      o.endedWrite + (a.writeErrorOf i).toList.length ≤ o'.endedWrite := by
  cases a with
  | accept j => cases h
  | heartbeat => cases h
  | process => cases h
  | checkWrite j =>
    obtain ⟨ht, h⟩ := Option.ite_none_right_eq_some.mp h
    split at h
    · cases h
    · cases h
      simp [endedRead, endedWrite, ht, Action.readErrorOf, Action.writeErrorOf]
    · cases h
      simp [endedRead, endedWrite, ht, Action.readErrorOf, Action.writeErrorOf]
  | _ =>
    obtain ⟨ht, ⟨⟩⟩ := Option.ite_none_right_eq_some.mp h
    obtain rfl := Option.some.inj ha
    simp [endedRead, endedWrite, ht, Action.readErrorOf, Action.writeErrorOf]

end Interactor

namespace System

variable {settings : Settings}

/-- The events put on the event queue that close an interactor. -/
def closings (settings : Settings) (c : Guid) (h : History System Action) : List Event :=
  (posted settings h).filter fun e => e.disposes = some c

/-- The errors that the read task of an interactor has reported. -/
def readErrors (c : Guid) : History System Action → List Exception
  | [] => []
  | (_, a) :: h => readErrors c h ++ (a.readErrorOf c).toList

/-- The errors that the write task of an interactor has reported. -/
def writeErrors (c : Guid) : History System Action → List Exception
  | [] => []
  | (_, a) :: h => writeErrors c h ++ (a.writeErrorOf c).toList

-- What closes an interactor are the errors that its tasks have reported.
private theorem length_closings (c : Guid) (h : History System Action) :
    (closings settings c h).length = (readErrors c h).length + (writeErrors c h).length := by
  induction h with
  | nil => rfl
  | cons x h ih =>
    obtain ⟨s, a⟩ := x
    have hposts : ((a.posts settings).filter fun e => e.disposes = some c).length =
        (a.readErrorOf c).toList.length + (a.writeErrorOf c).toList.length := by
      cases a with
      | readError i error =>
        by_cases hi : i = c <;>
          simp [Action.posts, Event.disposes, Action.readErrorOf, Action.writeErrorOf, hi]
      | writeError i error =>
        by_cases hi : i = c <;>
          simp [Action.posts, Event.disposes, Action.readErrorOf, Action.writeErrorOf, hi]
      | _ => simp [Action.posts, Event.disposes, Action.readErrorOf, Action.writeErrorOf]
    rw [closings] at ih
    rw [closings, posted, List.filter_append, List.length_append, ih, hposts, readErrors,
      writeErrors, List.length_append, List.length_append]
    omega

-- Each task reports at most one error, and has left its loop if it did.
private theorem errors_le {h : History System Action} {s : System} (hr : Runs settings h s)
    (c : Guid) : (readErrors c h).length ≤ (s.server.objects c).endedRead ∧
      (writeErrors c h).length ≤ (s.server.objects c).endedWrite := by
  induction hr with
  | start => exact ⟨Nat.zero_le _, Nat.zero_le _⟩
  | next hr ha ih =>
    next h s s' a =>
    have hl := Runs.lifecycle settings hr
    -- What another interactor does, or the event loop, reports no error of this one.
    have hquiet (ht : a.task ≠ some c) :
        readErrors c ((s, a) :: h) = readErrors c h ∧
          writeErrors c ((s, a) :: h) = writeErrors c h := by
      have hnone : a.readErrorOf c = none ∧ a.writeErrorOf c = none := by
        cases a with
        | readError i error =>
          have hi : i ≠ c := fun hi => ht (hi ▸ rfl)
          simp [Action.readErrorOf, Action.writeErrorOf, hi]
        | writeError i error =>
          have hi : i ≠ c := fun hi => ht (hi ▸ rfl)
          simp [Action.readErrorOf, Action.writeErrorOf, hi]
        | _ => exact ⟨rfl, rfl⟩
      rw [readErrors, writeErrors, hnone.1, hnone.2]
      exact ⟨List.append_nil _, List.append_nil _⟩
    have hprocess {e : Event} (hh : s.handled a = some e) : a.task ≠ some c := by
      cases a with
      | process => simp [Action.task]
      | _ => cases hh
    rcases object_step settings ha hl c with
      ⟨ht, ho⟩ | ⟨e, hh, -, -, ho⟩ | ⟨hh, ho⟩ | ⟨ht, -, ho⟩
    · obtain ⟨hread, hwrite⟩ := Interactor.ended_taskStep ho ht
      rw [readErrors, writeErrors, List.length_append, List.length_append]
      exact ⟨(Nat.add_le_add_right ih.1 _).trans hread, (Nat.add_le_add_right ih.2 _).trans hwrite⟩
    · obtain ⟨hread, hwrite⟩ := hquiet (hprocess hh)
      obtain ⟨hr1, hw1⟩ := (s.server.objects c).ended_le
      rw [hread, hwrite]
      refine ⟨(ih.1.trans hr1).trans ?_, (ih.2.trans hw1).trans ?_⟩
      · simp [Interactor.endedRead, ho.readTask, Interactor.dispose]
      · simp [Interactor.endedWrite, ho.writeTask, Interactor.dispose]
    · have hq : .connected c ∈ s.eventQueue := by
        cases a with
        | process => exact List.mem_of_head? hh
        | _ => cases hh
      have hunread := (hl.connecting c hq).2
      obtain ⟨hread, hwrite⟩ := hquiet (hprocess hh)
      rw [hread, hwrite]
      refine ⟨ih.1.trans ?_, ih.2.trans ?_⟩
      · simp [Interactor.endedRead, hunread]
      · simp [Interactor.endedWrite, (hl.unstarted c).mp hunread]
    · obtain ⟨hread, hwrite⟩ := hquiet ht
      rw [hread, hwrite]
      refine ⟨ih.1.trans (Nat.le_of_eq ?_), ih.2.trans (Nat.le_of_eq ?_)⟩
      · rw [Interactor.endedRead, Interactor.endedRead, ho.readTask]
      · rw [Interactor.endedWrite, Interactor.endedWrite, ho.writeTask]

/-- In every run, an interactor has lost a task exactly if it is closed or is about to be,
its token is live exactly as long as both tasks go on, and each of its tasks reports at most one
error, so that at most two events close it. -/
theorem failures_reported {h : History System Action} {s : System} (hr : Runs settings h s)
    (c : Guid) :
    ((s.server.objects c).HasEnded ↔
      (s.server.objects c).tokenSource = .disposed ∨ s.IsReported c) ∧
    ((s.server.objects c).tokenSource = .live ↔
      (s.server.objects c).readTask ≠ .completed ∧ (s.server.objects c).writeTask ≠ .completed) ∧
    (readErrors c h).length ≤ 1 ∧ (writeErrors c h).length ≤ 1 ∧
    (closings settings c h).length = (readErrors c h).length + (writeErrors c h).length := by
  have hs := Runs.sound settings hr c
  obtain ⟨hread, hwrite⟩ := errors_le hr c
  obtain ⟨hread1, hwrite1⟩ := (s.server.objects c).ended_le
  refine ⟨⟨hs.reported, ?_⟩, ⟨hs.live, ?_⟩, hread.trans hread1, hwrite.trans hwrite1,
    length_closings c h⟩
  · rintro (hd | hrep)
    · exact .inl (.inr (hs.disposed hd).1)
    · exact hs.reports hrep
  · rintro ⟨hread, hwrite⟩
    by_contra hn
    rcases hs.cancelled hn with h | h
    · exact hread h
    · exact hwrite h

/-- Both tasks of an interactor fail, and its first report closes it. -/
theorem failures_reported_of_both :
    ∃ h s, Runs (.permissive false) h s ∧
      closings (.permissive false) ⟨1⟩ h =
        [.error ⟨1⟩ (.io true), .error ⟨1⟩ .endOfStream] ∧
      ((s.server.objects ⟨1⟩).HasEnded ↔
        (s.server.objects ⟨1⟩).tokenSource = .disposed ∨ s.IsReported ⟨1⟩) ∧
      ((s.server.objects ⟨1⟩).tokenSource = .live ↔ (s.server.objects ⟨1⟩).readTask ≠ .completed ∧
        (s.server.objects ⟨1⟩).writeTask ≠ .completed) ∧
      (readErrors ⟨1⟩ h).length ≤ 1 ∧ (writeErrors ⟨1⟩ h).length ≤ 1 ∧
      (closings (.permissive false) ⟨1⟩ h).length =
        (readErrors ⟨1⟩ h).length + (writeErrors ⟨1⟩ h).length := by
  obtain ⟨h, s, hr, hobs⟩ := exists_run_of_exec (step (.permissive false)) init
    [.accept ⟨1⟩, .process, .checkRead ⟨1⟩,
      .receive ⟨1⟩ (.subscriptionRequest ⟨"F", "T", true⟩), .process, .checkRead ⟨1⟩,
      .receive ⟨1⟩ (.multicastData ⟨"F", "T", "text", none⟩), .process, .checkRead ⟨1⟩,
      .checkWrite ⟨1⟩, .writeError ⟨1⟩ (.io true), .readError ⟨1⟩ .endOfStream, .endRead ⟨1⟩,
      .endWrite ⟨1⟩, .process]
    (fun x => closings (.permissive false) ⟨1⟩ x.1)
    [.error ⟨1⟩ (.io true), .error ⟨1⟩ .endOfStream] (by decide)
  exact ⟨h, s, hr, hobs, failures_reported hr ⟨1⟩⟩

end System

/-! ### A stalled event loop -/

/-- The read task of an interactor returns from `Message.Read`. -/
def Action.hears (i : Guid) : Action → Bool
  | .receive j _ => j == i
  | .readError j _ => j == i
  | _ => false

namespace System

private theorem TaskStep.trans {i j k : Interactor} (h : TaskStep i j)
    (h' : TaskStep j k) : TaskStep i k where
  authorizations := h'.authorizations.trans h.authorizations
  queued := h'.queued.trans h.queued
  live hl := h.live (h'.live hl)
  unread := h'.unread.trans h.unread
  unwritten := h'.unwritten.trans h.unwritten
  fresh hr hw := (h'.fresh (h.unread.mpr hr) (h.unwritten.mpr hw)).trans (h.fresh hr hw)

private theorem Quiet.trans {s t u : Server} (h : Quiet s t) (h' : Quiet t u) :
    Quiet s u where
  interactors := h'.interactors.trans h.interactors
  notifications := h'.notifications.trans h.notifications
  publishers := h'.publishers.trans h.publishers
  subscriptions := h'.subscriptions.trans h.subscriptions
  object i := (h.object i).trans (h'.object i)

variable {settings : Settings}

/-- The next event disposes an interactor whose read task is in `Message.Read`. -/
structure Stalled (s : System) (i : Guid) : Prop where
  next : s.eventQueue.head?.bind Event.disposes = some i
  reading : (s.server.objects i).readTask = .reading

private theorem reading_of_taskStep {o o' : Interactor} {a : Action} {i : Guid}
    (h : o.taskStep a = some o') (ha : a.task = some i) (hr : o.readTask = .reading)
    (hn : a.hears i = false) : o'.readTask = .reading := by
  cases a with
  | checkWrite j =>
    obtain ⟨-, h⟩ := Option.ite_none_right_eq_some.mp h
    split at h
    · cases h
    · cases h
      exact hr
    · cases h
      exact hr
  | receive j m =>
    rw [← Option.some.inj ha] at hn
    simp [Action.hears] at hn
  | readError j e =>
    rw [← Option.some.inj ha] at hn
    simp [Action.hears] at hn
  | accept j => cases ha
  | heartbeat => cases ha
  | process => cases ha
  | _ =>
    obtain ⟨ht, ⟨⟩⟩ := Option.ite_none_right_eq_some.mp h
    first
    | exact hr
    | cases hr.symm.trans ht

-- A step in which the client is not heard leaves the loop stalled, and handles nothing.
private theorem stalled_step {s s' : System} {a : Action} {i : Guid}
    (h : step settings s a = some s') (hs : s.Stalled i) (hn : a.hears i = false) :
    s.handled a = none ∧ Quiet s.server s'.server ∧ s'.Stalled i := by
  obtain ⟨e, he, hd⟩ := Option.bind_eq_some_iff.mp hs.next
  rcases step_cases settings h with ⟨e', es, -, hq, -, hc, -⟩ | ⟨hne, ht⟩
  · have hee : e = e' := by
      rw [hq, List.head?_cons] at he
      exact (Option.some.inj he).symm
    rcases (hc i (hee ▸ hd)).1 with hx | hx
    · cases hs.reading.symm.trans hx
    · cases hs.reading.symm.trans hx
  · have hhandled : s.handled a = none := by
      cases a with
      | process => exact absurd rfl hne
      | _ => rfl
    have hqueue := eventQueue_step settings h
    rw [hhandled, Option.toList_none, List.nil_append] at hqueue
    refine ⟨hhandled, ht.quiet, ?_, ?_⟩
    · rw [← hqueue, List.head?_append, he]
      exact hd
    · cases hat : a.task with
      | some j =>
        rw [step_task settings s hat] at h
        obtain ⟨o, ho, rfl⟩ := Option.map_eq_some_iff.mp h
        rw [objects_afterTask]
        by_cases hj : i = j
        · subst hj
          rw [Function.update_self]
          exact reading_of_taskStep ho hat hs.reading hn
        · rw [Function.update_of_ne hj]
          exact hs.reading
      | none =>
        cases a with
        | accept j =>
          obtain ⟨-, ⟨⟩⟩ := Option.ite_none_left_eq_some.mp h
          exact hs.reading
        | heartbeat =>
          cases h
          exact hs.reading
        | process => exact absurd rfl hne
        | _ => cases hat

/-- While an interactor is waited for and its client is not heard, no event is handled,
nothing is sent to any client, and no repository changes. -/
theorem stalled_of_silence {s s' : System} {i : Guid} {h : History System Action}
    (hs : s.Stalled i) (hr : Run (step settings) s h s')
    (hn : ∀ x ∈ h, Action.hears i x.2 = false) :
    handledEvents h = [] ∧ Quiet s.server s'.server ∧ s'.Stalled i := by
  induction hr with
  | start => exact ⟨rfl, .refl _, hs⟩
  | next hr ha ih =>
    obtain ⟨hh, hq, hst⟩ := ih fun x hx => hn x (List.mem_cons_of_mem _ hx)
    obtain ⟨hh', hq', hst'⟩ := stalled_step ha hst (hn _ (List.mem_cons_self ..))
    exact ⟨by rw [handledEvents, hh, hh']; rfl, hq.trans hq', hst'⟩

/-- A client whose connection takes no more bytes, and that says nothing, holds up the request
of another. -/
theorem stalled_of_silence_of_writeError :
    ∃ h s h' s', Runs (.permissive false) h s ∧ Run (step (.permissive false)) s h' s' ∧
      .message ⟨2⟩ (.subscriptionRequest ⟨"F", "T", true⟩) ∈ s'.eventQueue ∧
      handledEvents h' = [] ∧ Quiet s.server s'.server ∧ s'.Stalled ⟨1⟩ := by
  obtain ⟨h, s, hr, hobs⟩ := exists_run_of_exec (step (.permissive false)) init
    [.accept ⟨1⟩, .accept ⟨2⟩, .process, .process, .checkRead ⟨1⟩,
      .receive ⟨1⟩ (.subscriptionRequest ⟨"F", "T", true⟩), .process, .checkRead ⟨1⟩,
      .checkRead ⟨2⟩, .receive ⟨2⟩ (.multicastData ⟨"F", "T", "text", none⟩), .process,
      .checkWrite ⟨1⟩, .writeError ⟨1⟩ (.io true), .endWrite ⟨1⟩]
    (fun x => (x.2.eventQueue.head?.bind Event.disposes,
      decide ((x.2.server.objects ⟨1⟩).readTask = .reading),
      (exec (step (.permissive false)) [] x.2
        [.checkRead ⟨2⟩, .receive ⟨2⟩ (.subscriptionRequest ⟨"F", "T", true⟩), .heartbeat]).map
          fun y : History System Action × System =>
            (decide (∀ x ∈ y.1, Action.hears ⟨1⟩ x.2 = false),
              decide (.message ⟨2⟩ (.subscriptionRequest ⟨"F", "T", true⟩) ∈ y.2.eventQueue))))
    (some ⟨1⟩, true, some (true, true)) (by decide)
  simp only [Prod.mk.injEq, decide_eq_true_eq] at hobs
  obtain ⟨hnext, hreading, hex⟩ := hobs
  obtain ⟨⟨h', s'⟩, he, hobs⟩ := Option.map_eq_some_iff.mp hex
  simp only [Prod.mk.injEq, decide_eq_true_eq] at hobs
  have hr' : Run (step (.permissive false)) s h' s' := .of_exec _ .start he
  exact ⟨h, s, h', s', hr, hr', hobs.2, stalled_of_silence ⟨hnext, hreading⟩ hr' hobs.1⟩

end System

end MessageBus.Distributor
