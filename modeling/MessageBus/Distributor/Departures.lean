import MessageBus.Distributor.Closing
import MessageBus.Distributor.Tasks

/-!
# Departures

An interactor whose read task has failed sends nothing more: what it has put on the event
queue ends with an error, and once this is handled the interactor is in no repository, for
good. Only where its write task has failed, and its read task has not, may messages follow
the event that closes it.
-/

namespace MessageBus.Distributor
open MessageBus.Base MessageBus.Common MessageBus.Messages

namespace Server

variable (settings : Settings)

-- The events of others are harmless.
private theorem harmless_of_other {s : Server} {c : Guid} {e : Event} (hi : e.interactor ≠ c) :
    Harmless settings s c e := by
  have hother : ∀ m, e ≠ .message c m := by
    rintro m rfl
    exact hi rfl
  exact ⟨fun _ _ he => absurd he (hother _), fun _ => hother _, fun _ he => absurd he (hother _),
    fun _ he => absurd he (hother _)⟩

end Server

namespace System

variable {settings : Settings} {h : History System Action} {s s' : System} {a : Action} {c : Guid}

/-- `Message.Read` has thrown in the read task of the interactor. -/
def ReadFailed (c : Guid) (h : History System Action) : Prop :=
  ∃ x ∈ h, ∃ error, x.2 = .readError c error

/-- `Message.Write` has thrown in the write task of the interactor. -/
def WriteFailed (c : Guid) (h : History System Action) : Prop :=
  ∃ x ∈ h, ∃ error, x.2 = .writeError c error

/-! ### Why a task ends -/

-- A step by which a task ends where none had is one at which it fails.
private theorem fails_of_taskStep {o o' : Interactor} {isReported : Prop} {a : Action}
    (hs : o.Sound isReported) (ht : a.task = some c) (ho : o.taskStep a = some o')
    (hn : ¬ o.HasEnded) (he : o'.HasEnded) :
    ∃ error, a = .readError c error ∨ a = .writeError c error := by
  have hlive : o.tokenSource = .live := by
    by_contra hk
    rcases hs.cancelled hk with hc | hc
    · exact hn (.inl (.inr hc))
    · exact hn (.inr (.inr hc))
  cases a with
  | readError i error =>
    cases ht
    exact ⟨error, .inl rfl⟩
  | writeError i error =>
    cases ht
    exact ⟨error, .inr rfl⟩
  | checkWrite i =>
    obtain ⟨hw, ho⟩ := Option.ite_none_right_eq_some.mp ho
    rw [hlive] at ho
    cases hq : o.writeQueue with
    | nil =>
      rw [hq] at ho
      cases ho
    | cons m ms =>
      rw [hq] at ho
      cases ho
      simp_all [Interactor.HasEnded]
  | accept i => cases ht
  | heartbeat => cases ht
  | process => cases ht
  | _ =>
    obtain ⟨ht', ⟨⟩⟩ := Option.ite_none_right_eq_some.mp ho
    simp_all [Interactor.HasEnded]

/-- The tasks of an interactor end where one of them has failed. -/
theorem Runs.failed_of_ended (hr : Runs settings h s) (he : (s.server.objects c).HasEnded) :
    ReadFailed c h ∨ WriteFailed c h := by
  induction hr with
  | start => simp [Interactor.HasEnded, init] at he
  | next hr ha ih =>
    next h s s' a =>
    have hcons : ReadFailed c h ∨ WriteFailed c h →
        ReadFailed c ((s, a) :: h) ∨ WriteFailed c ((s, a) :: h) := by
      rintro (⟨x, hx, hf⟩ | ⟨x, hx, hf⟩)
      · exact .inl ⟨x, List.mem_cons_of_mem _ hx, hf⟩
      · exact .inr ⟨x, List.mem_cons_of_mem _ hx, hf⟩
    by_cases hended : (s.server.objects c).HasEnded
    · exact hcons (ih hended)
    have hl := Runs.lifecycle settings hr
    rcases object_step settings ha hl c with
      ⟨ht, ho⟩ | ⟨e, hh, hd, -, -⟩ | ⟨-, ho⟩ | ⟨-, -, ho⟩
    · obtain ⟨error, hf | hf⟩ := fails_of_taskStep (Runs.sound settings hr c) ht ho hended he
      · exact .inl ⟨_, List.mem_cons_self .., error, hf⟩
      · exact .inr ⟨_, List.mem_cons_self .., error, hf⟩
    · exact absurd ((Runs.sound settings hr c).reports ⟨e, mem_of_handled hh, hd⟩) hended
    · simp [Interactor.HasEnded, ho.readTask, ho.writeTask] at he
    · rw [Interactor.HasEnded, ho.readTask, ho.writeTask] at he
      exact absurd he hended

/-! ### The last events of an interactor -/

/-- The events of an interactor that are on the event queue. -/
def waiting (c : Guid) (s : System) : List Event := s.eventQueue.filter fun e => e.interactor == c

/-- The read task has ended, and either the events that wait end with one that closes the
interactor, or none waits and the interactor is gone. -/
structure Departing (c : Guid) (s : System) : Prop where
  ended : (s.server.objects c).readTask = .ending ∨ (s.server.objects c).readTask = .completed
  last : (∃ es e, waiting c s = es ++ [e] ∧ e.disposes = some c) ∨
    waiting c s = [] ∧ s.server.Absent c

private theorem waiting_step (ha : step settings s a = some s') (c : Guid) :
    waiting c s ++ (a.posts settings).filter (fun e => e.interactor == c) =
      (s.handled a).toList.filter (fun e => e.interactor == c) ++ waiting c s' := by
  rw [waiting, waiting, ← List.filter_append, ← List.filter_append, eventQueue_step settings ha]

-- What an interactor posts once its read task has ended closes it.
private theorem disposes_of_posts (hl : Lifecycle settings s) (ha : step settings s a = some s')
    (hended : (s.server.objects c).readTask = .ending ∨
      (s.server.objects c).readTask = .completed) {e : Event} (he : e ∈ a.posts settings)
    (hc : e.interactor = c) : e.disposes = some c := by
  have hstarted : (s.server.objects c).readTask ≠ .unstarted := by
    rcases hended with h | h <;> rw [h] <;> decide
  have hreading : (s.server.objects c).readTask ≠ .reading := by
    rcases hended with h | h <;> rw [h] <;> decide
  have haccepted := hl.accepted c hstarted
  cases a with
  | accept i =>
    obtain rfl := List.mem_singleton.mp he
    obtain ⟨hn, -⟩ := Option.ite_none_left_eq_some.mp ha
    obtain rfl : i = c := hc
    exact absurd (.inr haccepted) hn
  | receive i m =>
    obtain rfl := List.mem_singleton.mp he
    obtain ⟨hr, -⟩ := Option.ite_none_right_eq_some.mp ha
    obtain rfl : i = c := hc
    exact absurd hr hreading
  | readError i error =>
    obtain rfl := List.mem_singleton.mp he
    exact congrArg some hc
  | writeError i error =>
    obtain rfl := List.mem_singleton.mp he
    exact congrArg some hc
  | heartbeat =>
    obtain rfl := List.mem_singleton.mp he
    obtain rfl : settings.heartbeat = c := hc
    exact absurd haccepted hl.heartbeat
  | _ => cases he

-- The read task of an interactor stays as it has ended.
private theorem ended_step (hl : Lifecycle settings s) (ha : step settings s a = some s')
    (hended : (s.server.objects c).readTask = .ending ∨
      (s.server.objects c).readTask = .completed) :
    (s'.server.objects c).readTask = .ending ∨ (s'.server.objects c).readTask = .completed := by
  rcases object_step settings ha hl c with ⟨ht, ho⟩ | ⟨e, -, -, -, ho⟩ | ⟨hh, -⟩ | ⟨-, -, ho⟩
  · cases a with
    | accept i => cases ht
    | heartbeat => cases ht
    | process => cases ht
    | checkWrite i =>
      obtain ⟨-, ho⟩ := Option.ite_none_right_eq_some.mp ho
      split at ho
      · cases ho
      · rw [← Option.some.inj ho]
        exact hended
      · rw [← Option.some.inj ho]
        exact hended
    | _ =>
      obtain ⟨ht', ho⟩ := Option.ite_none_right_eq_some.mp ho
      rw [← Option.some.inj ho]
      simp_all
  · exact .inr ho.readTask
  · have hread := (hl.connecting c (mem_of_handled hh)).2
    rw [hread] at hended
    rcases hended with h | h <;> cases h
  · rw [ho.readTask]
    exact hended

private theorem departing_step (hl : Lifecycle settings s) (ha : step settings s a = some s')
    (hd : Departing c s) : Departing c s' := by
  refine ⟨ended_step hl ha hd.ended, ?_⟩
  have hwaiting := waiting_step ha c
  rcases step_handled settings ha with ⟨hn, hq⟩ | ⟨e, he, -, hs⟩
  · rw [hn, Option.toList_none, List.filter_nil, List.nil_append] at hwaiting
    have hposts : ∀ e ∈ (a.posts settings).filter (fun e => e.interactor == c),
        e.disposes = some c := by
      intro e he
      obtain ⟨he, hc⟩ := List.mem_filter.mp he
      exact disposes_of_posts hl ha hd.ended he (beq_iff_eq.mp hc)
    rw [← hwaiting]
    rcases List.eq_nil_or_concat ((a.posts settings).filter fun e => e.interactor == c) with
      hp | ⟨es, e, hp⟩
    · rw [hp, List.append_nil]
      exact hd.last.imp_right fun ⟨hw, habsent⟩ => ⟨hw, absent_of_quiet hq habsent⟩
    · rw [List.concat_eq_append] at hp
      refine .inl ⟨waiting c s ++ es, e, by rw [hp, List.append_assoc], hposts e ?_⟩
      rw [hp]
      exact List.mem_append_right _ (List.mem_singleton_self e)
  · have hposts : a.posts settings = [] := by
      cases a with
      | process => rfl
      | _ => cases he
    rw [he, hposts, List.filter_nil, List.append_nil, Option.toList_some] at hwaiting
    by_cases hc : e.interactor = c
    · have hown : [e].filter (fun e => e.interactor == c) = [e] :=
        List.filter_cons_of_pos (beq_iff_eq.mpr hc)
      rw [hown, List.singleton_append] at hwaiting
      rcases hd.last with ⟨es, last, hlast, hdisposes⟩ | ⟨hnone, -⟩
      · rw [hlast] at hwaiting
        cases es with
        | nil =>
          obtain ⟨rfl, hnone⟩ := List.cons.inj hwaiting
          refine .inr ⟨hnone.symm, ?_⟩
          rw [hs]
          exact Server.absent_of_disposes settings s.server hdisposes
        | cons x es =>
          obtain ⟨-, hrest⟩ := List.cons.inj hwaiting
          exact .inl ⟨es, last, hrest.symm, hdisposes⟩
      · rw [hnone] at hwaiting
        cases hwaiting
    · have hother : [e].filter (fun e => e.interactor == c) = [] :=
        List.filter_cons_of_neg fun h => hc (beq_iff_eq.mp h)
      rw [hother, List.nil_append] at hwaiting
      rw [← hwaiting]
      refine hd.last.imp_right fun ⟨hw, habsent⟩ => ⟨hw, ?_⟩
      rw [hs]
      refine (Server.absent_iff_harmless settings habsent ?_ ?_).mpr
        (Server.harmless_of_other settings hc)
      · rintro rfl
        exact hc rfl
      · intro hdisposes
        cases e with
        | error i x => exact hc (Option.some.inj hdisposes)
        | closed i => exact hc (Option.some.inj hdisposes)
        | _ => cases hdisposes

/-- In every run, an interactor whose read task has failed is on its way out, or gone. -/
theorem Runs.departing (hr : Runs settings h s) (hf : ReadFailed c h) : Departing c s := by
  induction hr with
  | start =>
    obtain ⟨x, hx, -⟩ := hf
    cases hx
  | next hr ha ih =>
    next h s s' a =>
    have hl := Runs.lifecycle settings hr
    obtain ⟨x, hx, error, hx'⟩ := hf
    rcases List.mem_cons.mp hx with rfl | hx
    · obtain rfl : a = .readError c error := hx'
      have hwaiting := waiting_step ha c
      have hposted : ((Action.readError c error).posts settings).filter
          (fun e => e.interactor == c) = [.error c error] :=
        List.filter_cons_of_pos (beq_self_eq_true c)
      rw [hposted] at hwaiting
      refine ⟨?_, .inl ⟨waiting c s, .error c error, hwaiting.symm, rfl⟩⟩
      rcases object_step settings ha hl c with ⟨-, ho⟩ | ⟨e, he, -⟩ | ⟨he, -⟩ | ⟨hn, -⟩
      · obtain ⟨-, ho⟩ := Option.ite_none_right_eq_some.mp ho
        rw [← Option.some.inj ho]
        exact .inl rfl
      · cases he
      · cases he
      · exact absurd rfl hn
    · exact departing_step hl ha (ih ⟨x, hx, error, hx'⟩)

/-- Once the read task of an interactor has failed and its events are handled, it is in no
repository. -/
theorem Runs.absent_of_readFailed (hr : Runs settings h s) (hf : ReadFailed c h)
    (hq : waiting c s = []) : s.server.Absent c := by
  rcases (Runs.departing hr hf).last with ⟨es, e, hlast, -⟩ | ⟨-, habsent⟩
  · rw [hq] at hlast
    exact absurd hlast (by simp)
  · exact habsent

end System

end MessageBus.Distributor
