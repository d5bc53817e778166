import MessageBus.Distributor.FailedSends
import MessageBus.Distributor.Tasks

/-!
# The event loop and the thread pool

`EventQueue.cs:41–69`, with the handlers that are not over at once. `Interactor.Start` starts
one task after the other, `Interactor.cs:171–175`. `Interactor.Dispose` cancels the token and
waits for both tasks, `Interactor.cs:293–306`. A task is made with the token of its interactor:
if that is cancelled before a worker of the thread pool takes the task, it never runs. To start
a canceled task throws, and so does to be waiting for one; a task that is in `Message.Read` or
`Message.Write` is waited for until its client lets it go on.

The event whose handler waits stays at the head of the queue until the handler is over, and
the handler changes the repositories then.
-/

namespace MessageBus.Distributor
open MessageBus.Base MessageBus.Common MessageBus.Messages

/-- The two tasks of an interactor, `Interactor.cs:32`. -/
inductive TaskKind where
  | read
  | write
  deriving DecidableEq

/-- `Task.Status`: how far a task has come that has begun is kept with its interactor. -/
inductive TaskStatus where
  | created
  | waitingToRun
  | begun
  | canceled
  deriving DecidableEq

/-- How far a task has come: `held` in `Message.Read` or `Message.Write`. -/
inductive Stage where
  | unstarted
  | checking
  | held
  | ending
  | completed
  deriving DecidableEq

namespace Interactor

/-- How far a task of the interactor has come. -/
def stage (o : Interactor) : TaskKind → Stage
  | .read =>
    match o.readTask with
    | .unstarted => .unstarted
    | .checking => .checking
    | .reading => .held
    | .ending => .ending
    | .completed => .completed
  | .write =>
    match o.writeTask with
    | .unstarted => .unstarted
    | .checking => .checking
    | .writing => .held
    | .ending => .ending
    | .completed => .completed

/-- The task is over. -/
def complete (o : Interactor) : TaskKind → Interactor
  | .read => { o with readTask := .completed }
  | .write => { o with writeTask := .completed }

end Interactor

/-- The step in which a task tests its loop. -/
def TaskKind.checks (kind : TaskKind) (i : Guid) : Action :=
  match kind with
  | .read => .checkRead i
  | .write => .checkWrite i

/-- The step in which a task cancels the token and ends. -/
def TaskKind.ends (kind : TaskKind) (i : Guid) : Action :=
  match kind with
  | .read => .endRead i
  | .write => .endWrite i

/-- The task whose step an action is. -/
def Action.worker : Action → Option (TaskKind × Guid)
  | .checkRead i => some (.read, i)
  | .receive i _ => some (.read, i)
  | .readError i _ => some (.read, i)
  | .endRead i => some (.read, i)
  | .checkWrite i => some (.write, i)
  | .wrote i => some (.write, i)
  | .writeError i _ => some (.write, i)
  | .endWrite i => some (.write, i)
  | _ => none

section ends

variable (kind : TaskKind) (i : Guid)

/-- The step in which a task tests its loop is one of its own. -/
@[simp] theorem worker_checks : (kind.checks i).worker = some (kind, i) := by
  cases kind <;> rfl

/-- The step in which a task ends is one of its own. -/
@[simp] theorem worker_ends : (kind.ends i).worker = some (kind, i) := by
  cases kind <;> rfl

/-- A task that tests its loop posts nothing. -/
@[simp] theorem posts_checks (settings : Settings) : (kind.checks i).posts settings = [] := by
  cases kind <;> rfl

/-- A task that ends posts nothing. -/
@[simp] theorem posts_ends (settings : Settings) : (kind.ends i).posts settings = [] := by
  cases kind <;> rfl

end ends

namespace Interactor

/-- A task leaves the stage of the other task alone. -/
theorem stage_taskStep_of_ne {o o' : Interactor} {a : Action} {kind other : TaskKind} {i : Guid}
    (ha : a.worker = some (kind, i)) (h : o.taskStep a = some o') (hne : other ≠ kind) :
    o'.stage other = o.stage other := by
  have hread (hr : kind = .read) (ht : o'.writeTask = o.writeTask) :
      o'.stage other = o.stage other := by
    cases other with
    | read => exact absurd hr.symm hne
    | write => simp only [stage, ht]
  have hwrite (hw : kind = .write) (ht : o'.readTask = o.readTask) :
      o'.stage other = o.stage other := by
    cases other with
    | read => simp only [stage, ht]
    | write => exact absurd hw.symm hne
  cases a with
  | checkWrite j =>
    cases ha
    obtain ⟨-, h⟩ := Option.ite_none_right_eq_some.mp h
    split at h <;> cases h <;> exact hwrite rfl rfl
  | wrote j =>
    cases ha
    obtain ⟨-, ⟨⟩⟩ := Option.ite_none_right_eq_some.mp h
    exact hwrite rfl rfl
  | writeError j error =>
    cases ha
    obtain ⟨-, ⟨⟩⟩ := Option.ite_none_right_eq_some.mp h
    exact hwrite rfl rfl
  | endWrite j =>
    cases ha
    obtain ⟨-, ⟨⟩⟩ := Option.ite_none_right_eq_some.mp h
    exact hwrite rfl rfl
  | accept j => cases ha
  | heartbeat => cases ha
  | process => cases ha
  | _ =>
    cases ha
    obtain ⟨-, ⟨⟩⟩ := Option.ite_none_right_eq_some.mp h
    exact hread rfl rfl

/-- A task goes from one stage to the next, as its token says, and cancels the token when it
ends. -/
theorem stage_taskStep {o o' : Interactor} {a : Action} {kind : TaskKind} {i : Guid}
    (ha : a.worker = some (kind, i)) (h : o.taskStep a = some o') :
    o.stage kind = .checking ∧ o'.tokenSource = o.tokenSource ∧
        (o.tokenSource = .live ∧ o'.stage kind = .held ∨
          o.tokenSource ≠ .live ∧ o'.stage kind = .ending) ∨
      o.stage kind = .held ∧ o'.tokenSource = o.tokenSource ∧
        (o'.stage kind = .checking ∨ o'.stage kind = .ending) ∨
      o.stage kind = .ending ∧ a = kind.ends i ∧ o'.tokenSource = o.tokenSource.cancel ∧
        o'.stage kind = .completed := by
  cases a with
  | checkRead j =>
    cases ha
    obtain ⟨hs, ⟨⟩⟩ := Option.ite_none_right_eq_some.mp h
    refine .inl ⟨by simp [stage, hs], rfl, ?_⟩
    by_cases ht : o.tokenSource = .live
    · exact .inl ⟨ht, by simp [stage, ht]⟩
    · exact .inr ⟨ht, by simp [stage, ht]⟩
  | receive j message =>
    cases ha
    obtain ⟨hs, ⟨⟩⟩ := Option.ite_none_right_eq_some.mp h
    exact .inr (.inl ⟨by simp [stage, hs], rfl, .inl rfl⟩)
  | readError j error =>
    cases ha
    obtain ⟨hs, ⟨⟩⟩ := Option.ite_none_right_eq_some.mp h
    exact .inr (.inl ⟨by simp [stage, hs], rfl, .inr rfl⟩)
  | endRead j =>
    cases ha
    obtain ⟨hs, ⟨⟩⟩ := Option.ite_none_right_eq_some.mp h
    exact .inr (.inr ⟨by simp [stage, hs], rfl, rfl, rfl⟩)
  | checkWrite j =>
    cases ha
    obtain ⟨hs, h⟩ := Option.ite_none_right_eq_some.mp h
    refine .inl ⟨by simp [stage, hs], ?_⟩
    split at h
    · cases h
    · next hl _ =>
      cases h
      exact ⟨rfl, .inl ⟨hl, rfl⟩⟩
    · next hl hm =>
      cases h
      refine ⟨rfl, .inr ⟨fun hlive => ?_, rfl⟩⟩
      cases hq : o.writeQueue with
      | nil => exact hl hlive hq
      | cons message messages => exact hm message messages hlive hq
  | wrote j =>
    cases ha
    obtain ⟨hs, ⟨⟩⟩ := Option.ite_none_right_eq_some.mp h
    exact .inr (.inl ⟨by simp [stage, hs], rfl, .inl rfl⟩)
  | writeError j error =>
    cases ha
    obtain ⟨hs, ⟨⟩⟩ := Option.ite_none_right_eq_some.mp h
    exact .inr (.inl ⟨by simp [stage, hs], rfl, .inr rfl⟩)
  | endWrite j =>
    cases ha
    obtain ⟨hs, ⟨⟩⟩ := Option.ite_none_right_eq_some.mp h
    exact .inr (.inr ⟨by simp [stage, hs], rfl, rfl, rfl⟩)
  | _ => cases ha

/-- The stage of the read task says where it is. -/
theorem readTask_of_stage {o : Interactor} {task : ReadTask}
    (h : o.stage .read = stage { o with readTask := task } .read) : o.readTask = task := by
  cases hr : o.readTask <;> cases task <;> simp_all [stage]

/-- The stage of the write task says where it is. -/
theorem writeTask_of_stage {o : Interactor} {task : WriteTask}
    (h : o.stage .write = stage { o with writeTask := task } .write) : o.writeTask = task := by
  cases hw : o.writeTask <;> cases task <;> simp_all [stage]

/-- A token that is not live is not cancelled again. -/
theorem cancel_of_ne_live {t : TokenSource} (h : t ≠ .live) : t.cancel = t := by
  cases t
  · exact absurd rfl h
  · rfl
  · rfl

/-- A task that has left its loop cancels the token and is over. -/
theorem taskStep_ends {o : Interactor} {kind : TaskKind} (h : o.stage kind = .ending)
    (i : Guid) : o.taskStep (kind.ends i) =
      some { o.complete kind with tokenSource := o.tokenSource.cancel } := by
  cases kind with
  | read =>
    have hr : o.readTask = .ending := readTask_of_stage h
    simp [TaskKind.ends, taskStep, complete, hr]
  | write =>
    have hw : o.writeTask = .ending := writeTask_of_stage h
    simp [TaskKind.ends, taskStep, complete, hw]

/-- A task at the test of its loop is over in two steps where the token is not live. -/
theorem exists_taskStep_complete {o : Interactor} {kind : TaskKind}
    (h : o.stage kind = .checking) (ht : o.tokenSource ≠ .live) (i : Guid) :
    ∃ o', o.taskStep (kind.checks i) = some o' ∧
      o'.taskStep (kind.ends i) = some (o.complete kind) := by
  have htoken := cancel_of_ne_live ht
  cases kind with
  | read =>
    have hr : o.readTask = .checking := readTask_of_stage h
    refine ⟨{ o with readTask := .ending }, ?_, ?_⟩
    · simp [TaskKind.checks, taskStep, hr, ht]
    · simp [TaskKind.ends, taskStep, htoken, complete]
  | write =>
    have hw : o.writeTask = .checking := writeTask_of_stage h
    refine ⟨{ o with writeTask := .ending }, ?_, ?_⟩
    · cases hl : o.tokenSource with
      | live => exact absurd hl ht
      | _ => simp [TaskKind.checks, taskStep, hw, hl]
    · simp [TaskKind.ends, taskStep, htoken, complete]

end Interactor

/-- Where the event loop stands. -/
inductive Phase where
  /-- Between two events. -/
  | taking
  /-- In `Start`, with `_writeTask.Start()` next. -/
  | starting (interactor : Guid)
  /-- In `Dispose`, with the test of `IsCanceled` of a task next. -/
  | testing (kind : TaskKind) (interactor : Guid)
  /-- In `Dispose`, in the `Wait` for a task. -/
  | waiting (kind : TaskKind) (interactor : Guid)
  /-- In `Dispose`, after both waits. -/
  | closing (interactor : Guid)
  deriving DecidableEq

namespace Phase

/-- The interactor that is being disposed. -/
def disposes : Phase → Option Guid
  | .taking => none
  | .starting _ => none
  | .testing _ i => some i
  | .waiting _ i => some i
  | .closing i => some i

/-- Where `Dispose` goes on after a task. -/
def after (kind : TaskKind) (i : Guid) : Phase :=
  match kind with
  | .read => .testing .write i
  | .write => .closing i

/-- `Dispose` has passed the wait for a task. -/
def HasPassed : Phase → TaskKind → Guid → Prop
  | .testing .write i, .read, j => i = j
  | .waiting .write i, .read, j => i = j
  | .closing i, _, j => i = j
  | _, _, _ => False

/-- The task of the interactor that `Dispose` passes is the last that it has passed. -/
theorem hasPassed_after {kind kind' : TaskKind} {i j : Guid} :
    (after kind i).HasPassed kind' j ↔ i = j ∧ (kind' = kind ∨ kind = .write) := by
  cases kind <;> cases kind' <;> simp [after, HasPassed]

end Phase

/-- What may happen next. -/
inductive Turn where
  /-- An acceptor, the timer or a task that has begun takes a step. -/
  | act (action : Action)
  /-- A worker of the thread pool takes a task. -/
  | begin (kind : TaskKind) (interactor : Guid)
  /-- The event loop goes on. -/
  | goOn
  deriving DecidableEq

/-- The distributor, where its event loop stands, and the tasks of the thread pool. -/
structure EventLoop where
  system : System := {}
  phase : Phase := .taking
  status : TaskKind → Guid → TaskStatus := fun _ _ => .created

namespace EventLoop

/-- The state of an interactor. -/
def object (s : EventLoop) (i : Guid) : Interactor := s.system.server.objects i

/-- Change the status of one task. -/
def setStatus (s : EventLoop) (kind : TaskKind) (i : Guid) (status : TaskStatus) : EventLoop :=
  { s with status := fun kind' i' => if kind' = kind ∧ i' = i then status else s.status kind' i' }

/-- A task is canceled: it never runs. -/
def abandon (s : EventLoop) (kind : TaskKind) (i : Guid) : EventLoop :=
  { s.setStatus kind i .canceled with system := s.system.modify i (·.complete kind) }

/-- A task that was not started is canceled where the token of its interactor is not live. -/
def callback (s : EventLoop) (kind : TaskKind) (i : Guid) : EventLoop :=
  if s.status kind i = .created ∧ (s.object i).tokenSource ≠ .live then s.abandon kind i else s

/-- The callbacks that `Cancel` runs. -/
def callbacks (s : EventLoop) (i : Guid) : EventLoop := (s.callback .read i).callback .write i

/-- What is thrown ends the loop, `EventQueue.cs:59–63`. -/
def fault (s : EventLoop) : EventLoop :=
  { s with system := { s.system with isRunning := false }, phase := .taking }

/-- `Start` has started the read task. -/
def startRead (s : EventLoop) (i : Guid) : EventLoop :=
  { s.setStatus .read i .waitingToRun with phase := .starting i }

/-- `Dispose` has requested the cancellation, where it was not requested before. -/
def cancel (s : EventLoop) (i : Guid) : EventLoop :=
  { s with
    system := s.system.modify i fun o => { o with tokenSource := o.tokenSource.cancel }
    phase := .testing .read i }

variable (settings : Settings)

/-- Handle an event that makes no one wait. -/
def handle (s : EventLoop) (event : Event) (events : List Event) : EventLoop :=
  { s with system := s.system.handle settings event events, phase := .taking }

/-- The event loop has taken an event; what is thrown ends the loop. -/
def take (s : EventLoop) (event : Event) (events : List Event) : EventLoop :=
  match event with
  | .connected i =>
    let t := s.handle settings event events
    if t.system.isRunning = true then t.startRead i else t
  | .error i _ => (s.cancel i).callbacks i
  | .closed i => (s.cancel i).callbacks i
  | .message _ _ => s.handle settings event events

/-- The event loop goes on where it stands. -/
def goOn (s : EventLoop) : Option EventLoop :=
  match s.phase with
  | .taking =>
    match s.system.eventQueue with
    | [] => none
    | event :: events => some (s.take settings event events)
  | .starting i =>
    if s.status .write i = .canceled then some s.fault
    else some { s.setStatus .write i .waitingToRun with phase := .taking }
  | .testing kind i =>
    some { s with
      phase := if s.status kind i = .canceled then .after kind i else .waiting kind i }
  | .waiting kind i =>
    if (s.object i).stage kind = .completed then
      if s.status kind i = .canceled then some s.fault
      else some { s with phase := .after kind i }
    else none
  | .closing _ =>
    match s.system.eventQueue with
    | [] => none
    | event :: events => some (s.handle settings event events)

/-- The next state, if the turn is possible. -/
def step (s : EventLoop) : Turn → Option EventLoop
  | .act action =>
    match action.worker with
    | some (kind, i) =>
      if s.status kind i = .begun then
        (s.system.step settings action).map fun t => { s with system := t }.callbacks i
      else none
    | none =>
      if action = .process then none
      else (s.system.step settings action).map fun t => { s with system := t }
  | .begin kind i =>
    if s.status kind i = .waitingToRun then
      if (s.object i).tokenSource = .live then some (s.setStatus kind i .begun)
      else some (s.abandon kind i)
    else none
  | .goOn => if s.system.isRunning = true then s.goOn settings else none

/-- The distributor before any client has connected. -/
def init : EventLoop := {}

/-- A run of the event loop and the tasks. -/
abbrev Runs (h : History EventLoop Turn) (s : EventLoop) : Prop := Run (step settings) init h s

/-! ### What a turn can do -/

/-- What a turn does, with what it finds. -/
inductive Turned (s : EventLoop) : Turn → EventLoop → Prop
  | task {action : Action} {kind : TaskKind} {i : Guid} {u : System} :
      action.worker = some (kind, i) → s.status kind i = .begun →
      s.system.step settings action = some u →
      Turned s (.act action) (callbacks { s with system := u } i)
  | other {action : Action} {u : System} :
      action.worker = none → action ≠ .process → s.system.step settings action = some u →
      Turned s (.act action) { s with system := u }
  | run {kind : TaskKind} {i : Guid} :
      s.status kind i = .waitingToRun → (s.object i).tokenSource = .live →
      Turned s (.begin kind i) (s.setStatus kind i .begun)
  | abandon {kind : TaskKind} {i : Guid} :
      s.status kind i = .waitingToRun → (s.object i).tokenSource ≠ .live →
      Turned s (.begin kind i) (s.abandon kind i)
  | connect {i : Guid} {es : List Event} :
      s.system.isRunning = true → s.phase = .taking →
      s.system.eventQueue = .connected i :: es →
      Turned s .goOn (s.take settings (.connected i) es)
  | dispose {e : Event} {es : List Event} {i : Guid} :
      s.system.isRunning = true → s.phase = .taking → s.system.eventQueue = e :: es →
      e.disposes = some i → Turned s .goOn ((s.cancel i).callbacks i)
  | message {i : Guid} {m : Message} {es : List Event} :
      s.system.isRunning = true → s.phase = .taking →
      s.system.eventQueue = .message i m :: es →
      Turned s .goOn (s.handle settings (.message i m) es)
  | startFault {i : Guid} :
      s.system.isRunning = true → s.phase = .starting i → s.status .write i = .canceled →
      Turned s .goOn s.fault
  | startWrite {i : Guid} :
      s.system.isRunning = true → s.phase = .starting i → s.status .write i ≠ .canceled →
      Turned s .goOn { s.setStatus .write i .waitingToRun with phase := .taking }
  | skip {kind : TaskKind} {i : Guid} :
      s.system.isRunning = true → s.phase = .testing kind i → s.status kind i = .canceled →
      Turned s .goOn { s with phase := .after kind i }
  | wait {kind : TaskKind} {i : Guid} :
      s.system.isRunning = true → s.phase = .testing kind i → s.status kind i ≠ .canceled →
      Turned s .goOn { s with phase := .waiting kind i }
  | waitFault {kind : TaskKind} {i : Guid} :
      s.system.isRunning = true → s.phase = .waiting kind i →
      (s.object i).stage kind = .completed → s.status kind i = .canceled →
      Turned s .goOn s.fault
  | pass {kind : TaskKind} {i : Guid} :
      s.system.isRunning = true → s.phase = .waiting kind i →
      (s.object i).stage kind = .completed → s.status kind i ≠ .canceled →
      Turned s .goOn { s with phase := .after kind i }
  | close {i : Guid} {e : Event} {es : List Event} :
      s.system.isRunning = true → s.phase = .closing i → s.system.eventQueue = e :: es →
      Turned s .goOn (s.handle settings e es)

private theorem turned_of_goOn {s t : EventLoop} (hr : s.system.isRunning = true)
    (h : s.goOn settings = some t) : Turned settings s .goOn t := by
  unfold goOn at h
  cases hp : s.phase with
  | taking =>
    simp only [hp] at h
    split at h
    · cases h
    · next e es hq =>
      cases h
      cases e with
      | connected i => exact .connect hr hp hq
      | error i x => exact .dispose hr hp hq rfl
      | closed i => exact .dispose hr hp hq rfl
      | message i m => exact .message hr hp hq
  | starting i =>
    simp only [hp] at h
    split at h
    · next hc =>
      cases h
      exact .startFault hr hp hc
    · next hc =>
      cases h
      exact .startWrite hr hp hc
  | testing kind i =>
    simp only [hp] at h
    split at h
    · next hc =>
      cases h
      exact .skip hr hp hc
    · next hc =>
      cases h
      exact .wait hr hp hc
  | waiting kind i =>
    simp only [hp] at h
    obtain ⟨hover, h⟩ := Option.ite_none_right_eq_some.mp h
    split at h
    · next hc =>
      cases h
      exact .waitFault hr hp hover hc
    · next hc =>
      cases h
      exact .pass hr hp hover hc
  | closing i =>
    simp only [hp] at h
    split at h
    · cases h
    · next e es hq =>
      cases h
      exact .close hr hp hq

/-- Every turn does one of these. -/
theorem turned_of_step {s t : EventLoop} {a : Turn} (h : s.step settings a = some t) :
    Turned settings s a t := by
  cases a with
  | act action =>
    rw [step] at h
    split at h
    · next kind i hw =>
      obtain ⟨hb, h⟩ := Option.ite_none_right_eq_some.mp h
      obtain ⟨u, hu, rfl⟩ := Option.map_eq_some_iff.mp h
      exact .task hw hb hu
    · next hw =>
      obtain ⟨hne, h⟩ := Option.ite_none_left_eq_some.mp h
      obtain ⟨u, hu, rfl⟩ := Option.map_eq_some_iff.mp h
      exact .other hw hne hu
  | begin kind i =>
    obtain ⟨hw, h⟩ := Option.ite_none_right_eq_some.mp h
    split at h
    · next hl =>
      cases h
      exact .run hw hl
    · next hl =>
      cases h
      exact .abandon hw hl
  | goOn =>
    obtain ⟨hr, h⟩ := Option.ite_none_right_eq_some.mp h
    exact turned_of_goOn settings hr h

/-! ### The parts of a turn -/

section parts

variable (s : EventLoop) (kind kind' : TaskKind) (i j : Guid)

/-- A task has the status that it was given, and the others keep theirs. -/
@[simp] theorem status_setStatus (status : TaskStatus) :
    (s.setStatus kind i status).status kind' j =
      if kind' = kind ∧ j = i then status else s.status kind' j := rfl

private theorem object_abandon : (s.abandon kind i).object j =
    if j = i then (s.object i).complete kind else s.object j := by
  simp only [abandon, object, setStatus, System.modify, Interactors.modify_apply]
  split
  · next h => rw [h]
  · rfl

/-- A task that is over leaves the token alone. -/
@[simp] theorem tokenSource_complete (o : Interactor) :
    (o.complete kind).tokenSource = o.tokenSource := by
  cases kind <;> rfl

/-- A task that is over leaves the other where it was. -/
@[simp] theorem stage_complete (o : Interactor) :
    (o.complete kind).stage kind' = if kind' = kind then .completed else o.stage kind' := by
  cases kind <;> cases kind' <;> rfl

/-- A canceled task leaves the tokens alone. -/
@[simp] theorem tokenSource_abandon :
    ((s.abandon kind i).object j).tokenSource = (s.object j).tokenSource := by
  rw [object_abandon]
  split
  · next h => rw [h, tokenSource_complete]
  · rfl

/-- A canceled task is over, and the others are where they were. -/
theorem stage_abandon : ((s.abandon kind i).object j).stage kind' =
    if kind' = kind ∧ j = i then .completed else (s.object j).stage kind' := by
  rw [object_abandon]
  by_cases h : j = i
  · subst h
    simp
  · simp [h]

@[simp] private theorem tokenSource_callback :
    ((s.callback kind i).object j).tokenSource = (s.object j).tokenSource := by
  unfold callback
  split
  · exact tokenSource_abandon s kind i j
  · rfl

private theorem status_callback : (s.callback kind i).status kind' j =
    if kind' = kind ∧ j = i ∧ s.status kind i = .created ∧ (s.object i).tokenSource ≠ .live then
      .canceled
    else s.status kind' j := by
  unfold callback
  by_cases h : s.status kind i = .created ∧ (s.object i).tokenSource ≠ .live
  · rw [if_pos h]
    simp [abandon, setStatus, h]
  · rw [if_neg h, if_neg fun hc => h hc.2.2]

private theorem stage_callback : ((s.callback kind i).object j).stage kind' =
    if kind' = kind ∧ j = i ∧ s.status kind i = .created ∧ (s.object i).tokenSource ≠ .live then
      .completed
    else (s.object j).stage kind' := by
  unfold callback
  by_cases h : s.status kind i = .created ∧ (s.object i).tokenSource ≠ .live
  · rw [if_pos h, stage_abandon]
    simp [h]
  · rw [if_neg h, if_neg fun hc => h hc.2.2]

/-- The callbacks leave the tokens alone. -/
@[simp] theorem tokenSource_callbacks :
    ((s.callbacks i).object j).tokenSource = (s.object j).tokenSource := by
  rw [callbacks, tokenSource_callback, tokenSource_callback]

/-- The callbacks cancel what was not started, where the token is not live. -/
theorem status_callbacks : (s.callbacks i).status kind j =
    if j = i ∧ s.status kind i = .created ∧ (s.object i).tokenSource ≠ .live then .canceled
    else s.status kind j := by
  rw [callbacks, status_callback, status_callback, tokenSource_callback, status_callback]
  cases kind <;> simp

/-- The callbacks complete what they cancel. -/
theorem stage_callbacks : ((s.callbacks i).object j).stage kind =
    if j = i ∧ s.status kind i = .created ∧ (s.object i).tokenSource ≠ .live then .completed
    else (s.object j).stage kind := by
  rw [callbacks, stage_callback, stage_callback, tokenSource_callback, status_callback]
  cases kind <;> simp

/-- The callbacks leave the event loop where it stands. -/
@[simp] theorem phase_callbacks : (s.callbacks i).phase = s.phase := by
  unfold callbacks callback
  split <;> split <;> rfl

@[simp] private theorem eventQueue_callbacks :
    (s.callbacks i).system.eventQueue = s.system.eventQueue := by
  unfold callbacks callback
  split <;> split <;> rfl

/-- The callbacks do not end the event loop. -/
@[simp] theorem isRunning_callbacks :
    (s.callbacks i).system.isRunning = s.system.isRunning := by
  unfold callbacks callback
  split <;> split <;> rfl

/-- `Start` has started the read task and no other. -/
@[simp] theorem status_startRead : (s.startRead i).status kind j =
    if kind = .read ∧ j = i then .waitingToRun else s.status kind j := rfl

/-- `Dispose` cancels the token of its interactor and no other. -/
theorem object_cancel : (s.cancel i).object j = if j = i then
    { s.object j with tokenSource := (s.object j).tokenSource.cancel } else s.object j := rfl

/-- A cancelled token is not live. -/
theorem cancel_ne_live (t : TokenSource) : t.cancel ≠ .live := by
  cases t <;> simp [TokenSource.cancel]

@[simp] private theorem status_handle (settings : Settings) (event : Event) (events : List Event) :
    (s.handle settings event events).status = s.status := rfl

end parts

end EventLoop

end MessageBus.Distributor
