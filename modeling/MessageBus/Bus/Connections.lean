import Mathlib.Logic.Function.Basic
import MessageBus.Adapters.Client
import MessageBus.Base.Channel
import MessageBus.Distributor.Tasks
import MessageBus.Messages.Relay

/-!
# The bus

The distributor, the clients of `Client.cs`, and between an interactor and its client a
stream in each direction. The tasks of both sides put bytes on the streams and take
messages off them, in any interleaving. A connection is known by the `Id` of its
interactor; the handshake, which comes before the first message, is over. A stream holds
any number of bytes, and a connection that fails makes a read or a write throw.
-/

namespace MessageBus
open Base Common Messages Adapters Distributor

namespace Messages.Message

private theorem length_lt_of_decode_read (bs : List UInt8) (m : Message) (rest : List UInt8)
    (h : read.decode bs = .done m rest) : rest.length < bs.length := by
  obtain ⟨messageType, bs', hheader, hbody⟩ := Reader.decode_bind_eq_done_iff.mp h
  cases bs with
  | nil => cases hheader
  | cons b bs =>
    have hb : bs' = bs := (Reader.Decoded.done.inj hheader).2.symm
    have hl := Reader.length_le_of_decode_done hbody
    rw [hb] at hl
    exact Nat.lt_succ_of_le hl

/-- The message that is read of a message whose last byte is missing. -/
def guess (m : Message (Option String)) : Option Message :=
  if m.endsWithBoolean then some m.guessed.received else none

private theorem guess_of_decode_cut (m : Message (Option String)) (hf : m.Fits)
    (p q : List UInt8) (hw : m.write = p ++ q) (hq : q ≠ []) (m' : Message) (rest : List UInt8)
    (h : read.decode p = .done m' rest) : m.guess = some m' ∧ rest = [] := by
  cases hb : m.endsWithBoolean with
  | false => exact absurd h ((frames_read m hf hb).cut p q hw hq m' rest)
  | true =>
    have hpos := List.length_pos_of_ne_nil hq
    have hframe := framesButLast_read m hf hb
    by_cases hl : q.length = 1
    · rw [hframe.cutLast p q hw hl] at h
      cases h
      exact ⟨if_pos hb, rfl⟩
    · exact absurd h (hframe.cut p q hw (by omega) m' rest)

/-- `Message.Write` and `Message.Read`. -/
def codec : Codec (Message (Option String)) Message Exception where
  write := write
  read := read
  received := received
  guessed := guess
  Fits := Fits
  decode_write := decode_write
  decode_lt := length_lt_of_decode_read
  decode_cut := guess_of_decode_cut

end Messages.Message

/-! ### Streams -/

/-- A stream of messages. -/
abbrev Stream := Channel (Message (Option String)) Message

/-- What may happen on a stream. -/
abbrev StreamAction := Channel.Action (Message (Option String)) Message

/-- The streams of the connections, in one direction. -/
abbrev Streams := Guid → Stream

namespace Streams

/-- Take an action on the stream of one connection, or none. -/
def act (streams : Streams) : Option (Guid × StreamAction) → Option Streams
  | none => some streams
  | some (i, action) => ((streams i).step Message.codec action).map (Function.update streams i)

/-- A stream is as it was, or it has taken the action. -/
theorem act_apply {streams streams' : Streams} {o : Option (Guid × StreamAction)}
    (h : streams.act o = some streams') (i : Guid) :
    (∀ action, o ≠ some (i, action)) ∧ streams' i = streams i ∨
      ∃ action, o = some (i, action) ∧
        (streams i).step Message.codec action = some (streams' i) := by
  cases o with
  | none =>
    cases h
    exact .inl ⟨by simp, rfl⟩
  | some x =>
    obtain ⟨j, action⟩ := x
    obtain ⟨stream, hs, rfl⟩ := Option.map_eq_some_iff.mp h
    by_cases hi : i = j
    · subst hi
      exact .inr ⟨action, rfl, by rw [hs, Function.update_self]⟩
    · refine .inl ⟨?_, Function.update_of_ne hi ..⟩
      rintro action' ⟨⟩
      exact hi rfl

/-- An action on one stream leaves the others alone. -/
theorem act_of_ne {streams streams' : Streams} {o : Option (Guid × StreamAction)}
    (h : streams.act o = some streams') {i : Guid} (hi : ∀ action, o ≠ some (i, action)) :
    streams' i = streams i := by
  rcases act_apply h i with ⟨-, hs⟩ | ⟨action, ho, -⟩
  · exact hs
  · exact absurd ho (hi action)

/-- Take an action on a stream, or none. -/
def actOn (stream : Stream) : Option StreamAction → Option Stream
  | none => some stream
  | some action => stream.step Message.codec action

/-- The action on a stream is the one that the connection took. -/
theorem actOn_of_act {streams streams' : Streams} {i : Guid} {o : Option StreamAction}
    (h : streams.act (o.map (i, ·)) = some streams') :
    actOn (streams i) o = some (streams' i) := by
  cases o with
  | none => exact congrArg some (act_of_ne h (by simp)).symm
  | some action =>
    rcases act_apply h i with ⟨hne, -⟩ | ⟨action', ho, hs⟩
    · exact absurd rfl (hne action)
    · cases ho
      exact hs

/-- What an action reads from the stream of a connection. -/
def readOn (i : Guid) : Option (Guid × StreamAction) → List Message
  | none => []
  | some (j, action) => if j = i then action.reads else []

/-- A stream receives what is read on it. -/
theorem received_of_act {streams streams' : Streams} {o : Option (Guid × StreamAction)}
    (h : streams.act o = some streams') (i : Guid) :
    (streams' i).received = (streams i).received ++ readOn i o := by
  rcases act_apply h i with ⟨hne, hs⟩ | ⟨action, rfl, hs⟩
  · have hnil : readOn i o = [] := by
      cases o with
      | none => rfl
      | some x =>
        have hx : x.1 ≠ i := fun hx => hne x.2 (hx ▸ rfl)
        exact if_neg hx
    rw [hs, hnil, List.append_nil]
  · rw [Channel.received_of_step hs, readOn, if_pos rfl]

end Streams

/-! ### The steps -/

/-- The distributor, the clients that have connected, and the streams from each client and
to it. -/
structure Bus where
  system : System := {}
  clients : List Guid := []
  client : Guid → Client := fun _ => {}
  upstream : Streams := fun _ => {}
  downstream : Streams := fun _ => {}

namespace Bus

/-- What may happen next. -/
inductive Action where
  /-- A client connects and authenticates, `Client.cs:42–62`. -/
  | connect (i : Guid)
  /-- A step of a client, with what it does to the streams. -/
  | client (i : Guid) (action : Client.Action)
  /-- A client writes some bytes of a message. -/
  | clientPut (i : Guid) (count : Nat)
  /-- A step of the distributor, with what it does to the streams. -/
  | distributor (action : Distributor.Action)
  /-- The distributor writes some bytes of a message. -/
  | distributorPut (i : Guid) (count : Nat)

/-- What a step of the write task does to the stream: `Message.Write` is called, or it
returns. -/
def interactorWrites (o : Interactor) : Distributor.Action → Option StreamAction
  | .checkWrite _ =>
    match o.tokenSource, o.writeQueue with
    | .live, message :: _ => some (.start message.sent)
    | _, _ => none
  | .wrote _ => some .finish
  | _ => none

/-- What a step of the distributor does to a stream to a client; `Interactor.Dispose` closes
it. -/
def distributorWrites (s : System) : Distributor.Action → Option (Guid × StreamAction)
  | .process => (s.eventQueue.head?.bind Event.disposes).map fun i => (i, .close)
  | action =>
    action.task.bind fun i => (interactorWrites (s.server.objects i) action).map (i, ·)

/-- What a step of the read task does to the stream: `Message.Read` returns. -/
def interactorReads : Distributor.Action → Option StreamAction
  | .receive _ message => some (.receive message)
  | _ => none

/-- What a step of the distributor does to a stream from a client. -/
def distributorReads (action : Distributor.Action) : Option (Guid × StreamAction) :=
  action.task.bind fun i => (interactorReads action).map (i, ·)

/-- What a step of a client does to the stream from it: `Message.Write` is called, or it
returns, or `Client.Dispose` closes the stream. -/
def clientWrites (c : Client) : Client.Action → Option StreamAction
  | .checkWrite =>
    match c.isCancelled, c.writeQueue with
    | false, message :: _ => some (.start message)
    | _, _ => none
  | .wrote => some .finish
  | .dispose => some .close
  | _ => none

/-- What a step of a client does to the stream to it: `Message.Read` returns. -/
def clientReads : Client.Action → Option StreamAction
  | .receive message => some (.receive message)
  | _ => none

/-- What a step does to a stream from a client. -/
def onUpstream (b : Bus) : Action → Option (Guid × StreamAction)
  | .client i action => (clientWrites (b.client i) action).map (i, ·)
  | .clientPut i count => some (i, .put count)
  | .distributor action => distributorReads action
  | _ => none

/-- What a step does to a stream to a client. -/
def onDownstream (b : Bus) : Action → Option (Guid × StreamAction)
  | .client i action => (clientReads action).map (i, ·)
  | .distributor action => distributorWrites b.system action
  | .distributorPut i count => some (i, .put count)
  | _ => none

/-- The clients after a step. -/
def onClients (b : Bus) : Action → List Guid
  | .connect i => i :: b.clients
  | _ => b.clients

/-- The state of each client after a step. -/
def onClient (b : Bus) : Action → Option (Guid → Client)
  | .client i action => ((b.client i).step action).map (Function.update b.client i)
  | _ => some b.client

variable (settings : Settings)

/-- The distributor after a step. -/
def onSystem (b : Bus) : Action → Option System
  | .distributor action => b.system.step settings action
  | _ => some b.system

/-- A connection is made once, before an acceptor accepts it and before its client does
anything; bytes are written where a task is in `Message.Write`. -/
def Admits (b : Bus) : Action → Prop
  | .connect i => i ≠ settings.heartbeat ∧ i ∉ b.clients
  | .client i _ => i ∈ b.clients
  | .clientPut i _ => (b.client i).writeTask = .running
  | .distributor (.accept i) => i ∈ b.clients
  | .distributor _ => True
  | .distributorPut i _ => (b.system.server.objects i).writeTask = .writing

/-- Whether the bus admits an action can be computed. -/
instance (b : Bus) : (a : Action) → Decidable (b.Admits settings a)
  | .connect _ => inferInstanceAs (Decidable (_ ∧ _))
  | .client _ _ => inferInstanceAs (Decidable (_ ∈ _))
  | .clientPut _ _ => inferInstanceAs (Decidable (_ = _))
  | .distributor (.accept _) => inferInstanceAs (Decidable (_ ∈ _))
  | .distributor (.checkRead _) | .distributor (.receive _ _) | .distributor (.readError _ _)
  | .distributor (.endRead _) | .distributor (.checkWrite _) | .distributor (.wrote _)
  | .distributor (.writeError _ _) | .distributor (.endWrite _) | .distributor .heartbeat
  | .distributor .process => isTrue trivial
  | .distributorPut _ _ => inferInstanceAs (Decidable (_ = _))

/-- The next state, if the action is enabled: a step of the distributor or of a client, with
what it does to the streams. -/
def step (b : Bus) (a : Action) : Option Bus :=
  if b.Admits settings a then do
    let system ← b.onSystem settings a
    let client ← b.onClient a
    let upstream ← b.upstream.act (b.onUpstream a)
    let downstream ← b.downstream.act (b.onDownstream a)
    return { system, clients := b.onClients a, client, upstream, downstream }
  else none

/-- The bus before anything has happened. -/
def init : Bus := {}

/-- A run of the bus. -/
abbrev Runs (h : History Bus Action) (b : Bus) : Prop := Run (step settings) init h b

/-- What a step can do. -/
structure Stepped (b : Bus) (a : Action) (b' : Bus) : Prop where
  admits : b.Admits settings a
  system : b.onSystem settings a = some b'.system
  clients : b'.clients = b.onClients a
  client : b.onClient a = some b'.client
  upstream : b.upstream.act (b.onUpstream a) = some b'.upstream
  downstream : b.downstream.act (b.onDownstream a) = some b'.downstream

variable {settings}

/-- A step of the bus does one of the things that `Stepped` lists. -/
theorem step_eq_some_iff {b b' : Bus} {a : Action} :
    b.step settings a = some b' ↔ Stepped settings b a b' := by
  constructor
  · intro h
    obtain ⟨hadmits, h⟩ := Option.ite_none_right_eq_some.mp h
    simp only [Option.bind_eq_bind, Option.bind_eq_some_iff, Option.pure_def,
      Option.some.injEq] at h
    obtain ⟨system, hs, client, hc, upstream, hu, downstream, hd, rfl⟩ := h
    exact ⟨hadmits, hs, rfl, hc, hu, hd⟩
  · rintro ⟨hadmits, hs, hclients, hc, hu, hd⟩
    rw [step, if_pos hadmits, hs, hc, hu, hd, ← hclients]
    rfl

/-! ### What a step does to a client and to a stream -/

/-- A client is as it was, or it has taken a step. -/
theorem Stepped.client_cases {b b' : Bus} {a : Action} (h : Stepped settings b a b') (i : Guid) :
    (∀ action, a ≠ .client i action) ∧ b'.client i = b.client i ∨
      ∃ action, a = .client i action ∧ (b.client i).step action = some (b'.client i) := by
  have hc := h.client
  cases a with
  | client j action =>
    obtain ⟨client, hs, hu⟩ := Option.map_eq_some_iff.mp hc
    rw [← hu]
    by_cases hi : i = j
    · subst hi
      exact .inr ⟨action, rfl, by rw [hs, Function.update_self]⟩
    · refine .inl ⟨?_, Function.update_of_ne hi ..⟩
      rintro action' ⟨⟩
      exact hi rfl
  | _ =>
    rw [← Option.some.inj hc]
    exact .inl ⟨by simp, rfl⟩

/-- The distributor is as it was, or it has taken a step. -/
theorem Stepped.system_cases {b b' : Bus} {a : Action} (h : Stepped settings b a b') :
    (∀ action, a ≠ .distributor action) ∧ b'.system = b.system ∨
      ∃ action, a = .distributor action ∧ b.system.step settings action = some b'.system := by
  have hs := h.system
  cases a with
  | distributor action => exact .inr ⟨action, rfl, hs⟩
  | _ => exact .inl ⟨by simp, (Option.some.inj hs).symm⟩

/-! ### The run of the distributor -/

/-- The steps that the distributor takes in a run of the bus. -/
def distributed : History Bus Action → History System Distributor.Action
  | [] => []
  | (b, .distributor a) :: h => (b.system, a) :: distributed h
  | _ :: h => distributed h

/-- In a run of the bus the distributor goes through one of its own runs. -/
theorem Runs.system {h : History Bus Action} {b : Bus} (hr : Runs settings h b) :
    System.Runs settings (distributed h) b.system := by
  induction hr with
  | start => exact .start
  | next hr ha ih =>
    next h b b' a =>
    have hs := step_eq_some_iff.mp ha
    rcases hs.system_cases with ⟨hne, he⟩ | ⟨action, rfl, hd⟩
    · rw [he]
      cases a with
      | distributor action => exact absurd rfl (hne action)
      | _ => exact ih
    · exact ih.next hd

/-- Every stream goes through a run of a channel. -/
theorem Runs.reachable {h : History Bus Action} {b : Bus} (hr : Runs settings h b) (i : Guid) :
    (b.upstream i).Reachable Message.codec ∧ (b.downstream i).Reachable Message.codec := by
  induction hr with
  | start => exact ⟨⟨[], .start⟩, ⟨[], .start⟩⟩
  | next hr ha ih =>
    have hs := step_eq_some_iff.mp ha
    obtain ⟨⟨hup, hu⟩, ⟨hdown, hd⟩⟩ := ih
    constructor
    · rcases Streams.act_apply hs.upstream i with ⟨-, he⟩ | ⟨action, -, ha⟩
      · exact he ▸ ⟨hup, hu⟩
      · exact ⟨_, hu.next ha⟩
    · rcases Streams.act_apply hs.downstream i with ⟨-, he⟩ | ⟨action, -, ha⟩
      · exact he ▸ ⟨hdown, hd⟩
      · exact ⟨_, hd.next ha⟩

/-! ### One publication -/

/-- A client subscribes, another publishes, the first raises an event, and all wait. -/
def onePublication : List Action :=
  let subscription : Message (Option String) := .subscriptionRequest ⟨some "F", some "T", true⟩
  let data : Message (Option String) := .multicastData ⟨some "F", some "T", some "text", none⟩
  let forwarded : Message := .forwardedMulticastData ⟨"user", "host", "F", "T", "text", none⟩
  [.connect ⟨1⟩, .connect ⟨2⟩, .distributor (.accept ⟨1⟩), .distributor (.accept ⟨2⟩),
    .distributor .process, .distributor .process, .client ⟨1⟩ .start, .client ⟨2⟩ .start,
    .client ⟨1⟩ (.call (.addSubscription (some "F") (some "T"))), .client ⟨1⟩ .checkWrite,
    .clientPut ⟨1⟩ subscription.write.length, .client ⟨1⟩ .wrote, .distributor (.checkRead ⟨1⟩),
    .distributor (.receive ⟨1⟩ subscription.received), .distributor (.checkRead ⟨1⟩),
    .distributor .process, .client ⟨2⟩ (.call (.publish (some "F") (some "T") (some "text") none)),
    .client ⟨2⟩ .checkWrite, .clientPut ⟨2⟩ 3, .clientPut ⟨2⟩ (data.write.length - 3),
    .client ⟨2⟩ .wrote, .distributor (.checkRead ⟨2⟩), .distributor (.receive ⟨2⟩ data.received),
    .distributor (.checkRead ⟨2⟩), .distributor .process, .distributor (.checkWrite ⟨1⟩),
    .distributorPut ⟨1⟩ forwarded.sent.write.length, .distributor (.wrote ⟨1⟩),
    .client ⟨1⟩ .checkRead, .client ⟨1⟩ (.receive forwarded), .client ⟨1⟩ .checkRead,
    .client ⟨2⟩ .checkRead]

end Bus

end MessageBus
