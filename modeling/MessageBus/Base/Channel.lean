import Mathlib.Data.List.Infix
import MessageBus.Base.Reader
import MessageBus.Base.Run

/-!
# Channels of framed messages

One direction of a connection: a writer puts the bytes of one message after another on a
stream, some at a time, and a reader takes messages off it. While the stream is open a
read of more bytes than have arrived waits (`Reader.take`, a third interpretation of a
reader program); once it is closed the end of the stream is read (`Reader.decode`). A
`Codec` says how messages are written and read. What has been received is then a prefix of
what was sent, in order and without repetition, whatever the order of the steps; a codec
that guesses a last byte may add one message that was cut off.
-/

namespace MessageBus.Base

/-! ### Reading an open stream -/

namespace Reader

variable {ε α : Type}

/-- The result of reading what has arrived on a stream that is still open. -/
inductive Taken (ε α : Type) where
  | done (a : α) (rest : List UInt8)
  | failed (e : ε)
  | blocked

/-- Read what has arrived on an open stream; a read of more than that is `blocked`. -/
def take : Reader ε α → List UInt8 → Taken ε α
  | ret a, bs => .done a bs
  | fail e, _ => .failed e
  | readByte _, [] => .blocked
  | readByte k, b :: bs => (k (some b)).take bs
  | readFully len k, bs =>
    if bs.length < len then .blocked else (k (bs.take len)).take (bs.drop len)

/-- What a result becomes as more bytes arrive. -/
def Taken.append : Taken ε α → List UInt8 → Taken ε α
  | .done a rest, cs => .done a (rest ++ cs)
  | .failed e, _ => .failed e
  | .blocked, _ => .blocked

/-- The result at the end of the stream, where no more bytes are needed. -/
def Taken.toDecoded : Taken ε α → Decoded ε α
  | .done a rest => .done a rest
  | .failed e => .failed e
  | .blocked => .starved

private theorem take_readFully {len : Nat} {k : List UInt8 → Reader ε α} {bs : List UInt8}
    (h : (readFully len k).take bs ≠ .blocked) :
    len ≤ bs.length ∧ (readFully len k).take bs = (k (bs.take len)).take (bs.drop len) := by
  rw [take] at h ⊢
  split at h
  · exact absurd rfl h
  · next hl => exact ⟨by omega, if_neg hl⟩

/-- What arrives later does not change a result. -/
theorem take_append {r : Reader ε α} {bs : List UInt8} (h : r.take bs ≠ .blocked)
    (cs : List UInt8) : r.take (bs ++ cs) = (r.take bs).append cs := by
  induction r generalizing bs with
  | ret a => rfl
  | fail e => rfl
  | readByte k ih =>
    cases bs with
    | nil => exact absurd rfl h
    | cons b bs => exact ih (some b) h
  | readFully len k ih =>
    obtain ⟨hl, ht⟩ := take_readFully h
    have hl' : ¬ (bs ++ cs).length < len := by rw [List.length_append]; omega
    rw [ht] at h ⊢
    rw [take, if_neg hl', List.take_append_of_le_length hl, List.drop_append_of_le_length hl]
    exact ih _ h

/-- What was read while the stream was open is read at its end too. -/
theorem decode_of_take {r : Reader ε α} {bs : List UInt8} (h : r.take bs ≠ .blocked) :
    r.decode bs = (r.take bs).toDecoded := by
  induction r generalizing bs with
  | ret a => rfl
  | fail e => rfl
  | readByte k ih =>
    cases bs with
    | nil => exact absurd rfl h
    | cons b bs => exact ih (some b) h
  | readFully len k ih =>
    obtain ⟨hl, ht⟩ := take_readFully h
    have hl' : ¬ bs.length < len := by omega
    rw [ht] at h ⊢
    rw [decode, if_neg hl']
    exact ih _ h

/-- What is read while more may come is read of the same bytes when no more come. -/
theorem decode_of_take_done {r : Reader ε α} {bs rest : List UInt8} {a : α}
    (h : r.take bs = .done a rest) : r.decode bs = .done a rest := by
  rw [decode_of_take (by simp [h]), h, Taken.toDecoded]

/-- What has been read of some bytes is read of more, at their end. -/
theorem decode_append_of_take {r : Reader ε α} {bs : List UInt8} (h : r.take bs ≠ .blocked)
    (cs : List UInt8) : r.decode (bs ++ cs) = ((r.take bs).append cs).toDecoded := by
  have ht := take_append h cs
  rw [decode_of_take, ht]
  rw [ht]
  cases hb : r.take bs with
  | blocked => exact absurd hb h
  | _ => simp [Taken.append]

/-- A reader leaves no more bytes than it was given. -/
theorem length_le_of_decode_done {r : Reader ε α} {bs rest : List UInt8} {a : α}
    (h : r.decode bs = .done a rest) : rest.length ≤ bs.length := by
  induction r generalizing bs with
  | ret b =>
    cases h
    exact Nat.le_refl _
  | fail e => cases h
  | readByte k ih =>
    have hi := ih _ h
    rw [List.length_tail] at hi
    omega
  | readFully len k ih =>
    obtain ⟨hl, h⟩ := ite_eq_iff.mp h |>.resolve_left fun hx => by cases hx.2
    have hi := ih _ h
    rw [List.length_drop] at hi
    omega

-- A reader that waits needs some of what comes next.
private theorem length_lt_of_blocked {r : Reader ε α} {bs cs rest : List UInt8} {a : α}
    (hb : r.take bs = .blocked) (hc : cs ≠ []) (hd : r.decode (bs ++ cs) = .done a rest) :
    rest.length < cs.length := by
  have hpos := List.length_pos_of_ne_nil hc
  induction r generalizing bs with
  | ret b => cases hb
  | fail e => cases hb
  | readByte k ih =>
    cases bs with
    | nil =>
      have hl := length_le_of_decode_done (r := k cs.head?) hd
      rw [List.nil_append, List.length_tail] at hl
      omega
    | cons b bs => exact ih (some b) hb hd
  | readFully len k ih =>
    rw [decode] at hd
    obtain ⟨hl, hd⟩ := ite_eq_iff.mp hd |>.resolve_left fun hx => by cases hx.2
    rcases ite_eq_iff.mp hb with ⟨hshort, -⟩ | ⟨hlong, hb⟩
    · have hr := length_le_of_decode_done hd
      rw [List.length_drop, List.length_append] at hr
      rw [List.length_append] at hl
      omega
    · rw [List.take_append_of_le_length (by omega),
        List.drop_append_of_le_length (by omega)] at hd
      exact ih _ hb hd

/-- A reader that takes exactly these bytes, whatever follows them, does not wait for more. -/
theorem take_of_decode_append {r : Reader ε α} {bs : List UInt8} {a : α}
    (h : ∀ rest, r.decode (bs ++ rest) = .done a rest) (cs : List UInt8) :
    r.take (bs ++ cs) = .done a cs := by
  have hn : r.take bs ≠ .blocked := fun hb =>
    absurd (length_lt_of_blocked hb (List.cons_ne_nil 0 []) (h [0])) (by simp)
  have hd := decode_append_of_take hn cs
  rw [h cs] at hd
  rw [take_append hn]
  cases ht : (r.take bs).append cs with
  | done b rest =>
    rw [ht] at hd
    cases hd
    rfl
  | _ =>
    rw [ht] at hd
    cases hd

/-- On a proper prefix of the bytes that it takes, a reader waits. -/
theorem take_eq_blocked {r : Reader ε α} {bs p q : List UInt8} {a : α}
    (h : ∀ rest, r.decode (bs ++ rest) = .done a rest) (hbs : bs = p ++ q) (hq : q ≠ []) :
    r.take p = .blocked := by
  have hall := take_of_decode_append h []
  rw [List.append_nil, hbs] at hall
  by_contra hn
  rw [take_append hn] at hall
  cases ht : r.take p with
  | done b rest =>
    rw [ht, Taken.append, Taken.done.injEq] at hall
    exact hq (List.append_eq_nil_iff.mp hall.2).2
  | _ =>
    rw [ht] at hall
    cases hall

end Reader

/-! ### Codecs -/

/-- How messages `μ` are written, and read as `ν`. A message that fits is read back,
whatever follows it; no message is read from no bytes. Where the end of the stream cuts a
message off, what is read, if anything, is a guess at that message. -/
structure Codec (μ ν ε : Type) where
  write : μ → List UInt8
  read : Reader ε ν
  received : μ → ν
  guessed : μ → Option ν
  Fits : μ → Prop
  decode_write : ∀ m, Fits m → ∀ rest, read.decode (write m ++ rest) = .done (received m) rest
  decode_lt : ∀ bs a rest, read.decode bs = .done a rest → rest.length < bs.length
  decode_cut : ∀ m, Fits m → ∀ p q, write m = p ++ q → q ≠ [] →
    ∀ a rest, read.decode p = .done a rest → guessed m = some a ∧ rest = []

/-! ### Channels -/

/-- One direction of a connection: the messages whose writing was begun, the bytes of the
last of them that are still to be written, the bytes on their way, and the messages that
were read. -/
structure Channel (μ ν : Type) where
  sent : List μ := []
  pending : List UInt8 := []
  inFlight : List UInt8 := []
  isClosed : Bool := false
  received : List ν := []

namespace Channel

variable {μ ν ε : Type} (codec : Codec μ ν ε)

/-- What may happen on a channel: a message is begun, some of its bytes are written, its
writing returns, the writer closes the stream, a message is read. -/
inductive Action (μ ν : Type) where
  | start (message : μ)
  | put (count : Nat)
  | finish
  | close
  | receive (message : ν)

/-- The message that an action reads. -/
def Action.reads : Action μ ν → List ν
  | .receive a => [a]
  | _ => []

/-- The message that a read returns, and the bytes that it leaves. -/
def next (c : Channel μ ν) : Option (ν × List UInt8) :=
  if c.isClosed then
    match codec.read.decode c.inFlight with
    | .done a rest => some (a, rest)
    | _ => none
  else
    match codec.read.take c.inFlight with
    | .done a rest => some (a, rest)
    | _ => none

/-- The next state, if the action is enabled: a message is begun when the one before it is
written, and bytes are written while the stream is open. -/
def step [DecidableEq ν] (c : Channel μ ν) : Action μ ν → Option (Channel μ ν)
  | .start m =>
    if c.pending = [] then some { c with sent := c.sent ++ [m], pending := codec.write m }
    else none
  | .put count =>
    if 0 < count ∧ count ≤ c.pending.length ∧ c.isClosed = false then
      some { c with
        pending := c.pending.drop count, inFlight := c.inFlight ++ c.pending.take count }
    else none
  | .finish => if c.pending = [] then some c else none
  | .close => some { c with isClosed := true }
  | .receive a =>
    match c.next codec with
    | some (b, rest) =>
      if b = a then some { c with inFlight := rest, received := c.received ++ [b] } else none
    | none => none

/-- The stream was closed inside a buffer that a read fills: the read goes on for ever. -/
def IsCutOff (c : Channel μ ν) : Prop :=
  c.isClosed = true ∧ codec.read.decode c.inFlight = .starved

/-- Whether a read is cut off can be computed. -/
instance [DecidableEq ν] [DecidableEq ε] (c : Channel μ ν) : Decidable (c.IsCutOff codec) :=
  inferInstanceAs (Decidable (_ ∧ _))

/-- Some run of the channel leads to this state. -/
def Reachable [DecidableEq ν] (c : Channel μ ν) : Prop := ∃ h, Run (step codec) {} h c

/-- What has been received is what was sent, up to some message; the bytes on their way and
the bytes still to be written are those of the messages after it. -/
def Intact (c : Channel μ ν) : Prop :=
  ∃ read unread, c.sent = read ++ unread ∧ c.received = read.map codec.received ∧
    c.inFlight ++ c.pending = unread.flatMap codec.write

/-- The stream was closed inside the last message, and what arrived of it was taken for a
message. -/
def Guessed (c : Channel μ ν) : Prop :=
  c.isClosed = true ∧ c.inFlight = [] ∧ c.pending ≠ [] ∧ ∃ read m a, c.sent = read ++ [m] ∧
    codec.guessed m = some a ∧ c.received = read.map codec.received ++ [a]

/-- The bytes still to be written are the last of the last message. -/
def Ending (c : Channel μ ν) : Prop :=
  c.pending = [] ∨ ∃ read m p, c.sent = read ++ [m] ∧ codec.write m = p ++ c.pending

/-! ### What a read returns -/

variable {codec} {c c' : Channel μ ν}

/-- A read takes some of the bytes that have arrived. -/
theorem length_lt_of_next {a : ν} {rest : List UInt8} (h : c.next codec = some (a, rest)) :
    rest.length < c.inFlight.length := by
  rw [next] at h
  split at h
  · split at h
    · next hd =>
      cases h
      exact codec.decode_lt _ _ _ hd
    · cases h
  · split at h
    · next ht =>
      cases h
      exact codec.decode_lt _ _ _ (Reader.decode_of_take_done ht)
    · cases h

private theorem next_of_arrived {m : μ} {rest : List UInt8} (hf : codec.Fits m)
    (h : c.inFlight = codec.write m ++ rest) :
    c.next codec = some (codec.received m, rest) := by
  rw [next, h, codec.decode_write m hf, Reader.take_of_decode_append (codec.decode_write m hf)]
  simp

private theorem next_of_cut {m : μ} {q rest : List UInt8} {a : ν} (hf : codec.Fits m)
    (h : codec.write m = c.inFlight ++ q) (hq : q ≠ []) (hn : c.next codec = some (a, rest)) :
    c.isClosed = true ∧ codec.guessed m = some a ∧ rest = [] := by
  rw [next] at hn
  split at hn
  · next hc =>
    split at hn
    · next hd =>
      cases hn
      exact ⟨hc, codec.decode_cut m hf _ _ h hq _ _ hd⟩
    · cases hn
  · rw [Reader.take_eq_blocked (codec.decode_write m hf) h hq] at hn
    cases hn

-- If a message is cut off, the bytes still to be written reach back into it, and so no
-- message was begun after it.
private theorem last_of_cut {read unread : List μ} {m : μ} {q : List UInt8}
    (hend : c.Ending codec) (hs : c.sent = read ++ m :: unread) (hq : q ≠ [])
    (hp : c.pending = q ++ unread.flatMap codec.write) : unread = [] := by
  rcases hend with hnil | ⟨read', m', p, hs', hw⟩
  · rw [hnil] at hp
    exact absurd (List.append_eq_nil_iff.mp hp.symm).1 hq
  · rcases unread.eq_nil_or_concat with hu | ⟨init, l, rfl⟩
    · exact hu
    · have hlast : read ++ m :: init ++ [l] = read' ++ [m'] := by
        rw [← hs', hs, List.concat_eq_append]
        simp
      have hl := (List.append_inj' hlast rfl).2
      simp only [List.cons.injEq, and_true] at hl
      subst hl
      have hlen := congrArg List.length hw
      have hpos := List.length_pos_of_ne_nil hq
      rw [hp, List.concat_eq_append, List.flatMap_append, List.flatMap_singleton] at hlen
      simp only [List.length_append] at hlen
      omega

-- A read of an intact channel returns the first message that was not yet received, or a guess at
-- the last one.
private theorem next_cases {a : ν} {rest : List UInt8} (hi : c.Intact codec)
    (hend : c.Ending codec) (hf : ∀ m ∈ c.sent, codec.Fits m)
    (hn : c.next codec = some (a, rest)) : ∃ read m unread, c.sent = read ++ m :: unread ∧
      c.received = read.map codec.received ∧
      (a = codec.received m ∧ rest ++ c.pending = unread.flatMap codec.write ∨
        c.isClosed = true ∧ codec.guessed m = some a ∧ rest = [] ∧ c.pending ≠ [] ∧
          unread = []) := by
  obtain ⟨read, unread, hs, hr, hb⟩ := hi
  cases unread with
  | nil =>
    have hnil : c.inFlight = [] := (List.append_eq_nil_iff.mp hb).1
    have hlt := length_lt_of_next hn
    rw [hnil] at hlt
    exact absurd hlt (Nat.not_lt_zero _)
  | cons m unread =>
    refine ⟨read, m, unread, hs, hr, ?_⟩
    have hfm : codec.Fits m := hf m (by rw [hs]; simp)
    rw [List.flatMap_cons] at hb
    rcases List.append_eq_append_iff.mp hb with ⟨q, hw, hp⟩ | ⟨x, hx, hp⟩
    · by_cases hq : q = []
      · subst hq
        have harrived : c.inFlight = codec.write m ++ [] := by simpa using hw.symm
        rw [next_of_arrived hfm harrived, Option.some.injEq, Prod.mk.injEq] at hn
        obtain ⟨rfl, rfl⟩ := hn
        exact .inl ⟨rfl, hp⟩
      · obtain ⟨hc, hg, hrest⟩ := next_of_cut hfm hw hq hn
        have hpne : c.pending ≠ [] := by
          rw [hp]
          exact List.append_ne_nil_of_left_ne_nil hq _
        exact .inr ⟨hc, hg, hrest, hpne, last_of_cut hend hs hq hp⟩
    · rw [next_of_arrived hfm hx, Option.some.injEq, Prod.mk.injEq] at hn
      obtain ⟨rfl, rfl⟩ := hn
      exact .inl ⟨rfl, hp.symm⟩

/-! ### What a step can do -/

variable [DecidableEq ν]

/-- To start a message, the one before must have been written. -/
theorem start_eq_some {m : μ} (h : c.step codec (.start m) = some c') :
    c.pending = [] ∧ c' = { c with sent := c.sent ++ [m], pending := codec.write m } := by
  obtain ⟨hp, ⟨⟩⟩ := Option.ite_none_right_eq_some.mp h
  exact ⟨hp, rfl⟩

/-- To put bytes on the stream, they must be left to put, and the stream open. -/
theorem put_eq_some {count : Nat} (h : c.step codec (.put count) = some c') :
    0 < count ∧ count ≤ c.pending.length ∧ c.isClosed = false ∧
      c' = { c with
        pending := c.pending.drop count, inFlight := c.inFlight ++ c.pending.take count } := by
  obtain ⟨⟨hpos, hle, hopen⟩, ⟨⟩⟩ := Option.ite_none_right_eq_some.mp h
  exact ⟨hpos, hle, hopen, rfl⟩

/-- A message is finished when no byte of it is left. -/
theorem finish_eq_some (h : c.step codec .finish = some c') : c.pending = [] ∧ c' = c := by
  obtain ⟨hp, ⟨⟩⟩ := Option.ite_none_right_eq_some.mp h
  exact ⟨hp, rfl⟩

/-- A message is received when all its bytes are there. -/
theorem receive_eq_some {a : ν} (h : c.step codec (.receive a) = some c') :
    ∃ rest, c.next codec = some (a, rest) ∧
      c' = { c with inFlight := rest, received := c.received ++ [a] } := by
  rw [step] at h
  split at h
  · next b rest hn =>
    obtain ⟨rfl, ⟨⟩⟩ := Option.ite_none_right_eq_some.mp h
    exact ⟨rest, hn, rfl⟩
  · cases h

/-- Messages are only ever added to what was sent. -/
theorem sent_of_step {a : Action μ ν} (h : c.step codec a = some c') :
    ∃ ms, c'.sent = c.sent ++ ms := by
  cases a with
  | start m =>
    obtain ⟨-, rfl⟩ := start_eq_some h
    exact ⟨[m], rfl⟩
  | put count =>
    obtain ⟨-, -, -, rfl⟩ := put_eq_some h
    exact ⟨[], (List.append_nil _).symm⟩
  | finish =>
    obtain ⟨-, rfl⟩ := finish_eq_some h
    exact ⟨[], (List.append_nil _).symm⟩
  | close =>
    cases h
    exact ⟨[], (List.append_nil _).symm⟩
  | receive a =>
    obtain ⟨rest, -, rfl⟩ := receive_eq_some h
    exact ⟨[], (List.append_nil _).symm⟩

/-- A step receives what it reads, and nothing else. -/
theorem received_of_step {a : Action μ ν} (h : c.step codec a = some c') :
    c'.received = c.received ++ a.reads := by
  cases a with
  | start m =>
    obtain ⟨-, rfl⟩ := start_eq_some h
    exact (List.append_nil _).symm
  | put count =>
    obtain ⟨-, -, -, rfl⟩ := put_eq_some h
    exact (List.append_nil _).symm
  | finish =>
    obtain ⟨-, rfl⟩ := finish_eq_some h
    exact (List.append_nil _).symm
  | close =>
    cases h
    exact (List.append_nil _).symm
  | receive a =>
    obtain ⟨rest, -, rfl⟩ := receive_eq_some h
    rfl

/-! ### Runs -/

private theorem ending_step {a : Action μ ν} (h : c.step codec a = some c')
    (hend : c.Ending codec) : c'.Ending codec := by
  cases a with
  | start m =>
    obtain ⟨-, rfl⟩ := start_eq_some h
    exact .inr ⟨c.sent, m, [], rfl, rfl⟩
  | put count =>
    obtain ⟨-, -, -, rfl⟩ := put_eq_some h
    rcases hend with hnil | ⟨read, m, p, hs, hw⟩
    · exact .inl (by simp [hnil])
    · refine .inr ⟨read, m, p ++ c.pending.take count, hs, ?_⟩
      rw [List.append_assoc, List.take_append_drop, hw]
  | finish =>
    obtain ⟨-, rfl⟩ := finish_eq_some h
    exact hend
  | close =>
    cases h
    exact hend
  | receive a =>
    obtain ⟨rest, -, rfl⟩ := receive_eq_some h
    exact hend

private theorem intact_step {a : Action μ ν} (h : c.step codec a = some c')
    (hend : c.Ending codec) (hf : ∀ m ∈ c.sent, codec.Fits m) (hi : c.Intact codec) :
    c'.Intact codec ∨ c'.Guessed codec := by
  cases a with
  | start m =>
    obtain ⟨hp, rfl⟩ := start_eq_some h
    obtain ⟨read, unread, hs, hr, hb⟩ := hi
    refine .inl ⟨read, unread ++ [m], by simp [hs], hr, ?_⟩
    rw [hp, List.append_nil] at hb
    rw [List.flatMap_append, List.flatMap_singleton, ← hb]
  | put count =>
    obtain ⟨-, -, -, rfl⟩ := put_eq_some h
    obtain ⟨read, unread, hs, hr, hb⟩ := hi
    refine .inl ⟨read, unread, hs, hr, ?_⟩
    rw [List.append_assoc, List.take_append_drop, hb]
  | finish =>
    obtain ⟨-, rfl⟩ := finish_eq_some h
    exact .inl hi
  | close =>
    cases h
    exact .inl hi
  | receive a =>
    obtain ⟨rest, hn, rfl⟩ := receive_eq_some h
    obtain ⟨read, m, unread, hs, hr, ⟨rfl, hb⟩ | ⟨hc, hg, rfl, hp, rfl⟩⟩ :=
      next_cases hi hend hf hn
    · exact .inl ⟨read ++ [m], unread, by simp [hs], by simp [hr], hb⟩
    · exact .inr ⟨hc, rfl, hp, read, m, a, hs, hg, by rw [hr]⟩

private theorem guessed_step {a : Action μ ν} (h : c.step codec a = some c')
    (hg : c.Guessed codec) : c'.Guessed codec := by
  obtain ⟨hc, hnil, hp, hrest⟩ := hg
  cases a with
  | start m => exact absurd (start_eq_some h).1 hp
  | put count =>
    obtain ⟨-, -, ho, -⟩ := put_eq_some h
    rw [hc] at ho
    cases ho
  | finish => exact absurd (finish_eq_some h).1 hp
  | close =>
    cases h
    exact ⟨rfl, hnil, hp, hrest⟩
  | receive a =>
    obtain ⟨rest, hn, -⟩ := receive_eq_some h
    have hlt := length_lt_of_next hn
    rw [hnil] at hlt
    exact absurd hlt (Nat.not_lt_zero _)

/-- In every state that is reached, the bytes to be written are the last of the last message. -/
theorem Reachable.ending (hr : c.Reachable codec) : c.Ending codec := by
  obtain ⟨h, hr⟩ := hr
  exact hr.invariant (.inl rfl) fun _ _ _ hend hs => ending_step hs hend

/-- In every run what was received is what was sent, in order and once each, up to some
message; a last one may have been cut off and guessed. -/
theorem Reachable.intact_or_guessed (hr : c.Reachable codec)
    (hf : ∀ m ∈ c.sent, codec.Fits m) : c.Intact codec ∨ c.Guessed codec := by
  obtain ⟨h, hr⟩ := hr
  induction hr with
  | start => exact .inl ⟨[], [], rfl, rfl, rfl⟩
  | next hr hs ih =>
    obtain ⟨ms, hsent⟩ := sent_of_step hs
    have hf' := fun m hm => hf m (by rw [hsent]; exact List.mem_append_left _ hm)
    rcases ih hf' with hi | hg
    · exact intact_step hs (Reachable.ending ⟨_, hr⟩) hf' hi
    · exact .inr (guessed_step hs hg)

/-- Where all bytes are written and no read returns, everything has been received. -/
theorem Reachable.received_of_rest (hr : c.Reachable codec)
    (hf : ∀ m ∈ c.sent, codec.Fits m) (hp : c.pending = []) (hn : c.next codec = none) :
    c.received = c.sent.map codec.received ∧ c.inFlight = [] := by
  rcases hr.intact_or_guessed hf with ⟨read, unread, hs, hrec, hb⟩ | ⟨-, -, hne, -⟩
  · rw [hp, List.append_nil] at hb
    cases unread with
    | nil => exact ⟨by rw [hs, hrec, List.append_nil], hb⟩
    | cons m unread =>
      rw [List.flatMap_cons] at hb
      rw [next_of_arrived (hf m (by rw [hs]; simp)) hb] at hn
      cases hn
  · exact absurd hp hne

end Channel

end MessageBus.Base
