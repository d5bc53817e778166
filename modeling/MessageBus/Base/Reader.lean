import Mathlib.Data.List.Basic

/-!
# Programs that read a byte stream

A `Stream` is a finite byte sequence whose reads may be short: each call delivers at
least one byte while any remain, and how many is the environment's choice. A `Reader`
is a program over two stream operations, reading one byte and filling a buffer; it is
interpreted twice. `decode` reads a list of bytes and has a third result, `starved`,
for a buffer that the bytes left cannot fill. `run` reads a `Stream`, given any loop
that fills a buffer. `Frames` is the composition law of self-delimiting encodings:
the reader takes exactly these bytes and returns nothing on a proper prefix of them.
-/

namespace MessageBus.Base

/-! ### Streams with short reads -/

/-- The bytes not yet delivered, the number of reads made, and the size that the
environment proposes for each read. -/
structure Stream where
  remaining : List UInt8
  reads : Nat
  split : Nat → Nat

namespace Stream

/-- A fresh stream over the given bytes. -/
def ofBytes (split : Nat → Nat) (bytes : List UInt8) : Stream := ⟨bytes, 0, split⟩

/-- The number of bytes the next read asks of the stream: one to `count`. -/
def request (s : Stream) (count : Nat) : Nat := min (max 1 (s.split s.reads)) count

/-- One read into a buffer with room for `count` bytes. -/
def read (s : Stream) (count : Nat) : List UInt8 × Stream :=
  (s.remaining.take (s.request count),
    { s with remaining := s.remaining.drop (s.request count), reads := s.reads + 1 })

/-- Read one byte; `none` at the end of the stream. -/
def readByte (s : Stream) : Option UInt8 × Stream :=
  (s.remaining.head?, { s with remaining := s.remaining.tail })

/-- What a read delivers, followed by what it leaves, is what there was. -/
theorem read_append (s : Stream) (count : Nat) :
    (s.read count).1 ++ (s.read count).2.remaining = s.remaining :=
  List.take_append_drop _ _

/-- A read never delivers more than the buffer holds. -/
theorem length_read_le (s : Stream) (count : Nat) : (s.read count).1.length ≤ count := by
  simp only [read, request, List.length_take]
  omega

/-- A read into a nonempty buffer makes progress while bytes remain. -/
theorem length_read_pos (s : Stream) (count : Nat) (hc : 0 < count)
    (hs : s.remaining ≠ []) : 0 < (s.read count).1.length := by
  have hl := List.length_pos_of_ne_nil hs
  simp only [read, request, List.length_take]
  omega

end Stream

/-! ### Reader programs -/

/-- A program over the stream operations, with failures of type `ε`. -/
inductive Reader (ε α : Type) where
  | ret (a : α)
  | fail (e : ε)
  | readByte (k : Option UInt8 → Reader ε α)
  | readFully (len : Nat) (k : List UInt8 → Reader ε α)

namespace Reader

variable {ε α β : Type}

/-- Sequential composition. -/
def bind : Reader ε α → (α → Reader ε β) → Reader ε β
  | ret a, f => f a
  | fail e, _ => fail e
  | readByte k, f => readByte fun b => (k b).bind f
  | readFully len k, f => readFully len fun buf => (k buf).bind f

/-- Readers are put in a row: the second reads on where the first has stopped. -/
instance : Monad (Reader ε) where
  pure := ret
  bind := bind

private theorem bind_ret (r : Reader ε α) : r.bind ret = r := by
  induction r with
  | ret a => rfl
  | fail e => rfl
  | readByte k ih => exact congrArg readByte (funext ih)
  | readFully len k ih => exact congrArg (readFully len) (funext ih)

private theorem bind_bind {γ : Type} (r : Reader ε α) (f : α → Reader ε β) (g : β → Reader ε γ) :
    (r.bind f).bind g = r.bind fun a => (f a).bind g := by
  induction r with
  | ret a => rfl
  | fail e => rfl
  | readByte k ih => exact congrArg readByte (funext ih)
  | readFully len k ih => exact congrArg (readFully len) (funext ih)

/-- Readers in a row may be grouped as one likes. -/
instance : LawfulMonad (Reader ε) :=
  LawfulMonad.mk' (Reader ε) (fun r => bind_ret r) (fun _ _ => rfl) fun r f g => bind_bind r f g

/-- The result of reading a list of bytes. -/
inductive Decoded (ε α : Type) where
  | done (a : α) (rest : List UInt8)
  | failed (e : ε)
  | starved
  deriving DecidableEq

/-- Read a list of bytes; filling a buffer from too few of them is `starved`. -/
def decode : Reader ε α → List UInt8 → Decoded ε α
  | ret a, bs => .done a bs
  | fail e, _ => .failed e
  | readByte k, bs => (k bs.head?).decode bs.tail
  | readFully len k, bs =>
    if bs.length < len then .starved else (k (bs.take len)).decode (bs.drop len)

/-- Some buffer the program fills is larger than what is left of the bytes then. -/
def Starves : Reader ε α → List UInt8 → Prop
  | ret _, _ => False
  | fail _, _ => False
  | readByte k, bs => (k bs.head?).Starves bs.tail
  | readFully len k, bs => bs.length < len ∨ (k (bs.take len)).Starves (bs.drop len)

/-- Decoding starves exactly if reading does. -/
theorem decode_eq_starved_iff (r : Reader ε α) (bs : List UInt8) :
    r.decode bs = .starved ↔ r.Starves bs := by
  induction r generalizing bs with
  | ret a => simp [decode, Starves]
  | fail e => simp [decode, Starves]
  | readByte k ih => exact ih _ _
  | readFully len k ih =>
    simp only [decode, Starves]
    split
    · next h => simp [h]
    · next h => rw [ih]; simp [h]

/-- To return a value decodes nothing. -/
@[simp] theorem decode_pure (a : α) (bs : List UInt8) :
    (pure a : Reader ε α).decode bs = .done a bs := rfl

/-- What fails decodes nothing. -/
@[simp] theorem decode_fail (e : ε) (bs : List UInt8) :
    (fail e : Reader ε α).decode bs = .failed e := rfl

/-- Continue with what a decoding returned. -/
def Decoded.andThen : Decoded ε α → (α → List UInt8 → Decoded ε β) → Decoded ε β
  | .done a rest, f => f a rest
  | .failed e, _ => .failed e
  | .starved, _ => .starved

/-- What was decoded is handed on, with the bytes that are left. -/
@[simp] theorem Decoded.done_andThen (a : α) (rest : List UInt8)
    (f : α → List UInt8 → Decoded ε β) : (Decoded.done a rest).andThen f = f a rest := rfl

/-- A failure is handed on. -/
@[simp] theorem Decoded.failed_andThen (e : ε) (f : α → List UInt8 → Decoded ε β) :
    (Decoded.failed e).andThen f = .failed e := rfl

/-- Starvation is handed on. -/
@[simp] theorem Decoded.starved_andThen (f : α → List UInt8 → Decoded ε β) :
    (Decoded.starved : Decoded ε α).andThen f = .starved := rfl

/-- A sequence decodes its first part, then its second part from the rest. -/
@[simp] theorem decode_bind (r : Reader ε α) (f : α → Reader ε β) (bs : List UInt8) :
    (r >>= f).decode bs = (r.decode bs).andThen fun a rest => (f a).decode rest := by
  change (r.bind f).decode bs = _
  induction r generalizing bs with
  | ret a => rfl
  | fail e => rfl
  | readByte k ih => exact ih _ _
  | readFully len k ih =>
    simp only [Reader.bind, decode]
    split
    · rfl
    · exact ih _ _

/-- Readers in a row decode in a row. -/
theorem decode_bind_of_done {r : Reader ε α} {bs rest : List UInt8} {a : α}
    (h : r.decode bs = .done a rest) (f : α → Reader ε β) :
    (r >>= f).decode bs = (f a).decode rest := by
  rw [decode_bind, h, Decoded.done_andThen]

/-- What a sequence returns, its second part returns from what its first part leaves. -/
theorem decode_bind_eq_done_iff {r : Reader ε α} {f : α → Reader ε β} {bs rest : List UInt8}
    {b : β} : (r >>= f).decode bs = .done b rest ↔
      ∃ a rest', r.decode bs = .done a rest' ∧ (f a).decode rest' = .done b rest := by
  rw [decode_bind]
  cases r.decode bs with
  | done a rest' => simp
  | failed e => simp
  | starved => simp

/-! ### Framing -/

/-- The reader takes exactly `bytes`, whatever follows, and returns `a`; on a proper
prefix of `bytes` it returns nothing at all. -/
structure Frames (r : Reader ε α) (bytes : List UInt8) (a : α) : Prop where
  done : ∀ rest, r.decode (bytes ++ rest) = .done a rest
  cut : ∀ p q, bytes = p ++ q → q ≠ [] → ∀ b rest, r.decode p ≠ .done b rest

/-- A sequence returns nothing where its first part returns nothing. -/
theorem decode_bind_ne_done {r : Reader ε α} {bs : List UInt8}
    (hr : ∀ a rest, r.decode bs ≠ .done a rest) (f : α → Reader ε β) (b : β)
    (rest : List UInt8) : (r >>= f).decode bs ≠ .done b rest := by
  rw [decode_bind]
  cases hd : r.decode bs with
  | done a rest' => exact absurd hd (hr a rest')
  | failed e => simp
  | starved => simp

/-- A framed reader on its own bytes leaves nothing. -/
theorem Frames.exact {r : Reader ε α} {bytes : List UInt8} {a : α} (h : Frames r bytes a) :
    r.decode bytes = .done a [] := by
  simpa only [List.append_nil] using h.done []

/-- No bytes frame a value that is returned. -/
theorem Frames.pure (a : α) : Frames (Pure.pure a : Reader ε α) [] a := by
  refine ⟨fun rest => rfl, ?_⟩
  intro p q h hq
  exact absurd (List.append_eq_nil_iff.mp h.symm).2 hq

/-- A prefix of two parts reaches into the second, or leaves some of the first out. -/
theorem decode_bind_cut {r : Reader ε α} {bs cs p q : List UInt8} {a : α}
    (hr : ∀ rest, r.decode (bs ++ rest) = .done a rest) (f : α → Reader ε β)
    (h : bs ++ cs = p ++ q) :
    (∃ p', cs = p' ++ q ∧ (r >>= f).decode p = (f a).decode p') ∨
      ∃ q', q' ≠ [] ∧ bs = p ++ q' ∧ q = q' ++ cs := by
  rcases List.append_eq_append_iff.mp h with ⟨p', rfl, hp⟩ | ⟨q', rfl, rfl⟩
  · exact .inl ⟨p', hp, decode_bind_of_done (hr p') f⟩
  · by_cases hq' : q' = []
    · subst hq'
      have hexact := hr []
      simp only [List.append_nil] at hexact
      exact .inl ⟨[], rfl, decode_bind_of_done hexact f⟩
    · exact .inr ⟨q', hq', rfl, rfl⟩

/-- Framed encodings compose. -/
theorem Frames.bind {r : Reader ε α} {f : α → Reader ε β} {bs cs : List UInt8} {a : α}
    {b : β} (hr : Frames r bs a) (hf : Frames (f a) cs b) :
    Frames (r >>= f) (bs ++ cs) b := by
  constructor
  · intro rest
    rw [List.append_assoc, decode_bind_of_done (hr.done _), hf.done]
  · intro p q h hq
    obtain ⟨p', hp, hdecode⟩ | ⟨q', hq', hbs, -⟩ := decode_bind_cut hr.done f h
    · rw [hdecode]
      exact hf.cut p' q hp hq
    · exact decode_bind_ne_done (hr.cut p q' hbs hq') f

/-- A final function of the value does not change the frame. -/
theorem Frames.map {r : Reader ε α} {bs : List UInt8} {a : α} (hr : Frames r bs a)
    (g : α → β) : Frames (r >>= fun x => Pure.pure (g x)) bs (g a) := by
  simpa using hr.bind (f := fun x => Pure.pure (g x)) (Frames.pure (g a))

/-- Filling a buffer frames the bytes that fill it. -/
theorem Frames.readFully (bs : List UInt8) :
    Frames (Reader.readFully bs.length ret : Reader ε (List UInt8)) bs bs := by
  constructor
  · intro rest
    simp [decode]
  · intro p q h hq b rest
    have hl := List.length_pos_of_ne_nil hq
    have hp : p.length < bs.length := by rw [h, List.length_append]; omega
    simp [decode, hp]

/-- The weaker frame of a reader that takes the end of the stream for a last byte: it
takes exactly `bytes` and returns `a`, and with the last byte missing it returns `b`.
On every shorter prefix it returns nothing. -/
structure FramesButLast (r : Reader ε α) (bytes : List UInt8) (a b : α) : Prop where
  done : ∀ rest, r.decode (bytes ++ rest) = .done a rest
  cutLast : ∀ p q, bytes = p ++ q → q.length = 1 → r.decode p = .done b []
  cut : ∀ p q, bytes = p ++ q → 1 < q.length → ∀ c rest, r.decode p ≠ .done c rest

/-- A framed part in front of a part that guesses its last byte. -/
theorem Frames.bindButLast {r : Reader ε α} {f : α → Reader ε β} {bs cs : List UInt8}
    {a : α} {b c : β} (hr : Frames r bs a) (hf : FramesButLast (f a) cs b c)
    (hc : cs ≠ []) : FramesButLast (r >>= f) (bs ++ cs) b c := by
  constructor
  · intro rest
    rw [List.append_assoc, decode_bind_of_done (hr.done _), hf.done]
  · intro p q h hq
    obtain ⟨p', hp, hdecode⟩ | ⟨q', hq', -, rfl⟩ := decode_bind_cut hr.done f h
    · rw [hdecode]
      exact hf.cutLast p' q hp hq
    · have hfirst := List.length_pos_of_ne_nil hq'
      have hsecond := List.length_pos_of_ne_nil hc
      rw [List.length_append] at hq
      omega
  · intro p q h hq
    obtain ⟨p', hp, hdecode⟩ | ⟨q', hq', hbs, -⟩ := decode_bind_cut hr.done f h
    · rw [hdecode]
      exact hf.cut p' q hp hq
    · exact decode_bind_ne_done (hr.cut p q' hbs hq') f

/-- A guessed byte is harmless when the part after it returns nothing at the end of
the stream. -/
theorem FramesButLast.bind {r : Reader ε α} {f : α → Reader ε β} {bs cs : List UInt8}
    {a g : α} {b : β} (hr : FramesButLast r bs a g) (hf : Frames (f a) cs b)
    (hg : ∀ c rest, (f g).decode [] ≠ .done c rest) :
    Frames (r >>= f) (bs ++ cs) b := by
  constructor
  · intro rest
    rw [List.append_assoc, decode_bind_of_done (hr.done _), hf.done]
  · intro p q h hq
    obtain ⟨p', hp, hdecode⟩ | ⟨q', hq', hbs, -⟩ := decode_bind_cut hr.done f h
    · rw [hdecode]
      exact hf.cut p' q hp hq
    · have hpos := List.length_pos_of_ne_nil hq'
      obtain hlast | hmore := Nat.eq_or_lt_of_le hpos
      · rw [decode_bind_of_done (hr.cutLast p q' hbs hlast.symm)]
        exact hg
      · exact decode_bind_ne_done (hr.cut p q' hbs hmore) f

/-- A final function of the value maps both the value and the guess. -/
theorem FramesButLast.map {r : Reader ε α} {bs : List UInt8} {a b : α}
    (hr : FramesButLast r bs a b) (g : α → β) :
    FramesButLast (r >>= fun x => Pure.pure (g x)) bs (g a) (g b) := by
  constructor
  · intro rest
    rw [decode_bind_of_done (hr.done _), decode_pure]
  · intro p q h hq
    rw [decode_bind_of_done (hr.cutLast p q h hq), decode_pure]
  · intro p q h hq
    exact decode_bind_ne_done (hr.cut p q h hq) _

/-! ### Running a program on a stream -/

/-- The result of running for a bounded time: a value and the stream left, a failure,
or no result yet. -/
inductive Outcome (ε α : Type) where
  | returned (a : α) (s : Stream)
  | threw (e : ε)
  | unfinished

/-- Run a program on a stream, given the loop that fills a buffer. -/
def run (fully : Nat → Stream → Outcome ε (List UInt8)) :
    Reader ε α → Stream → Outcome ε α
  | ret a, s => .returned a s
  | fail e, _ => .threw e
  | readByte k, s => (k s.readByte.1).run fully s.readByte.2
  | readFully len k, s =>
    match fully len s with
    | .returned buf s' => (k buf).run fully s'
    | .threw e => .threw e
    | .unfinished => .unfinished

/-- What a stream run must report for a given decoding of the same bytes. -/
def Agrees : Decoded ε α → Outcome ε α → Prop
  | .done a rest, o => ∃ s, o = .returned a s ∧ s.remaining = rest
  | .failed e, o => o = .threw e
  | .starved, o => o = .unfinished

/-- If the loop fills every buffer that the stream can fill and stays unfinished on
every other, a run agrees with the decoding of the stream's bytes. -/
theorem run_agrees (fully : Nat → Stream → Outcome ε (List UInt8)) (bound : Nat)
    (hfill : ∀ len s, s.remaining.length ≤ bound → len ≤ s.remaining.length →
      ∃ s', fully len s = .returned (s.remaining.take len) s' ∧
        s'.remaining = s.remaining.drop len)
    (hstarve : ∀ len s, s.remaining.length < len → fully len s = .unfinished)
    (r : Reader ε α) (s : Stream) (hs : s.remaining.length ≤ bound) :
    Agrees (r.decode s.remaining) (r.run fully s) := by
  induction r generalizing s with
  | ret a => exact ⟨s, rfl, rfl⟩
  | fail e => rfl
  | readByte k ih =>
    refine ih _ s.readByte.2 ?_
    simp only [Stream.readByte, List.length_tail]
    omega
  | readFully len k ih =>
    simp only [decode, run]
    split
    · next h => rw [hstarve len s h]; rfl
    · next h =>
      obtain ⟨s', hf, hr⟩ := hfill len s hs (by omega)
      have hb : s'.remaining.length ≤ bound := by rw [hr, List.length_drop]; omega
      have hi := ih (s.remaining.take len) s' hb
      rw [hr] at hi
      simpa only [hf] using hi

/-- If the loop may also stop early, a run agrees with the decoding or is unfinished. -/
theorem run_unfinished_or_agrees (fully : Nat → Stream → Outcome ε (List UInt8))
    (hfill : ∀ len s, len ≤ s.remaining.length →
      fully len s = .unfinished ∨ ∃ s', fully len s = .returned (s.remaining.take len) s' ∧
        s'.remaining = s.remaining.drop len)
    (hstarve : ∀ len s, s.remaining.length < len → fully len s = .unfinished)
    (r : Reader ε α) (s : Stream) :
    r.run fully s = .unfinished ∨ Agrees (r.decode s.remaining) (r.run fully s) := by
  induction r generalizing s with
  | ret a => exact .inr ⟨s, rfl, rfl⟩
  | fail e => exact .inr rfl
  | readByte k ih => exact ih _ s.readByte.2
  | readFully len k ih =>
    simp only [decode, run]
    by_cases hl : s.remaining.length < len
    · exact .inl (by rw [hstarve len s hl])
    · rw [if_neg hl]
      rcases hfill len s (by omega) with hf | ⟨s', hf, hr⟩
      · exact .inl (by rw [hf])
      · simpa only [hf, hr] using ih (s.remaining.take len) s'

end Reader

end MessageBus.Base
