import MessageBus.Messages.Framing
import MessageBus.Messages.Layout

/-!
# Reading at the end of a stream

A .NET read at the end of a stream delivers zero bytes, and `ReadFully` takes only a
negative count for the end; `ReadBoolean` compares -1 with zero. So a field that the end
of the stream cuts keeps `Message.Read` in its loop, and a boolean that the end cuts off
is read as true.
-/

namespace MessageBus.Messages
open MessageBus.Base MessageBus.Common DataReader

namespace Message

/-- `Message.Read` ends, by a message or an exception, exactly on the streams that do
not end inside a field. -/
theorem read_ends_iff (bytes : List UInt8) (split : Nat → Nat) :
    (∃ fuel, DataReader.run fuel read (Stream.ofBytes split bytes) ≠ .unfinished) ↔
      Layout.message bytes ≠ .cut := by
  rw [run_ends_iff, Stream.ofBytes, Layout.starves_read_iff]

/-- A peer that disconnects after one byte of the length of its feed keeps the reader in
the loop of `ReadFully` for ever. -/
theorem read_cut_length_unfinished :
    ¬ ∀ (bytes : List UInt8) (split : Nat → Nat),
      ∃ fuel, DataReader.run fuel read (Stream.ofBytes split bytes) ≠ .unfinished := by
  intro h
  have hs := (run_ends_iff read (Stream.ofBytes (fun _ => 1) [5, 0])).mp (h _ _)
  rw [Stream.ofBytes, Layout.starves_read_iff] at hs
  exact hs (by decide)

private theorem decode_of_endsWithBoolean (m : Sendable) {p q : List UInt8}
    (h : m.val.write = p ++ q) (hb : m.val.endsWithBoolean = true) (hq : q.length = 1) :
    read.decode p = .done m.val.guessed.received [] :=
  (framesButLast_read m.val m.property hb).cutLast p q h hq

private theorem decode_ne_done (m : Sendable) {p q : List UInt8} (h : m.val.write = p ++ q)
    (hq : q ≠ []) (hc : ¬ (m.val.endsWithBoolean = true ∧ q.length = 1)) (m' : Message)
    (rest : List UInt8) : read.decode p ≠ .done m' rest := by
  have hpos := List.length_pos_of_ne_nil hq
  cases hb : m.val.endsWithBoolean with
  | false => exact (frames_read m.val m.property hb).cut p q h hq m' rest
  | true =>
    have hl : q.length ≠ 1 := fun hl => hc ⟨hb, hl⟩
    exact (framesButLast_read m.val m.property hb).cut p q h (by omega) m' rest

/-- A truncated message is never accepted, except where the class ends with a boolean
and just the byte of that boolean is missing. -/
theorem truncated_rejected_iff (m : Sendable) (p q : List UInt8) (h : m.val.write = p ++ q)
    (hq : q ≠ []) (split : Nat → Nat) :
    (∀ fuel m' s, DataReader.run fuel read (Stream.ofBytes split p) ≠ .returned m' s) ↔
      ¬ (m.val.endsWithBoolean = true ∧ q.length = 1) := by
  constructor
  · rintro hr ⟨hb, hl⟩
    have hd := decode_of_endsWithBoolean m h hb hl
    obtain ⟨s, hs, -⟩ := run_of_decode hd split (Nat.le_refl _)
    exact hr _ _ _ hs
  · intro hc fuel m' s hr
    exact decode_ne_done m h hq hc m' _ (decode_of_run hr)

/-- A request to unsubscribe that loses its last three bytes is not accepted. -/
theorem truncated_rejected_subscriptionRequest :
    ¬ ∃ fuel m' s, DataReader.run fuel read (Stream.ofBytes (fun _ => 2)
      [5, 0, 0, 0, 1, 65, 0, 0, 0]) = .returned m' s := by
  have hr := (truncated_rejected_iff ⟨.subscriptionRequest ⟨some "A", some "B", false⟩, by decide⟩
    [5, 0, 0, 0, 1, 65, 0, 0, 0] [1, 66, 0] (by decide) (by decide) fun _ => 2).mpr (by decide)
  rintro ⟨fuel, m', s, h⟩
  exact hr fuel m' s h

/-- A request to unsubscribe that loses its last byte is read as a request to subscribe. -/
theorem truncated_unsubscribe_accepted :
    ¬ ∀ (m : Sendable) (p q : List UInt8), m.val.write = p ++ q → q ≠ [] →
      ∀ (split : Nat → Nat) fuel m' s,
        DataReader.run fuel read (Stream.ofBytes split p) ≠ .returned m' s := by
  intro h
  exact h ⟨.subscriptionRequest ⟨some "A", some "B", false⟩, by decide⟩
    [5, 0, 0, 0, 1, 65, 0, 0, 0, 1, 66] [0] (by decide) (by decide) (fun _ => 4) 4
    (.subscriptionRequest ⟨"A", "B", true⟩) ⟨[], 4, fun _ => 4⟩ (by rfl)

end Message

end MessageBus.Messages
