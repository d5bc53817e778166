import MessageBus.Bus.Quiescence
import MessageBus.Distributor.Departures

/-!
# Departing clients

What becomes of a client that leaves. In a state at rest each connection either goes on and
is settled, or its interactor is disposed and has left nothing in the repositories, unless
the write task failed where the read task did not.
-/

namespace MessageBus
open Base Common Messages Adapters Distributor

namespace Bus

variable {settings : Settings} {h : History Bus Action} {b : Bus}

/-- In a state at rest in which the event loop is not stopped and not stalled, an interactor
that still reads is settled, and any other is disposed; the disposed are in no repository, but
for one that failed to write and did not fail to read. -/
theorem settled_or_gone (hr : Runs settings h b) (hrest : AtRest (step settings) Internal b)
    (hrun : b.system.isRunning = true) (hs : ∀ i, ¬ b.system.Stalled i) :
    ∀ i ∈ b.system.accepted,
      (b.system.server.objects i).readTask = .reading ∧ Settled h b i ∨
        (b.system.server.objects i).tokenSource = .disposed ∧
          (b.system.server.Absent i ∨ System.WriteFailed i (distributed h) ∧
            ¬ System.ReadFailed i (distributed h)) := by
  intro i hi
  have hsys := Runs.system hr
  have hq := handled_of_running hr hrest hrun hs
  have hsound := System.Runs.sound settings hsys i
  have hdisposed : (b.system.server.objects i).HasEnded →
      (b.system.server.objects i).tokenSource = .disposed := by
    intro he
    rcases hsound.reported he with hd | ⟨e, he, -⟩
    · exact hd
    · rw [hq] at he
      cases he
  rcases (tasksWait_of_atRest hr hrest i).read with hread | hread | ⟨hread, -⟩
  · have hconnected := System.Runs.awaits settings hsys i hi hread
    rw [hq] at hconnected
    cases hconnected
  · have hended : (b.system.server.objects i).HasEnded := .inl (.inr hread)
    refine .inr ⟨hdisposed hended, ?_⟩
    by_cases hf : System.ReadFailed i (distributed h)
    · refine .inl (System.Runs.absent_of_readFailed hsys hf ?_)
      rw [System.waiting, hq, List.filter_nil]
    · exact .inr ⟨(System.Runs.failed_of_ended hsys hended).resolve_left hf, hf⟩
  · refine .inl ⟨hread, settled_of_unreported hr hrest hq hi fun hd => ?_⟩
    cases (hsound.disposed hd).1.symm.trans hread

/-- The subscriber of a publication disposes its client, and all tasks of the connection end. -/
def oneDeparture : List Action :=
  onePublication ++ [.client ⟨1⟩ .dispose, .client ⟨1⟩ .checkWrite,
    .client ⟨1⟩ (.readError .endOfStream), .distributor (.readError ⟨1⟩ .endOfStream),
    .distributor (.endRead ⟨1⟩), .distributor (.checkWrite ⟨1⟩), .distributor (.endWrite ⟨1⟩),
    .distributor .process]

/-- The publisher stays and the subscriber is gone. -/
theorem settled_or_gone_of_departure :
    ∃ h b, Runs (.permissive false) h b ∧ b.system.accepted = [⟨2⟩, ⟨1⟩] ∧
      (b.system.server.objects ⟨1⟩).tokenSource = .disposed ∧
      ∀ i ∈ b.system.accepted,
        (b.system.server.objects i).readTask = .reading ∧ Settled h b i ∨
          (b.system.server.objects i).tokenSource = .disposed ∧
            (b.system.server.Absent i ∨ System.WriteFailed i (distributed h) ∧
              ¬ System.ReadFailed i (distributed h)) := by
  obtain ⟨h, b, hr, hobs⟩ := exists_run_of_exec (step (.permissive false)) init oneDeparture
    (fun x => (x.2.system.isRunning, decide (x.2.system.eventQueue = []),
      decide (∀ i ∈ x.2.clients, x.2.Waits i), x.2.system.accepted,
      (x.2.system.server.objects ⟨1⟩).tokenSource))
    (true, true, true, [⟨2⟩, ⟨1⟩], .disposed) (by decide +kernel)
  simp only [Prod.mk.injEq, decide_eq_true_eq] at hobs
  obtain ⟨hrun, hq, hi, ha, hd⟩ := hobs
  have hs : ∀ i, ¬ b.system.Stalled i := by
    rintro i ⟨hnext, -⟩
    rw [hq] at hnext
    cases hnext
  exact ⟨h, b, hr, ha, hd, settled_or_gone hr (atRest_of_waits hr hq hi) hrun hs⟩

end Bus

end MessageBus
