import XgmacDriver.Proofs.Lifetime
import XgmacDriver.Proofs.PendingWork

/-! # No work is stranded

Interrupts, passes of the task and output follow each other in any order once the interface is
ready. Whenever work waits between two of them, the word has its bit or the last drain or reclaim
was cut short, so that a cleared word never hides work that nobody was going to do.
-/

namespace XgmacDriver

open Machine WorkView

variable {σ : Type} {c : Collaborators σ} {m₀ m : Machine σ}

/-- The machines that the service of a ready interface goes through, from `m₀` with empty queues. -/
inductive ServiceRun (c : Collaborators σ) (m₀ : Machine σ) : Machine σ → Prop
  | start {last : Option (Machine σ)} : Lifetime c last m₀ → m₀.interface.stage = .ready →
      m₀.engine.completed = [] → m₀.interface.notifier.completions.count = 0 → ServiceRun c m₀ m₀
  | arrive {m : Machine σ} {xs : List Arrival} : ServiceRun c m₀ m → Announced xs →
      ServiceRun c m₀ ((xs.forM Driver.arrive : Driver σ Unit).run m).2
  | serve {m : Machine σ} (timer : PollTimer) : ServiceRun c m₀ m →
      ServiceRun c m₀ ((Attempt.serve c timer).run.run m).2
  | output {m : Machine σ} (buffer : NetworkBuffer) (releaseAfterSend : Bool) : ServiceRun c m₀ m →
      ServiceRun c m₀ ((Attempt.output c buffer releaseAfterSend).run.run m).2
  | elsewhere {m m' : Machine σ} : ServiceRun c m₀ m → m'.interface = m.interface →
      m'.engine = m.engine → m'.trace = m.trace → ServiceRun c m₀ m'

theorem ServiceRun.pending (harrivals : ∀ ms world, Announced (c.duringWait ms world).1)
    (h : ServiceRun c m₀ m) : OnWork (Pending m₀.drains m₀.reclaims) m := by
  induction h with
  | start hlife hready hcompleted hcount =>
      obtain ⟨-, handle, hcommissioned⟩ | ⟨hnot, -⟩ := hlife.leftBy.served
      · exact {
          engineOpen := hcommissioned.engineOpen
          callback := hcommissioned.callback
          armed := hcommissioned.armed
          drains := List.prefix_refl _
          reclaims := List.prefix_refl _
          received := Or.inl hcompleted
          transmitted := Or.inl hcount }
      · exact absurd hready hnot
  | arrive _ hxs ih => exact Driver.work_arriveAll hxs _ ih
  | serve timer _ ih => exact (Attempt.work_serve harrivals timer).afterwards ih
  | output buffer releaseAfterSend _ ih =>
      exact ((Attempt.keepsWork_output buffer releaseAfterSend).meets _).afterwards ih
  | elsewhere _ hinterface hengine htrace ih =>
      rw [OnWork, blind_work.congr hinterface hengine htrace]
      exact ih

/-- Received frames wait only with the bit of reception set or after a drain that met a descriptor
without a buffer or had a refill refused. Counted completions wait only with the bit of transmission
set or after a reclaim that an error of the engine ended. -/
theorem ServiceRun.nothing_stranded (harrivals : ∀ ms world, Announced (c.duringWait ms world).1)
    (h : ServiceRun c m₀ m) :
    (m.engine.completed ≠ [] → m.interface.notifier.word.rx = true ∨
        StoppedSince Exchange.stopsDrain m₀.drains m.drains) ∧
      (0 < m.interface.notifier.completions.count → m.interface.notifier.word.tx = true ∨
        StoppedSince Exchange.stopsReclaim m₀.reclaims m.reclaims) := by
  have hpending := h.pending harrivals
  exact ⟨hpending.received.resolve_left, fun hcount =>
    hpending.transmitted.resolve_left (Nat.ne_of_gt hcount)⟩

/-- Two descriptors come back without a buffer, and two transmissions with an error. -/
def faultyArrivals : List Arrival :=
  [.received ⟨none, 0, 0⟩, .interrupt .received, .received ⟨none, 0, 0⟩, .interrupt .received,
    .transmitted (.error ⟨1⟩), .interrupt .transmitted, .transmitted (.error ⟨1⟩),
    .interrupt .transmitted]

/-- The pass over them ends both its drain and its reclaim at the first one. -/
def cutShortMachine : Machine Arena :=
  ((Attempt.serve (.ofArena (.ok ()) true) ⟨0, 0⟩).run.run
    ((faultyArrivals.forM Driver.arrive : Driver Arena Unit).run readyMachine).2).2

theorem ServiceRun.nothing_stranded_cut_short :
    (cutShortMachine.engine.completed ≠ [] ∧ cutShortMachine.interface.notifier.word = .none ∧
      StoppedSince Exchange.stopsDrain readyMachine.drains cutShortMachine.drains) ∧
    (0 < cutShortMachine.interface.notifier.completions.count ∧
      StoppedSince Exchange.stopsReclaim readyMachine.reclaims cutShortMachine.reclaims) := by
  have hregister : Interface.register 0 { zeroCopyRx := true } = .ok _ := rfl
  have hlife : Lifetime (.ofArena (.ok ()) true) (some freshMachine) readyMachine :=
    (Lifetime.registered hregister).initialise
  have hstart : ServiceRun (.ofArena (.ok ()) true) readyMachine readyMachine :=
    .start hlife (by decide +kernel) (by decide +kernel) (by decide +kernel)
  have hannounced : Announced faultyArrivals :=
    .received (.received (.transmitted (.transmitted .nil)))
  have hrun : ServiceRun (.ofArena (.ok ()) true) readyMachine cutShortMachine :=
    (hstart.arrive hannounced).serve ⟨0, 0⟩
  have hcompleted : cutShortMachine.engine.completed ≠ [] := by decide +kernel
  have hcount : 0 < cutShortMachine.interface.notifier.completions.count := by decide +kernel
  have hword : cutShortMachine.interface.notifier.word = .none := by decide +kernel
  obtain ⟨hdrain, hreclaim⟩ := ServiceRun.nothing_stranded (fun _ _ => .nil) hrun
  rw [hword] at hdrain hreclaim
  exact ⟨⟨hcompleted, hword, (hdrain hcompleted).resolve_left nofun⟩, hcount,
    (hreclaim hcount).resolve_left nofun⟩

end XgmacDriver
