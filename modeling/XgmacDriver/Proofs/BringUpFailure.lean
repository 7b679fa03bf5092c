import XgmacDriver.Proofs.BringUpRule

/-! # Which stage has failed

A call of `initialise` that fails names a stage. It is the stage that the call had reached when the
work of a stage failed.
-/

namespace XgmacDriver.Attempt

variable {σ : Type} {c : Collaborators σ}

/-- A call of `initialise` on `m₀` reaches a stage, with the machine as it is then. Between two
stages the driver writes its log. -/
inductive Reaches (c : Collaborators σ) (m₀ : Machine σ) : Stage → Machine σ → Prop
  | entry : Reaches c m₀ m₀.interface.stage.entry m₀
  | next {s : Stage} {m m' : Machine σ} : Reaches c m₀ s m → s.isTerminal = false →
      (runStage c s).run.run m = (.ok .done, m') → Reaches c m₀ s.successor m'
  | report {s : Stage} {m : Machine σ} {entry : LogEntry} : Reaches c m₀ s m →
      Reaches c m₀ s { m with log := m.log.push entry }

/-- A call of `initialise` on `m₀` reaches stage `s`, and the work of that stage fails. -/
def FailsIn (c : Collaborators σ) (m₀ : Machine σ) (s : Stage) : Prop :=
  ∃ m m' e, Reaches c m₀ s m ∧ (runStage c s).run.run m = (.error (.error e), m')

variable {m₀ : Machine σ}

theorem reaches_runStage {s : Stage} (hs : s.isTerminal = false) :
    Meets (Reaches c m₀ s) (runStage c s)
      (fun outcome m => outcome = .done → Reaches c m₀ s.successor m)
      fun f _ => ∀ e, f = .error e → FailsIn c m₀ s := by
  intro m hm
  show Outcome _ _ ((runStage c s).run.run m).1 ((runStage c s).run.run m).2
  rcases hrun : (runStage c s).run.run m with ⟨f | outcome, m'⟩
  · rintro e rfl
    exact ⟨m, m', e, hm, hrun⟩
  · rintro rfl
    exact hm.next hs hrun

theorem reaches_runStages (m₀ : Machine σ) (s : Stage) :
    Meets (fun m => s ≠ .failed → Reaches c m₀ s m) (runStages c s) (fun _ _ => True)
      fun f _ => ∀ e, f = .error e → ∃ t, e = .initFailed t ∧ FailsIn c m₀ t := by
  refine meets_runStages (I := fun s m => s ≠ .failed → Reaches c m₀ s m)
    (fun s entry m hm hs => (hm hs).report) (fun _ _ _ _ => trivial) (fun s hworking => ?_) s
  have hs : s ≠ .failed := by
    rintro rfl
    cases hworking
  refine (meets_runStageOrFail s ((reaches_runStage hworking).pre fun m hm => hm hs)
    (fun _ _ _ hm => hm) ?_ ?_).post ?_
  · rintro e m hm - ⟨⟩
    exact ⟨s, rfl, hm e rfl⟩
  · rintro h m - e ⟨⟩
  · rintro (_ | _ | _) m hm
    · rw [(Stage.next_done hworking).1, if_neg (Stage.next_done hworking).2]
      exact fun _ => hm rfl
    · rw [if_pos (by simp [Stage.next])]
      trivial
    · have hnext : s.next .failed = .failed := by simp [Stage.next, hworking]
      rw [hnext, if_neg hs.symm]
      exact fun hne => absurd rfl hne

theorem failsIn_of_initialise {m m' : Machine σ} {s : Stage} (hs : s ≠ .failed)
    (hrun : (initialise c).run.run m = (.error (.error (.initFailed s)), m')) : FailsIn c m s := by
  have hcall : Meets (fun m' => m' = m) (initialise c) (fun _ _ => True)
      fun f _ => ∀ s, f = .error (.initFailed s) → s ≠ .failed → FailsIn c m s := by
    refine meets_initialise (fun s => (reaches_runStages m s).mono ?_ (fun _ _ hm => hm) ?_)
      (fun _ _ => trivial) ?_ ?_
    · rintro - ⟨rfl, rfl⟩ -
      exact .entry
    · rintro f _ hf s rfl -
      obtain ⟨t, ht, hfails⟩ := hf _ rfl
      cases ht
      exact hfails
    · rintro t m - - - s ⟨⟩
    · rintro m - s ⟨⟩ hne
      exact absurd rfl hne
  exact hcall.outcome rfl hrun s rfl hs

end XgmacDriver.Attempt
