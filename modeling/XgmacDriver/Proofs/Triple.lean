import XgmacDriver.Machine.Run

/-! # What a step guarantees

`Meets P x Q` says that the step `x`, run on a machine with `P`, ends with a result and a machine
that satisfy `Q`. An attempt has a second postcondition for the machine that its failure leaves
behind. `Keeps view x` says that a part of the machine is the same after `x` as before it.
-/

namespace XgmacDriver

variable {σ α β γ : Type}

namespace Driver

def Meets (P : Machine σ → Prop) (x : Driver σ α) (Q : α → Machine σ → Prop) : Prop :=
  ∀ m, P m → Q (x.run m).1 (x.run m).2

variable {P P' : Machine σ → Prop} {R : α → Machine σ → Prop} {Q Q' : β → Machine σ → Prop}

theorem Meets.bind {x : Driver σ α} {f : α → Driver σ β}
    (hx : Meets P x R) (hf : ∀ a, Meets (R a) (f a) Q) : Meets P (x >>= f) Q := by
  intro m hm
  exact hf _ _ (hx m hm)

theorem Meets.mono {x : Driver σ β} (hx : Meets P x Q) (hP : ∀ m, P' m → P m)
    (hQ : ∀ a m, Q a m → Q' a m) : Meets P' x Q' := by
  intro m hm
  exact hQ _ _ (hx m (hP m hm))

theorem Meets.pre {x : Driver σ β} (hx : Meets P x Q) (hP : ∀ m, P' m → P m) : Meets P' x Q :=
  hx.mono hP fun _ _ h => h

theorem Meets.post {x : Driver σ β} (hx : Meets P x Q) (hQ : ∀ a m, Q a m → Q' a m) :
    Meets P x Q' :=
  hx.mono (fun _ h => h) hQ

/-- A fact about the precondition that speaks of no machine may be assumed. -/
theorem Meets.given {φ : Prop} {x : Driver σ β} (hx : φ → Meets P x Q) :
    Meets (fun m => φ ∧ P m) x Q :=
  fun m hm => hx hm.1 m hm.2

theorem Meets.any {ι : Type} {P : ι → Machine σ → Prop} {x : Driver σ β}
    (hx : ∀ i, Meets (P i) x Q) : Meets (fun m => ∃ i, P i m) x Q := by
  rintro m ⟨i, hm⟩
  exact hx i m hm

theorem meets_pure {a : β} (h : ∀ m, P m → Q a m) : Meets P (pure a : Driver σ β) Q := h

theorem Meets.ite {p : Prop} [Decidable p] {x y : Driver σ β}
    (hx : p → Meets P x Q) (hy : ¬p → Meets P y Q) : Meets P (if p then x else y) Q := by
  by_cases h : p
  · rw [if_pos h]
    exact hx h
  · rw [if_neg h]
    exact hy h

theorem meets_get : Meets P (get : Driver σ (Machine σ)) fun r m => P m ∧ r = m :=
  fun _ hm => ⟨hm, rfl⟩

theorem meets_interface : Meets P interface fun i m => P m ∧ i = m.interface :=
  fun _ hm => ⟨hm, rfl⟩

theorem meets_config : Meets P config fun config m => P m ∧ config = m.interface.config :=
  fun _ hm => ⟨hm, rfl⟩

theorem meets_readMemory (a : Addr) (n : Nat) : Meets P (readMemory a n) fun _ => P :=
  fun _ hm => hm

section

variable {c : Collaborators σ}

theorem meets_command {k : Command} {Q : Except EngineStatus Unit → Machine σ → Prop}
    (hok : ∀ m world, P m → c.command m.clock k m.world = (.ok (), world) → Q (.ok ()) { m with
      trace := m.trace.push (.command k (.ok ())), world, engine := m.engine.accept k })
    (herror : ∀ m world status, P m → c.command m.clock k m.world = (.error status, world) →
      Q (.error status) { m with trace := m.trace.push (.command k (.error status)), world }) :
    Meets P (command c k) Q := by
  intro m hm
  rw [run_command]
  rcases hanswer : c.command m.clock k m.world with ⟨status | ⟨⟩, world⟩
  · exact herror m world status hm hanswer
  · exact hok m world hm hanswer

theorem meets_getBuffer {wanted block : Nat} {Q : Option NetworkBuffer → Machine σ → Prop}
    (h : ∀ m answer world, P m → c.getBuffer wanted block m.world = (answer, world) →
      Q answer { m with trace := m.trace.push (.getBuffer wanted block answer), world }) :
    Meets P (getBuffer c wanted block) Q := by
  intro m hm
  rw [run_getBuffer]
  exact h m _ _ hm rfl

theorem meets_releaseBuffer {i : UInt16} {Q : Unit → Machine σ → Prop}
    (h : ∀ m accepted world, P m → c.releaseBuffer i m.world = (accepted, world) →
      Q () { m with trace := m.trace.push (.releaseBuffer i accepted), world }) :
    Meets P (releaseBuffer c i) Q := by
  intro m hm
  rw [run_releaseBuffer]
  exact h m _ _ hm rfl

theorem meets_considerFrame {bytes : List UInt8} {Q : Disposition → Machine σ → Prop}
    (h : ∀ m verdict world, P m → c.considerFrame bytes m.world = (verdict, world) →
      Q verdict { m with trace := m.trace.push (.considerFrame bytes verdict), world }) :
    Meets P (considerFrame c bytes) Q := by
  intro m hm
  rw [run_considerFrame]
  exact h m _ _ hm rfl

theorem meets_matchEndpoint {bytes : List UInt8} {Q : Option UInt16 → Machine σ → Prop}
    (h : ∀ m answer world, P m →
      c.matchEndpoint m.interface.index bytes m.world = (answer, world) → Q answer { m with
        trace := m.trace.push (.matchEndpoint m.interface.index bytes answer), world }) :
    Meets P (matchEndpoint c bytes) Q := by
  intro m hm
  rw [run_matchEndpoint]
  exact h m _ _ hm rfl

theorem meets_lookup {a : Addr} {Q : Option NetworkBuffer → Machine σ → Prop}
    (h : ∀ m answer world, P m → c.lookup a m.world = (answer, world) →
      Q answer { m with trace := m.trace.push (.lookup a answer), world }) :
    Meets P (lookup c a) Q := by
  intro m hm
  rw [run_lookup]
  exact h m _ _ hm rfl

theorem meets_sendRxEvent {fs : List RxFrame} {Q : Bool → Machine σ → Prop}
    (h : ∀ m taken world, P m → c.sendRxEvent (fs.map (Delivery.of m.memory)) rxEventTimeout
      m.world = (taken, world) → Q taken { m with
        trace := m.trace.push (.rxEvent rxEventTimeout (fs.map (Delivery.of m.memory)) taken)
        world }) :
    Meets P (sendRxEvent c fs) Q := by
  intro m hm
  rw [run_sendRxEvent]
  exact h m _ _ hm rfl

theorem meets_onPool {d : Direction} {call : Pool → Lock → Clock → Memory → Pool.Reply β}
    {Q : Except DriverError β → Machine σ → Prop}
    (h : ∀ m reply, P m → call (m.interface.pool d) (c.lock d m.world) m.clock m.memory = reply →
      Q reply.result { m with
        interface := m.interface.setPool reply.pool d
        clock := reply.clock
        memory := reply.memory
        log := m.log ++ reply.log }) :
    Meets P (onPool c d call) Q :=
  fun m hm => h m _ hm rfl

end

theorem meets_nextReceived {Q : Option RxCompletion → Machine σ → Prop}
    (h : ∀ m answer engine, P m → m.engine.nextCompleted = (answer, engine) →
      Q answer { m with trace := m.trace.push (.nextReceived answer), engine }) :
    Meets P nextReceived Q := by
  intro m hm
  rw [run_nextReceived]
  exact h m _ _ hm rfl

theorem meets_nextTransmitted {Q : TxAnswer → Machine σ → Prop}
    (h : ∀ m answer engine, P m → m.engine.nextDone = (answer, engine) →
      Q answer { m with trace := m.trace.push (.nextTransmitted answer), engine }) :
    Meets P nextTransmitted Q := by
  intro m hm
  rw [run_nextTransmitted]
  exact h m _ _ hm rfl

/-- A wait by its parts: what arrives meanwhile, if it blocks, and the word that it clears. -/
theorem meets_wait {c : Collaborators σ} {ms : UInt64} {Q : EventWord → Machine σ → Prop}
    (harrive : ∀ m, P m → P (((c.duringWait ms m.world).1.forM arrive : Driver σ Unit).run { m with
      clock := m.clock.advance ms, world := (c.duringWait ms m.world).2 }).2)
    (hclear : ∀ m, P m → Q m.interface.notifier.word { m with
      interface := m.interface.mapNotifier Notifier.clear
      trace := m.trace.push (.wait ms m.interface.notifier.word) }) : Meets P (wait c ms) Q := by
  intro m hm
  unfold wait
  by_cases hword : m.interface.notifier.word = .none
  · simp only [StateT.run_bind, run_interface, pure_bind, hword, if_true]
    exact hclear _ (harrive m hm)
  · simp only [StateT.run_bind, run_interface, pure_bind, hword, if_false]
    exact hclear m hm

theorem Meets.forM {x : α → Driver σ Unit} {I : List α → Machine σ → Prop}
    (h : ∀ a as, Meets (I (a :: as)) (x a) fun _ => I as) (as : List α) :
    Meets (I as) (as.forM x) fun _ => I [] := by
  induction as with
  | nil => exact meets_pure fun _ hm => hm
  | cons a as ih =>
      rw [List.forM_eq_forM, List.forM_cons]
      exact (h a as).bind fun _ => ih

def Keeps (view : Machine σ → γ) (x : Driver σ α) : Prop :=
  ∀ m, view (x.run m).2 = view m

variable {view : Machine σ → γ}

theorem keeps_pure (a : α) : Keeps view (pure a : Driver σ α) := fun _ => rfl

theorem Keeps.bind {x : Driver σ α} {f : α → Driver σ β}
    (hx : Keeps view x) (hf : ∀ a, Keeps view (f a)) : Keeps view (x >>= f) := by
  intro m
  exact (hf _ _).trans (hx m)

theorem Keeps.ite {p : Prop} [Decidable p] {x y : Driver σ α}
    (hx : Keeps view x) (hy : Keeps view y) : Keeps view (if p then x else y) := by
  by_cases h : p
  · rwa [if_pos h]
  · rwa [if_neg h]

theorem keeps_get : Keeps view (get : Driver σ (Machine σ)) := fun _ => rfl

theorem keeps_interface : Keeps view (interface : Driver σ Interface) := fun _ => rfl

theorem keeps_of_meets {x : Driver σ α}
    (h : ∀ v, Meets (fun m => view m = v) x fun _ m => view m = v) : Keeps view x :=
  fun m => h (view m) m rfl

theorem Keeps.meets {x : Driver σ α} (hx : Keeps view x) (p : γ → Prop) :
    Meets (fun m => p (view m)) x fun _ m => p (view m) := by
  intro m hm
  rw [hx m]
  exact hm

end Driver

namespace Attempt

/-- `Q` after a result, `E` after a failure. -/
def Outcome (Q : α → Machine σ → Prop) (E : Failure → Machine σ → Prop) :
    Except Failure α → Machine σ → Prop
  | .ok a => Q a
  | .error f => E f

def Meets (P : Machine σ → Prop) (x : Attempt σ α) (Q : α → Machine σ → Prop)
    (E : Failure → Machine σ → Prop) : Prop :=
  Driver.Meets P x.run (Outcome Q E)

variable {P P' : Machine σ → Prop} {R : α → Machine σ → Prop} {Q Q' : β → Machine σ → Prop}
  {E E' : Failure → Machine σ → Prop}

theorem meets_pure {a : β} (h : ∀ m, P m → Q a m) : Meets P (pure a : Attempt σ β) Q E := h

theorem Meets.bind {x : Attempt σ α} {f : α → Attempt σ β}
    (hx : Meets P x R E) (hf : ∀ a, Meets (R a) (f a) Q E) : Meets P (x >>= f) Q E := by
  unfold Meets
  rw [ExceptT.run_bind]
  refine Driver.Meets.bind (show Driver.Meets P x.run (Outcome R E) from hx) ?_
  rintro (f | a)
  · exact Driver.meets_pure fun _ h => h
  · exact hf a

theorem Meets.mono {x : Attempt σ β} (hx : Meets P x Q E) (hP : ∀ m, P' m → P m)
    (hQ : ∀ a m, Q a m → Q' a m) (hE : ∀ f m, E f m → E' f m) : Meets P' x Q' E' := by
  refine Driver.Meets.mono (show Driver.Meets P x.run (Outcome Q E) from hx) hP ?_
  rintro (f | a) m h
  · exact hE f m h
  · exact hQ a m h

theorem Meets.pre {x : Attempt σ β} (hx : Meets P x Q E) (hP : ∀ m, P' m → P m) :
    Meets P' x Q E :=
  hx.mono hP (fun _ _ h => h) fun _ _ h => h

theorem Meets.post {x : Attempt σ β} (hx : Meets P x Q E) (hQ : ∀ a m, Q a m → Q' a m) :
    Meets P x Q' E :=
  hx.mono (fun _ h => h) hQ fun _ _ h => h

theorem Meets.ite {p : Prop} [Decidable p] {x y : Attempt σ β}
    (hx : p → Meets P x Q E) (hy : ¬p → Meets P y Q E) : Meets P (if p then x else y) Q E := by
  by_cases h : p
  · rw [if_pos h]
    exact hx h
  · rw [if_neg h]
    exact hy h

/-- A fact that the precondition implies for every machine may be assumed. -/
theorem Meets.assuming {φ : Prop} {x : Attempt σ β} (hφ : ∀ m, P m → φ)
    (hx : φ → Meets P x Q E) : Meets P x Q E :=
  fun m hm => hx (hφ m hm) m hm

theorem Meets.outcome {x : Attempt σ β} {m m' : Machine σ} {result : Except Failure β}
    (hx : Meets P x Q E) (hm : P m) (hrun : x.run.run m = (result, m')) :
    Outcome Q E result m' := by
  have hend : Outcome Q E (x.run.run m).1 (x.run.run m).2 := hx m hm
  rwa [hrun] at hend

theorem Meets.afterwards {x : Attempt σ α} {S : Machine σ → Prop}
    (hx : Meets P x (fun _ => S) fun _ => S) {m : Machine σ} (hm : P m) :
    S (x.run.run m).2 := by
  rcases hrun : x.run.run m with ⟨f | a, m'⟩
  · exact hx.outcome hm hrun
  · exact hx.outcome hm hrun

theorem meets_always {x : Driver σ β} (hx : Driver.Meets P x Q) : Meets P (always x) Q E := hx

theorem meets_fail {e : DriverError} (h : ∀ m, P m → E (.error e) m) :
    Meets P (fail e : Attempt σ β) Q E := h

theorem meets_halt {h : Halt} (hE : ∀ m, P m → E (.halt h) m) :
    Meets P (halt h : Attempt σ β) Q E := hE

def Keeps {γ : Type} (view : Machine σ → γ) (x : Attempt σ α) : Prop := Driver.Keeps view x.run

section

variable {γ : Type} {view : Machine σ → γ}

theorem Keeps.meets {x : Attempt σ α} (hx : Keeps view x) (p : γ → Prop) :
    Meets (fun m => p (view m)) x (fun _ m => p (view m)) fun _ m => p (view m) := by
  refine Driver.Meets.post (Driver.Keeps.meets hx p) ?_
  rintro (f | a) m hm
  · exact hm
  · exact hm

theorem keeps_of_meets {x : Attempt σ α}
    (h : ∀ v, Meets (fun m => view m = v) x (fun _ m => view m = v) fun _ m => view m = v) :
    Keeps view x :=
  fun m => (h (view m)).afterwards rfl

/-- What a step keeps may be read before it and used after it. -/
theorem Meets.keeping {x : Attempt σ β} (hx : Meets P x Q E) (hkeeps : Keeps view x) (v : γ) :
    Meets (fun m => P m ∧ v = view m) x (fun a m => Q a m ∧ v = view m) E := by
  rintro m ⟨hm, rfl⟩
  have hview : view (x.run.run m).2 = view m := hkeeps m
  rcases hrun : x.run.run m with ⟨f | a, m'⟩
  · exact hx.outcome hm hrun
  · rw [hrun] at hview
    exact ⟨hx.outcome hm hrun, hview.symm⟩

end

end Attempt

end XgmacDriver
