import XgmacDriver.Machine.Attempt

/-! # What each step does to the machine

The effect of every single step as one equation: its result and the machine afterwards. With these
equations a path of the driver can be followed without looking into its steps.
-/

namespace XgmacDriver

variable {σ α : Type}

namespace Driver

@[simp] theorem run_ite (p : Prop) [Decidable p] (x y : Driver σ α) (m : Machine σ) :
    (if p then x else y).run m = if p then x.run m else y.run m := by
  split <;> rfl

@[simp] theorem run_record (x : Exchange) (m : Machine σ) :
    (record x).run m = pure ((), { m with trace := m.trace.push x }) := rfl

@[simp] theorem run_report (entry : LogEntry) (m : Machine σ) :
    (report entry).run m = pure ((), { m with log := m.log.push entry }) := rfl

@[simp] theorem run_consult (ask : σ → α × σ) (m : Machine σ) :
    (consult ask).run m = pure ((ask m.world).1, { m with world := (ask m.world).2 }) := rfl

@[simp] theorem run_modifyInterface (f : Interface → Interface) (m : Machine σ) :
    (modifyInterface f).run m = pure ((), { m with interface := f m.interface }) := rfl

@[simp] theorem run_modifyEngine (f : Engine → Engine) (m : Machine σ) :
    (modifyEngine f).run m = pure ((), { m with engine := f m.engine }) := rfl

@[simp] theorem run_interface (m : Machine σ) : interface.run m = pure (m.interface, m) := rfl

@[simp] theorem run_config (m : Machine σ) : config.run m = pure (m.interface.config, m) := rfl

@[simp] theorem run_copyMemory (src dst : Addr) (n : Nat) (m : Machine σ) :
    (copyMemory src dst n).run m = pure ((), { m with memory := m.memory.copy src dst n }) := rfl

variable (c : Collaborators σ)

@[simp] theorem run_command (k : Command) (m : Machine σ) :
    (command c k).run m =
      let r := c.command m.clock k m.world
      pure (r.1, { m with
        trace := m.trace.push (.command k r.1)
        world := r.2
        engine := if r.1.isOk then m.engine.accept k else m.engine }) := by
  simp [command]
  split <;> simp

@[simp] theorem run_readPhy (phy register : UInt8) (m : Machine σ) :
    (readPhy c phy register).run m =
      let r := c.readPhy phy register m.world
      pure (r.1, { m with trace := m.trace.push (.readPhy phy register r.1), world := r.2 }) := by
  simp [readPhy]

@[simp] theorem run_nextReceived (m : Machine σ) :
    nextReceived.run m = pure (m.engine.nextCompleted.1, { m with
      trace := m.trace.push (.nextReceived m.engine.nextCompleted.1)
      engine := m.engine.nextCompleted.2 }) := by
  simp [nextReceived]

@[simp] theorem run_nextTransmitted (m : Machine σ) :
    nextTransmitted.run m = pure (m.engine.nextDone.1, { m with
      trace := m.trace.push (.nextTransmitted m.engine.nextDone.1)
      engine := m.engine.nextDone.2 }) := by
  simp [nextTransmitted]

@[simp] theorem run_getBuffer (wanted block : Nat) (m : Machine σ) :
    (getBuffer c wanted block).run m =
      let r := c.getBuffer wanted block m.world
      pure (r.1, { m with trace := m.trace.push (.getBuffer wanted block r.1), world := r.2 }) := by
  simp [getBuffer]

@[simp] theorem run_releaseBuffer (index : UInt16) (m : Machine σ) :
    (releaseBuffer c index).run m =
      let r := c.releaseBuffer index m.world
      pure ((), { m with trace := m.trace.push (.releaseBuffer index r.1), world := r.2 }) := by
  simp [releaseBuffer]

@[simp] theorem run_considerFrame (bytes : List UInt8) (m : Machine σ) :
    (considerFrame c bytes).run m =
      let r := c.considerFrame bytes m.world
      pure (r.1, { m with trace := m.trace.push (.considerFrame bytes r.1), world := r.2 }) := by
  simp [considerFrame]

@[simp] theorem run_matchEndpoint (bytes : List UInt8) (m : Machine σ) :
    (matchEndpoint c bytes).run m =
      let index := m.interface.index
      let r := c.matchEndpoint index bytes m.world
      pure (r.1, { m with
        trace := m.trace.push (.matchEndpoint index bytes r.1)
        world := r.2 }) := by
  simp [matchEndpoint]

@[simp] theorem run_lookup (a : Addr) (m : Machine σ) :
    (lookup c a).run m =
      let r := c.lookup a m.world
      pure (r.1, { m with trace := m.trace.push (.lookup a r.1), world := r.2 }) := by
  simp [lookup]

@[simp] theorem run_sendRxEvent (frames : List RxFrame) (m : Machine σ) :
    (sendRxEvent c frames).run m =
      let deliveries := frames.map (Delivery.of m.memory)
      let r := c.sendRxEvent deliveries rxEventTimeout m.world
      pure (r.1, { m with
        trace := m.trace.push (.rxEvent rxEventTimeout deliveries r.1)
        world := r.2 }) := by
  simp [sendRxEvent]

@[simp] theorem run_spawn (spec : TaskSpec) (m : Machine σ) :
    (spawn c spec).run m =
      let r := c.spawn spec m.world
      pure (r.1, { m with trace := m.trace.push (.spawn spec r.1), world := r.2 }) := by
  simp [spawn]

@[simp] theorem run_onPool (d : Direction)
    (call : Pool → Lock → Clock → Memory → Pool.Reply α) (m : Machine σ) :
    (onPool c d call).run m =
      let r := call (m.interface.pool d) (c.lock d m.world) m.clock m.memory
      pure (r.result, { m with
        interface := m.interface.setPool r.pool d
        clock := r.clock
        memory := r.memory
        log := m.log ++ r.log }) := rfl

@[simp] theorem run_createPool (d : Direction) (m : Machine σ) :
    (createPool c d).run m =
      let r := (m.interface.pool d).create (c.allocate d m.world)
      pure (r.1, { m with interface := m.interface.setPool r.2 d }) := rfl

/-- An interrupt before the callback is registered, or before the notifier is armed, has no effect.
-/
theorem run_interrupt_of_ignored (i : Interrupt) (m : Machine σ)
    (h : m.engine.callback = false ∨ m.interface.notifier.armed = false) :
    (interrupt i).run m = pure ((), m) := by
  by_cases hc : m.engine.callback = true
  · have ha : m.interface.notifier.armed = false := by simpa [hc] using h
    simp [interrupt, hc, ha, Interface.mapNotifier, Notifier.interrupt_of_not_armed]
  · simp [interrupt, hc]

theorem run_interrupt_of_live (i : Interrupt) (m : Machine σ) (hcallback : m.engine.callback = true)
    (harmed : m.interface.notifier.armed = true) :
    (interrupt i).run m = pure ((), { m with
      interface := m.interface.mapNotifier (·.interrupt i)
      trace := m.trace.push (.notify (.ofInterrupt i)) }) := by
  simp [interrupt, hcallback, harmed]

end Driver

namespace Attempt

@[simp] theorem run_ite (p : Prop) [Decidable p] (x y : Attempt σ α) :
    (if p then x else y).run = if p then x.run else y.run := by
  split <;> rfl

@[simp] theorem run_always (step : Driver σ α) : (always step).run = Except.ok <$> step := rfl

@[simp] theorem run_halt (h : Halt) : (halt h : Attempt σ α).run = pure (.error (.halt h)) := rfl

@[simp] theorem run_always_bind {β : Type} (step : Driver σ α) (f : α → Attempt σ β) :
    (always step >>= f).run = step >>= fun a => (f a).run := by
  simp [always, ExceptT.run_bind, ExceptT.run_lift]

end Attempt

end XgmacDriver
