import XgmacDriver.Proofs.BringUpStock
import XgmacDriver.Proofs.KeptViews
import XgmacDriver.Proofs.TransmitRuns

/-! # How an interface is getting on

`LifeView` is what bring-up depends on and what it decides: how far it has come, whether interrupts
get through, what is known about the link, and the signs by which that was decided, which are the
reads of the link status and the attempts to create the task. Its `Vitals` are the part that nothing
but bring-up ever changes.
-/

namespace XgmacDriver

variable {σ α : Type} {c : Collaborators σ}

namespace Exchange

def isSpawn : Exchange → Bool
  | spawn .. => true
  | _ => false

/-- Whether this is a read of the link status or an attempt to create the task. -/
def isSign : Exchange → Bool
  | readPhy .. | spawn .. => true
  | _ => false

def spawned : Exchange → List UInt32
  | spawn _ (some handle) => [handle]
  | _ => []

def isRefusedSpawn : Exchange → Bool
  | spawn _ none => true
  | _ => false

theorem not_isSign_of_isStackCall {x : Exchange} (h : x.isStackCall = true) :
    x.isSign = false := by
  cases x <;> first | rfl | cases h

theorem eq_spawn_of_isRefusedSpawn {x : Exchange} (h : x.isRefusedSpawn = true) :
    ∃ spec, x = spawn spec none := by
  cases x with
  | spawn spec answer =>
      cases answer with
      | none => exact ⟨spec, rfl⟩
      | some _ => cases h
  | _ => cases h

theorem spawned_of_isRefusedSpawn {x : Exchange} (h : x.isRefusedSpawn = true) :
    x.spawned = [] := by
  obtain ⟨spec, rfl⟩ := eq_spawn_of_isRefusedSpawn h
  rfl

end Exchange

def Machine.signs (m : Machine σ) : List Exchange := m.trace.toList.filter Exchange.isSign

def Machine.spawned (m : Machine σ) : List UInt32 := m.trace.toList.flatMap Exchange.spawned

namespace Pool

/-- The pool without a word about which slots are in use. -/
def blank (p : Pool) : Pool := { p with ring := .vacant p.capacity }

theorem intact_blank {p : Pool} : p.blank.Intact ↔ p.Intact := by
  have hcapacity : p.blank.capacity = p.capacity := Ring.capacity_vacant _
  constructor
  · rintro ⟨hbacking, hslots, hsize⟩
    exact ⟨hbacking, hcapacity.symm.trans hslots, hsize⟩
  · rintro ⟨hbacking, hslots, hsize⟩
    exact ⟨hbacking, hcapacity.trans hslots, hsize⟩

theorem blank_acquire (p : Pool) (wanted : Nat) (lock : Lock) (clock : Clock) (memory : Memory) :
    (p.acquire wanted lock clock memory).pool.blank = p.blank := by
  obtain ⟨-, ⟨-, hpool⟩ | ⟨a, ring, -, hpool, -, htake⟩⟩ := acquire_cases p wanted lock clock memory
  · rw [hpool]
  · have hcapacity : ring.capacity = p.ring.capacity := Ring.capacity_of_take htake
    rw [hpool, blank, blank, capacity, capacity, hcapacity]

theorem blank_release (p : Pool) (a : Addr) (lock : Lock) (clock : Clock) (memory : Memory) :
    (p.release a lock clock memory).pool.blank = p.blank := by
  have hgive : blank { p with ring := p.ring.give a } = p.blank := by
    simp only [blank, capacity, Ring.capacity_give]
  unfold release
  cases lock.obtain clock with
  | mk obtained after =>
      cases obtained with
      | false => rfl
      | true =>
          dsimp only
          split
          · rfl
          · split
            · rfl
            · exact hgive

end Pool

structure LifeView where
  stage : Stage
  engineOpen : Bool
  callback : Bool
  link : UInt32
  notifier : Notifier
  task : Option UInt32
  txPool : Pool
  rxPool : Pool
  signs : List Exchange

structure Vitals where
  stage : Stage
  engineOpen : Bool
  callback : Bool
  armed : Bool
  maxCompletions : Nat
  task : Option UInt32
  spawns : List Exchange

def LifeView.vitals (v : LifeView) : Vitals where
  stage := v.stage
  engineOpen := v.engineOpen
  callback := v.callback
  armed := v.notifier.armed
  maxCompletions := v.notifier.completions.max
  task := v.task
  spawns := v.signs.filter Exchange.isSpawn

namespace Machine

def life (m : Machine σ) : LifeView where
  stage := m.interface.stage
  engineOpen := m.interface.engineOpen
  callback := m.engine.callback
  link := m.interface.link
  notifier := m.interface.notifier
  task := m.interface.task
  txPool := m.interface.txPool.blank
  rxPool := m.interface.rxPool.blank
  signs := m.signs

def vitals (m : Machine σ) : Vitals := m.life.vitals

theorem signs_push (m : Machine σ) (x : Exchange) :
    signs { m with trace := m.trace.push x } = m.signs ++ if x.isSign then [x] else [] := by
  simp only [signs, Array.toList_push, List.filter_append]
  cases hx : x.isSign <;> simp [hx]

theorem life_sign {m m' : Machine σ} {x : Exchange} (hx : x.isSign = true)
    (hinterface : m'.interface = m.interface) (hengine : m'.engine = m.engine)
    (htrace : m'.trace = m.trace.push x) :
    m'.life = { m.life with signs := m.life.signs ++ [x] } := by
  have hsigns : m'.signs = m.signs ++ [x] := by
    simp [signs, htrace, hx]
  simp only [life, hsigns, hinterface, hengine]

theorem blind_life : Blind (fun x => x.isSign = false) (life : Machine σ → LifeView) where
  congr := by
    rintro m ⟨⟩ rfl rfl rfl
    rfl
  push m x hx := by
    simp only [life, signs_push, hx, Bool.false_eq_true, if_false, List.append_nil]

theorem blind_vitals : Blind (fun x => x.isSpawn = false) (vitals : Machine σ → Vitals) where
  congr hinterface hengine htrace := congrArg LifeView.vitals
    (blind_life.congr hinterface hengine htrace)
  push m x hx := by
    have hsigns : (signs { m with trace := m.trace.push x }).filter Exchange.isSpawn =
        m.signs.filter Exchange.isSpawn := by
      rw [signs_push, List.filter_append]
      cases hsign : x.isSign <;> simp [hx]
    simp only [vitals, LifeView.vitals, life, hsigns]

end Machine

open Machine

theorem Engine.callback_nextDone (e : Engine) : e.nextDone.2.callback = e.callback := by
  unfold nextDone
  split
  · rfl
  · rfl

/-! ## What the driver does besides bring-up -/

namespace Driver

theorem keepsLife_onPool {d : Direction} {call : Pool → Lock → Clock → Memory → Pool.Reply α}
    (hcall : ∀ p lock clock memory, (call p lock clock memory).pool.blank = p.blank) :
    Keeps life (onPool c d call) := by
  intro m
  have hpool := hcall (m.interface.pool d) (c.lock d m.world) m.clock m.memory
  cases d with
  | tx => exact congrArg (fun p => { m.life with txPool := p }) hpool
  | rx => exact congrArg (fun p => { m.life with rxPool := p }) hpool

theorem keepsLife_acquireSlot (d : Direction) (wanted : Nat) :
    Keeps life (acquireSlot c d wanted) :=
  keepsLife_onPool fun p => p.blank_acquire wanted

theorem keepsLife_releaseSlot (d : Direction) (a : Addr) : Keeps life (releaseSlot c d a) :=
  keepsLife_onPool fun p => p.blank_release a

theorem keepsLife_command {k : Command} (hk : k ≠ .setCallback) : Keeps life (command c k) := by
  refine blind_life.command (fun _ => rfl) fun m => ?_
  cases k with
  | setCallback => exact absurd rfl hk
  | _ => rfl

theorem keepsLife_nextReceived :
    Keeps life (nextReceived : Driver σ (Option RxCompletion)) := by
  refine blind_life.nextReceived (fun _ => rfl) fun engine hengine m => ?_
  obtain ⟨completed, hcompleted⟩ := hengine m.engine
  rw [run_modifyEngine, hcompleted]
  rfl

theorem keepsLife_receiving : KeepsReceiving c (life : Machine σ → LifeView) where
  toKeepsForwarding := .of_blind blind_life (fun _ => Exchange.not_isSign_of_isStackCall)
    (keepsLife_releaseSlot .rx)
  nextReceived := keepsLife_nextReceived
  refill _ := keepsLife_command nofun

theorem keepsVitals_mapNotifier {f : Notifier → Notifier} (hf : Notifier.Steady f) :
    Keeps vitals (modifyInterface (·.mapNotifier f) : Driver σ Unit) := by
  intro m
  obtain ⟨harmed, hmax⟩ := hf m.interface.notifier
  exact congrArg₂ (fun armed maxCompletions => { m.vitals with armed, maxCompletions }) harmed hmax

theorem keepsVitals_modifyEngine {f : Engine → Engine} (hf : ∀ e, (f e).callback = e.callback) :
    Keeps vitals (modifyEngine f : Driver σ Unit) :=
  fun m => congrArg (fun callback => { m.vitals with callback }) (hf m.engine)

theorem keepsVitals_arrive (x : Arrival) : Keeps vitals (arrive x : Driver σ Unit) :=
  blind_vitals.arrive (fun _ => rfl) keepsVitals_mapNotifier keepsVitals_modifyEngine x

theorem keepsVitals_wait (ms : UInt64) : Keeps vitals (wait c ms) :=
  blind_vitals.wait (fun _ _ => rfl) keepsVitals_mapNotifier keepsVitals_arrive ms

theorem keepsVitals_nextTransmitted : Keeps vitals (nextTransmitted : Driver σ TxAnswer) :=
  blind_vitals.nextTransmitted (fun _ => rfl) (keepsVitals_modifyEngine Engine.callback_nextDone)

theorem keepsVitals_reclaim : Keeps vitals (reclaim c) :=
  keeps_reclaim blind_vitals.report (fun a => (keepsLife_receiving.lookup a).map LifeView.vitals)
    (fun i => (keepsLife_receiving.releaseBuffer i).map LifeView.vitals)
    (fun a => (keepsLife_releaseSlot .tx a).map LifeView.vitals)
    (keepsVitals_mapNotifier Notifier.steady_takeCompletion) keepsVitals_nextTransmitted

theorem keepsVitals_pollIfExpired (timer : PollTimer) : Keeps vitals (pollIfExpired c timer) := by
  refine blind_vitals.pollIfExpired (fun _ _ _ => rfl) (fun phy => ?_) (fun _ _ => rfl) timer
  have hspeed : Keeps life (command c (.updateSpeed phy)) := keepsLife_command nofun
  exact hspeed.map LifeView.vitals

end Driver

namespace Attempt

theorem keepsLife_output (buffer : NetworkBuffer) (releaseAfterSend : Bool) :
    Keeps life (output c buffer releaseAfterSend) :=
  keeps_output blind_life.report blind_life.copyMemory
    (Driver.keepsLife_acquireSlot .tx maxPacketSize) (Driver.keepsLife_releaseSlot .tx)
    (fun _ => Driver.keepsLife_command nofun) Driver.keepsLife_receiving.releaseBuffer buffer
    releaseAfterSend

theorem keepsVitals_serve (timer : PollTimer) : Keeps vitals (serve c timer) :=
  keeps_serve (Driver.keepsVitals_wait _)
    (Driver.keepsLife_receiving.processReceived.map LifeView.vitals) Driver.keepsVitals_reclaim
    blind_vitals.report (Driver.keepsVitals_pollIfExpired timer)

end Attempt

namespace TxEvent

variable {m : Machine σ}

theorem vitals_run (e : TxEvent) (m : Machine σ) : (e.run c m).vitals = m.vitals := by
  cases e with
  | output buffer releaseAfterSend =>
      exact (Attempt.keepsLife_output buffer releaseAfterSend).map LifeView.vitals m
  | arrive x => exact Driver.keepsVitals_arrive x m
  | serve timer => exact Attempt.keepsVitals_serve timer m
  | reclaim => exact Driver.keepsVitals_reclaim m
  | elapse ms => rfl

/-- As long as the notifier is not armed, only a pass of the task could change anything. -/
theorem life_run {e : TxEvent} (hnotifier : m.interface.notifier = .new poolSlots)
    (he : ∀ timer, e ≠ .serve timer) : (e.run c m).life = m.life := by
  have harmed : m.interface.notifier.armed = false := by
    rw [hnotifier]
    rfl
  have hignored : ∀ i engine, ((Driver.interrupt i).run { m with engine }).2 =
      { m with engine } := by
    intro i engine
    rw [Driver.run_interrupt_of_ignored i { m with engine } (Or.inr harmed)]
    rfl
  cases e with
  | output buffer releaseAfterSend => exact Attempt.keepsLife_output buffer releaseAfterSend m
  | arrive x =>
      cases x with
      | received rx => rfl
      | transmitted answer => rfl
      | interrupt i => exact congrArg life (hignored i m.engine)
      | sent buf =>
          show ((Driver.arrive (.sent buf)).run m).2.life = _
          simp only [Driver.arrive, StateT.run_bind, StateT.run_get, pure_bind, Driver.run_ite]
          split
          · exact (congrArg life (hignored .transmitted (m.engine.finish buf))).trans rfl
          · rfl
  | serve timer => exact absurd rfl (he timer)
  | reclaim =>
      have hrun : (Driver.reclaim c).run m = pure (0, m) := by
        simp only [Driver.reclaim, StateT.run_bind, Driver.run_interface, pure_bind,
          Driver.run_ite, hnotifier]
        split
        · rfl
        · rfl
      show ((Driver.reclaim c).run m).2.life = _
      rw [hrun]
      rfl
  | elapse ms => rfl

end TxEvent

end XgmacDriver
