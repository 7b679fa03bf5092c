import XgmacDriver.Proofs.Lifetime
import XgmacDriver.Proofs.PoolCustody

/-! # The balance of the buffers drawn for the receive ring

A call of `initialise` draws buffers from the receive pool or from the stack and passes them on to
the engine. It has no way back for a buffer in hand: one that the engine refuses, or whose
descriptor has no payload, is neither in a receive descriptor afterwards nor with its owner. As that
ends the call, a call loses one buffer at most.
-/

namespace XgmacDriver

variable {σ : Type} {c : Collaborators σ}

namespace Exchange

/-- Whether a buffer may pass between the stack, the driver and the receive ring. -/
def isFilling : Exchange → Bool
  | getBuffer .. | releaseBuffer .. | command (.refill _) _ => true
  | _ => false

def isAccepted : Exchange → Bool
  | command (.refill _) (.ok ()) => true
  | _ => false

/-- Whether the driver is left with a buffer that it cannot post. -/
def isLoss : Exchange → Bool
  | command (.refill _) (.error _) => true
  | getBuffer _ _ (some buffer) => buffer.payload.isNone
  | _ => false

end Exchange

def Machine.fillings (m : Machine σ) : List Exchange := m.trace.toList.filter Exchange.isFilling

namespace Pool

variable {p : Pool}

/-- The number of slots that are out of a pool which has no region. -/
def unbacked (p : Pool) : Option Nat := if p.isInitialized then none else some p.used

theorem unbacked_of_isInitialized (h : p.isInitialized = true) : p.unbacked = none := by
  simp [unbacked, h]

theorem unbacked_acquire (p : Pool) (wanted : Nat) (lock : Lock) (clock : Clock)
    (memory : Memory) : (p.acquire wanted lock clock memory).pool.unbacked = p.unbacked := by
  cases hready : p.isInitialized with
  | true =>
      rw [unbacked_of_isInitialized hready, unbacked_of_isInitialized]
      obtain ⟨-, ⟨-, hpool⟩ | ⟨a, ring, -, hpool, -⟩⟩ := acquire_cases p wanted lock clock memory
      · rw [hpool]
        exact hready
      · rw [hpool]
        exact hready
  | false =>
      unfold acquire
      split
      · rfl
      · rw [if_pos (by simp [hready])]

theorem unbacked_release (p : Pool) (a : Addr) (lock : Lock) (clock : Clock) (memory : Memory) :
    (p.release a lock clock memory).pool.unbacked = p.unbacked := by
  obtain ⟨-, hpool, -⟩ | ⟨-, hpool, -, -, hmember⟩ := release_cases p a lock clock memory
  · rw [hpool]
  · have hready : p.isInitialized = true := by
      by_contra hvacant
      have hnone : p.base? = none := by simpa [isInitialized] using hvacant
      simp [contains, hnone] at hmember
    rw [hpool, unbacked_of_isInitialized hready]
    exact unbacked_of_isInitialized hready

theorem used_acquire (p : Pool) (wanted : Nat) (lock : Lock) (clock : Clock) (memory : Memory) :
    (p.acquire wanted lock clock memory).pool.used =
      match (p.acquire wanted lock clock memory).result with
      | .ok _ => p.used + 1
      | .error _ => p.used := by
  obtain ⟨-, ⟨⟨e, herror⟩, hpool⟩ | ⟨a, ring, hok, hpool, -, htake⟩⟩ :=
    acquire_cases p wanted lock clock memory
  · rw [herror, hpool]
  · rw [hok, hpool]
    exact Ring.used_of_take htake

def Vacant (p : Pool) : Prop := ∀ n ∈ p.unbacked, n = 0

theorem Vacant.create (h : p.Vacant) (allocate : Nat → Option Addr) :
    (p.create allocate).2.Vacant ∧ (p.create allocate).2.used = p.used := by
  have hused : p.isInitialized = false → p.used = 0 := fun hvacant =>
    h p.used (by simp [unbacked, hvacant])
  have hcreation := p.creation allocate
  generalize p.create allocate = r at hcreation
  cases hcreation with
  | done => exact ⟨h, rfl⟩
  | lost => exact ⟨h, rfl⟩
  | tooLarge hvacant =>
      refine ⟨?_, rfl⟩
      intro n hn
      obtain rfl : p.used = n := by simpa [unbacked, isInitialized, base?, used] using hn
      exact hused hvacant
  | refused => exact ⟨h, rfl⟩
  | allocated hvacant =>
      refine ⟨?_, (hused hvacant).symm⟩
      intro n hn
      simp [unbacked, isInitialized, base?] at hn

theorem Vacant.acquire (h : p.Vacant) (wanted : Nat) (lock : Lock) (clock : Clock)
    (memory : Memory) : (p.acquire wanted lock clock memory).pool.Vacant := by
  rw [Vacant, unbacked_acquire]
  exact h

end Pool

structure FillView where
  zeroCopy : Bool
  rxPool : Pool
  fillings : List Exchange

def Machine.filling (m : Machine σ) : FillView where
  zeroCopy := m.interface.config.zeroCopyRx
  rxPool := m.interface.rxPool
  fillings := m.fillings

theorem Machine.fillings_push (m : Machine σ) (x : Exchange) :
    fillings { m with trace := m.trace.push x } =
      m.fillings ++ if x.isFilling then [x] else [] := by
  simp only [fillings, Array.toList_push, List.filter_append]
  cases hx : x.isFilling <;> simp [hx]

theorem Machine.blind_filling :
    Blind (fun x => x.isFilling = false) (filling : Machine σ → FillView) where
  congr := by
    rintro m ⟨⟩ rfl rfl rfl
    rfl
  push m x hx := by
    simp only [filling, fillings_push, hx, Bool.false_eq_true, if_false, List.append_nil]

namespace FillView

/-- The buffers drawn since `v₀`, by the exchanges `es`, are those that the engine accepted and
`hand` more. -/
structure Balanced (v₀ : FillView) (hand : Nat) (es : List Exchange) (v : FillView) : Prop where
  mode : v.zeroCopy = v₀.zeroCopy
  fillings : v.fillings = v₀.fillings ++ es
  vacant : v.rxPool.Vacant
  slots : v.zeroCopy = false →
    v.rxPool.used = v₀.rxPool.used + es.countP Exchange.isAccepted + hand
  buffers : v.zeroCopy = true → (es.flatMap Exchange.obtained).length =
    (es.flatMap Exchange.released).length + es.countP Exchange.isAccepted + hand

/-- No buffer is lost, and `hand` of them are on their way. -/
def Holding (v₀ : FillView) (hand : Nat) (v : FillView) : Prop :=
  ∃ es, es.countP Exchange.isLoss = 0 ∧ Balanced v₀ hand es v

def Dropped (v₀ v : FillView) : Prop :=
  ∃ es, es.countP Exchange.isLoss = 1 ∧ Balanced v₀ 1 es v

variable {v₀ v : FillView} {hand : Nat} {es : List Exchange} {pool : Pool}

theorem Balanced.setPool (h : Balanced v₀ hand es v) (hvacant : pool.Vacant)
    (hused : pool.used = v.rxPool.used) : Balanced v₀ hand es { v with rxPool := pool } :=
  { h with vacant := hvacant, slots := fun hmode => hused.trans (h.slots hmode) }

theorem Balanced.draw (h : Balanced v₀ 0 es v) (hcopying : v.zeroCopy = false)
    (hvacant : pool.Vacant) (hused : pool.used = v.rxPool.used + 1) :
    Balanced v₀ 1 es { v with rxPool := pool } where
  mode := h.mode
  fillings := h.fillings
  vacant := hvacant
  slots hmode := by rw [hused, h.slots hmode]
  buffers hmode := nomatch hcopying.symm.trans hmode

end FillView

open FillView

def OnFilling (p : FillView → Prop) (m : Machine σ) : Prop := p m.filling

/-- How an attempt that cannot go on leaves the buffers. -/
def Stopped (v₀ : FillView) (f : Failure) (m : Machine σ) : Prop :=
  OnFilling (Holding v₀ 0) m ∨ (∃ e, f = .error e) ∧ OnFilling (Dropped v₀) m

variable {m m' : Machine σ} {v₀ : FillView} {x : Exchange} {hand hand' : Nat} {es : List Exchange}

theorem Machine.filling_push (hx : x.isFilling = true) (hinterface : m'.interface = m.interface)
    (htrace : m'.trace = m.trace.push x) :
    m'.filling = { m.filling with fillings := m.filling.fillings ++ [x] } := by
  have hfillings : m'.fillings = m.fillings ++ [x] := by
    simp [fillings, htrace, hx]
  simp only [filling, hfillings, hinterface]

namespace FillView

/-- One more exchange, after which there are `hand'` buffers in hand. -/
theorem Balanced.push (h : Balanced v₀ hand es m.filling) (hx : x.isFilling = true)
    (hinterface : m'.interface = m.interface) (htrace : m'.trace = m.trace.push x)
    (hslots : m.filling.zeroCopy = false → (if x.isAccepted then 1 else 0) + hand' = hand)
    (hbuffers : m.filling.zeroCopy = true → x.obtained.length + hand =
      x.released.length + (if x.isAccepted then 1 else 0) + hand') :
    Balanced v₀ hand' (es ++ [x]) m'.filling := by
  rw [Machine.filling_push hx hinterface htrace]
  refine ⟨h.mode, ?_, h.vacant, ?_, ?_⟩
  · rw [h.fillings, List.append_assoc]
  · intro hmode
    have hbefore := h.slots hmode
    have hhand := hslots hmode
    show m.filling.rxPool.used = _
    rw [List.countP_append, List.countP_singleton]
    omega
  · intro hmode
    have hbefore := h.buffers hmode
    have hhand := hbuffers hmode
    simp only [List.flatMap_append, List.flatMap_cons, List.flatMap_nil, List.append_nil,
      List.length_append, List.countP_append, List.countP_singleton]
    omega

theorem Holding.push (h : Holding v₀ hand m.filling) (hx : x.isFilling = true)
    (hloss : x.isLoss = false) (hinterface : m'.interface = m.interface)
    (htrace : m'.trace = m.trace.push x)
    (hslots : m.filling.zeroCopy = false → (if x.isAccepted then 1 else 0) + hand' = hand)
    (hbuffers : m.filling.zeroCopy = true → x.obtained.length + hand =
      x.released.length + (if x.isAccepted then 1 else 0) + hand') :
    Holding v₀ hand' m'.filling := by
  obtain ⟨es, hnone, hbalanced⟩ := h
  refine ⟨es ++ [x], ?_, hbalanced.push hx hinterface htrace hslots hbuffers⟩
  simp [hnone, hloss]

theorem Holding.drop (h : Holding v₀ hand m.filling) (hx : x.isFilling = true)
    (hloss : x.isLoss = true) (hinterface : m'.interface = m.interface)
    (htrace : m'.trace = m.trace.push x)
    (hslots : m.filling.zeroCopy = false → (if x.isAccepted then 1 else 0) + 1 = hand)
    (hbuffers : m.filling.zeroCopy = true → x.obtained.length + hand =
      x.released.length + (if x.isAccepted then 1 else 0) + 1) :
    Dropped v₀ m'.filling := by
  obtain ⟨es, hnone, hbalanced⟩ := h
  refine ⟨es ++ [x], ?_, hbalanced.push hx hinterface htrace hslots hbuffers⟩
  simp [hnone, hloss]

end FillView

namespace Driver

open Machine

theorem keepsFilling_command {k : Command} (hk : ∀ a, k ≠ .refill a) :
    Keeps filling (command c k) := by
  refine blind_filling.command (fun answer => ?_) fun _ => rfl
  cases k with
  | refill a => exact absurd rfl (hk a)
  | _ => rfl

theorem filling_getBuffer (v₀ : FillView) (wanted block : Nat) :
    Meets (OnFilling fun v => Holding v₀ 0 v ∧ v.zeroCopy = true) (getBuffer c wanted block)
      fun answer => OnFilling (match answer.bind (·.payload) with
        | some _ => Holding v₀ 1
        | none => fun v => Holding v₀ 0 v ∨ Dropped v₀ v) := by
  refine meets_getBuffer fun m answer world hm _ => ?_
  obtain ⟨hholding, hzero⟩ := hm
  have hslots : ∀ n, m.filling.zeroCopy = false → n = 0 := fun n h => nomatch h.symm.trans hzero
  cases answer with
  | none => exact Or.inl (hholding.push rfl rfl rfl rfl (hslots _) fun _ => rfl)
  | some buffer =>
      cases hpayload : buffer.payload with
      | some a =>
          rw [Option.bind_some, hpayload]
          exact hholding.push rfl (by simp [Exchange.isLoss, hpayload]) rfl rfl (hslots _)
            fun _ => rfl
      | none =>
          rw [Option.bind_some, hpayload]
          exact Or.inr (hholding.drop rfl (by simp [Exchange.isLoss, hpayload]) rfl rfl (hslots _)
            fun _ => rfl)

theorem filling_acquireSlot (v₀ : FillView) (wanted : Nat) :
    Meets (OnFilling fun v => Holding v₀ 0 v ∧ v.zeroCopy = false) (acquireSlot c .rx wanted) fun
      | .ok _ => OnFilling (Holding v₀ 1)
      | .error _ => OnFilling (Holding v₀ 0) := by
  refine meets_onPool fun m reply hm hreply => ?_
  obtain ⟨⟨es, hloss, hbalanced⟩, hcopying⟩ := hm
  have hvacant := hbalanced.vacant.acquire wanted (c.lock .rx m.world) m.clock m.memory
  have hused := m.filling.rxPool.used_acquire wanted (c.lock .rx m.world) m.clock m.memory
  have hreply : m.filling.rxPool.acquire wanted (c.lock .rx m.world) m.clock m.memory = reply :=
    hreply
  rw [hreply] at hvacant hused
  cases hresult : reply.result with
  | ok a =>
      rw [hresult] at hused
      exact ⟨es, hloss, hbalanced.draw hcopying hvacant hused⟩
  | error e =>
      rw [hresult] at hused
      exact ⟨es, hloss, hbalanced.setPool hvacant hused⟩

theorem filling_refill (a : Addr) :
    Meets (OnFilling (Holding v₀ 1)) (command c (.refill a)) fun
      | .ok () => OnFilling (Holding v₀ 0)
      | .error _ => OnFilling (Dropped v₀) := by
  refine meets_command ?_ ?_
  · intro m world hm _
    exact hm.push rfl rfl rfl rfl (fun _ => rfl) fun _ => rfl
  · intro m world status hm _
    exact hm.drop rfl rfl rfl rfl (fun _ => rfl) fun _ => rfl

theorem filling_createPool (d : Direction) :
    Meets (OnFilling (Holding v₀ 0)) (createPool c d) fun _ => OnFilling (Holding v₀ 0) := by
  rintro m ⟨es, hloss, hbalanced⟩
  cases d with
  | tx => exact ⟨es, hloss, hbalanced⟩
  | rx =>
      obtain ⟨hvacant, hused⟩ := hbalanced.vacant.create (c.allocate .rx m.world)
      exact ⟨es, hloss, hbalanced.setPool hvacant hused⟩

end Driver

namespace Attempt

variable {E : Failure → Machine σ → Prop}

/-- What keeps the view leaves nothing in hand, also when it fails. -/
theorem Keeps.filling {α : Type} {x : Attempt σ α} (hx : Keeps Machine.filling x) :
    Meets (OnFilling (Holding v₀ 0)) x (fun _ => OnFilling (Holding v₀ 0))
      fun f m => OnFilling (Holding v₀ 0) m ∨ E f m :=
  (hx.meets (Holding v₀ 0)).mono (fun _ hm => hm) (fun _ _ hm => hm) fun _ _ hm => Or.inl hm

theorem filling_receiveBuffer :
    Meets (OnFilling (Holding v₀ 0)) (receiveBuffer c) (fun _ => OnFilling (Holding v₀ 1))
      (Stopped v₀) := by
  refine meets_receiveBuffer ?_ ?_
  · refine (Driver.filling_getBuffer v₀ _ _).post fun answer m hm => ?_
    cases hpayload : answer.bind (·.payload) with
    | some a => rwa [hpayload] at hm
    | none =>
        rw [hpayload] at hm
        exact hm.imp_right fun hdropped => ⟨⟨_, rfl⟩, hdropped⟩
  · refine (Driver.filling_acquireSlot v₀ _).post ?_
    rintro (e | a) m hm
    · exact Or.inl hm
    · exact hm

theorem filling_refill (a : Addr) :
    Meets (OnFilling (Holding v₀ 1)) (command c (.refill a)) (fun _ => OnFilling (Holding v₀ 0))
      (Stopped v₀) :=
  meets_command (Driver.filling_refill a) (fun _ hm => hm) fun _ _ hm => Or.inr ⟨⟨_, rfl⟩, hm⟩

/-- Each round of the pre-fill draws one buffer and passes it on, or ends the call. -/
theorem filling_prefill (n : Nat) :
    Meets (OnFilling (Holding v₀ 0)) (prefill c n) (fun _ => OnFilling (Holding v₀ 0))
      (Stopped v₀) :=
  meets_prefill (I := fun _ => OnFilling (Holding v₀ 0)) n (fun _ _ => filling_receiveBuffer)
    fun _ _ a => filling_refill a

theorem filling_ensurePool (d : Direction) :
    Meets (OnFilling (Holding v₀ 0)) (ensurePool c d) (fun _ => OnFilling (Holding v₀ 0))
      (Stopped v₀) := by
  refine meets_ensurePool ((Driver.filling_createPool d).mono (fun _ hm => hm.1) ?_)
    fun _ hm _ => hm
  rintro (f | ⟨⟩) m hm
  · exact Or.inl hm
  · exact hm

theorem keepsFilling_command {k : Command} (hk : ∀ a, k ≠ .refill a) :
    Keeps Machine.filling (command c k) :=
  keeps_command (Driver.keepsFilling_command hk)

theorem filling_initTransfer :
    Meets (OnFilling (Holding v₀ 0)) (initTransfer c) (fun _ => OnFilling (Holding v₀ 0))
      (Stopped v₀) :=
  meets_initTransfer keeps_requireEngine.filling ((filling_ensurePool .tx).pre fun _ hm => hm.1)
    (fun _ hm _ => hm) ((filling_ensurePool .rx).pre fun _ hm => hm.1) (fun _ hm _ => hm)
    (Keeps.filling (keepsFilling_command nofun)) fun _ => (filling_prefill _).pre fun _ hm => hm.1

theorem keepsFilling_openEngine : Keeps Machine.filling (openEngine c) :=
  keeps_openEngine (fun _ => Machine.blind_filling.consult _)
    (fun _ _ => Machine.blind_filling.record rfl) (fun _ => rfl)
    (Driver.keepsFilling_command nofun)

theorem keepsFilling_initLinkPartner : Keeps Machine.filling (initLinkPartner c) :=
  keeps_initLinkPartner (fun _ => Driver.keepsFilling_command nofun)
    (fun _ => Driver.keepsFilling_command nofun) (fun _ _ => rfl) Machine.blind_filling.report

theorem keepsFilling_startEngine : Keeps Machine.filling (startEngine c) :=
  keeps_startEngine (fun _ => Driver.keepsFilling_command nofun)
    (Driver.keepsFilling_command nofun)

theorem keepsFilling_awaitLink : Keeps Machine.filling (awaitLink c) := by
  refine keeps_awaitLink (fun spec => Machine.blind_filling.ask _ _ fun _ => rfl) (fun _ _ => rfl)
    (fun phy => ?_) Machine.blind_filling.report
  exact Driver.keeps_checkLink Machine.blind_filling.report
    (Machine.blind_filling.readPhy _ _ fun _ => rfl) (fun _ _ => rfl) Machine.blind_filling.sleep

/-- A call that has lost a buffer says that the pre-fill has failed. -/
def Shorted (v₀ : FillView) (f : Failure) (m : Machine σ) : Prop :=
  OnFilling (Holding v₀ 0) m ∨
    f = .error (.initFailed .transferInit) ∧ OnFilling (Dropped v₀) m

def fillingOutline (v₀ : FillView) : BringUpOutline σ where
  inTurn _ := OnFilling (Holding v₀ 0)
  waiting := OnFilling (Holding v₀ 0)
  failed s f m := OnFilling (Holding v₀ 0) m ∨
    s = .transferInit ∧ (∃ e, f = .error e) ∧ OnFilling (Dropped v₀) m

theorem fillingOutline_sound (v₀ : FillView) : (fillingOutline v₀).Sound c where
  stage := by
    refine BringUpOutline.meets_runStage keepsFilling_openEngine.filling
      keepsFilling_initLinkPartner.filling
      (filling_initTransfer.mono (fun _ hm => hm) (fun _ _ hm => hm) fun _ m hm => ?_)
      keepsFilling_startEngine.filling (keepsFilling_awaitLink.filling.post ?_)
    · exact hm.imp_right fun hdropped => ⟨rfl, hdropped⟩
    · rintro (_ | _) m hm
      · exact hm
      · exact hm
  report _ entry := (Machine.blind_filling.report entry).meets (Holding v₀ 0)
  report_failed _ _ _ _ hm := hm

theorem filling_initialise :
    Meets (OnFilling (Holding v₀ 0)) (initialise c) (fun _ => OnFilling (Holding v₀ 0))
      (Shorted v₀) := by
  refine (fillingOutline_sound v₀).initialise ?_ ?_ (fun _ hm => hm) (fun _ hm => hm)
    fun _ hm => Or.inl hm
  · rintro s e m - (hholding | ⟨rfl, -, hdropped⟩)
    · exact Or.inl hholding
    · exact Or.inr ⟨rfl, hdropped⟩
  · rintro s h m (hholding | ⟨-, ⟨e, he⟩, -⟩)
    · exact Or.inl hholding
    · cases he

end Attempt

/-! ## Between the calls -/

namespace Machine

def unbacked (m : Machine σ) : Option Nat := m.interface.rxPool.unbacked

theorem blind_unbacked : Blind (fun _ => True) (unbacked : Machine σ → Option Nat) where
  congr hinterface _ _ := congrArg (fun i => i.rxPool.unbacked) hinterface
  push _ _ _ := rfl

end Machine

open Machine

namespace Driver

theorem keepsUnbacked_onPool {α : Type} {d : Direction}
    {call : Pool → Lock → Clock → Memory → Pool.Reply α}
    (hcall : ∀ p lock clock memory, (call p lock clock memory).pool.unbacked = p.unbacked) :
    Keeps unbacked (onPool c d call) := by
  intro m
  cases d with
  | tx => rfl
  | rx => exact hcall m.interface.rxPool (c.lock .rx m.world) m.clock m.memory

theorem keepsUnbacked_releaseSlot (d : Direction) (a : Addr) : Keeps unbacked (releaseSlot c d a) :=
  keepsUnbacked_onPool fun p => p.unbacked_release a

theorem keepsUnbacked_command (k : Command) : Keeps unbacked (command c k) :=
  blind_unbacked.command (fun _ => trivial) fun _ => rfl

theorem keepsUnbacked_receiving : KeepsReceiving c (unbacked : Machine σ → Option Nat) where
  toKeepsForwarding := .of_blind blind_unbacked (fun _ _ => trivial) (keepsUnbacked_releaseSlot .rx)
  nextReceived := blind_unbacked.nextReceived (fun _ => trivial) fun _ _ _ => rfl
  refill _ := keepsUnbacked_command _

theorem keepsUnbacked_arrive (x : Arrival) : Keeps unbacked (arrive x : Driver σ Unit) :=
  blind_unbacked.arrive (fun _ => trivial) (fun _ _ => rfl) (fun _ _ => rfl) x

theorem keepsUnbacked_wait (ms : UInt64) : Keeps unbacked (wait c ms) :=
  blind_unbacked.wait (fun _ _ => trivial) (fun _ _ => rfl) keepsUnbacked_arrive ms

theorem keepsUnbacked_reclaim : Keeps unbacked (reclaim c) :=
  keeps_reclaim blind_unbacked.report keepsUnbacked_receiving.lookup
    keepsUnbacked_receiving.releaseBuffer (keepsUnbacked_releaseSlot .tx) (fun _ => rfl)
    fun _ => rfl

theorem keepsUnbacked_pollIfExpired (timer : PollTimer) : Keeps unbacked (pollIfExpired c timer) :=
  blind_unbacked.pollIfExpired (fun _ _ _ => trivial) (fun _ => keepsUnbacked_command _)
    (fun _ _ => rfl) timer

end Driver

theorem TxEvent.unbacked_run (e : TxEvent) (m : Machine σ) : (e.run c m).unbacked = m.unbacked := by
  cases e with
  | output buffer releaseAfterSend =>
      exact Attempt.keeps_output blind_unbacked.report blind_unbacked.copyMemory
        (Driver.keepsUnbacked_onPool fun p => p.unbacked_acquire maxPacketSize)
        (Driver.keepsUnbacked_releaseSlot .tx) (fun _ => Driver.keepsUnbacked_command _)
        Driver.keepsUnbacked_receiving.releaseBuffer buffer releaseAfterSend m
  | arrive x => exact Driver.keepsUnbacked_arrive x m
  | serve timer =>
      exact Attempt.keeps_serve (Driver.keepsUnbacked_wait _)
        Driver.keepsUnbacked_receiving.processReceived Driver.keepsUnbacked_reclaim
        blind_unbacked.report (Driver.keepsUnbacked_pollIfExpired timer) m
  | reclaim => exact Driver.keepsUnbacked_reclaim m
  | elapse ms => rfl

theorem Between.unbacked (h : Between c m m') : m'.unbacked = m.unbacked := by
  cases h with
  | event _ => exact TxEvent.unbacked_run _ m
  | elsewhere hinterface hengine htrace => exact blind_unbacked.congr hinterface hengine htrace

theorem FillView.holding_self {v : FillView} (h : v.rxPool.Vacant) : v.Holding 0 v :=
  ⟨[], rfl, ⟨rfl, (List.append_nil _).symm, h, fun _ => rfl, fun _ => rfl⟩⟩

/-- What a call of `initialise` has done with the buffers of the receive ring. -/
theorem Attempt.outcome_fillings {result : Except Failure Unit}
    (hvacant : m.interface.rxPool.Vacant) (hrun : (initialise c).run.run m = (result, m')) :
    OnFilling (Holding m.filling 0) m' ∨
      result = .error (.error (.initFailed .transferInit)) ∧ OnFilling (Dropped m.filling) m' := by
  have hcall := filling_initialise.outcome (holding_self hvacant) hrun
  cases result with
  | ok => exact Or.inl hcall
  | error f => exact hcall.imp_right fun hshort => ⟨by rw [hshort.1], hshort.2⟩

/-- A receive pool without a region has never had a slot out. -/
theorem Lifetime.vacant {last : Option (Machine σ)} (h : Lifetime c last m) :
    m.interface.rxPool.Vacant := by
  induction h with
  | registered hregister =>
      obtain rfl := Interface.eq_of_register hregister
      exact fun n hn => (Option.some.inj hn).symm
  | @initialise last m _ ih =>
      rcases hrun : (Attempt.initialise c).run.run m with ⟨result, m'⟩
      rcases Attempt.outcome_fillings ih hrun with ⟨es, -, hbalanced⟩ | ⟨-, es, -, hbalanced⟩
      · exact hbalanced.vacant
      · exact hbalanced.vacant
  | between _ hstep ih =>
      intro n hn
      exact ih n (hstep.unbacked.symm.trans hn)

/-- The buffers drawn by a call of `initialise` are those that the engine accepted and the ones that
were lost. At most one is lost, and then the call says that the pre-fill has failed. -/
theorem Lifetime.prefill_balance {last : Option (Machine σ)} {result : Except Failure Unit}
    (h : Lifetime c last m) (hrun : (Attempt.initialise c).run.run m = (result, m')) :
    ∃ es lost, m'.fillings = m.fillings ++ es ∧ lost = es.countP Exchange.isLoss ∧
      (m.interface.config.zeroCopyRx = false → m'.interface.rxPool.used =
        m.interface.rxPool.used + es.countP Exchange.isAccepted + lost) ∧
      (m.interface.config.zeroCopyRx = true → (es.flatMap Exchange.obtained).length =
        (es.flatMap Exchange.released).length + es.countP Exchange.isAccepted + lost) ∧
      lost ≤ 1 ∧ (lost = 1 → result = .error (.error (.initFailed .transferInit))) := by
  rcases Attempt.outcome_fillings h.vacant hrun with
    ⟨es, hloss, hbalanced⟩ | ⟨hresult, es, hloss, hbalanced⟩
  · refine ⟨es, 0, hbalanced.fillings, hloss.symm, ?_, ?_, Nat.zero_le 1, nofun⟩
    · exact fun hmode => hbalanced.slots (hbalanced.mode.trans hmode)
    · exact fun hmode => hbalanced.buffers (hbalanced.mode.trans hmode)
  · refine ⟨es, 1, hbalanced.fillings, hloss.symm, ?_, ?_, Nat.le_refl 1, fun _ => hresult⟩
    · exact fun hmode => hbalanced.slots (hbalanced.mode.trans hmode)
    · exact fun hmode => hbalanced.buffers (hbalanced.mode.trans hmode)

/-- An engine that refuses a refill once the arena is empty. -/
def refusesLast : Collaborators Arena :=
  { Collaborators.ofArena (.ok ()) true with
    command := fun _ k a => match k with
      | .refill _ => (if a.available = 0 then .error ⟨-1⟩ else .ok (), a)
      | _ => (.ok (), a) }

def shortMachine : Machine Arena := ((Attempt.initialise refusesLast).run.run freshMachine).2

theorem Lifetime.prefill_balance_last_refused :
    (shortMachine.fillings.flatMap Exchange.obtained).length =
        (shortMachine.fillings.flatMap Exchange.released).length +
          shortMachine.fillings.countP Exchange.isAccepted + 1 ∧
      ((Attempt.initialise refusesLast).run.run freshMachine).1 =
        .error (.error (.initFailed .transferInit)) := by
  have hregister : Interface.register 0 { zeroCopyRx := true } = .ok _ := rfl
  have hlife : Lifetime refusesLast none freshMachine := .registered hregister
  obtain ⟨es, lost, hfillings, hlost, -, hbuffers, -, hresult⟩ := hlife.prefill_balance rfl
  obtain rfl : shortMachine.fillings = es := hfillings
  obtain rfl : lost = 1 := hlost.trans (by decide +kernel)
  exact ⟨hbuffers rfl, hresult rfl⟩

end XgmacDriver
