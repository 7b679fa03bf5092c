import XgmacDriver.Proofs.Lifetime
import XgmacDriver.Proofs.PoolCustody

/-! # The supply of transmit slots

Output with copying relies on two things that other parts of the driver have to establish: there is
a transmit pool by the time the link is found up, and the ring of that pool has only slots of its
own, as many as the pool says. Bring-up establishes the first one before it looks at the link, and
no later failure, restart or change of the link undoes it.
-/

namespace XgmacDriver

variable {σ α : Type} {c : Collaborators σ} {last : Option (Machine σ)} {m m' : Machine σ}

namespace Pool

/-- A pool of this driver whose ring, once it has been filled, has slots of the pool only. -/
structure Proper (p : Pool) : Prop extends p.Intact where
  wellFormed : p.isInitialized = true → p.ring.WellFormed
  slots : p.isInitialized = true → ∀ a ∈ p.ring.queue, p.contains a = true

variable {p : Pool} {ring : Ring} {a base : Addr} {inUse : List Addr} {wanted : Nat} {lock : Lock}
  {clock : Clock} {memory : Memory}

theorem contains_withRing (h : ring.capacity = p.ring.capacity) :
    contains { p with ring } a = p.contains a := by
  have hcapacity : capacity { p with ring } = p.capacity := h
  unfold contains
  rw [hcapacity]
  rfl

theorem isInitialized_acquire :
    (p.acquire wanted lock clock memory).pool.isInitialized = p.isInitialized := by
  have hblank := congrArg isInitialized (p.blank_acquire wanted lock clock memory)
  exact hblank

theorem isInitialized_release :
    (p.release a lock clock memory).pool.isInitialized = p.isInitialized := by
  have hblank := congrArg isInitialized (p.blank_release a lock clock memory)
  exact hblank

theorem Accounts.proper (h : p.Accounts base inUse) (hintact : p.Intact) : p.Proper where
  toIntact := hintact
  wellFormed _ := h.wellFormed
  slots _ _ ha := (contains_iff h.backing h.slotSize_pos).mpr (h.mem_of_queue ha)

namespace Proper

theorem new (name : String) : (Pool.new name poolSlots maxPacketSize).Proper where
  toIntact := .new name
  wellFormed := nofun
  slots := nofun

theorem withRing (h : p.Proper) (hcapacity : ring.capacity = p.ring.capacity)
    (hring : p.isInitialized = true → ring.WellFormed ∧ ∀ a ∈ ring.queue, p.contains a = true) :
    Proper { p with ring } where
  backing := h.backing
  capacity := hcapacity.trans h.capacity
  slotSize := h.slotSize
  wellFormed hready := (hring hready).1
  slots hready a ha := (contains_withRing hcapacity).trans ((hring hready).2 a ha)

theorem acquire (h : p.Proper) (wanted : Nat) (lock : Lock) (clock : Clock) (memory : Memory) :
    (p.acquire wanted lock clock memory).pool.Proper := by
  obtain ⟨-, ⟨-, hpool⟩ | ⟨a, ring, -, hpool, hleft, htake⟩⟩ :=
    acquire_cases p wanted lock clock memory
  · rw [hpool]
    exact h
  · rw [hpool]
    refine h.withRing (Ring.capacity_of_take htake) fun hready => ?_
    have hring := h.wellFormed hready
    obtain ⟨hqueue, hring'⟩ := Ring.queue_of_take hring hleft htake
    refine ⟨hring', fun b hb => h.slots hready b ?_⟩
    rw [hqueue]
    exact List.mem_cons_of_mem a hb

theorem release (h : p.Proper) (a : Addr) (lock : Lock) (clock : Clock) (memory : Memory) :
    (p.release a lock clock memory).pool.Proper := by
  obtain ⟨-, hpool, -⟩ | ⟨-, hpool, -, hused, hmember⟩ := release_cases p a lock clock memory
  · rw [hpool]
    exact h
  · rw [hpool]
    refine h.withRing (Ring.capacity_give _ _) fun hready => ?_
    obtain ⟨hqueue, hring, -⟩ := Ring.give_of_pos (h.wellFormed hready) hused a
    refine ⟨hring, fun b hb => ?_⟩
    rw [hqueue] at hb
    rcases List.mem_append.mp hb with hb | hb
    · exact h.slots hready b hb
    · exact List.mem_singleton.mp hb ▸ hmember

theorem create (h : p.Proper) (hvacant : p.isInitialized = false) (allocate : Nat → Option Addr) :
    (p.create allocate).2.Proper := by
  have hintact := (h.toIntact.create allocate).1
  cases hresult : (p.create allocate).1 with
  | ok =>
      obtain ⟨base, -, haccounts⟩ := h.toIntact.accounts_create hvacant hresult
      exact haccounts.proper hintact
  | error f =>
      have hstill := not_isInitialized_of_create_error hresult
      have hnever : (p.create allocate).2.isInitialized ≠ true := by simp [hstill]
      exact ⟨hintact, fun hready => absurd hready hnever, fun hready => absurd hready hnever⟩

end Proper

/-- How a request for a slot ends once a pool has its region: the lock is not had in time, no slot
is left, or the slot at the head of the queue is taken. -/
inductive Acquired (p : Pool) (lock : Lock) (clock : Clock) (memory : Memory) : Reply Addr → Prop
  | late : (lock.obtain clock).1 = false →
      Acquired p lock clock memory
        ⟨.error .poolLockTimeout, p, memory, (lock.obtain clock).2, [.lockTimeout p.name]⟩
  | exhausted : (lock.obtain clock).1 = true → p.used = p.capacity →
      Acquired p lock clock memory
        ⟨.error .poolExhausted, p, memory, (lock.obtain clock).2, [.poolFullyUsed p.name]⟩
  | taken {slot : Addr} {ring : Ring} : (lock.obtain clock).1 = true → p.used < p.capacity →
      p.ring.queue = slot :: ring.queue → ring.used = p.used + 1 →
      ring.capacity = p.ring.capacity → ring.WellFormed →
      Acquired p lock clock memory
        ⟨.ok slot, { p with ring }, memory, (lock.obtain clock).2, []⟩

theorem Proper.acquired (h : p.Proper) (hready : p.isInitialized = true)
    (hfits : wanted ≤ maxPacketSize) (lock : Lock) (clock : Clock) (memory : Memory) :
    p.Acquired lock clock memory (p.acquire wanted lock clock memory) := by
  have hsize : ¬p.slotSize < wanted := by
    rw [h.slotSize]
    exact Nat.not_lt.mpr hfits
  have hring := h.wellFormed hready
  unfold Pool.acquire
  rw [if_neg hsize, if_neg (by simp [hready])]
  rcases hobtain : lock.obtain clock with ⟨_ | _, after⟩
  · have hlate : Acquired p lock clock memory _ := .late (congrArg Prod.fst hobtain)
    rwa [hobtain] at hlate
  · dsimp only
    by_cases hfull : p.used = p.capacity
    · have hexhausted : Acquired p lock clock memory _ :=
        .exhausted (congrArg Prod.fst hobtain) hfull
      rw [hobtain] at hexhausted
      rwa [if_pos (show p.ring.used = p.capacity from hfull)]
    · have hlt : p.ring.used < p.ring.capacity := Nat.lt_of_le_of_ne hring.used_le hfull
      obtain ⟨slot, ring, htake, hqueue, hring', hused, hcapacity⟩ := Ring.take_of_lt hring hlt
      have htaken : Acquired p lock clock memory _ :=
        .taken (congrArg Prod.fst hobtain) hlt hqueue hused hcapacity hring'
      rw [hobtain] at htaken
      rw [if_neg (show ¬p.ring.used = p.capacity from hfull), htake]
      exact htaken

end Pool

/-- What output with copying depends on. -/
structure TxSupply where
  zeroCopy : Bool
  link : UInt32
  pool : Pool

namespace Machine

def supply (m : Machine σ) : TxSupply where
  zeroCopy := m.interface.config.zeroCopyTx
  link := m.interface.link
  pool := m.interface.txPool

/-- The supply without a word about the link. -/
def unlinkedSupply (m : Machine σ) : TxSupply := { m.supply with link := 0 }

theorem blind_supply : Blind (fun _ => True) (supply : Machine σ → TxSupply) where
  congr hinterface _ _ :=
    congrArg (fun i : Interface => TxSupply.mk i.config.zeroCopyTx i.link i.txPool) hinterface
  push _ _ _ := rfl

theorem blind_unlinkedSupply :
    Blind (fun _ => True) (unlinkedSupply : Machine σ → TxSupply) where
  congr hinterface hengine htrace := congrArg (fun v : TxSupply => { v with link := 0 })
    (blind_supply.congr hinterface hengine htrace)
  push _ _ _ := rfl

end Machine

open Machine

namespace TxSupply

/-- If frames are copied there is a pool for them. -/
def Backed (v : TxSupply) : Prop := v.zeroCopy = false → v.pool.isInitialized = true

/-- What holds when bring-up goes on with stage `s`: from the start of the engine on there is a
pool, and before that there is one as soon as the link has been found up. -/
structure Provided (s : Stage) (v : TxSupply) : Prop where
  pool : v.pool.Proper
  backed : v.Backed ∨ linkUp v.link = false ∧ 3 ≤ s.remaining

variable {s t : Stage} {v : TxSupply}

namespace Provided

theorem advance (h : Provided s v) (ht : 3 ≤ s.remaining → 3 ≤ t.remaining) : Provided t v :=
  ⟨h.pool, h.backed.imp_right (And.imp_right ht)⟩

theorem restart (h : Provided s v) : Provided .engineInit v := h.advance fun _ => by decide

theorem of_backed (hpool : v.pool.Proper) (hbacked : v.Backed) : Provided s v :=
  ⟨hpool, Or.inl hbacked⟩

theorem backed_of_lt (h : Provided s v) (hs : s.remaining < 3) : v.Backed :=
  h.backed.resolve_right fun hearly => absurd hearly.2 (Nat.not_le.mpr hs)

theorem setPool (h : Provided s v) {pool : Pool} (hpool : pool.Proper)
    (hready : v.pool.isInitialized = true → pool.isInitialized = true) :
    Provided s { v with pool } :=
  ⟨hpool, h.backed.imp_left fun hbacked hmode => hready (hbacked hmode)⟩

/-- Once there is a pool the link does not matter. -/
theorem setLink (h : Provided s v) (hs : s.remaining < 3) (link : UInt32) :
    Provided s { v with link } :=
  .of_backed h.pool (h.backed_of_lt hs)

end Provided

end TxSupply

open TxSupply

def OnSupply (p : TxSupply → Prop) (m : Machine σ) : Prop := p m.supply

variable {s : Stage}

namespace Driver

theorem provided_onPool {d : Direction} {call : Pool → Lock → Clock → Memory → Pool.Reply α}
    (hproper : ∀ p lock clock memory, p.Proper → (call p lock clock memory).pool.Proper)
    (hready : ∀ p lock clock memory,
      (call p lock clock memory).pool.isInitialized = p.isInitialized) :
    Meets (OnSupply (Provided s)) (onPool c d call) fun _ => OnSupply (Provided s) := by
  refine meets_onPool fun m reply hm hreply => ?_
  subst hreply
  cases d with
  | rx => exact hm
  | tx => exact hm.setPool (hproper _ _ _ _ hm.pool) fun h => (hready _ _ _ _).trans h

theorem provided_acquireSlot (d : Direction) (wanted : Nat) :
    Meets (OnSupply (Provided s)) (acquireSlot c d wanted) fun _ => OnSupply (Provided s) :=
  provided_onPool (fun _ lock clock memory hp => hp.acquire wanted lock clock memory)
    fun _ _ _ _ => Pool.isInitialized_acquire

theorem provided_releaseSlot (d : Direction) (a : Addr) :
    Meets (OnSupply (Provided s)) (releaseSlot c d a) fun _ => OnSupply (Provided s) :=
  provided_onPool (fun _ lock clock memory hp => hp.release a lock clock memory)
    fun _ _ _ _ => Pool.isInitialized_release

theorem keepsSupply_command (k : Command) : Keeps supply (command c k) :=
  blind_supply.command (fun _ => trivial) fun _ => rfl

theorem keepsSupply_receiving : KeepsReceiving c (supply : Machine σ → TxSupply) where
  toKeepsForwarding := .of_blind blind_supply (fun _ _ => trivial) fun _ _ => rfl
  nextReceived := blind_supply.nextReceived (fun _ => trivial) fun _ _ _ => rfl
  refill _ := keepsSupply_command _

theorem keepsSupply_arrive (x : Arrival) : Keeps supply (arrive x : Driver σ Unit) :=
  blind_supply.arrive (fun _ => trivial) (fun _ _ => rfl) (fun _ _ => rfl) x

theorem keepsSupply_wait (ms : UInt64) : Keeps supply (wait c ms) :=
  blind_supply.wait (fun _ _ => trivial) (fun _ _ => rfl) keepsSupply_arrive ms

theorem provided_reclaim :
    Meets (OnSupply (Provided s)) (reclaim c) fun _ => OnSupply (Provided s) :=
  preserves_reclaim (fun entry => (blind_supply.report entry).meets (Provided s))
    (fun a => (keepsSupply_receiving.lookup a).meets (Provided s))
    (fun i => (keepsSupply_receiving.releaseBuffer i).meets (Provided s))
    (provided_releaseSlot .tx) (fun _ hm => hm) fun _ hm => hm

theorem Keeps.provided_of_late {x : Driver σ α} (hx : Keeps unlinkedSupply x)
    (hs : s.remaining < 3) : Meets (OnSupply (Provided s)) x fun _ => OnSupply (Provided s) := by
  intro m hm
  have hafter : Provided s (unlinkedSupply (x.run m).2) := by
    rw [hx m]
    exact hm.setLink hs 0
  exact hafter.setLink hs (x.run m).2.interface.link

theorem keepsUnlinked_pollIfExpired (timer : PollTimer) :
    Keeps unlinkedSupply (pollIfExpired c timer) :=
  blind_unlinkedSupply.pollIfExpired (fun _ _ _ => trivial)
    (fun _ => blind_unlinkedSupply.command (fun _ => trivial) fun _ => rfl) (fun _ _ => rfl) timer

end Driver

namespace Attempt

theorem Keeps.provided {x : Attempt σ α} (hx : Keeps supply x) :
    Meets (OnSupply (Provided s)) x (fun _ => OnSupply (Provided s))
      fun _ => OnSupply (Provided s) :=
  hx.meets (Provided s)

theorem provided_output (buffer : NetworkBuffer) (releaseAfterSend : Bool) :
    Meets (OnSupply (Provided s)) (output c buffer releaseAfterSend)
      (fun _ => OnSupply (Provided s)) fun _ => OnSupply (Provided s) :=
  preserves_output (fun entry => (blind_supply.report entry).meets (Provided s))
    (fun src dst n => (blind_supply.copyMemory src dst n).meets (Provided s))
    (Driver.provided_acquireSlot .tx maxPacketSize) (Driver.provided_releaseSlot .tx)
    (fun _ => (Driver.keepsSupply_command _).meets (Provided s))
    (fun i => (Driver.keepsSupply_receiving.releaseBuffer i).meets (Provided s)) buffer
    releaseAfterSend

theorem provided_serve (timer : PollTimer) :
    Meets (OnSupply (Provided .ready)) (serve c timer) (fun _ => OnSupply (Provided .ready))
      fun _ => OnSupply (Provided .ready) :=
  meets_serve (W := fun _ => OnSupply (Provided .ready)) (Q := fun _ => OnSupply (Provided .ready))
    ((Driver.keepsSupply_wait _).meets (Provided .ready))
    (fun _ _ => Driver.keepsSupply_receiving.processReceived.meets (Provided .ready))
    (fun _ _ _ hm => hm) (fun _ _ => Driver.provided_reclaim) (fun _ _ _ hm => hm)
    (fun _ entry => (blind_supply.report entry).meets (Provided .ready)) (fun _ _ hm => hm)
    fun _ => (Driver.keepsUnlinked_pollIfExpired timer).provided_of_late (by decide)

/-! ## Bring-up -/

theorem keepsSupply_command (k : Command) : Keeps supply (command c k) :=
  keeps_command (Driver.keepsSupply_command k)

theorem keepsSupply_openEngine : Keeps supply (openEngine c) :=
  keeps_openEngine (fun _ => blind_supply.consult _) (fun _ _ => blind_supply.record trivial)
    (fun _ => rfl) (Driver.keepsSupply_command _)

theorem keepsSupply_initLinkPartner : Keeps supply (initLinkPartner c) :=
  keeps_initLinkPartner (fun _ => Driver.keepsSupply_command _)
    (fun _ => Driver.keepsSupply_command _) (fun _ _ => rfl) blind_supply.report

theorem keepsSupply_startEngine : Keeps supply (startEngine c) :=
  keeps_startEngine (fun _ => Driver.keepsSupply_command _) (Driver.keepsSupply_command _)

theorem keepsSupply_prefill (n : Nat) : Keeps supply (prefill c n) :=
  keeps_prefill (Driver.keepsSupply_receiving.getBuffer · ·) (fun _ => rfl)
    (fun _ => Driver.keepsSupply_command _) n

theorem provided_ensurePool_tx :
    Meets (OnSupply (Provided s)) (ensurePool c .tx)
      (fun _ => OnSupply fun v => v.pool.Proper ∧ v.pool.isInitialized = true)
      fun _ => OnSupply (Provided s) := by
  have hcreate : Driver.Meets
      (fun m => OnSupply (Provided s) m ∧ m.interface.txPool.isInitialized = false)
      (Driver.createPool c .tx) fun r =>
        OnSupply fun v => Provided s v ∧ (r = .ok () → v.pool.isInitialized = true) := by
    rintro m ⟨hm, hvacant⟩
    refine ⟨hm.setPool (hm.pool.create hvacant _) fun hready => ?_, Pool.isInitialized_create⟩
    exact absurd (hvacant.symm.trans hready) Bool.false_ne_true
  refine meets_ensurePool (hcreate.post ?_) fun m hm hready => ⟨hm.pool, hready⟩
  rintro (f | ⟨⟩) m ⟨hm, hready⟩
  · exact hm
  · exact ⟨hm.pool, hready rfl⟩

theorem provided_initTransfer :
    Meets (OnSupply (Provided .transferInit)) (initTransfer c)
      (fun _ => OnSupply (Provided .engineStart)) fun _ => OnSupply (Provided .transferInit) := by
  -- Past the transmit pool nothing touches the supply any more.
  have hkept : ∀ {x : Attempt σ Unit}, Keeps supply x →
      Meets (OnSupply (Provided .engineStart)) x (fun _ => OnSupply (Provided .engineStart))
        fun _ => OnSupply (Provided .transferInit) :=
    fun hx => hx.provided.mono (fun _ hm => hm) (fun _ _ hm => hm) fun _ _ hm =>
      Provided.advance hm fun hlate => absurd hlate (by decide)
  refine meets_initTransfer (Keeps.provided keeps_requireEngine)
    (provided_ensurePool_tx.mono (fun _ hm => hm.1) (fun _ m hm => ?_) fun _ _ hm => hm)
    (fun m hm hzero => ?_) ((hkept (keeps_ensurePool fun _ => rfl)).pre fun _ hm => hm.1)
    (fun _ hm _ => hm) (hkept (keepsSupply_command _))
    fun _ => (hkept (keepsSupply_prefill _)).pre fun _ hm => hm.1
  · exact .of_backed hm.1 fun _ => hm.2
  · exact .of_backed hm.pool fun hmode => absurd (hmode.symm.trans hzero) Bool.false_ne_true

/-- What is found out about the link comes after the pool. -/
theorem provided_awaitLink :
    Meets (OnSupply (Provided .linkWait)) (awaitLink c) (fun _ => OnSupply (Provided .linkWait))
      fun _ => OnSupply (Provided .linkWait) := by
  have hkeeps : Keeps unlinkedSupply (awaitLink c) := by
    refine keeps_awaitLink (fun spec => blind_unlinkedSupply.ask _ _ fun _ => trivial)
      (fun _ _ => rfl) (fun phy => ?_) blind_unlinkedSupply.report
    exact Driver.keeps_checkLink blind_unlinkedSupply.report
      (blind_unlinkedSupply.readPhy _ _ fun _ => trivial) (fun _ _ => rfl)
      blind_unlinkedSupply.sleep
  refine Driver.Meets.post (Driver.Keeps.provided_of_late hkeeps (by decide)) ?_
  rintro (f | up) m hm
  · exact hm
  · exact hm

def supplyOutline : BringUpOutline σ where
  inTurn s := OnSupply (Provided s)
  waiting := OnSupply (Provided .linkWait)
  failed _ _ := OnSupply (Provided .engineInit)

theorem supplyOutline_sound : supplyOutline.Sound c where
  stage := by
    have hadvance : ∀ {s t : Stage} {x : Attempt σ Unit}, (3 ≤ s.remaining → 3 ≤ t.remaining) →
        Keeps supply x → Meets (OnSupply (Provided s)) x (fun _ => OnSupply (Provided t))
          fun _ => OnSupply (Provided .engineInit) :=
      fun ht hx => hx.provided.mono (fun _ hm => hm) (fun _ _ hm => Provided.advance hm ht)
        fun _ _ hm => Provided.restart hm
    refine BringUpOutline.meets_runStage (hadvance (fun _ => by decide) keepsSupply_openEngine)
      (hadvance (fun _ => by decide) keepsSupply_initLinkPartner)
      (provided_initTransfer.mono (fun _ hm => hm) (fun _ _ hm => hm)
        fun _ _ hm => Provided.restart hm)
      (hadvance (fun hlate => absurd hlate (by decide)) keepsSupply_startEngine)
      (provided_awaitLink.mono (fun _ hm => hm) ?_ fun _ _ hm => Provided.restart hm)
    rintro (_ | _) m hm
    · exact hm
    · exact Provided.advance hm fun hlate => absurd hlate (by decide)
  report _ entry := (blind_supply.report entry).meets (Provided _)
  report_failed _ _ _ _ hm := hm

theorem provided_initialise :
    Meets (fun m => OnSupply (Provided m.interface.stage.entry) m) (initialise c)
      (fun _ => OnSupply (Provided .ready))
      fun f => OnSupply fun v => Provided .engineInit v ∧
        (f = .error .linkDown → Provided .linkWait v) := by
  refine supplyOutline_sound.initialise ?_ ?_ (fun _ hm => hm) (fun _ hm => hm) ?_
  · exact fun _ _ _ _ hm => ⟨hm, nofun⟩
  · exact fun _ _ _ hm => ⟨hm, nofun⟩
  · exact fun _ hm => ⟨Provided.restart hm, fun _ => hm⟩

end Attempt

/-! ## Between the calls -/

theorem TxEvent.provided_run {e : TxEvent} (hserve : ∀ timer, e = .serve timer → s = .ready)
    (hm : OnSupply (Provided s) m) : OnSupply (Provided s) (e.run c m) := by
  cases e with
  | output buffer releaseAfterSend =>
      exact (Attempt.provided_output buffer releaseAfterSend).afterwards hm
  | arrive x => exact (Driver.keepsSupply_arrive x).meets (Provided s) m hm
  | serve timer =>
      obtain rfl := hserve timer rfl
      exact (Attempt.provided_serve timer).afterwards hm
  | reclaim => exact Driver.provided_reclaim m hm
  | elapse ms => exact hm

/-- At every time of a life the supply is what the stage says. -/
theorem Lifetime.provided (h : Lifetime c last m) :
    OnSupply (Provided m.interface.stage.entry) m := by
  induction h with
  | registered hregister =>
      obtain rfl := Interface.eq_of_register hregister
      exact ⟨.new "Tx", Or.inr ⟨(by decide : linkUp 0 = false), Nat.le_add_left 3 2⟩⟩
  | @initialise last m h ih =>
      have hleft := h.leftBy.initialise
      rcases hrun : (Attempt.initialise c).run.run m with ⟨result, m'⟩
      have hend := Attempt.provided_initialise.outcome ih hrun
      have hresult : ((Attempt.initialise c).run.run m).1 = result := congrArg Prod.fst hrun
      rw [hrun] at hleft
      cases hleft with
      | waiting hstage _ hdown =>
          obtain rfl := hresult.symm.trans hdown
          rw [hstage]
          exact hend.2 rfl
      | failed hstage _ _ hfailed =>
          obtain rfl := hresult.symm.trans hfailed
          rw [hstage]
          exact hend.1
      | ready hstage _ hok =>
          obtain rfl := hresult.symm.trans hok
          rw [hstage]
          exact hend
  | @between last m m' h hstep ih =>
      have hstage : m'.interface.stage = m.interface.stage := congrArg Vitals.stage hstep.vitals
      rw [hstage]
      cases hstep with
      | event hserve =>
          refine TxEvent.provided_run (fun timer he => ?_) ih
          have htask := hserve timer he
          rcases h.leftBy.served with ⟨hready, -⟩ | ⟨-, hquiet⟩
          · rw [hready]
            rfl
          · rw [hquiet.idle.2.1] at htask
            cases htask
      | elsewhere hinterface hengine htrace =>
          rw [OnSupply, blind_supply.congr hinterface hengine htrace]
          exact ih

/-- A link that is up has a pool behind it, whatever has failed or changed before. -/
theorem Lifetime.supplied (h : Lifetime c last m) :
    m.interface.txPool.Proper ∧ (m.interface.linkIsUp = true →
      m.interface.config.zeroCopyTx = false → m.interface.txPool.isInitialized = true) := by
  constructor
  · exact h.provided.pool
  · intro hlink
    exact h.provided.backed.resolve_right fun hearly => nomatch hlink.symm.trans hearly.1

end XgmacDriver
