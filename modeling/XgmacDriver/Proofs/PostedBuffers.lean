import XgmacDriver.Proofs.ArenaStack
import XgmacDriver.Proofs.BringUpStock

/-! # The buffers that bring-up posts

Bring-up posts slots of the receive pool or buffers of the stack, whatever calls have failed before.
Slots are different from one another and lie outside the arena, and a buffer of the stack that is
posted is nobody else's. An interface whose calls have not failed has posted one buffer for each
descriptor of the engine.
-/

namespace XgmacDriver

variable {σ : Type}

/-- The region of the receive pool at `base` has no byte in common with the arena. -/
def Arena.Clear (a : Arena) (base : Addr) : Prop :=
  base.toNat + poolSlots * maxPacketSize ≤ a.base.toNat ∨
    a.base.toNat + a.slots * a.slotSize ≤ base.toNat

/-- An interface as it is registered, and an arena with the slots of the stack's. -/
structure Setup where
  index : UInt8
  config : Config
  start : Arena

/-- The buffers of the stack are in an arena and can hold every frame. Only requests and releases
change the arena, and the receive pool is elsewhere. -/
structure ReceiveStack (c : Collaborators σ) (arena : σ → Arena) (setup : Setup) : Prop extends
    ArenaStack c arena where
  openEmac : ∀ i w, arena (c.openEmac i w).2 = arena w
  readPhy : ∀ phy register w, arena (c.readPhy phy register w).2 = arena w
  spawn : ∀ spec w, arena (c.spawn spec w).2 = arena w
  room : maxPacketSize ≤ setup.start.payloadCapacity
  allocate : ∀ w base, setup.start.SameSlots (arena w) →
    c.allocate .rx w (poolSlots * maxPacketSize) = some base → setup.start.Clear base

/-- The part of the machine on which reception depends between two drains. -/
structure ReceiveView where
  index : UInt8
  config : Config
  engineOpen : Bool
  rxPool : Pool
  posted : List Addr
  completed : List RxCompletion
  arena : Arena

def Machine.receiveView (arena : σ → Arena) (m : Machine σ) : ReceiveView where
  index := m.interface.index
  config := m.interface.config
  engineOpen := m.interface.engineOpen
  rxPool := m.interface.rxPool
  posted := m.engine.posted
  completed := m.engine.completed
  arena := arena m.world

namespace ReceiveView

/-- The buffers of the stack among the posted ones and those in `hand`. -/
def lent (v : ReceiveView) (hand : List Addr) : List Addr :=
  if v.config.zeroCopyRx then v.posted ++ hand else []

/-- The posted buffers and those in `hand` are different from one another and belong to nobody
else. Slots may be lost, for those that the engine refused do not come back. -/
structure Supplied (setup : Setup) (hand : List Addr) (v : ReceiveView) : Prop where
  index_eq : v.index = setup.index
  config_eq : v.config = setup.config
  opened : v.posted ≠ [] → v.engineOpen = true
  completed_eq : v.completed = []
  pool : v.rxPool.Intact
  geometry : setup.start.SameSlots v.arena
  owned : ∃ outside, v.arena.Partition (v.lent hand ++ outside)
  vacant : v.config.zeroCopyRx = false → v.rxPool.isInitialized = false → v.posted ++ hand = []
  slots : v.config.zeroCopyRx = false → v.rxPool.isInitialized = true →
    ∃ base lost, v.rxPool.Accounts base (v.posted ++ hand ++ lost) ∧ setup.start.Clear base

/-- Of `n` descriptors `left` are still without a buffer, unless a call has failed before. -/
structure Filling (setup : Setup) (n : Nat) (clean : Prop) (hand : List Addr)
    (left : Nat) (v : ReceiveView) : Prop extends v.Supplied setup hand where
  engineOpen : v.engineOpen = true
  pooled : v.config.zeroCopyRx = false → v.rxPool.isInitialized = true
  count : clean → v.posted.length + hand.length + left = n

variable {setup : Setup} {hand : List Addr} {a : Addr} {v v' : ReceiveView}
  {n left : Nat} {clean : Prop}

theorem Supplied.lose (h : v.Supplied setup [a]) : v.Supplied setup [] := by
  obtain ⟨outside, howned⟩ := h.owned
  refine { h with owned := ?_, vacant := ?_, slots := ?_ }
  · cases hmode : v.config.zeroCopyRx with
    | true => exact ⟨a :: outside, by simpa [lent, hmode] using howned⟩
    | false => exact ⟨outside, by simpa [lent, hmode] using howned⟩
  · intro hcopying hvacant
    exact absurd (h.vacant hcopying hvacant) (by simp)
  · intro hcopying hready
    obtain ⟨base, lost, haccounts, hclear⟩ := h.slots hcopying hready
    exact ⟨base, a :: lost, by simpa using haccounts, hclear⟩

theorem Supplied.place (h : v.Supplied setup [a]) (hopen : v.engineOpen = true) :
    Supplied setup [] { v with posted := v.posted ++ [a] } := by
  refine { h with opened := fun _ => hopen, owned := ?_, vacant := ?_, slots := ?_ }
  · simpa only [lent, List.append_nil] using h.owned
  · simpa only [List.append_nil] using h.vacant
  · simpa only [List.append_nil] using h.slots

theorem Supplied.take {arena : Arena} {buffer : NetworkBuffer} {wanted : Nat}
    (h : v.Supplied setup []) (htake : v.arena.take wanted = (some buffer, arena)) :
    Supplied setup [] { v with arena } ∧
      (v.config.zeroCopyRx = true →
        Supplied setup [v.arena.payloadAt buffer.index] { v with arena }) ∧
      buffer.payload = some (v.arena.payloadAt buffer.index) := by
  obtain ⟨outside, howned⟩ := h.owned
  obtain ⟨hslots, hpartition, hpayload⟩ := howned.take wanted htake
  refine ⟨?_, fun hzero => ?_, hpayload⟩
  · refine { h with
      geometry := h.geometry.trans hslots
      owned := ⟨v.arena.payloadAt buffer.index :: outside, ?_⟩ }
    exact hpartition.congr List.perm_middle.symm
  · refine { h with
      geometry := h.geometry.trans hslots
      owned := ⟨outside, ?_⟩
      vacant := ?_
      slots := ?_ }
    · refine hpartition.congr ?_
      simp only [lent, hzero, if_true, List.append_nil, List.append_assoc, List.singleton_append]
      exact List.perm_middle.symm
    · intro hcopying
      exact absurd (hcopying.symm.trans hzero) Bool.false_ne_true
    · intro hcopying
      exact absurd (hcopying.symm.trans hzero) Bool.false_ne_true

theorem Supplied.acquire {lock : Lock} {clock : Clock} {memory : Memory} {wanted : Nat}
    (h : v.Supplied setup []) (hcopying : v.config.zeroCopyRx = false)
    (hready : v.rxPool.isInitialized = true)
    (hok : (v.rxPool.acquire wanted lock clock memory).result = .ok a) :
    Supplied setup [a]
        { v with rxPool := (v.rxPool.acquire wanted lock clock memory).pool } ∧
      (v.rxPool.acquire wanted lock clock memory).pool.isInitialized = true := by
  obtain ⟨base, lost, haccounts, hclear⟩ := h.slots hcopying hready
  obtain ⟨ring, hpool, hcapacity, -, haccounts'⟩ := haccounts.acquire_of_ok hok
  rw [hpool]
  have hready' : Pool.isInitialized { v.rxPool with ring } = true := haccounts'.isInitialized
  refine ⟨{ h with pool := ?_, owned := ?_, vacant := ?_, slots := ?_ }, hready'⟩
  · exact ⟨h.pool.backing, hcapacity.trans h.pool.capacity, h.pool.slotSize⟩
  · simpa [lent, hcopying] using h.owned
  · intro _ hvacant
    exact absurd (hvacant.symm.trans hready') Bool.false_ne_true
  · intro _ _
    refine ⟨base, lost, haccounts'.congr ?_, hclear⟩
    rw [List.append_nil, List.append_assoc]
    exact List.perm_middle.symm

theorem Supplied.createRx (h : v.Supplied setup []) {allocate : Nat → Option Addr}
    (hallocate : ∀ base, allocate (poolSlots * maxPacketSize) = some base →
      setup.start.Clear base) :
    Supplied setup [] { v with rxPool := (v.rxPool.create allocate).2 } := by
  have hintact := (h.pool.create allocate).1
  cases hpool : v.rxPool.isInitialized with
  | true =>
      rw [Pool.create_of_isInitialized allocate hpool]
      exact h
  | false =>
      cases hresult : (v.rxPool.create allocate).1 with
      | ok =>
          obtain ⟨base, hbase, haccounts⟩ := h.pool.accounts_create hpool hresult
          refine { h with pool := hintact, vacant := ?_, slots := ?_ }
          · intro _ hvacant
            exact absurd (hvacant.symm.trans haccounts.isInitialized) Bool.false_ne_true
          · intro hcopying _
            refine ⟨base, [], ?_, hallocate base hbase⟩
            rw [h.vacant hcopying hpool]
            exact haccounts
      | error f =>
          have hvacant := Pool.not_isInitialized_of_create_error hresult
          refine { h with pool := hintact, vacant := ?_, slots := ?_ }
          · intro hcopying _
            exact h.vacant hcopying hpool
          · intro _ hready
            exact absurd (hvacant.symm.trans hready) Bool.false_ne_true

theorem Filling.inHand (h : Filling setup n clean [] (left + 1) v)
    (hheld : v'.Supplied setup [a]) (hposted : v'.posted = v.posted)
    (hopen : v'.engineOpen = v.engineOpen)
    (hpooled : v'.config.zeroCopyRx = false → v'.rxPool.isInitialized = true) :
    Filling setup n clean [a] left v' := by
  refine { hheld with
    engineOpen := hopen.trans h.engineOpen
    pooled := hpooled
    count := fun hclean => ?_ }
  have hcount := h.count hclean
  rw [List.length_nil] at hcount
  rw [hposted, List.length_singleton]
  omega

end ReceiveView

open ReceiveView

variable {c : Collaborators σ} {arena : σ → Arena} {p : ReceiveView → Prop} {setup : Setup}
  {n left : Nat} {clean : Prop}

/-- How many buffers should be posted when a stage begins. -/
def Stage.posted (n : Nat) : Stage → Nat
  | .engineInit | .linkPartnerInit | .transferInit => 0
  | _ => n

/-- A stage begins, with the buffers that should be posted then unless a call has failed before. -/
structure AtStage (setup : Setup) (n : Nat) (clean : Prop) (s : Stage)
    (v : ReceiveView) : Prop extends v.Supplied setup [] where
  count : clean → v.posted.length = s.posted n

def OnReceive (arena : σ → Arena) (p : ReceiveView → Prop) (m : Machine σ) : Prop :=
  p (m.receiveView arena)

namespace Driver

/-! ## Steps that leave the buffers alone -/

theorem keepsReceive_report (entry : LogEntry) :
    Keeps (Machine.receiveView arena) (report entry) :=
  fun _ => rfl

theorem keepsReceive_record (x : Exchange) : Keeps (Machine.receiveView arena) (record x) :=
  fun _ => rfl

theorem keepsReceive_consult {α : Type} {ask : σ → α × σ}
    (h : ∀ w, arena (ask w).2 = arena w) : Keeps (Machine.receiveView arena) (consult ask) := by
  intro m
  rw [run_consult]
  show ReceiveView.mk _ _ _ _ _ _ (arena (ask m.world).2) = _
  rw [h]
  rfl

theorem keepsReceive_ask {α : Type} {ask : σ → α × σ} (x : α → Exchange)
    (h : ∀ w, arena (ask w).2 = arena w) : Keeps (Machine.receiveView arena) (do
      let answer ← consult ask
      record (x answer)
      return answer) :=
  (keepsReceive_consult h).bind fun _ => (keepsReceive_record _).bind fun _ => keeps_pure _

theorem keepsReceive_createPool_tx : Keeps (Machine.receiveView arena) (createPool c .tx) :=
  fun _ => rfl

section

variable (hstack : ReceiveStack c arena setup)
include hstack

theorem keepsReceive_command {k : Command} (hk : ∀ e : Engine, (e.accept k).posted = e.posted ∧
    (e.accept k).completed = e.completed) :
    Keeps (Machine.receiveView arena) (command c k) := by
  refine keeps_of_meets fun v => meets_command (fun m world hm hanswer => ?_)
    fun m world status hm hanswer => ?_
  · rw [← hm]
    simp only [Machine.receiveView, (hk m.engine).1, (hk m.engine).2, hstack.command hanswer]
  · rw [← hm]
    simp only [Machine.receiveView, hstack.command hanswer]

theorem keepsReceive_checkLink (phy : UInt8) (maxWait : UInt64) :
    Keeps (Machine.receiveView arena) (checkLink c phy maxWait) :=
  keeps_checkLink keepsReceive_report (keepsReceive_ask _ (hstack.readPhy phy _)) (fun _ _ => rfl)
    (fun _ _ => rfl) maxWait

end

end Driver

namespace Attempt

section

variable (hstack : ReceiveStack c arena setup)
include hstack

theorem keepsReceive_initLinkPartner : Keeps (Machine.receiveView arena) (initLinkPartner c) :=
  keeps_initLinkPartner (fun _ => Driver.keepsReceive_command hstack fun _ => ⟨rfl, rfl⟩)
    (fun _ => Driver.keepsReceive_command hstack fun _ => ⟨rfl, rfl⟩) (fun _ _ => rfl)
    Driver.keepsReceive_report

theorem keepsReceive_startEngine : Keeps (Machine.receiveView arena) (startEngine c) :=
  keeps_startEngine (fun _ => Driver.keepsReceive_command hstack fun _ => ⟨rfl, rfl⟩)
    (Driver.keepsReceive_command hstack fun _ => ⟨rfl, rfl⟩)

theorem keepsReceive_awaitLink : Keeps (Machine.receiveView arena) (awaitLink c) :=
  keeps_awaitLink (fun spec => Driver.keepsReceive_ask _ (hstack.spawn spec)) (fun _ _ => rfl)
    (Driver.keepsReceive_checkLink hstack) Driver.keepsReceive_report

/-! ## Filling the descriptors -/

theorem supplied_getBuffer (n left : Nat) (clean : Prop) :
    Driver.Meets (OnReceive arena fun v =>
        Filling setup n clean [] (left + 1) v ∧ v.config.zeroCopyRx = true)
      (Driver.getBuffer c maxPacketSize prefillWait) fun answer =>
        match answer.bind (·.payload) with
        | some a => OnReceive arena (Filling setup n clean [a] left)
        | none => OnReceive arena (Supplied setup []) := by
  refine Driver.meets_getBuffer fun m answer world hm hanswer => ?_
  obtain ⟨hfilling, hzero⟩ := hm
  cases answer with
  | none =>
      have harena : arena world = arena m.world := by
        obtain ⟨outside, howned⟩ := hfilling.owned
        rcases hstack.getBuffer_none hanswer with harena | htake
        · exact harena
        · exact Arena.take_eq_none howned.wellFormed htake
      show Supplied setup [] { m.receiveView arena with arena := arena world }
      rw [harena]
      exact hfilling.toSupplied
  | some buffer =>
      obtain ⟨taken, htake, hindex, hpayload⟩ := hstack.getBuffer_some hanswer
      obtain ⟨hidle, hheld, htaken⟩ := hfilling.toSupplied.take htake
      rw [Option.bind_some]
      rcases hpayload with hpayload | hpayload
      · rw [hpayload, htaken]
        exact hfilling.inHand (hheld hzero) rfl rfl hfilling.pooled
      · rw [hpayload]
        exact hidle

omit hstack in
theorem supplied_acquireSlot (arena : σ → Arena) (setup : Setup) (n left : Nat)
    (clean : Prop) :
    Driver.Meets (OnReceive arena fun v =>
        Filling setup n clean [] (left + 1) v ∧ v.config.zeroCopyRx = false)
      (Driver.acquireSlot c .rx maxPacketSize) fun
      | .ok a => OnReceive arena (Filling setup n clean [a] left)
      | .error _ => OnReceive arena (Supplied setup []) := by
  refine Driver.meets_onPool fun m reply hm hreply => ?_
  obtain ⟨hfilling, hcopying⟩ := hm
  have hready := hfilling.pooled hcopying
  replace hreply : m.interface.rxPool.acquire maxPacketSize (c.lock .rx m.world) m.clock m.memory =
    reply := hreply
  cases hresult : reply.result with
  | ok a =>
      have hheld := hfilling.toSupplied.acquire hcopying hready (hreply ▸ hresult)
      rw [show (m.receiveView arena).rxPool = m.interface.rxPool from rfl, hreply] at hheld
      exact hfilling.inHand hheld.1 rfl rfl fun _ => hheld.2
  | error e =>
      have hpool : reply.pool = m.interface.rxPool := by
        have hunchanged := (Pool.acquire_of_error (hreply ▸ hresult)).1
        rwa [hreply] at hunchanged
      show Supplied setup [] { m.receiveView arena with rxPool := reply.pool }
      rw [hpool]
      exact hfilling.toSupplied

/-- A buffer is in hand, or the attempt ends without one. -/
theorem supplied_receiveBuffer :
    Meets (OnReceive arena (Filling setup n clean [] (left + 1))) (receiveBuffer c)
      (fun a => OnReceive arena (Filling setup n clean [a] left))
      fun _ => OnReceive arena (Supplied setup []) := by
  refine meets_receiveBuffer ?_ ?_
  · refine (supplied_getBuffer hstack n left clean).post fun answer m hm => ?_
    cases hpayload : answer.bind (·.payload) with
    | none => rwa [hpayload] at hm
    | some a => rwa [hpayload] at hm
  · refine (supplied_acquireSlot arena setup n left clean).post ?_
    rintro (e | a) m hm
    · exact hm
    · exact hm

theorem supplied_post (a : Addr) :
    Driver.Meets (OnReceive arena (Filling setup n clean [a] left))
      (Driver.command c (.refill a)) fun
      | .ok () => OnReceive arena (Filling setup n clean [] left)
      | .error _ => OnReceive arena (Supplied setup []) := by
  refine Driver.meets_command (fun m world hm hanswer => ?_) fun m world status hm hanswer => ?_
  · have harena := hstack.command hanswer
    show Filling setup n clean [] left { m.receiveView arena with
      posted := m.engine.posted ++ [a], arena := arena world }
    rw [harena]
    refine { hm.toSupplied.place hm.engineOpen with
      engineOpen := hm.engineOpen
      pooled := hm.pooled
      count := fun hclean => ?_ }
    have hcount : m.engine.posted.length + 1 + left = n := hm.count hclean
    simp only [List.length_append, List.length_singleton, List.length_nil]
    omega
  · have harena := hstack.command hanswer
    show Supplied setup [] { m.receiveView arena with arena := arena world }
    rw [harena]
    exact hm.toSupplied.lose

theorem supplied_refill (a : Addr) :
    Meets (OnReceive arena (Filling setup n clean [a] left)) (command c (.refill a))
      (fun _ => OnReceive arena (Filling setup n clean [] left))
      fun _ => OnReceive arena (Supplied setup []) :=
  meets_command (supplied_post hstack a) (fun _ hm => hm) fun _ _ hm => hm

theorem supplied_prefill (left : Nat) :
    Meets (OnReceive arena (Filling setup n clean [] left)) (prefill c left)
      (fun _ => OnReceive arena (Filling setup n clean [] 0))
      fun _ => OnReceive arena (Supplied setup []) :=
  meets_prefill (I := fun left => OnReceive arena (Filling setup n clean [] left)) left
    (fun _ _ => supplied_receiveBuffer hstack) fun _ _ a => supplied_refill hstack a

/-- Not one descriptor has a buffer, unless a call has failed before. -/
structure Untouched (setup : Setup) (clean : Prop) (v : ReceiveView) : Prop
    extends v.Supplied setup [] where
  engineOpen : v.engineOpen = true
  count : clean → v.posted = []

theorem supplied_ensurePool_rx :
    Meets (OnReceive arena (Untouched setup clean)) (ensurePool c .rx)
      (fun _ => OnReceive arena fun v =>
        Untouched setup clean v ∧ v.rxPool.isInitialized = true)
      fun _ => OnReceive arena (Supplied setup []) := by
  refine meets_ensurePool ?_ fun m hm hready => ⟨hm, hready⟩
  rintro m ⟨hm, -⟩
  have hend : Supplied setup []
      (((Driver.createPool c .rx).run m).2.receiveView arena) :=
    hm.toSupplied.createRx fun base => hstack.allocate m.world base hm.geometry
  cases hresult : ((Driver.createPool c .rx).run m).1 with
  | ok =>
      refine ⟨{ hend with engineOpen := hm.engineOpen, count := hm.count }, ?_⟩
      exact Pool.isInitialized_create hresult
  | error f => exact hend

omit hstack in
theorem supplied_ensurePool_tx :
    Meets (OnReceive arena (Untouched setup clean)) (ensurePool c .tx)
      (fun _ => OnReceive arena (Untouched setup clean))
      fun _ => OnReceive arena (Supplied setup []) :=
  ((keeps_ensurePool Driver.keepsReceive_createPool_tx).meets (Untouched setup clean)).mono
    (fun _ hm => hm) (fun _ _ hm => hm) fun _ _ hm => hm.toSupplied

omit hstack in
theorem supplied_requireEngine :
    Meets (OnReceive arena p) requireEngine
      (fun _ => OnReceive arena fun v => p v ∧ v.engineOpen = true) fun _ => OnReceive arena p :=
  meets_requireEngine (fun _ hm hopen => ⟨hm, hopen⟩) fun _ hm _ => hm

theorem supplied_initTransfer (clean : Prop) (hn : clean → ∀ w, c.rxDescriptors w = n) :
    Meets (OnReceive arena fun v => v.Supplied setup [] ∧ (clean → v.posted = []))
      (initTransfer c) (fun _ => OnReceive arena (Filling setup n clean [] 0))
      fun _ => OnReceive arena (Supplied setup []) := by
  have hinitialize : Keeps (Machine.receiveView arena) (command c .dmaInitialize) :=
    keeps_command (Driver.keepsReceive_command hstack fun _ => ⟨rfl, rfl⟩)
  have hdma := hinitialize.meets fun v => Untouched setup clean v ∧
    (v.config.zeroCopyRx = false → v.rxPool.isInitialized = true)
  refine meets_initTransfer (A := OnReceive arena (Untouched setup clean))
    (supplied_requireEngine.mono (fun _ hm => hm) (fun _ _ hm => ?_) fun _ _ hm => hm.1)
    (supplied_ensurePool_tx.pre fun _ hm => hm.1) (fun _ hm _ => hm)
    ((supplied_ensurePool_rx hstack).mono (fun _ hm => hm.1) (fun _ _ hm => ⟨hm.1, fun _ => hm.2⟩)
      fun _ _ hm => hm)
    (fun _ hm hzero => ⟨hm, fun hcopying => nomatch hcopying.symm.trans hzero⟩)
    (hdma.mono (fun _ hm => hm) (fun _ _ hm => hm) fun _ _ hm => hm.1.toSupplied)
    fun w => (supplied_prefill hstack _).pre ?_
  · obtain ⟨⟨hsupplied, hcount⟩, hopen⟩ := hm
    exact { hsupplied with engineOpen := hopen, count := hcount }
  · rintro m ⟨⟨huntouched, hpooled⟩, -⟩
    refine { huntouched with pooled := hpooled, count := fun hclean => ?_ }
    rw [huntouched.count hclean, hn hclean]
    exact Nat.zero_add n

/-! ## The stages -/

theorem supplied_openEngine (hp : ∀ v, p v → p { v with engineOpen := true }) :
    Meets (OnReceive arena p) (openEngine c) (fun _ => OnReceive arena p)
      fun _ => OnReceive arena p := by
  have hcallback : Keeps (Machine.receiveView arena) (command c .setCallback) :=
    keeps_command (Driver.keepsReceive_command hstack fun _ => ⟨rfl, rfl⟩)
  have hopened : ∀ {m : Machine σ} {world opened},
      c.openEmac m.interface.index m.world = (opened, world) → Machine.receiveView arena { m with
        trace := m.trace.push (.openEmac m.interface.index opened), world } =
          m.receiveView arena := by
    intro m world opened hanswer
    have harena := hstack.openEmac m.interface.index m.world
    rw [hanswer] at harena
    simp [Machine.receiveView, harena]
  refine meets_openEngine (A := OnReceive arena p) (fun m world hm hanswer => ?_)
    (fun m world hm hanswer => ?_) (hcallback.meets p)
  · rw [OnReceive, hopened hanswer]
    exact hm
  · refine hp (Machine.receiveView arena { m with
      trace := m.trace.push (.openEmac m.interface.index true), world }) ?_
    rw [hopened hanswer]
    exact hm

def receiveOutline (arena : σ → Arena) (setup : Setup) (n : Nat) (clean : Prop) :
    BringUpOutline σ where
  inTurn s := OnReceive arena (AtStage setup n clean s)
  waiting := OnReceive arena (AtStage setup n clean .linkWait)
  failed _ _ := OnReceive arena (Supplied setup [])

theorem receiveOutline_sound (hn : clean → ∀ w, c.rxDescriptors w = n) :
    (receiveOutline arena setup n clean).Sound c where
  stage := by
    have hkept : ∀ {α : Type} {x : Attempt σ α} {s : Stage}, Keeps (Machine.receiveView arena) x →
        Meets (OnReceive arena (AtStage setup n clean s)) x
          (fun _ => OnReceive arena (AtStage setup n clean s))
          fun _ => OnReceive arena (Supplied setup []) :=
      fun hx => (hx.meets (AtStage setup n clean _)).mono (fun _ hm => hm) (fun _ _ hm => hm)
        fun _ _ hm => hm.toSupplied
    have hopen : ∀ v, AtStage setup n clean .engineInit v →
        AtStage setup n clean .engineInit { v with engineOpen := true } :=
      fun v hv => { hv with opened := fun _ => rfl }
    refine BringUpOutline.meets_runStage
      ((supplied_openEngine hstack hopen).mono (fun _ hm => hm) (fun _ _ hm => ?_)
        fun _ _ hm => hm.toSupplied)
      ((hkept (keepsReceive_initLinkPartner hstack)).post fun _ _ hm => ?_)
      ((supplied_initTransfer hstack clean hn).mono (fun _ hm => ?_) (fun _ _ hm => ?_)
        fun _ _ hm => hm)
      ((hkept (keepsReceive_startEngine hstack)).post fun _ _ hm => ?_)
      ((hkept (keepsReceive_awaitLink hstack)).post ?_)
    · exact { hm.toSupplied with count := hm.count }
    · exact { hm.toSupplied with count := hm.count }
    · exact ⟨hm.toSupplied, fun hclean => List.length_eq_zero_iff.mp (hm.count hclean)⟩
    · exact { hm.toSupplied with count := hm.count }
    · exact { hm.toSupplied with count := hm.count }
    · rintro (_ | _) m hm
      · exact hm
      · exact { hm.toSupplied with count := hm.count }
  report _ entry := (Driver.keepsReceive_report entry).meets (AtStage setup n clean _)
  report_failed _ _ entry := (Driver.keepsReceive_report entry).meets (Supplied setup [])

/-- Whatever fails in a call, only buffers of the driver are posted. -/
theorem supplied_initialise (hn : clean → ∀ w, c.rxDescriptors w = n) :
    Meets (fun m => OnReceive arena (AtStage setup n clean m.interface.stage.entry) m)
      (initialise c)
      (fun _ m => m.interface.stage = .ready ∧
        OnReceive arena (AtStage setup n clean .ready) m)
      fun f m => OnReceive arena (Supplied setup []) m ∧ (f = .error .linkDown →
        m.interface.stage = .linkWait ∧
          OnReceive arena (AtStage setup n clean .linkWait) m) := by
  refine (receiveOutline_sound hstack hn).initialise ?_ ?_ (fun _ hm => hm)
    (fun _ hm => ⟨rfl, hm⟩) fun _ hm => ⟨hm.toSupplied, fun _ => ⟨rfl, hm⟩⟩
  · exact fun _ _ _ _ hm => ⟨hm, nofun⟩
  · exact fun _ _ _ hm => ⟨hm, nofun⟩

end

end Attempt

end XgmacDriver
