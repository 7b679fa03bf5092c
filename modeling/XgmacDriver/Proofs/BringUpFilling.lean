import XgmacDriver.Proofs.BringUpStock

/-! # Filling the receive descriptors

Each step of bring-up either leaves the stock alone or moves one buffer on its way to a descriptor.
A favourable call fails here only if the stock has no buffer left for one of the descriptors.
-/

namespace XgmacDriver

variable {σ : Type}

open StockView

def OnStock (free : σ → Nat) (p : StockView → Prop) (m : Machine σ) : Prop := p (m.stock free)

/-- A failure that leaves `p`. In a favourable call it has an `excuse`. -/
def Stuck (c : Collaborators σ) (free : σ → Nat) (excuse : Prop) (p : StockView → Prop)
    (f : Failure) (m : Machine σ) : Prop :=
  (∃ e, f = .error e) ∧ (Favourable c → excuse) ∧ OnStock free p m

variable {c : Collaborators σ} {zeroCopy : Bool} {n supply hand left : Nat} {free : σ → Nat}
  {p q : StockView → Prop} {excuse excuse' : Prop} {v₀ : StockView}

theorem Stuck.mono {f : Failure} {m : Machine σ} (h : Stuck c free excuse p f m)
    (hexcuse : excuse → excuse') (hp : ∀ v, p v → q v) : Stuck c free excuse' q f m :=
  ⟨h.1, fun hfav => hexcuse (h.2.1 hfav), hp _ h.2.2⟩

namespace Driver

/-! ## Steps that leave the stock alone -/

theorem keepsStock_report (entry : LogEntry) : Keeps (Machine.stock free) (report entry) :=
  fun _ => rfl

theorem keepsStock_latchLink (status : UInt32) : Keeps (Machine.stock free) (latchLink status) :=
  fun _ => rfl

theorem keepsStock_sleep (ms : UInt64) : Keeps (Machine.stock free) (sleep ms) :=
  fun _ => rfl

theorem keepsStock_consult {α : Type} {ask : σ → α × σ} (h : ∀ w, free (ask w).2 = free w) :
    Keeps (Machine.stock free) (consult ask) := by
  intro m
  rw [run_consult]
  show StockView.mk _ _ _ _ _ _ (free (ask m.world).2) = _
  rw [h]
  rfl

theorem keepsStock_record {x : Exchange} (hx : x.refilled = []) :
    Keeps (Machine.stock free) (record x) := by
  intro m
  have hpush : ((record x).run m).2.trace = m.trace.push x := rfl
  simp only [Machine.stock, Machine.refilled_push hpush, hx, List.append_nil]
  rfl

theorem keepsStock_readPhy (hc : Undisturbed c zeroCopy n free) (phy register : UInt8) :
    Keeps (Machine.stock free) (readPhy c phy register) :=
  (keepsStock_consult (hc.readPhy phy register)).bind fun _ =>
    (keepsStock_record rfl).bind fun _ => keeps_pure _

theorem keepsStock_spawn (hc : Undisturbed c zeroCopy n free) (spec : TaskSpec) :
    Keeps (Machine.stock free) (spawn c spec) :=
  (keepsStock_consult (hc.spawn spec)).bind fun _ =>
    (keepsStock_record rfl).bind fun _ => keeps_pure _

theorem keepsStock_command (hc : Undisturbed c zeroCopy n free) {k : Command}
    (hk : ∀ answer, (Exchange.command k answer).refilled = []) :
    Keeps (Machine.stock free) (command c k) := by
  refine keeps_get.bind fun m => (keepsStock_consult (hc.command m.clock k)).bind fun answer => ?_
  refine (keepsStock_record (hk answer)).bind fun _ => ?_
  exact Keeps.ite (Keeps.bind (fun _ => rfl) fun _ => keeps_pure _) (keeps_pure _)

theorem keepsStock_checkLink (hc : Undisturbed c zeroCopy n free) (phy : UInt8) (maxWait : UInt64) :
    Keeps (Machine.stock free) (checkLink c phy maxWait) :=
  keeps_checkLink keepsStock_report (keepsStock_readPhy hc phy phyStatusRegister)
    keepsStock_latchLink keepsStock_sleep maxWait

theorem pollLink_of_favourable (hfav : Favourable c) (phy : UInt8) (maxWait : UInt64) (fuel : Nat)
    (m : Machine σ) : ((pollLink c phy maxWait m.clock.now (fuel + 1)).run m).1 = true := by
  have hnow : ¬maxWait < m.clock.elapsedSince m.clock.now := by
    simp [Clock.elapsedSince]
  have hup : linkUp (c.readPhy phy phyStatusRegister m.world).1 = true := hfav.readPhy _ _
  simp only [pollLink, hnow, readLinkStatus, latchLink, hup, StateT.run_bind, run_readPhy,
    run_modifyInterface, StateT.run_get, run_ite, pure_bind, if_false, if_true, StateT.run_pure]
  rfl

theorem stock_checkLink (hc : Undisturbed c zeroCopy n free) (phy : UInt8) (maxWait : UInt64) :
    Meets (OnStock free p) (checkLink c phy maxWait) fun up m =>
      (Favourable c → up = true) ∧ OnStock free p m := by
  intro m hm
  refine ⟨fun hfav => ?_, (keepsStock_checkLink hc phy maxWait).meets p m hm⟩
  exact pollLink_of_favourable hfav phy maxWait (UInt64.size - 1) m

theorem stock_command (hc : Undisturbed c zeroCopy n free) {k : Command}
    (hk : ∀ answer, (Exchange.command k answer).refilled = []) :
    Meets (OnStock free p) (command c k) fun answer m =>
      (Favourable c → answer = .ok ()) ∧ OnStock free p m := by
  intro m hm
  refine ⟨fun hfav => ?_, (keepsStock_command hc hk).meets p m hm⟩
  rw [run_command]
  exact hfav.command _ _ _

end Driver

namespace Attempt

theorem stock_always {α : Type} {x : Driver σ α} {E : Failure → Machine σ → Prop}
    (hx : Driver.Keeps (Machine.stock free) x) :
    Meets (OnStock free p) (always x) (fun _ => OnStock free p) E :=
  meets_always (hx.meets p)

theorem stock_requireEngine {E : Failure → Machine σ → Prop} (hp : ∀ v, p v → v.engineOpen = true) :
    Meets (OnStock free p) (requireEngine : Attempt σ Unit) (fun _ => OnStock free p) E :=
  meets_requireEngine (fun _ hm _ => hm) fun _ hm hclosed => nomatch hclosed.symm.trans (hp _ hm)

theorem stock_command (hc : Undisturbed c zeroCopy n free) {k : Command}
    (hk : ∀ answer, (Exchange.command k answer).refilled = []) :
    Meets (OnStock free p) (command c k) (fun _ => OnStock free p) (Stuck c free False p) :=
  meets_command (Driver.stock_command hc hk) (fun _ hm => hm.2) fun _ _ hm =>
    ⟨⟨_, rfl⟩, fun hfav => (by cases hm.1 hfav), hm.2⟩

theorem stock_ensurePool (d : Direction) :
    Meets (OnStock free (Filling n supply v₀ 0 n)) (ensurePool c d)
      (fun _ => OnStock free fun v =>
        Filling n supply v₀ 0 n v ∧ (d = .rx → v.rxPool.isInitialized = true))
      (Stuck c free False (Filling n supply v₀ 0 n)) := by
  have hintact : ∀ {m : Machine σ}, OnStock free (Filling n supply v₀ 0 n) m →
      (m.interface.pool d).Intact := by
    intro m hm
    cases d with
    | tx => exact hm.txPool
    | rx => exact hm.rxPool
  have hend : ∀ {m : Machine σ}, OnStock free (Filling n supply v₀ 0 n) m →
      OnStock free (Filling n supply v₀ 0 n) ((Driver.createPool c d).run m).2 := by
    intro m hm
    cases d with
    | tx => exact { hm with txPool := ((hintact hm).create (c.allocate .tx m.world)).1 }
    | rx => exact { hm with toStocked := hm.toStocked.createRx (c.allocate .rx m.world) }
  refine meets_ensurePool ?_ fun m hm hready => ⟨hm, ?_⟩
  · rintro m ⟨hm, -⟩
    cases hresult : ((Driver.createPool c d).run m).1 with
    | ok =>
        refine ⟨hend hm, ?_⟩
        rintro rfl
        exact Pool.isInitialized_create hresult
    | error f =>
        obtain ⟨herror, hnone⟩ := ((hintact hm).create (c.allocate d m.world)).2 f hresult
        refine ⟨herror, fun hfav => ?_, hend hm⟩
        obtain ⟨base, hbase⟩ := hfav.allocate d m.world
        exact nomatch hnone.symm.trans hbase
  · rintro rfl
    exact hready

theorem stock_getBuffer (supply left : Nat) (v₀ : StockView)
    (hc : Undisturbed c v₀.zeroCopy n free) :
    Driver.Meets (OnStock free fun v => Filling n supply v₀ 0 (left + 1) v ∧ v.zeroCopy = true)
      (Driver.getBuffer c maxPacketSize prefillWait) fun
      | some buffer => fun m => (∃ a, buffer.payload = some a) ∧
          OnStock free (fun v => Filling n supply v₀ 1 left v ∧ v.Pooled) m
      | none => fun m => ¬v₀.HasRoom n supply ∧ OnStock free (Kept supply 0 v₀) m := by
  refine Driver.meets_getBuffer fun m answer world hm hanswer => ?_
  obtain ⟨hfilling, hzero⟩ := hm
  have hstock : Machine.stock free { m with
      trace := m.trace.push (.getBuffer maxPacketSize prefillWait answer), world } =
        { m.stock free with free := free world } := by
    simp [Machine.stock, Machine.refilled, Exchange.refilled]
  cases answer with
  | some buffer =>
      obtain ⟨hpayload, hfree⟩ := hc.getBuffer_some (hfilling.mode.symm.trans hzero) hanswer
      refine ⟨hpayload, ?_⟩
      rw [OnStock, hstock]
      refine ⟨{ hfilling with
        toStocked := hfilling.toStocked.obtain hzero hfree
        drawn := ?_ }, fun hcopying => ?_⟩
      · have hdrawn := hfilling.drawn
        show (m.stock free).drawn + 1 + left = _
        omega
      · exact absurd (hcopying.symm.trans hzero) Bool.false_ne_true
  | none =>
      obtain ⟨hempty, hempty'⟩ := hc.getBuffer_none (hfilling.mode.symm.trans hzero) hanswer
      refine ⟨hfilling.not_hasRoom (hfilling.toStocked.drawn_eq hzero hempty), ?_⟩
      have hsame : { m.stock free with free := free world } = m.stock free := by
        rw [hempty', ← hempty]
        rfl
      rw [OnStock, hstock, hsame]
      exact hfilling.toKept

theorem stock_acquireSlot (supply left : Nat) (v₀ : StockView)
    (hc : Undisturbed c v₀.zeroCopy n free) :
    Driver.Meets (OnStock free fun v =>
        Filling n supply v₀ 0 (left + 1) v ∧ v.Pooled ∧ v.zeroCopy = false)
      (Driver.acquireSlot c .rx maxPacketSize) fun
      | .ok _ => OnStock free fun v => Filling n supply v₀ 1 left v ∧ v.Pooled
      | .error _ => fun m => ¬v₀.HasRoom n supply ∧ OnStock free (Kept supply 0 v₀) m := by
  refine Driver.meets_onPool fun m reply hm hreply => ?_
  obtain ⟨hfilling, hpooled, hcopying⟩ := hm
  rw [hc.lock (hfilling.mode.symm.trans hcopying)] at hreply
  obtain ⟨hready, ⟨⟨a, hok⟩, hstocked⟩ | ⟨⟨e, herror⟩, hpool, hall⟩⟩ :=
    hfilling.toStocked.acquire hcopying (hpooled hcopying) hreply
  · rw [hok]
    refine ⟨{ hfilling with toStocked := hstocked, drawn := ?_ }, fun _ => hready⟩
    have hdrawn := hfilling.drawn
    show (m.stock free).drawn + 1 + left = _
    omega
  · rw [herror]
    refine ⟨hfilling.not_hasRoom hall, ?_⟩
    have hsame : m.interface.setPool reply.pool .rx = m.interface := by
      rw [hpool]
      rfl
    show Kept supply 0 v₀
      (Machine.stock free { m with interface := m.interface.setPool reply.pool .rx })
    rw [hsame]
    exact hfilling.toKept

/-- A buffer is in hand, unless all of them have been drawn. -/
theorem stock_receiveBuffer (hc : Undisturbed c v₀.zeroCopy n free) :
    Meets (OnStock free fun v => Filling n supply v₀ 0 (left + 1) v ∧ v.Pooled) (receiveBuffer c)
      (fun _ => OnStock free fun v => Filling n supply v₀ 1 left v ∧ v.Pooled)
      (Stuck c free (¬v₀.HasRoom n supply) (Kept supply 0 v₀)) := by
  refine meets_receiveBuffer ?_ ?_
  · refine (stock_getBuffer supply left v₀ hc).mono ?_ ?_
    · rintro m ⟨⟨hfilling, -⟩, hzero⟩
      exact ⟨hfilling, hzero⟩
    · rintro (_ | buffer) m hm
      · exact ⟨⟨_, rfl⟩, fun _ => hm.1, hm.2⟩
      · obtain ⟨⟨a, ha⟩, hm⟩ := hm
        rw [Option.bind_some, ha]
        exact hm
  · refine (stock_acquireSlot supply left v₀ hc).mono ?_ ?_
    · rintro m ⟨⟨hfilling, hpooled⟩, hcopying⟩
      exact ⟨hfilling, hpooled, hcopying⟩
    · rintro (e | a) m hm
      · exact ⟨⟨_, rfl⟩, fun _ => hm.1, hm.2⟩
      · exact hm

/-- The buffer in hand goes to a descriptor, also if the engine refuses it. -/
theorem stock_refill (hc : Undisturbed c v₀.zeroCopy n free) (a : Addr) :
    Meets (OnStock free fun v => Filling n supply v₀ 1 left v ∧ v.Pooled) (command c (.refill a))
      (fun _ => OnStock free fun v => Filling n supply v₀ 0 left v ∧ v.Pooled)
      (Stuck c free False (Kept supply 0 v₀)) := by
  -- The buffer counts as drawn whichever answer the engine gives.
  have hplace : ∀ (m : Machine σ) answer world engine,
      OnStock free (fun v => Filling n supply v₀ 1 left v ∧ v.Pooled) m →
        free world = free m.world → OnStock free (fun v => Filling n supply v₀ 0 left v ∧ v.Pooled)
          { m with trace := m.trace.push (.command (.refill a) answer), world, engine } := by
    rintro m answer world engine ⟨hfilling, hpooled⟩ hfree
    have hstock : Machine.stock free { m with
        trace := m.trace.push (.command (.refill a) answer), world, engine } =
          { m.stock free with drawn := (m.stock free).drawn + 1 } := by
      simp [Machine.stock, Machine.refilled, Exchange.refilled, hfree]
    rw [OnStock, hstock]
    exact ⟨{ hfilling with toStocked := hfilling.toStocked.place }, hpooled⟩
  have hrefill : Driver.Meets (OnStock free fun v => Filling n supply v₀ 1 left v ∧ v.Pooled)
      (Driver.command c (.refill a)) fun answer m => (Favourable c → answer = .ok ()) ∧
        OnStock free (fun v => Filling n supply v₀ 0 left v ∧ v.Pooled) m := by
    refine Driver.meets_command (fun m world hm hanswer => ?_) fun m world status hm hanswer => ?_
    · have hfree := hc.command m.clock (.refill a) m.world
      rw [hanswer] at hfree
      exact ⟨fun _ => rfl, hplace m _ world _ hm hfree⟩
    · have hfree := hc.command m.clock (.refill a) m.world
      rw [hanswer] at hfree
      refine ⟨fun hfav => ?_, hplace m _ world _ hm hfree⟩
      exact (congrArg Prod.fst hanswer).symm.trans (hfav.command _ _ _)
  exact meets_command hrefill (fun _ hm => hm.2) fun _ _ hm =>
    ⟨⟨_, rfl⟩, fun hfav => (by cases hm.1 hfav), hm.2.1.toKept⟩

theorem stock_prefill (hc : Undisturbed c v₀.zeroCopy n free) (left : Nat) :
    Meets (OnStock free fun v => Filling n supply v₀ 0 left v ∧ v.Pooled) (prefill c left)
      (fun _ => OnStock free (Filling n supply v₀ 0 0))
      (Stuck c free (¬v₀.HasRoom n supply) (Kept supply 0 v₀)) := by
  refine (meets_prefill (I := fun left => OnStock free fun v =>
    Filling n supply v₀ 0 left v ∧ v.Pooled) left (fun _ _ => stock_receiveBuffer hc)
    fun _ _ a => ?_).post fun _ _ hm => hm.1
  exact (stock_refill hc a).mono (fun _ hm => hm) (fun _ _ hm => hm) fun _ _ hstuck =>
    hstuck.mono False.elim fun _ h => h

theorem stock_initTransfer (hc : Undisturbed c v₀.zeroCopy n free) :
    Meets (OnStock free (Filling n supply v₀ 0 n)) (initTransfer c)
      (fun _ => OnStock free (Filling n supply v₀ 0 0))
      (Stuck c free (¬v₀.HasRoom n supply) (Kept supply 0 v₀)) := by
  have hstuck : ∀ f m, Stuck c free False (Filling n supply v₀ 0 n) f m →
      Stuck c free (¬v₀.HasRoom n supply) (Kept supply 0 v₀) f m := fun f m h =>
    h.mono False.elim fun v hv => hv.toKept
  have hdma : Meets (OnStock free fun v => Filling n supply v₀ 0 n v ∧ v.Pooled)
      (command c .dmaInitialize)
      (fun _ => OnStock free fun v => Filling n supply v₀ 0 n v ∧ v.Pooled)
      (Stuck c free (¬v₀.HasRoom n supply) (Kept supply 0 v₀)) :=
    (stock_command hc fun _ => rfl).mono (fun _ hm => hm) (fun _ _ hm => hm)
      fun _ _ h => h.mono False.elim fun _ hv => hv.1.toKept
  -- The transmit pool has no part in this.
  refine meets_initTransfer (B := OnStock free (Filling n supply v₀ 0 n))
    (stock_requireEngine fun v hv => hv.engineOpen)
    ((stock_ensurePool .tx).mono (fun _ hm => hm.1) (fun _ _ hm => hm.1) hstuck)
    (fun _ hm _ => hm)
    ((stock_ensurePool .rx).mono (fun _ hm => hm.1) (fun _ _ hm => ⟨hm.1, fun _ => hm.2 rfl⟩)
      hstuck)
    (fun _ hm hzero => ⟨hm, fun hcopying => nomatch hcopying.symm.trans hzero⟩) hdma fun w => ?_
  rw [hc.rxDescriptors]
  exact (stock_prefill hc n).pre fun _ hm => hm.1

end Attempt

end XgmacDriver
