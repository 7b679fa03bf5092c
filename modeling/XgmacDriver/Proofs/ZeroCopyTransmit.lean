import XgmacDriver.Proofs.ArenaStack
import XgmacDriver.Proofs.Lifetime
import XgmacDriver.Proofs.TransmitCustody

/-! # Transmission without copying

The stack is an arena, and its own buffers go out. Output, completions and reclaims follow each
other in any order, and every buffer that the caller gave away is released exactly once: at once if
its frame was not taken, and otherwise by the reclaim that learns of its completion.
-/

namespace XgmacDriver

open SendView

variable {σ : Type} {c : Collaborators σ} {arena : σ → Arena}

def Machine.sendView (arena : σ → Arena) (m : Machine σ) : SendView :=
  ⟨m.txView, m.released, arena m.world⟩

def OnSend (arena : σ → Arena) (p : SendView → Prop) (m : Machine σ) : Prop := p (m.sendView arena)

variable {start v : SendView} {offers : List Offer} {handed : List Addr} {back : List UInt16}
  {a : Addr}

/-- What an exchange adds to the view, whatever it leaves of the collaborators. -/
theorem Machine.sendView_push (m : Machine σ) (x : Exchange) (world : σ) :
    Machine.sendView arena { m with trace := m.trace.push x, world } = {
      tx := { m.txView with
        submitted := m.submitted ++ x.submitted
        handedBack := m.handedBack ++ x.handedBack }
      released := m.released ++ x.released
      arena := arena world } := by
  simp [Machine.sendView, Machine.txView, Machine.submitted, Machine.handedBack, Machine.released]

theorem Machine.sendView_aside {m : Machine σ} {x : Exchange} {world : σ}
    (hsubmitted : x.submitted = []) (hhandedBack : x.handedBack = []) (hreleased : x.released = [])
    (hworld : arena world = arena m.world) :
    Machine.sendView arena { m with trace := m.trace.push x, world } = m.sendView arena := by
  rw [sendView_push, hsubmitted, hhandedBack, hreleased, hworld]
  simp only [List.append_nil]
  rfl

namespace Driver

theorem keepsSend_report (entry : LogEntry) :
    Keeps (Machine.sendView arena) (report entry : Driver σ Unit) :=
  fun _ => rfl

theorem send_releaseBuffer (hstack : ArenaStack c arena) (i : UInt16) :
    Meets (OnSend arena (· = v)) (releaseBuffer c i) fun _ => OnSend arena (· = v.release i) := by
  refine meets_releaseBuffer ?_
  rintro m accepted world rfl hanswer
  have hgive : (arena m.world).give i = (accepted, arena world) := hstack.releaseBuffer hanswer
  show Machine.sendView arena { m with trace := _, world } = _
  rw [Machine.sendView_push]
  simp only [release, Machine.sendView, hgive, Exchange.submitted, Exchange.handedBack,
    Exchange.released, List.append_nil]
  rfl

theorem send_transmit (hstack : ArenaStack c arena) (frame : TxFrame) :
    Meets (OnSend arena (· = v)) (command c (.transmit frame)) fun
      | .ok () => OnSend arena (· = v.submit frame.buf)
      | .error _ => OnSend arena (· = v) := by
  refine meets_command ?_ ?_
  · rintro m world rfl hanswer
    have hworld := hstack.command hanswer
    show Machine.sendView arena { m with
      trace := _, world, engine := m.engine.accept (.transmit frame) } = _
    rw [Machine.sendView_push { m with engine := m.engine.accept (.transmit frame) }, hworld]
    simp only [submit, Machine.sendView, Exchange.submitted, Exchange.handedBack,
      Exchange.released, List.append_nil]
    rfl
  · rintro m world status rfl hanswer
    exact Machine.sendView_aside rfl rfl rfl (hstack.command hanswer)

theorem send_lookup (hstack : ArenaStack c arena) (a : Addr) :
    Meets (OnSend arena (· = v)) (lookup c a) fun answer m =>
      answer = v.arena.lookup a ∧ OnSend arena (· = v) m := by
  refine meets_lookup ?_
  rintro m answer world rfl hanswer
  obtain ⟨hfound, hworld⟩ := hstack.lookup hanswer
  exact ⟨hfound, Machine.sendView_aside rfl rfl rfl hworld⟩

theorem send_returnSent (hstack : ArenaStack c arena) {buffer : NetworkBuffer}
    (hzero : v.tx.zeroCopy = true) (hlookup : v.arena.lookup a = some buffer) :
    Meets (OnSend arena (· = v)) (returnSent c a) fun _ =>
      OnSend arena (· = v.release buffer.index) := by
  refine meets_returnSent (S := fun _ _ => False) (Q := fun _ => OnSend arena _)
    ((send_lookup hstack a).pre fun _ hm => hm.1) ?_ (fun owner => ?_) ?_ (fun _ hm => hm.elim)
    fun _ _ hm => hm.elim
  · rintro m ⟨hnone, -⟩
    cases hnone.trans hlookup
  · refine Meets.given fun howner => ?_
    obtain rfl := Option.some.inj (howner.trans hlookup)
    exact send_releaseBuffer hstack _
  · rintro m ⟨rfl, hcopying⟩
    exact absurd (hcopying.symm.trans hzero) Bool.false_ne_true

/-- Every offer is accounted for, and `count` completions are counted. -/
def Counted (start : SendView) (offers : List Offer) (count : Nat) (v : SendView) : Prop :=
  (∃ handed back, Custody start offers handed back v) ∧ v.tx.completions.count = count

theorem send_takeCompletion (count : Nat) :
    Meets (OnSend arena (Counted start offers (count + 1)))
      (modifyInterface (·.mapNotifier Notifier.takeCompletion) : Driver σ Unit) fun _ =>
      OnSend arena fun v' => ∃ v, Counted start offers (count + 1) v ∧ v' = v.take :=
  fun m hm => ⟨m.sendView arena, hm, rfl⟩

/-- The counter is never behind the engine. -/
theorem send_nextTransmitted (count : Nat) :
    Meets (OnSend arena fun v' => ∃ v, Counted start offers (count + 1) v ∧ v' = v.take)
      (nextTransmitted : Driver σ TxAnswer) fun answer => OnSend arena fun v =>
        answer = .ok none ∧ Counted start offers count v ∨
          ∃ a buffer, answer = .ok (some a) ∧ v.tx.zeroCopy = true ∧
            v.arena.lookup a = some buffer ∧
              Counted start offers count (v.release buffer.index) := by
  refine meets_nextTransmitted ?_
  rintro m answer engine ⟨v, ⟨⟨handed, back, h⟩, hcount⟩, hv⟩ hanswer
  have htake : v.tx.completions.take.2.count = count := by
    simp [CompletionCounter.take, hcount]
  have hdone : m.engine.done = v.tx.done := congrArg (·.tx.done) hv
  rw [Engine.nextDone, hdone] at hanswer
  cases hwaiting : v.tx.waiting with
  | nil =>
      have hnone : v.tx.done = [] := by rw [h.done_eq, hwaiting, List.map_nil]
      rw [hnone] at hanswer
      cases hanswer
      refine Or.inl ⟨rfl, ?_⟩
      rw [Machine.sendView_aside rfl rfl rfl rfl, hv]
      exact ⟨⟨handed, back, h.take hnone⟩, htake⟩
  | cons a rest =>
      have hsome := h.done_eq
      rw [hwaiting, List.map_cons] at hsome
      rw [hsome] at hanswer
      cases hanswer
      obtain ⟨_, buffer, hlookup, rfl, hnext⟩ := h.reclaim hsome
      have hview : Machine.sendView arena { m with
          trace := m.trace.push (.nextTransmitted (.ok (some a)))
          engine := { m.engine with done := rest.map fun a => .ok (some a) } } =
            v.take.handBack a (rest.map fun a => .ok (some a)) := by
        rw [← hv, Machine.sendView_push { m with
          engine := { m.engine with done := rest.map fun a => .ok (some a) } }]
        simp only [handBack, Machine.sendView, Exchange.submitted, Exchange.handedBack,
          Exchange.released, List.append_nil]
        rfl
      rw [OnSend, hview]
      exact Or.inr ⟨a, buffer, rfl, h.zeroCopy, hlookup, ⟨_, _, hnext⟩, htake⟩

theorem send_reclaim (hstack : ArenaStack c arena) (h : Custody start offers handed back v) :
    Meets (OnSend arena (· = v)) (reclaim c) fun _ =>
      OnSend arena fun v => (∃ handed back, Custody start offers handed back v) ∧
        v.tx.done = [] := by
  refine meets_reclaim (I := fun _ count => OnSend arena (Counted start offers count))
    (fun _ count => send_takeCompletion count) (fun _ count => send_nextTransmitted count)
    ?_ ?_ ?_ ?_ ?_ ?_
  · rintro - count m (⟨-, hm⟩ | ⟨_, _, hanswer, -⟩)
    · exact hm
    · cases hanswer
  · rintro - count a m (⟨hanswer, -⟩ | ⟨_, buffer, ⟨⟩, hzero, hlookup, hcounted⟩)
    · cases hanswer
    · have hreturned : Machine.sendView arena ((returnSent c a).run m).2 =
          (m.sendView arena).release buffer.index :=
        send_returnSent hstack hzero hlookup m rfl
      rw [OnSend, hreturned]
      exact hcounted
  · rintro - count status m (⟨hanswer, -⟩ | ⟨_, _, hanswer, -⟩)
    · cases hanswer
    · cases hanswer
  · rintro - m ⟨⟨handed, back, h⟩, hcount⟩
    have hle := h.done_le
    rw [hcount] at hle
    exact ⟨⟨handed, back, h⟩, List.length_eq_zero_iff.mp (Nat.le_zero.mp hle)⟩
  · rintro m rfl hclosed
    exact absurd (hclosed.symm.trans h.engineOpen) Bool.false_ne_true
  · rintro m rfl -
    exact ⟨⟨handed, back, h⟩, rfl⟩

/-! ## What happens besides -/

section

variable {m : Machine σ} (hcallback : m.engine.callback = true)
  (harmed : m.interface.notifier.armed = true)
include hcallback harmed

theorem sendView_interrupt (i : Interrupt) :
    ((interrupt i).run m).2.sendView arena =
      if i = .transmitted then (m.sendView arena).count else m.sendView arena := by
  have hreleased : ((interrupt i).run m).2.released = m.released := by
    rw [run_interrupt_of_live i m hcallback harmed]
    exact (Machine.released_push rfl).trans (List.append_nil _)
  have hworld : ((interrupt i).run m).2.world = m.world := by
    rw [run_interrupt_of_live i m hcallback harmed]
    rfl
  rw [Machine.sendView, txView_interrupt hcallback harmed, hreleased, hworld]
  split
  · rfl
  · rfl

theorem sendView_sent (a : Addr) :
    ((arrive (.sent a)).run m).2.sendView arena =
      if a ∈ m.engine.outstanding then (m.sendView arena).complete a else m.sendView arena := by
  simp only [arrive, StateT.run_bind, StateT.run_get, pure_bind, run_ite]
  split
  · exact sendView_interrupt (m := { m with engine := m.engine.finish a }) hcallback harmed
      .transmitted
  · rfl

end

theorem keepsSend_pollIfExpired (hstack : ArenaStack c arena)
    (hphy : ∀ phy register world, arena (c.readPhy phy register world).2 = arena world)
    (timer : PollTimer) : Keeps (Machine.sendView arena) (pollIfExpired c timer) := by
  refine keeps_pollIfExpired (fun phy => ?_) timer
  refine keeps_recheckLink keepsSend_report ?_ ?_ fun _ _ => rfl
  · intro m
    rw [run_readPhy]
    exact Machine.sendView_aside rfl rfl rfl (hphy _ _ _)
  · refine keeps_of_meets fun v => meets_command ?_ ?_
    · rintro m world rfl hanswer
      exact Machine.sendView_aside rfl rfl rfl (hstack.command hanswer)
    · rintro m world status rfl hanswer
      exact Machine.sendView_aside rfl rfl rfl (hstack.command hanswer)

end Driver

namespace Attempt

theorem send_submit (hstack : ArenaStack c arena) (hzero : v.tx.zeroCopy = true) (payload : Addr)
    (length : Nat) :
    Meets (OnSend arena (· = v)) (submit c payload length)
      (fun taken => OnSend arena (· = if taken then v.submit payload else v)) fun _ _ => False := by
  have hmode : ∀ m : Machine σ, OnSend arena (· = v) m →
      m.interface.config.zeroCopyTx = false → False := by
    rintro m rfl hcopying
    exact absurd (hcopying.symm.trans hzero) Bool.false_ne_true
  have hstage : Meets (OnSend arena (· = v)) (stageFrame c payload length)
      (fun buf m => buf = payload ∧ OnSend arena (· = v) m) fun _ _ => False :=
    meets_stageFrame (F := fun _ _ => False) (fun _ hm _ => ⟨rfl, hm⟩)
      (fun m hm => hmode m hm.1 hm.2) (fun _ _ hm => hm) fun _ _ hm => hm.elim
  refine meets_submit (B := fun _ => OnSend arena (· = v)) (S := fun _ _ => False) hstage ?_
    (fun _ _ => (Driver.keepsSend_report _).meets (· = v)) (fun _ _ hm _ => hm)
    (fun _ m hm => hmode m hm.1 hm.2) (fun _ hm => hm.elim) fun _ _ hm => hm.elim
  intro buf bytes
  refine Driver.Meets.given ?_
  rintro rfl
  exact Driver.send_transmit hstack _

/-- Output always has a result, and its effect is the fate of the buffer. -/
theorem send_output (hstack : ArenaStack c arena) (hopen : v.tx.engineOpen = true)
    (hzero : v.tx.zeroCopy = true) {buffer : NetworkBuffer} {payload : Addr}
    (hpayload : buffer.payload = some payload) (releaseAfterSend up : Bool) :
    Meets (fun m => OnSend arena (· = v) m ∧ m.interface.linkIsUp = up)
      (output c buffer releaseAfterSend)
      (fun _ => OnSend arena fun v' => ∃ taken,
        v' = v.offer ⟨buffer.index, payload, .of up taken releaseAfterSend⟩) fun _ _ => False := by
  have hoffer : ∀ taken, v.offer ⟨buffer.index, payload, .of up taken releaseAfterSend⟩ =
      if (if up then !taken else releaseAfterSend) then
        release buffer.index (if up && taken then v.submit payload else v)
      else if up && taken then v.submit payload else v := by
    intro taken
    cases up <;> cases taken <;> cases releaseAfterSend <;> rfl
  refine meets_output (R := fun release => OnSend arena fun v' => ∃ taken,
      v' = (if up && taken then v.submit payload else v) ∧
        release = if up then !taken else releaseAfterSend) ?_ ?_ ?_ ?_ ?_ ?_
  · rintro index m ⟨⟨rfl, -⟩, hclosed⟩
    exact absurd (hclosed.symm.trans hopen) Bool.false_ne_true
  · intro hnull
    cases hpayload.symm.trans hnull
  · rintro i a ha
    obtain rfl := Option.some.inj (hpayload.symm.trans ha)
    refine Meets.assuming (φ := up = true ∧ i.config.zeroCopyTx = true) ?_ ?_
    · rintro m ⟨⟨rfl, hlink⟩, rfl, hup⟩
      exact ⟨hlink.symm.trans hup, hzero⟩
    · rintro ⟨rfl, hmode⟩
      refine (send_submit hstack hzero payload _).mono (fun _ hm => hm.1.1)
        (fun taken m hm => ⟨taken, hm, ?_⟩) fun _ _ hm => hm
      simp [hmode]
  · rintro m ⟨⟨hm, hlink⟩, hdown⟩
    obtain rfl : up = false := hlink.symm.trans hdown
    exact ⟨true, hm, rfl⟩
  · rintro m ⟨taken, hm, hrelease⟩
    refine ⟨taken, (Driver.send_releaseBuffer hstack buffer.index m hm).trans ?_⟩
    rw [hoffer, ← hrelease, if_pos rfl]
  · rintro m ⟨taken, hm, hkept⟩
    refine ⟨taken, hm.trans ?_⟩
    rw [hoffer, ← hkept, if_neg Bool.false_ne_true]

/-- The frame was taken if its buffer is on record as submitted. -/
def fate (c : Collaborators σ) (buffer : NetworkBuffer) (releaseAfterSend : Bool)
    (m : Machine σ) : Fate :=
  .of m.interface.linkIsUp
    (((output c buffer releaseAfterSend).run.run m).2.submitted ≠ m.submitted) releaseAfterSend

theorem sendView_output (hstack : ArenaStack c arena) {m : Machine σ}
    (hopen : m.interface.engineOpen = true) (hzero : m.interface.config.zeroCopyTx = true)
    {buffer : NetworkBuffer} {payload : Addr} (hpayload : buffer.payload = some payload)
    (releaseAfterSend : Bool) :
    ((output c buffer releaseAfterSend).run.run m).2.sendView arena =
      (m.sendView arena).offer ⟨buffer.index, payload, fate c buffer releaseAfterSend m⟩ := by
  have houtput := send_output (v := m.sendView arena) hstack hopen hzero hpayload releaseAfterSend
    m.interface.linkIsUp
  obtain ⟨taken, htaken⟩ :=
    (houtput.mono (fun _ hm => hm) (fun _ _ hm => hm) fun _ _ => False.elim).afterwards ⟨rfl, rfl⟩
  have hfate : Fate.of m.interface.linkIsUp taken releaseAfterSend =
      fate c buffer releaseAfterSend m := by
    have hsubmitted := congrArg (·.tx.submitted) htaken
    unfold fate
    cases hup : m.interface.linkIsUp with
    | false => rfl
    | true =>
        rw [hup] at hsubmitted
        cases taken with
        | true =>
            have happended : ((output c buffer releaseAfterSend).run.run m).2.submitted =
                m.submitted ++ [payload] := hsubmitted
            simp [happended]
        | false =>
            have hsame : ((output c buffer releaseAfterSend).run.run m).2.submitted =
                m.submitted := hsubmitted
            simp [hsame]
  rw [htaken, hfate]

end Attempt

/-- The machines of a run of transmission from `m₀`, with the buffers that were offered so far. Each
of them was in use, and none is offered twice. -/
inductive SendRun (c : Collaborators σ) (arena : σ → Arena) (m₀ : Machine σ) :
    List Offer → Machine σ → Prop
  | start {last : Option (Machine σ)} : Lifetime c last m₀ → m₀.interface.stage = .ready →
      m₀.interface.config.zeroCopyTx = true → m₀.engine.outstanding = [] → m₀.engine.done = [] →
      (arena m₀.world).WellFormed → SendRun c arena m₀ [] m₀
  | output {offers : List Offer} {m : Machine σ} {buffer : NetworkBuffer} {payload : Addr}
      (releaseAfterSend : Bool) : SendRun c arena m₀ offers m → buffer.payload = some payload →
      (arena m₀.world).lookup payload = (arena m₀.world).descriptor buffer.index →
      (arena m₀.world).isInUse buffer.index = true → buffer.index ∉ offers.map Offer.index →
      SendRun c arena m₀
        (offers ++ [⟨buffer.index, payload, Attempt.fate c buffer releaseAfterSend m⟩])
        ((Attempt.output c buffer releaseAfterSend).run.run m).2
  | sent {offers : List Offer} {m : Machine σ} (buf : Addr) : SendRun c arena m₀ offers m →
      m.engine.done.length < poolSlots →
      SendRun c arena m₀ offers ((Driver.arrive (.sent buf)).run m).2
  | interrupt {offers : List Offer} {m : Machine σ} (i : Interrupt) : SendRun c arena m₀ offers m →
      SendRun c arena m₀ offers ((Driver.interrupt i).run m).2
  | reclaim {offers : List Offer} {m : Machine σ} : SendRun c arena m₀ offers m →
      SendRun c arena m₀ offers ((Driver.reclaim c).run m).2
  | poll {offers : List Offer} {m : Machine σ} (timer : PollTimer) : SendRun c arena m₀ offers m →
      SendRun c arena m₀ offers ((Driver.pollIfExpired c timer).run m).2
  | elsewhere {offers : List Offer} {m m' : Machine σ} : SendRun c arena m₀ offers m →
      m'.interface = m.interface → m'.engine = m.engine → m'.trace = m.trace →
      arena m'.world = arena m.world → SendRun c arena m₀ offers m'

section

variable (hstack : ArenaStack c arena)
  (hphy : ∀ phy register world, arena (c.readPhy phy register world).2 = arena world)
  {m₀ m : Machine σ}
include hstack hphy

theorem SendRun.custody (h : SendRun c arena m₀ offers m) : ∃ handed back,
    Custody (m₀.sendView arena) offers handed back (m.sendView arena) := by
  induction h with
  | start hlife hready hzero houtstanding hdone hwellFormed =>
      obtain ⟨-, handle, hcommissioned⟩ | ⟨hnot, -⟩ := hlife.leftBy.served
      · exact ⟨[], [], .begin hcommissioned.engineOpen hzero hcommissioned.callback
          hcommissioned.armed hcommissioned.maxCompletions houtstanding hdone hwellFormed⟩
      · exact absurd hready hnot
  | output releaseAfterSend _ hpayload hlookup huse hnew ih =>
      obtain ⟨handed, back, hcustody⟩ := ih
      rw [Attempt.sendView_output hstack hcustody.engineOpen hcustody.zeroCopy hpayload]
      exact ⟨_, _, hcustody.offer ⟨hlookup, huse⟩ hnew⟩
  | sent buf _ hroom ih =>
      obtain ⟨handed, back, hcustody⟩ := ih
      rw [Driver.sendView_sent hcustody.callback hcustody.armed]
      split
      · next hbuf => exact ⟨_, _, hcustody.complete hbuf hroom⟩
      · exact ⟨_, _, hcustody⟩
  | interrupt i _ ih =>
      obtain ⟨handed, back, hcustody⟩ := ih
      rw [Driver.sendView_interrupt hcustody.callback hcustody.armed]
      split
      · exact ⟨_, _, hcustody.count⟩
      · exact ⟨_, _, hcustody⟩
  | reclaim _ ih =>
      obtain ⟨handed, back, hcustody⟩ := ih
      exact (Driver.send_reclaim hstack hcustody _ rfl).1
  | poll timer _ ih =>
      rw [Driver.keepsSend_pollIfExpired hstack hphy timer]
      exact ih
  | @elsewhere offers m m' _ hinterface hengine htrace hworld ih =>
      have hview : m'.sendView arena = m.sendView arena := by
        simp only [Machine.sendView, Machine.txView, Machine.submitted, Machine.handedBack,
          Machine.released, hinterface, hengine, htrace, hworld]
      rw [hview]
      exact ih

/-- At every point of a run each buffer that was offered has been released once if it is due, and
not at all otherwise, and it is in use exactly until then. It is due at once if the engine refused
it or the link was down and the flag set, and once the engine has handed it back if it was accepted.
No other buffer is released, the arena changes by these releases only, and a reclaim leaves no
completion waiting. -/
theorem SendRun.released_once (h : SendRun c arena m₀ offers m) : ∃ handed back,
    m.handedBack = m₀.handedBack ++ handed ∧ m.released = m₀.released ++ back ∧
      (∀ o ∈ offers, back.count o.index = (if o.isBack handed then 1 else 0) ∧
        (arena m.world).isInUse o.index = !o.isBack handed) ∧
      (∀ i ∈ back, i ∈ offers.map Offer.index) ∧
      (arena m₀.world).Returned back (arena m.world) ∧
      (Offer.accepted offers).Perm (handed ++ m.txView.inFlight) ∧
      ((Driver.reclaim c).run m).2.engine.done = [] := by
  obtain ⟨handed, back, hcustody⟩ := h.custody hstack hphy
  refine ⟨handed, back, hcustody.handedBack, hcustody.released, ?_, ?_, hcustody.returned,
    hcustody.flow, (Driver.send_reclaim hstack hcustody m rfl).2⟩
  · intro o ho
    have hmem : o.index ∈ back ↔ o.isBack handed = true := by
      rw [hcustody.mem_back]
      constructor
      · rintro ⟨o', ho', hindex, hback⟩
        exact hcustody.eq_of_index ho' ho hindex ▸ hback
      · exact fun hback => ⟨o, ho, rfl, hback⟩
    have huse := hcustody.returned.inUse o.index
    rw [hmem, and_iff_right (hcustody.owned o ho).isInUse] at huse
    rw [hcustody.nodup_back.count, if_congr hmem rfl rfl]
    refine ⟨rfl, ?_⟩
    rw [Bool.eq_iff_iff, Bool.not_eq_true', ← Bool.not_eq_true]
    exact huse
  · intro i hi
    obtain ⟨o, ho, rfl, -⟩ := (hcustody.mem_back i).mp hi
    exact List.mem_map_of_mem ho

end

/-- The engine has two receive descriptors and refuses empty frames, and the link is up while no
buffer is free. -/
def fickle : Collaborators Arena :=
  { Collaborators.ofArena (.ok ()) true with
    rxDescriptors := fun _ => 2
    command := fun _ k a => match k with
      | .transmit frame => (if frame.size = 0 then .error ⟨1⟩ else .ok (), a)
      | _ => (.ok (), a)
    readPhy := fun _ _ a => (if a.available = 0 then linkBit else 0, a) }

theorem arenaStack_fickle : ArenaStack fickle id where
  getBuffer_none h := Or.inr h
  getBuffer_some h := ⟨_, h, rfl, Or.inl rfl⟩
  releaseBuffer h := h
  lookup h := by cases h; exact ⟨rfl, rfl⟩
  command {_ k _ _ _} h := by cases k <;> cases h <;> rfl
  considerFrame h := by cases h; rfl
  matchEndpoint h := by cases h; rfl
  sendRxEvent h := by cases h; rfl

/-- All six buffers of the stack are in use. -/
def fullArena : Arena :=
  { Arena.ofRegion regionStart 6 2048 with free := [], inUse := Array.replicate 6 true }

theorem wellFormed_fullArena : fullArena.WellFormed where
  padding_lt := by decide
  slots_lt := by decide
  size_inUse := by simp [fullArena, Arena.ofRegion]
  nodup_free := List.nodup_nil
  mem_free i := by
    refine iff_of_false List.not_mem_nil ?_
    rintro ⟨hlt, hfree⟩
    have hlt : i.toNat < 6 := hlt
    simp [fullArena, Arena.isInUse, hlt] at hfree

/-- Two buffers are still free, for reception. -/
def untriedMachine : Machine Arena where
  interface := { index := 0, config := .zeroCopy }
  engine := {}
  clock := .startingAt 0 0
  memory := .zeroed
  trace := #[]
  log := #[]
  world := { fullArena with free := [4, 5], inUse := #[true, true, true, true, false, false] }

def sendingMachine : Machine Arena := ((Attempt.initialise fickle).run.run untriedMachine).2

/-- The buffer at `i`, with a frame of `length` bytes. -/
def outgoing (i : UInt16) (length : Nat) : NetworkBuffer :=
  { index := i, payload := some (fullArena.payloadAt i), capacity := 2038, length }

def acceptedMachine : Machine Arena :=
  ((Attempt.output fickle (outgoing 0 60) false).run.run sendingMachine).2

def refusedFrameMachine : Machine Arena :=
  ((Attempt.output fickle (outgoing 1 0) false).run.run acceptedMachine).2

def linkLostMachine : Machine Arena :=
  ((Driver.pollIfExpired fickle ⟨0, 0⟩).run refusedFrameMachine).2

def droppedMachine : Machine Arena :=
  ((Attempt.output fickle (outgoing 2 60) true).run.run linkLostMachine).2

def keptMachine : Machine Arena :=
  ((Attempt.output fickle (outgoing 3 60) false).run.run droppedMachine).2

/-- The frame that was accepted has been sent and reclaimed. -/
def settledMachine : Machine Arena :=
  ((Driver.reclaim fickle).run
    ((Driver.arrive (.sent (fullArena.payloadAt 0))).run keptMachine).2).2

def fourOffers : List Offer :=
  [⟨0, fullArena.payloadAt 0, .accepted⟩, ⟨1, fullArena.payloadAt 1, .refused⟩,
    ⟨2, fullArena.payloadAt 2, .dropped⟩, ⟨3, fullArena.payloadAt 3, .kept⟩]

theorem SendRun.released_once_four_offers : ∃ back,
    settledMachine.released = sendingMachine.released ++ back ∧ back.count 0 = 1 ∧
      back.count 1 = 1 ∧ back.count 2 = 1 ∧ back.count 3 = 0 := by
  have hregister : Interface.register 0 .zeroCopy = .ok untriedMachine.interface := rfl
  have hlife : Lifetime fickle (some untriedMachine) sendingMachine :=
    (Lifetime.registered hregister).initialise
  have hready : sendingMachine.interface.stage = .ready := by decide +kernel
  have hzero : sendingMachine.interface.config.zeroCopyTx = true := by decide +kernel
  have houtstanding : sendingMachine.engine.outstanding = [] := by decide +kernel
  have hdone : sendingMachine.engine.done = [] := by decide +kernel
  have hworld : sendingMachine.world = fullArena := by decide +kernel
  have hstart : SendRun fickle id sendingMachine [] sendingMachine :=
    .start hlife hready hzero houtstanding hdone (hworld ▸ wellFormed_fullArena)
  have hoffer : ∀ {offers : List Offer} {m : Machine Arena} (i : UInt16) (length : Nat)
      (releaseAfterSend : Bool) (fate : Fate), SendRun fickle id sendingMachine offers m →
      i.toNat < 6 ∧ i ∉ offers.map Offer.index →
      Attempt.fate fickle (outgoing i length) releaseAfterSend m = fate →
      SendRun fickle id sendingMachine (offers ++ [⟨i, fullArena.payloadAt i, fate⟩])
        ((Attempt.output fickle (outgoing i length) releaseAfterSend).run.run m).2 := by
    rintro offers m i length releaseAfterSend _ hrun ⟨hi, hnew⟩ rfl
    have hlookup : sendingMachine.world.lookup (fullArena.payloadAt i) =
        sendingMachine.world.descriptor i := by
      rw [hworld]
      exact wellFormed_fullArena.lookup_payloadAt hi
    have huse : sendingMachine.world.isInUse i = true := by
      rw [hworld]
      simp [fullArena, Arena.isInUse, hi]
    have hpayload : (outgoing i length).payload = some (fullArena.payloadAt i) := rfl
    exact hrun.output releaseAfterSend hpayload hlookup huse hnew
  have haccepted : SendRun fickle id sendingMachine _ acceptedMachine :=
    hoffer 0 60 false .accepted hstart (by decide) (by decide +kernel)
  have hrefused : SendRun fickle id sendingMachine _ refusedFrameMachine :=
    hoffer 1 0 false .refused haccepted (by decide) (by decide +kernel)
  have hlost : SendRun fickle id sendingMachine _ linkLostMachine := hrefused.poll ⟨0, 0⟩
  have hdropped : SendRun fickle id sendingMachine _ droppedMachine :=
    hoffer 2 60 true .dropped hlost (by decide) (by decide +kernel)
  have hkept : SendRun fickle id sendingMachine fourOffers keptMachine :=
    hoffer 3 60 false .kept hdropped (by decide) (by decide +kernel)
  have hroom : keptMachine.engine.done.length < poolSlots := by decide +kernel
  have hsettled : SendRun fickle id sendingMachine fourOffers settledMachine :=
    (hkept.sent (fullArena.payloadAt 0) hroom).reclaim
  obtain ⟨handed, back, hhanded, hback, hcounts, -⟩ :=
    SendRun.released_once arenaStack_fickle (fun _ _ _ => rfl) hsettled
  have hhanded₀ : handed = [fullArena.payloadAt 0] := by
    have hbefore : sendingMachine.handedBack = [] := by decide +kernel
    have hafter : settledMachine.handedBack = [fullArena.payloadAt 0] := by decide +kernel
    rw [hbefore, hafter] at hhanded
    exact hhanded.symm
  subst hhanded₀
  refine ⟨back, hback, ?_, ?_, ?_, ?_⟩
  · exact (hcounts ⟨0, fullArena.payloadAt 0, .accepted⟩ (by decide)).1
  · exact (hcounts ⟨1, fullArena.payloadAt 1, .refused⟩ (by decide)).1
  · exact (hcounts ⟨2, fullArena.payloadAt 2, .dropped⟩ (by decide)).1
  · exact (hcounts ⟨3, fullArena.payloadAt 3, .kept⟩ (by decide)).1

end XgmacDriver
