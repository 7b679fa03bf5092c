import XgmacDriver.Proofs.BlindViews
import XgmacDriver.Proofs.DrainOutline
import XgmacDriver.Proofs.TransmitRules
import XgmacDriver.Service

/-! # Views that a path keeps

A statement depends on a view of the machine only. What the single steps of a path keep, the whole
path keeps, be it a drain, a reclaim, an output or a pass of the deferred task.
-/

namespace XgmacDriver

variable {σ γ δ α : Type} {c : Collaborators σ} {view : Machine σ → γ} {hidden : Exchange → Prop}

open Driver

namespace Driver

theorem Keeps.map {x : Driver σ α} (h : Keeps view x) (f : γ → δ) :
    Keeps (fun m => f (view m)) x :=
  fun m => congrArg f (h m)

theorem Keeps.forM {β : Type} {x : β → Driver σ Unit} (h : ∀ b, Keeps view (x b)) (bs : List β) :
    Keeps view (bs.forM x) := by
  induction bs with
  | nil => exact keeps_pure _
  | cons b bs ih =>
      rw [List.forM_eq_forM, List.forM_cons]
      exact (h b).bind fun _ => ih

/-- The steps of reception that do not touch the ring keep the view. -/
structure KeepsForwarding (c : Collaborators σ) (view : Machine σ → γ) : Prop where
  report : ∀ entry, Keeps view (report entry)
  copyMemory : ∀ src dst n, Keeps view (copyMemory src dst n)
  considerFrame : ∀ bytes, Keeps view (considerFrame c bytes)
  getBuffer : ∀ wanted block, Keeps view (getBuffer c wanted block)
  releaseBuffer : ∀ i, Keeps view (releaseBuffer c i)
  matchEndpoint : ∀ bytes, Keeps view (matchEndpoint c bytes)
  lookup : ∀ a, Keeps view (lookup c a)
  sendRxEvent : ∀ fs, Keeps view (sendRxEvent c fs)
  releaseSlot : ∀ a, Keeps view (releaseSlot c .rx a)

structure KeepsReceiving (c : Collaborators σ) (view : Machine σ → γ) : Prop extends
    KeepsForwarding c view where
  nextReceived : Keeps view nextReceived
  refill : ∀ a, Keeps view (command c (.refill a))

/-- A drain of which only the reads of the ring and the refills matter. -/
def ringOutline (view : Machine σ → γ) (ready opened : List RxCompletion → γ → Prop)
    (ended : γ → Prop) : DrainOutline σ where
  ready rest _ m := ready rest (view m)
  holding rest _ _ m := opened rest (view m)
  replacing rest _ _ _ m := opened rest (view m)
  refused _ _ _ m := ended (view m)
  ended _ m := ended (view m)

namespace KeepsForwarding

theorem of_blind (h : Blind hidden view) (hstack : ∀ x : Exchange, x.isStackCall = true → hidden x)
    (hslot : ∀ a, Keeps view (Driver.releaseSlot c .rx a)) : KeepsForwarding c view where
  report := h.report
  copyMemory := h.copyMemory
  considerFrame := h.considerFrame hstack
  getBuffer := h.getBuffer hstack
  releaseBuffer := h.releaseBuffer hstack
  matchEndpoint := h.matchEndpoint hstack
  lookup := h.lookup hstack
  sendRxEvent := h.sendRxEvent hstack
  releaseSlot := hslot

theorem frames (h : KeepsForwarding c view) (p : γ → Prop) :
    FrameAccount c fun _ m => p (view m) where
  perm _ hm := hm
  report entry _ := (h.report entry).meets p
  send fs _ := (h.sendRxEvent fs).meets p
  release f _ := (h.releaseBuffer f.buffer.index).meets p

theorem forwardFrame (h : KeepsForwarding c view) (a : Addr) (length : Nat)
    (replacement : NetworkBuffer) (fresh : Addr) :
    Keeps view (forwardFrame c a length replacement fresh) := by
  refine keeps_of_meets fun v => meets_forwardFrame (D := fun m => view m = v)
    (G := fun _ _ m => view m = v) (((h.lookup a).meets (· = v)).mono (fun _ hm => hm.1) ?_)
    ((h.report _).meets (· = v)) ((h.releaseBuffer _).meets (· = v))
    (((h.copyMemory _ _ _).meets (· = v)).pre fun _ hm => hm.1)
    fun _ _ bytes => (h.matchEndpoint bytes).meets (· = v)
  rintro (_ | owner) m hm
  · exact hm
  · exact hm

theorem recycle (h : KeepsForwarding c view) (a : Addr) : Keeps view (recycle c a) :=
  keeps_of_meets fun v => meets_recycle (F := fun _ m => view m = v) (S := fun _ m => view m = v)
    (((h.lookup a).meets (· = v)).pre fun _ hm => hm.1)
    (fun _ => (h.releaseBuffer _).meets (· = v)) ((h.report _).meets (· = v))
    (((h.releaseSlot a).meets (· = v)).pre fun _ hm => hm.1) (fun _ hm => hm)
    fun _ => (h.report _).meets (· = v)

variable {ready opened : List RxCompletion → γ → Prop} {ended : γ → Prop}

theorem sound (h : KeepsForwarding c view)
    (hempty : Meets (fun m => ready [] (view m)) nextReceived fun _ m => ended (view m))
    (hbufferless : ∀ rx rest, rx.buf = none →
      Meets (fun m => ready (rx :: rest) (view m)) nextReceived fun _ m => ended (view m))
    (hnext : ∀ rx rest a, rx.buf = some a →
      Meets (fun m => ready (rx :: rest) (view m)) nextReceived fun _ m => opened rest (view m))
    (hrefill : ∀ rest a, Meets (fun m => opened rest (view m)) (command c (.refill a)) fun
      | .ok () => fun m => ready rest (view m)
      | .error _ => fun m => ended (view m)) : (ringOutline view ready opened ended).Sound c where
  holding_frames rest _ := h.frames (opened rest)
  ended_frames := h.frames ended
  next_empty _ := hempty
  next_bufferless rx rest _ hrx := hbufferless rx rest hrx
  next rx rest a _ hrx := hnext rx rest a hrx
  consider rest _ _ bytes := (h.considerFrame bytes).meets (opened rest)
  obtain_buffer rest _ _ := by
    refine ((h.getBuffer maxPacketSize 0).meets (opened rest)).post ?_
    rintro (_ | replacement) m hm
    · exact hm
    · exact hm
  release_replacement rest _ replacement _ :=
    (h.releaseBuffer replacement.index).meets (opened rest)
  forward rest a replacement fresh _ length _ := by
    refine ((h.forwardFrame a length replacement fresh).meets (opened rest)).post ?_
    rintro (⟨frame, refill⟩ | refill) m hm
    · exact hm
    · exact hm
  refill rest a _ := hrefill rest a
  refused_report _ _ _ entry := (h.report entry).meets ended
  recycle _ a _ := (h.recycle a).meets ended

end KeepsForwarding

theorem KeepsReceiving.processReceived (h : KeepsReceiving c view) :
    Keeps view (processReceived c) := by
  intro m
  by_cases hopen : m.interface.engineOpen = true
  · have hsame : (ringOutline view (fun _ v => v = view m) (fun _ v => v = view m)
        fun v => v = view m).Sound c := by
      refine h.sound ?_ ?_ ?_ ?_
      · exact h.nextReceived.meets (· = view m)
      · exact fun _ _ _ => h.nextReceived.meets (· = view m)
      · exact fun _ _ _ _ => h.nextReceived.meets (· = view m)
      · intro _ a
        refine ((h.refill a).meets (· = view m)).post ?_
        rintro (status | ⟨⟩) m hm
        · exact hm
        · exact hm
    exact hsame.processReceived m hopen rfl
  · have hrun : (Driver.processReceived c).run m = pure (0, m) := by
      simp [Driver.processReceived, hopen]
    rw [hrun]
    rfl

theorem keeps_recheckLink {phy : PhyRecord} (hreport : ∀ entry, Keeps view (report entry))
    (hread : Keeps view (readPhy c phy.address phyStatusRegister))
    (hspeed : Keeps view (command c (.updateSpeed phy)))
    (hlatch : ∀ status, Keeps view (latchLink status)) : Keeps view (recheckLink c phy) := by
  have hdiffers : ∀ status, Keeps view (linkDiffers status : Driver σ Bool) :=
    fun _ => keeps_interface.bind fun _ => keeps_pure _
  unfold recheckLink
  refine hread.bind fun status => (hdiffers status).bind fun differs => ?_
  refine Keeps.ite (keeps_pure _) ?_
  have hsecond : Keeps view (do
      let status ← readLinkStatus c phy.address
      if !(← linkDiffers status) then
        return none
      else
        latchLink status
        report (.linkNow (linkUp status))
        return some (linkUp status)) := by
    refine hread.bind fun status => (hdiffers status).bind fun differs => ?_
    refine Keeps.ite (keeps_pure _) ?_
    exact (hlatch status).bind fun _ => (hreport _).bind fun _ => keeps_pure _
  refine hspeed.bind ?_
  rintro (status | _)
  · exact (hreport _).bind fun _ => hsecond
  · exact hsecond

theorem keeps_pollIfExpired (hlink : ∀ phy, Keeps view (recheckLink c phy)) (timer : PollTimer) :
    Keeps view (pollIfExpired c timer) := by
  have hreturn : ∀ now, Keeps view (do
      return ⟨now, (← interface).linkCheckInterval⟩ : Driver σ PollTimer) :=
    fun _ => keeps_interface.bind fun _ => keeps_pure _
  unfold pollIfExpired
  refine keeps_get.bind fun m => Keeps.ite ?_ (keeps_pure _)
  refine keeps_interface.bind fun i => Keeps.ite ?_ (hreturn _)
  exact (hlink i.phy).bind fun _ => hreturn _

section

variable (hreport : ∀ entry, Keeps view (report entry)) (hlookup : ∀ a, Keeps view (lookup c a))
  (hbuffer : ∀ i, Keeps view (releaseBuffer c i)) (hslot : ∀ a, Keeps view (releaseSlot c .tx a))
include hreport hlookup hbuffer hslot

theorem keeps_returnSent (a : Addr) : Keeps view (returnSent c a) :=
  keeps_of_meets fun v => preserves_returnSent (fun entry => (hreport entry).meets (· = v))
    (fun a => (hlookup a).meets (· = v)) (fun i => (hbuffer i).meets (· = v))
    (fun a => (hslot a).meets (· = v)) a

theorem keeps_reclaim
    (htake : Keeps view (modifyInterface (·.mapNotifier Notifier.takeCompletion) : Driver σ Unit))
    (hnext : Keeps view nextTransmitted) : Keeps view (reclaim c) :=
  keeps_of_meets fun v => preserves_reclaim (fun entry => (hreport entry).meets (· = v))
    (fun a => (hlookup a).meets (· = v)) (fun i => (hbuffer i).meets (· = v))
    (fun a => (hslot a).meets (· = v)) (htake.meets (· = v)) (hnext.meets (· = v))

end

end Driver

namespace Blind

theorem pollIfExpired (h : Blind hidden view)
    (hread : ∀ phy register value, hidden (.readPhy phy register value))
    (hspeed : ∀ phy, Keeps view (Driver.command c (.updateSpeed phy)))
    (hlatch : ∀ status, Keeps view (Driver.latchLink status : Driver σ Unit)) (timer : PollTimer) :
    Keeps view (Driver.pollIfExpired c timer) :=
  keeps_pollIfExpired (fun phy =>
    keeps_recheckLink h.report (h.readPhy _ _ (hread _ _)) (hspeed phy) hlatch) timer

/-- A view of this kind depends on nothing of the notifier but what only bring-up changes, and on no
queue of the engine. So it does not notice what arrives. -/
theorem arrive (h : Blind hidden view) (hnotify : ∀ w, hidden (.notify w))
    (hnotifier : ∀ {f : Notifier → Notifier}, Notifier.Steady f →
      Keeps view (modifyInterface (·.mapNotifier f) : Driver σ Unit))
    (hengine : ∀ {f : Engine → Engine}, (∀ e, (f e).callback = e.callback) →
      Keeps view (modifyEngine f : Driver σ Unit)) (x : Arrival) :
    Keeps view (Driver.arrive x : Driver σ Unit) := by
  have hinterrupt : ∀ i, Keeps view (Driver.interrupt i : Driver σ Unit) := by
    intro i
    refine keeps_get.bind fun m => Keeps.ite ?_ (keeps_pure _)
    refine (hnotifier (Notifier.steady_interrupt i)).bind fun _ => ?_
    exact Keeps.ite (h.record (hnotify _)) (keeps_pure _)
  cases x with
  | received rx => exact hengine fun _ => rfl
  | transmitted answer => exact hengine fun _ => rfl
  | interrupt i => exact hinterrupt i
  | sent buf =>
      have hfinish : Keeps view (modifyEngine (·.finish buf) : Driver σ Unit) :=
        hengine fun _ => rfl
      refine keeps_get.bind fun m => Keeps.ite ?_ (keeps_pure _)
      exact hfinish.bind fun _ => hinterrupt .transmitted

theorem wait (h : Blind hidden view) (hwait : ∀ ms w, hidden (.wait ms w))
    (hnotifier : ∀ {f : Notifier → Notifier}, Notifier.Steady f →
      Keeps view (modifyInterface (·.mapNotifier f) : Driver σ Unit))
    (harrive : ∀ x, Keeps view (Driver.arrive x : Driver σ Unit)) (ms : UInt64) :
    Keeps view (Driver.wait c ms) := by
  refine keeps_of_meets fun v => meets_wait ?_ ?_
  · rintro m rfl
    exact (Keeps.forM harrive _ _).trans (h.congr rfl rfl rfl)
  · rintro m rfl
    let cleared := { m with interface := m.interface.mapNotifier Notifier.clear }
    refine (h.push cleared (hwait _ _)).trans ?_
    exact hnotifier Notifier.steady_clear m

end Blind

namespace Attempt

/-- A pass by its parts: `W` holds after the wait, `D` after the drain and `R` after the reclaim. -/
theorem meets_serve {P E : Machine σ → Prop} {W D R Q : EventWord → Machine σ → Prop}
    {timer : PollTimer} (hwait : Driver.Meets P (Driver.wait c taskBlockTime) W)
    (hdrain : ∀ w, w.rx = true → Driver.Meets (W w) (Driver.processReceived c) fun _ => D w)
    (hnoDrain : ∀ w m, w.rx = false → W w m → D w m)
    (hreclaim : ∀ w, w.tx = true → Driver.Meets (D w) (Driver.reclaim c) fun _ => R w)
    (hnoReclaim : ∀ w m, w.tx = false → D w m → R w m)
    (hreport : ∀ w entry, Driver.Meets (R w) (Driver.report entry) fun _ => R w)
    (hhalt : ∀ w m, R w m → E m)
    (hpoll : ∀ w, Driver.Meets (R w) (Driver.pollIfExpired c timer) fun _ => Q w) :
    Meets P (serve c timer) (fun r => Q r.1) fun _ => E := by
  have hlink : ∀ w, Meets (R w) (do
      return (w, ← always (Driver.pollIfExpired c timer))) (fun r => Q r.1) fun _ => E :=
    fun w => (meets_always (hpoll w)).bind fun _ => meets_pure fun _ hm => hm
  have hfault : ∀ w : EventWord, Meets (R w) (do
      if w.err then
        let _ ← reportFault w.errCode w.errChannel
      return (w, ← always (Driver.pollIfExpired c timer))) (fun r => Q r.1) fun _ => E := by
    intro w
    refine Meets.ite (fun _ => Meets.bind ?_ fun _ => hlink w) fun _ => hlink w
    unfold reportFault
    cases DmaFault.ofCode? w.errCode with
    | some fault => exact (meets_always (hreport w _)).bind fun _ => meets_pure fun _ hm => hm
    | none => exact meets_halt (hhalt w)
  have htransmitted : ∀ w : EventWord, Meets (D w) (do
      if w.tx then
        let _ ← always (Driver.reclaim c)
      if w.err then
        let _ ← reportFault w.errCode w.errChannel
      return (w, ← always (Driver.pollIfExpired c timer))) (fun r => Q r.1) fun _ => E := by
    intro w
    refine Meets.ite (fun htx => ?_) fun htx => ?_
    · exact (meets_always (hreclaim w htx)).bind fun _ => hfault w
    · exact (hfault w).pre fun m => hnoReclaim w m (Bool.not_eq_true _ |>.mp htx)
  unfold serve
  refine (meets_always hwait).bind fun w => Meets.ite (fun hrx => ?_) fun hrx => ?_
  · exact (meets_always (hdrain w hrx)).bind fun _ => htransmitted w
  · exact (htransmitted w).pre fun m => hnoDrain w m (Bool.not_eq_true _ |>.mp hrx)

theorem keeps_serve {timer : PollTimer} (hwait : Driver.Keeps view (Driver.wait c taskBlockTime))
    (hdrain : Driver.Keeps view (Driver.processReceived c))
    (hreclaim : Driver.Keeps view (Driver.reclaim c))
    (hreport : ∀ entry, Driver.Keeps view (Driver.report entry))
    (hpoll : Driver.Keeps view (Driver.pollIfExpired c timer)) : Keeps view (serve c timer) :=
  keeps_of_meets fun v => meets_serve (W := fun _ m => view m = v) (Q := fun _ m => view m = v)
    (hwait.meets (· = v)) (fun _ _ => hdrain.meets (· = v)) (fun _ _ _ hm => hm)
    (fun _ _ => hreclaim.meets (· = v)) (fun _ _ _ hm => hm)
    (fun _ entry => (hreport entry).meets (· = v)) (fun _ _ hm => hm) fun _ => hpoll.meets (· = v)

theorem keeps_output (hreport : ∀ entry, Driver.Keeps view (Driver.report entry))
    (hcopy : ∀ src dst n, Driver.Keeps view (Driver.copyMemory src dst n))
    (hacquire : Driver.Keeps view (Driver.acquireSlot c .tx maxPacketSize))
    (hslot : ∀ a, Driver.Keeps view (Driver.releaseSlot c .tx a))
    (htransmit : ∀ frame, Driver.Keeps view (Driver.command c (.transmit frame)))
    (hbuffer : ∀ i, Driver.Keeps view (Driver.releaseBuffer c i)) (buffer : NetworkBuffer)
    (releaseAfterSend : Bool) : Keeps view (output c buffer releaseAfterSend) :=
  keeps_of_meets fun v => preserves_output (fun entry => (hreport entry).meets (· = v))
    (fun src dst n => (hcopy src dst n).meets (· = v)) (hacquire.meets (· = v))
    (fun a => (hslot a).meets (· = v)) (fun frame => (htransmit frame).meets (· = v))
    (fun i => (hbuffer i).meets (· = v)) buffer releaseAfterSend

end Attempt

end XgmacDriver
