import XgmacDriver.Proofs.LinkRecheck
import XgmacDriver.Proofs.ServicePass

/-! # How often the link is checked

The clock that the poll timer reads wraps, so a reading stands for many times. Here every machine of
a run has a time of its own, which does not wrap, and of which its clock shows the last 64 bits. As
long as the timer is set again before the clock has gone all the way round, the passes that read the
PHY are those that come in time, and no two of them are closer than the interval set by the first.
-/

namespace XgmacDriver

variable {σ : Type} {c : Collaborators σ} {config : Config} {timer timer' : PollTimer}
  {m m' : Machine σ} {now now' : Nat}

/-- A reading of the clock at a time. -/
def Clock.Shows (clock : Clock) (now : Nat) : Prop := clock.now = .ofNat now

instance (clock : Clock) (now : Nat) : Decidable (clock.Shows now) :=
  inferInstanceAs (Decidable (clock.now = _))

theorem PollTimer.expired_iff_le {set : Nat} (hstart : timer.start = .ofNat set) (hset : set ≤ now)
    (hturn : now < set + UInt64.size) :
    timer.expired (.ofNat now) = true ↔ set + timer.interval.toNat ≤ now := by
  have helapsed : (UInt64.ofNat now - .ofNat set).toNat = now - set := by
    rw [← UInt64.ofNat_sub hset]
    apply UInt64.toNat_ofNat_of_lt'
    omega
  rw [expired_iff, hstart, UInt64.le_iff_toNat_le, helapsed]
  omega

def Exchange.isPhyRead : Exchange → Bool
  | readPhy .. => true
  | _ => false

theorem Exchange.not_isPhyRead_of_isStackCall {x : Exchange} (h : x.isStackCall = true) :
    x.isPhyRead = false := by
  cases x <;> first | rfl | cases h

/-- What a pass leaves alone until it comes to the link. -/
structure PollView where
  engineOpen : Bool
  config : Config
  reads : Nat

namespace Machine

def phyReads (m : Machine σ) : Nat := m.trace.countP Exchange.isPhyRead

def pollView (m : Machine σ) : PollView where
  engineOpen := m.interface.engineOpen
  config := m.interface.config
  reads := m.phyReads

@[simp] theorem reads_pollView (m : Machine σ) : m.pollView.reads = m.phyReads := rfl

theorem blind_pollView :
    Blind (fun x => x.isPhyRead = false) (pollView : Machine σ → PollView) where
  congr := by
    rintro m ⟨⟩ rfl rfl rfl
    rfl
  push m x hx := by
    have hreads : phyReads { m with trace := m.trace.push x } = m.phyReads := by
      simp [phyReads, hx]
    simp only [pollView, hreads]

theorem phyReads_rechecked (c : Collaborators σ) (phy : PhyRecord) (m : Machine σ) :
    (m.rechecked c phy).phyReads =
      m.phyReads + if (m.linkCheck c phy).suspects m.interface.linkIsUp then 2 else 1 := by
  have hreads : (m.rechecked c phy).phyReads = m.phyReads +
      ((m.linkCheck c phy).exchanges m.interface.linkIsUp phy).countP Exchange.isPhyRead :=
    Array.countP_append
  rw [hreads, LinkCheck.exchanges]
  split
  · rfl
  · rfl

end Machine

open Machine

namespace Driver

theorem keepsPoll_wait (ms : UInt64) : Keeps pollView (wait c ms) :=
  blind_pollView.wait (fun _ _ => rfl) (fun _ _ => rfl)
    (blind_pollView.arrive (fun _ => rfl) (fun _ _ => rfl) fun _ _ => rfl) ms

theorem keepsPoll_receiving : KeepsReceiving c (pollView : Machine σ → PollView) where
  toKeepsForwarding := .of_blind blind_pollView
    (fun _ => Exchange.not_isPhyRead_of_isStackCall) fun _ _ => rfl
  nextReceived := blind_pollView.nextReceived (fun _ => rfl) fun _ _ _ => rfl
  refill _ := blind_pollView.command (fun _ => rfl) fun _ => rfl

theorem keepsPoll_reclaim : Keeps pollView (reclaim c) :=
  keeps_reclaim blind_pollView.report keepsPoll_receiving.lookup
    keepsPoll_receiving.releaseBuffer (fun _ _ => rfl) (fun _ => rfl)
    (blind_pollView.nextTransmitted (fun _ => rfl) fun _ => rfl)

theorem run_pollIfExpired (c : Collaborators σ) (timer : PollTimer)
    (hopen : m.interface.engineOpen = true) :
    (pollIfExpired c timer).run m =
      if timer.expired m.clock.now then
        let m' := m.rechecked c m.interface.phy
        pure (⟨m.clock.now, m'.interface.linkCheckInterval⟩, m')
      else pure (timer, m) := by
  simp only [pollIfExpired, StateT.run_bind, StateT.run_get, pure_bind, run_ite, run_interface,
    hopen, if_true, run_recheckLink]
  rfl

end Driver

/-- How often a pass has read the PHY, and what it has done to the poll timer. -/
structure Repolled (timer : PollTimer) (before : PollView) (timer' : PollTimer) (m' : Machine σ) :
    Prop where
  reads_iff : before.reads < m'.phyReads ↔ timer.expired m'.clock.now = true
  reads_le : m'.phyReads ≤ before.reads + 2
  timer_eq : timer' = if before.reads < m'.phyReads then
    ⟨m'.clock.now, m'.interface.linkCheckInterval⟩ else timer
  engineOpen : m'.interface.engineOpen = before.engineOpen
  config : m'.interface.config = before.config

theorem Machine.rechecked_unmoved (c : Collaborators σ) (phy : PhyRecord) (m : Machine σ) :
    (m.rechecked c phy).clock = m.clock ∧
      (m.rechecked c phy).interface.engineOpen = m.interface.engineOpen ∧
      (m.rechecked c phy).interface.config = m.interface.config := by
  refine ⟨rfl, ?_⟩
  simp only [rechecked]
  split
  · exact ⟨rfl, rfl⟩
  · exact ⟨rfl, rfl⟩

theorem Driver.repolled_pollIfExpired (hopen : m.interface.engineOpen = true)
    (hpoll : (pollIfExpired c timer).run m = (timer', m')) :
    Repolled timer m.pollView timer' m' := by
  rw [run_pollIfExpired c timer hopen] at hpoll
  by_cases hexpired : timer.expired m.clock.now = true
  · rw [if_pos hexpired] at hpoll
    obtain ⟨rfl, rfl⟩ := Prod.mk.inj hpoll
    obtain ⟨hclock, hopen', hconfig⟩ := m.rechecked_unmoved c m.interface.phy
    have hreads := m.phyReads_rechecked c m.interface.phy
    have hread : m.pollView.reads < (m.rechecked c m.interface.phy).phyReads := by
      rw [hreads]
      show m.phyReads < _
      split
      · omega
      · omega
    constructor
    · rw [hclock]
      exact iff_of_true hread hexpired
    · rw [hreads]
      show _ ≤ m.phyReads + 2
      split
      · omega
      · omega
    · rw [if_pos hread, hclock]
    · exact hopen'
    · exact hconfig
  · rw [if_neg hexpired] at hpoll
    obtain ⟨rfl, rfl⟩ := Prod.mk.inj hpoll
    have hnone : ¬m.pollView.reads < m.phyReads := Nat.lt_irrefl m.phyReads
    constructor
    · exact iff_of_false hnone hexpired
    · exact Nat.le_add_right _ _
    · rw [if_neg hnone]
    · rfl
    · rfl

/-- A pass that does not halt checks the link last, on a machine that has the same view of it. -/
theorem Attempt.repolled_serve {w : EventWord} (hopen : m.interface.engineOpen = true)
    (hrun : (serve c timer).run.run m = (.ok (w, timer'), m')) :
    Repolled timer m.pollView timer' m' := by
  rcases hwait : (Driver.wait c taskBlockTime).run m with ⟨w₁, m₁⟩
  have hview : ((Driver.attend c w₁).run m₁).2.pollView = m.pollView := by
    have hbefore := Driver.keepsPoll_wait (c := c) taskBlockTime m
    rw [hwait] at hbefore
    exact (Driver.keeps_attend Driver.keepsPoll_receiving.processReceived
      Driver.keepsPoll_reclaim w₁ m₁).trans hbefore
  have hpolled : ∀ m₂ : Machine σ, m₂.pollView = m.pollView →
      polled c timer w₁ m₂ = (.ok (w, timer'), m') → Repolled timer m.pollView timer' m' := by
    intro m₂ hview₂ hm₂
    obtain ⟨hok, hmachine⟩ := Prod.mk.inj hm₂
    have hopen₂ : m₂.interface.engineOpen = true :=
      (congrArg PollView.engineOpen hview₂).trans hopen
    rw [← hview₂]
    exact Driver.repolled_pollIfExpired hopen₂
      (Prod.ext (Prod.mk.inj (Except.ok.inj hok)).2 hmachine)
  rw [run_serve hwait rfl] at hrun
  split at hrun
  · cases hfault : DmaFault.ofCode? w₁.errCode with
    | none =>
        rw [hfault] at hrun
        cases (Prod.mk.inj hrun).1
    | some fault =>
        rw [hfault] at hrun
        apply hpolled _ _ hrun
        exact hview
  · exact hpolled _ hview hrun

/-! ## Runs on a clock that wraps -/

/-- A setting of the poll timer: when it was set, and to which interval. -/
structure Setting where
  time : Nat
  interval : UInt64
deriving DecidableEq

namespace Setting

def due (s : Setting) : Nat := s.time + s.interval.toNat

def pollTimer (s : Setting) : PollTimer := ⟨.ofNat s.time, s.interval⟩

/-- The setting that follows a check of the link which leaves it latched as `up`. -/
def afterCheck (config : Config) (time : Nat) (up : Bool) : Setting :=
  ⟨time, if up then config.linkHighCheck else config.linkLowCheck⟩

end Setting

/-- A pass that does not halt, from `now` to `now'`, when its events have been handled: a check of
the link after that takes no time. The clock has not gone all the way round since the timer was set
last. -/
structure TimedPass (c : Collaborators σ) (last : Setting) (now : Nat) (timer : PollTimer)
    (m : Machine σ) (now' : Nat) (timer' : PollTimer) (m' : Machine σ) : Prop where
  run : ∃ w, (Attempt.serve c timer).run.run m = (.ok (w, timer'), m')
  later : now ≤ now'
  shows : m'.clock.Shows now'
  turn : now' < last.time + UInt64.size

/-- A run of the deferred task, with the last setting of its timer and those before it. Between two
passes anything may happen that leaves the configuration alone and the MAC open. -/
inductive PollRun (c : Collaborators σ) (config : Config) :
    List Setting → Setting → Nat → PollTimer → Machine σ → Prop
  | start {now : Nat} {m : Machine σ} : m.interface.engineOpen = true →
      m.interface.config = config → m.clock.Shows now →
      PollRun c config [] ⟨now, config.linkLowCheck⟩ now (Driver.freshTimer.run m).1 m
  | elsewhere {before : List Setting} {last : Setting} {now now' : Nat} {timer : PollTimer}
      {m m' : Machine σ} : PollRun c config before last now timer m →
      m'.interface.engineOpen = true → m'.interface.config = config → now ≤ now' →
      m'.clock.Shows now' → PollRun c config before last now' timer m'
  | quiet {before : List Setting} {last : Setting} {now now' : Nat} {timer timer' : PollTimer}
      {m m' : Machine σ} : PollRun c config before last now timer m →
      TimedPass c last now timer m now' timer' m' → ¬m.phyReads < m'.phyReads →
      PollRun c config before last now' timer' m'
  | check {before : List Setting} {last : Setting} {now now' : Nat} {timer timer' : PollTimer}
      {m m' : Machine σ} : PollRun c config before last now timer m →
      TimedPass c last now timer m now' timer' m' → m.phyReads < m'.phyReads →
      PollRun c config (last :: before) (.afterCheck config now' m'.interface.linkIsUp) now' timer'
        m'

namespace PollRun

structure Timed (config : Config) (before : List Setting) (last : Setting) (now : Nat)
    (timer : PollTimer) (m : Machine σ) : Prop where
  engineOpen : m.interface.engineOpen = true
  config : m.interface.config = config
  timer_eq : timer = last.pollTimer
  past : last.time ≤ now
  spaced : (last :: before).IsChain fun later earlier => earlier.due ≤ later.time

variable {before : List Setting} {last : Setting}

theorem Timed.repolled (h : Timed config before last now timer m)
    (hpass : TimedPass c last now timer m now' timer' m') :
    Repolled timer m.pollView timer' m' := by
  obtain ⟨w, hrun⟩ := hpass.run
  exact Attempt.repolled_serve h.engineOpen hrun

/-- The PHY is read if the timer is due when the events have been handled. -/
theorem Timed.reads_iff (h : Timed config before last now timer m)
    (hpass : TimedPass c last now timer m now' timer' m') :
    m.phyReads < m'.phyReads ↔ last.due ≤ now' := by
  have hreads := (h.repolled hpass).reads_iff
  rw [hpass.shows, PollTimer.expired_iff_le (congrArg PollTimer.start h.timer_eq)
    (Nat.le_trans h.past hpass.later) hpass.turn, h.timer_eq] at hreads
  exact hreads

theorem Timed.timer_of_check (h : Timed config before last now timer m)
    (hpass : TimedPass c last now timer m now' timer' m') (hread : m.phyReads < m'.phyReads) :
    timer' = (Setting.afterCheck config now' m'.interface.linkIsUp).pollTimer := by
  have hrepolled := h.repolled hpass
  have hconfig : m'.interface.config = config := hrepolled.config.trans h.config
  have htimer := hrepolled.timer_eq
  rw [reads_pollView, if_pos hread, hpass.shows, Interface.linkCheckInterval, hconfig] at htimer
  exact htimer

theorem Timed.timer_of_quiet (h : Timed config before last now timer m)
    (hpass : TimedPass c last now timer m now' timer' m') (hquiet : ¬m.phyReads < m'.phyReads) :
    timer' = timer := by
  have htimer := (h.repolled hpass).timer_eq
  rwa [reads_pollView, if_neg hquiet] at htimer

theorem timed (h : PollRun c config before last now timer m) :
    Timed config before last now timer m := by
  induction h with
  | @start now m hopen hconfig hshows =>
      have htimer : (Driver.freshTimer.run m).1 = ⟨.ofNat now, config.linkLowCheck⟩ := by
        rw [← hshows, ← hconfig]
        rfl
      exact ⟨hopen, hconfig, htimer, Nat.le_refl now, .singleton _⟩
  | elsewhere _ hopen hconfig hlater _ ih =>
      exact ⟨hopen, hconfig, ih.timer_eq, Nat.le_trans ih.past hlater, ih.spaced⟩
  | quiet _ hpass hquiet ih =>
      have hrepolled := ih.repolled hpass
      exact ⟨hrepolled.engineOpen.trans ih.engineOpen, hrepolled.config.trans ih.config,
        (ih.timer_of_quiet hpass hquiet).trans ih.timer_eq, Nat.le_trans ih.past hpass.later,
        ih.spaced⟩
  | check _ hpass hread ih =>
      have hrepolled := ih.repolled hpass
      exact ⟨hrepolled.engineOpen.trans ih.engineOpen, hrepolled.config.trans ih.config,
        ih.timer_of_check hpass hread, Nat.le_refl _,
        .cons_cons ((ih.reads_iff hpass).mp hread) ih.spaced⟩

/-- At every point of a run the timer is as it was set last, and no setting came before the one
before it was due. The next pass reads the PHY exactly if the timer is due when the events have been
handled, and at most twice. Then the timer is set again at that time, to the interval for the link
as it is latched by then, and otherwise it stays as it is. -/
theorem cadence (h : PollRun c config before last now timer m) :
    (last :: before).IsChain (fun later earlier =>
      earlier.time + earlier.interval.toNat ≤ later.time) ∧
    timer = ⟨.ofNat last.time, last.interval⟩ ∧
    ∀ now' timer' m', TimedPass c last now timer m now' timer' m' →
      (m.phyReads < m'.phyReads ↔ last.time + last.interval.toNat ≤ now') ∧
      m'.phyReads ≤ m.phyReads + 2 ∧
      timer' = if last.time + last.interval.toNat ≤ now' then
          ⟨.ofNat now',
            if m'.interface.linkIsUp then config.linkHighCheck else config.linkLowCheck⟩
        else timer := by
  refine ⟨h.timed.spaced, h.timed.timer_eq, ?_⟩
  intro now' timer' m' hpass
  have hreads := h.timed.reads_iff hpass
  refine ⟨hreads, (h.timed.repolled hpass).reads_le, ?_⟩
  split
  · next hdue => exact h.timed.timer_of_check hpass (hreads.mpr hdue)
  · next hearly => exact h.timed.timer_of_quiet hpass (mt hreads.mp hearly)

end PollRun

/-- An interface that is checked often, sixty milliseconds before its clock wraps. -/
def wrappingMachine : Machine Arena :=
  { readyMachine with
    interface := { readyMachine.interface with
      config := { readyMachine.interface.config with linkHighCheck := 150, linkLowCheck := 50 } }
    clock := .startingAt 0xFFFFFFFFFFFFFFC4 0 }

/-- A pass in which nothing happens. -/
def idlePass (timer : PollTimer) (m : Machine Arena) :
    Except Failure (EventWord × PollTimer) × Machine Arena :=
  (Attempt.serve (.ofArena (.ok ()) true) timer).run.run m

/-- The first pass comes after the wrap and reads the PHY, the second one comes too early. -/
theorem PollRun.cadence_across_wrap :
    let c := Collaborators.ofArena (.ok ()) true
    let config := wrappingMachine.interface.config
    let start : Setting := ⟨UInt64.size - 60, 50⟩
    let checked : Setting := ⟨UInt64.size + 40, 150⟩
    let m₁ := (idlePass start.pollTimer wrappingMachine).2
    let m₂ := (idlePass checked.pollTimer m₁).2
    PollRun c config [start] checked (UInt64.size + 40) checked.pollTimer m₁ ∧
      TimedPass c checked (UInt64.size + 40) checked.pollTimer m₁ (UInt64.size + 140)
        checked.pollTimer m₂ ∧
      ¬m₁.phyReads < m₂.phyReads := by
  intro c config start checked m₁ m₂
  have htimer : (Driver.freshTimer.run wrappingMachine).1 = start.pollTimer := by decide +kernel
  have hstart : PollRun c config [] start (UInt64.size - 60) start.pollTimer wrappingMachine := by
    rw [← htimer]
    exact .start (by decide +kernel) rfl rfl
  have hfirst : TimedPass c start (UInt64.size - 60) start.pollTimer wrappingMachine
      (UInt64.size + 40) checked.pollTimer m₁ := by
    have hok : (idlePass start.pollTimer wrappingMachine).1 = .ok (.none, checked.pollTimer) := by
      decide +kernel
    exact ⟨⟨.none, Prod.ext hok rfl⟩, by decide, by decide +kernel, by decide⟩
  have hread : wrappingMachine.phyReads < m₁.phyReads :=
    (hstart.cadence.2.2 _ _ _ hfirst).1.mpr (by decide)
  have hchecked : Setting.afterCheck config (UInt64.size + 40) m₁.interface.linkIsUp = checked := by
    decide +kernel
  have hrun : PollRun c config [start] checked (UInt64.size + 40) checked.pollTimer m₁ := by
    have hafter := hstart.check hfirst hread
    rwa [hchecked] at hafter
  have hsecond : TimedPass c checked (UInt64.size + 40) checked.pollTimer m₁ (UInt64.size + 140)
      checked.pollTimer m₂ := by
    have hok : (idlePass checked.pollTimer m₁).1 = .ok (.none, checked.pollTimer) := by
      decide +kernel
    exact ⟨⟨.none, Prod.ext hok rfl⟩, by decide, by decide +kernel, by decide⟩
  refine ⟨hrun, hsecond, ?_⟩
  rw [(hrun.cadence.2.2 _ _ _ hsecond).1]
  decide

end XgmacDriver
