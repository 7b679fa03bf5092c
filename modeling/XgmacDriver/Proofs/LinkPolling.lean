import Mathlib.Data.Nat.Find
import XgmacDriver.Link
import XgmacDriver.Machine.Run
import XgmacDriver.Proofs.BringUpRetry
import XgmacDriver.Proofs.RepeatedSleeps

/-! # Polling for the link

Bring-up reads the status register of the PHY again and again, with a sleep after every value that
says the link is down. As every sleep takes the same time, the time that it may wait is a number of
reads. It stops at the first value with the link bit among so many, and what it has read last is
latched in any case.
-/

namespace XgmacDriver

variable {σ : Type}

namespace Collaborators

variable (c : Collaborators σ) (phy : UInt8) (world : σ)

def afterReads : Nat → σ
  | 0 => world
  | n + 1 => (c.readPhy phy phyStatusRegister (afterReads n)).2

def statusRead (n : Nat) : UInt32 := (c.readPhy phy phyStatusRegister (c.afterReads phy world n)).1

def statusReads (n : Nat) : Array Exchange :=
  Array.ofFn fun i : Fin n => .readPhy phy phyStatusRegister (c.statusRead phy world i)

theorem statusReads_succ (n : Nat) : c.statusReads phy world (n + 1) =
    (c.statusReads phy world n).push
      (.readPhy phy phyStatusRegister (c.statusRead phy world n)) :=
  Array.ofFn_succ

end Collaborators

/-- The machine after `reads` reads of the status register, each of which is latched, and `sleeps`
sleeps between them. -/
def Machine.polled (c : Collaborators σ) (phy : UInt8) (m : Machine σ) (reads sleeps : Nat) :
    Machine σ :=
  { m with
    interface := match reads with
      | 0 => m.interface
      | n + 1 => m.interface.latch (c.statusRead phy m.world n)
    clock := m.clock.rested linkPollStep sleeps
    trace := m.trace ++ c.statusReads phy m.world reads
    world := c.afterReads phy m.world reads }

variable {c : Collaborators σ} {phy : UInt8} {maxWait : UInt64} {m : Machine σ} {n : Nat}

theorem Machine.polled_zero (c : Collaborators σ) (phy : UInt8) (m : Machine σ) :
    m.polled c phy 0 0 = m := by
  simp [polled, Collaborators.statusReads, Collaborators.afterReads, Clock.rested]

namespace Driver

theorem run_read_polled (c : Collaborators σ) (phy : UInt8) (m : Machine σ) (n : Nat) :
    (readLinkStatus c phy).run (m.polled c phy n n) = pure (c.statusRead phy m.world n,
      { m.polled c phy (n + 1) n with interface := (m.polled c phy n n).interface }) := by
  rw [readLinkStatus, run_readPhy]
  simp only [Machine.polled, Collaborators.statusReads_succ, Array.append_push]
  rfl

theorem latch_polled (c : Collaborators σ) (phy : UInt8) (m : Machine σ) (n : Nat) :
    (m.polled c phy n n).interface.latch (c.statusRead phy m.world n) =
      (m.polled c phy (n + 1) n).interface := by
  cases n with
  | zero => rfl
  | succ n => rfl

theorem pollLink_late {fuel : Nat} {start : UInt64} (hlate : maxWait < m.clock.elapsedSince start) :
    (pollLink c phy maxWait start (fuel + 1)).run m =
      pure (false, { m with log := m.log.push (.linkStillDown maxWait) }) := by
  rw [pollLink]
  simp [hlate]

theorem pollLink_early {fuel : Nat}
    (hearly : ¬maxWait < (m.clock.rested linkPollStep n).elapsedSince m.clock.now) :
    (pollLink c phy maxWait m.clock.now (fuel + 1)).run (m.polled c phy n n) =
      if linkUp (c.statusRead phy m.world n) then pure (true, m.polled c phy (n + 1) n)
      else (pollLink c phy maxWait m.clock.now fuel).run (m.polled c phy (n + 1) (n + 1)) := by
  have htime : ¬maxWait < (m.polled c phy n n).clock.elapsedSince m.clock.now := hearly
  rw [pollLink]
  simp only [StateT.run_bind, StateT.run_get, pure_bind, run_ite, if_neg htime, run_read_polled,
    latchLink, run_modifyInterface, latch_polled]
  split
  · rfl
  · rfl

section

variable (hstride : 0 < m.clock.stride linkPollStep)
  (hfits : maxWait.toNat + m.clock.stride linkPollStep < UInt64.size)
include hstride hfits

theorem timeOut_iff (hn : n ≤ m.clock.exceeding linkPollStep maxWait) :
    maxWait < (m.clock.rested linkPollStep n).elapsedSince m.clock.now ↔
      n = m.clock.exceeding linkPollStep maxWait := by
  have hwhole : maxWait.toNat / m.clock.stride linkPollStep * m.clock.stride linkPollStep ≤
      maxWait.toNat := Nat.div_mul_le_self ..
  apply Clock.limit_lt_elapsed_iff hstride ?_ hn
  rw [Clock.exceeding, Nat.succ_mul]
  omega

/-- While every value says that the link is down and the time is not over, polling goes on. -/
theorem pollLink_of_down (hn : n ≤ m.clock.exceeding linkPollStep maxWait)
    (hdown : ∀ i < n, linkUp (c.statusRead phy m.world i) = false) (fuel : Nat) :
    (pollLink c phy maxWait m.clock.now (n + fuel)).run m =
      (pollLink c phy maxWait m.clock.now fuel).run (m.polled c phy n n) := by
  induction n generalizing fuel with
  | zero => rw [Nat.zero_add, Machine.polled_zero]
  | succ n ih =>
      have hearly : ¬maxWait < (m.clock.rested linkPollStep n).elapsedSince m.clock.now := by
        rw [timeOut_iff hstride hfits (Nat.le_of_succ_le hn)]
        omega
      have hbefore := ih (Nat.le_of_succ_le hn) (fun i hi => hdown i (Nat.lt_succ_of_lt hi))
        (fuel + 1)
      rw [show n + 1 + fuel = n + (fuel + 1) by omega, hbefore, pollLink_early hearly,
        hdown n (Nat.lt_succ_self n)]
      rfl

/-- There is fuel for every poll and for the test that ends the wait. -/
theorem exceeding_lt_size : m.clock.exceeding linkPollStep maxWait < UInt64.size := by
  have hle : maxWait.toNat / m.clock.stride linkPollStep ≤ maxWait.toNat := Nat.div_le_self ..
  rw [Clock.exceeding]
  omega

theorem checkLink_of_up (hn : n ≤ maxWait.toNat / m.clock.stride linkPollStep)
    (hup : linkUp (c.statusRead phy m.world n) = true)
    (hdown : ∀ i < n, linkUp (c.statusRead phy m.world i) = false) :
    (checkLink c phy maxWait).run m = pure (true, m.polled c phy (n + 1) n) := by
  have hlimit : n < m.clock.exceeding linkPollStep maxWait := Nat.lt_succ_of_le hn
  have hsize := exceeding_lt_size hstride hfits
  have hearly : ¬maxWait < (m.clock.rested linkPollStep n).elapsedSince m.clock.now := by
    rw [timeOut_iff hstride hfits (Nat.le_of_lt hlimit)]
    omega
  obtain ⟨fuel, hfuel⟩ : ∃ fuel, UInt64.size = n + (fuel + 1) :=
    ⟨UInt64.size - n - 1, by omega⟩
  show (pollLink c phy maxWait m.clock.now UInt64.size).run m = _
  rw [hfuel, pollLink_of_down hstride hfits (Nat.le_of_lt hlimit) hdown, pollLink_early hearly,
    if_pos hup]

theorem checkLink_of_down
    (hdown : ∀ i < m.clock.exceeding linkPollStep maxWait,
      linkUp (c.statusRead phy m.world i) = false) :
    let n := m.clock.exceeding linkPollStep maxWait
    (checkLink c phy maxWait).run m = pure (false,
      { m.polled c phy n n with log := m.log.push (.linkStillDown maxWait) }) := by
  intro n
  have hsize : n < UInt64.size := exceeding_lt_size hstride hfits
  have hlate : maxWait < (m.polled c phy n n).clock.elapsedSince m.clock.now :=
    (timeOut_iff hstride hfits (Nat.le_refl n)).mpr rfl
  obtain ⟨fuel, hfuel⟩ : ∃ fuel, UInt64.size = n + (fuel + 1) :=
    ⟨UInt64.size - n - 1, by omega⟩
  show (pollLink c phy maxWait m.clock.now UInt64.size).run m = _
  rw [hfuel, pollLink_of_down hstride hfits (Nat.le_refl n) hdown, pollLink_late hlate]
  rfl

end

/-- The link is found exactly if one of the first `K + 1` values has the link bit, and then no value
is read after the first of them. Otherwise all of these values are read, with a sleep after each. -/
theorem checkLink_polls (c : Collaborators σ) (phy : UInt8)
    (hstride : 0 < m.clock.stride linkPollStep)
    (hfits : maxWait.toNat + m.clock.stride linkPollStep < UInt64.size) :
    let K := maxWait.toNat / m.clock.stride linkPollStep
    let up := fun n => linkUp (c.statusRead phy m.world n)
    let r := (checkLink c phy maxWait).run m
    (r.1 = true ↔ ∃ n ≤ K, up n = true) ∧
    (∀ n ≤ K, up n = true → (∀ i < n, up i = false) → r.2 = m.polled c phy (n + 1) n) ∧
    ((∀ n ≤ K, up n = false) → r.2 =
      { m.polled c phy (K + 1) (K + 1) with log := m.log.push (.linkStillDown maxWait) }) ∧
    r.2.interface.linkIsUp = r.1 := by
  intro K up r
  by_cases hfound : ∃ n ≤ K, up n = true
  · -- The first of the values with the link bit is the last one that is read.
    obtain ⟨hfirst, hup⟩ := Nat.find_spec hfound
    have hdown : ∀ i < Nat.find hfound, up i = false := by
      intro i hi
      have hnot := Nat.find_min hfound hi
      simpa [Nat.le_trans (Nat.le_of_lt hi) hfirst] using hnot
    have hr : r = (true, m.polled c phy (Nat.find hfound + 1) (Nat.find hfound)) :=
      checkLink_of_up hstride hfits hfirst hup hdown
    rw [hr]
    refine ⟨iff_of_true rfl hfound, ?_, ?_, hup⟩
    · intro n hn hupn hdownn
      have hfind : Nat.find hfound = n := by
        rw [Nat.find_eq_iff]
        exact ⟨⟨hn, hupn⟩, fun i hi h => Bool.false_ne_true ((hdownn i hi).symm.trans h.2)⟩
      rw [hfind]
    · intro hall
      exact absurd ((hall _ hfirst).symm.trans hup) Bool.false_ne_true
  · have hall : ∀ n ≤ K, up n = false := by
      intro n hn
      by_contra hup
      exact hfound ⟨n, hn, by simpa using hup⟩
    have hr : r = (false, { m.polled c phy (K + 1) (K + 1) with
        log := m.log.push (.linkStillDown maxWait) }) :=
      checkLink_of_down hstride hfits fun i hi => hall i (Nat.le_of_lt_succ hi)
    rw [hr]
    refine ⟨iff_of_false nofun hfound, ?_, fun _ => rfl, hall K (Nat.le_refl K)⟩
    intro n hn hup
    exact absurd ⟨n, hn, hup⟩ hfound

end Driver

/-- A PHY whose status register runs through `values`. The world is the number of reads so far. -/
def Collaborators.ofRegister (values : Nat → UInt32) : Collaborators Nat :=
  { Collaborators.ofStock fun _ => .ok () with readPhy := fun _ _ n => (values n, n + 1) }

theorem Collaborators.statusRead_ofRegister (values : Nat → UInt32) (phy : UInt8) (n : Nat) :
    (ofRegister values).statusRead phy 0 n = values n := by
  have hreads : (ofRegister values).afterReads phy 0 n = n := by
    induction n with
    | zero => rfl
    | succ n ih => exact congrArg (· + 1) ih
  exact congrArg values hreads

/-- A clock whose sleeps take five milliseconds too long, shortly before it wraps. -/
def pollingMachine : Machine Nat :=
  { failedMachine with clock := .startingAt 0xFFFFFFFFFFFFFFF0 5, world := 0 }

/-- The link comes up with the last value for which 80 milliseconds are enough, and with the first
one for which they are not. -/
theorem Driver.checkLink_polls_last_read :
    let values := fun last n => if n < last then 0x20 else linkBit
    0 < pollingMachine.clock.stride linkPollStep ∧
      (80 : UInt64).toNat + pollingMachine.clock.stride linkPollStep < UInt64.size ∧
      ((checkLink (.ofRegister (values 3)) 4 80).run pollingMachine).1 = true ∧
      ((checkLink (.ofRegister (values 3)) 4 80).run pollingMachine).2.clock.sleeps = 3 ∧
      ((checkLink (.ofRegister (values 4)) 4 80).run pollingMachine).1 = false ∧
      ((checkLink (.ofRegister (values 4)) 4 80).run pollingMachine).2.clock.sleeps = 4 := by
  intro values
  have hstride : 0 < pollingMachine.clock.stride linkPollStep := by decide
  have hfits : (80 : UInt64).toNat + pollingMachine.clock.stride linkPollStep < UInt64.size := by
    decide
  have hlimit : (80 : UInt64).toNat / pollingMachine.clock.stride linkPollStep = 3 := by decide
  have hread : ∀ last n, linkUp ((Collaborators.ofRegister (values last)).statusRead 4
      pollingMachine.world n) = decide (last ≤ n) := by
    intro last n
    show linkUp ((Collaborators.ofRegister (values last)).statusRead 4 0 n) = _
    rw [Collaborators.statusRead_ofRegister]
    by_cases hn : n < last
    · rw [decide_eq_false (Nat.not_le.mpr hn), show values last n = 0x20 from if_pos hn]
      rfl
    · rw [decide_eq_true (Nat.le_of_not_lt hn), show values last n = linkBit from if_neg hn]
      rfl
  obtain ⟨hfound, hstop, -, -⟩ :=
    checkLink_polls (.ofRegister (values 3)) 4 hstride hfits
  obtain ⟨hmissed, -, hgiveUp, -⟩ :=
    checkLink_polls (.ofRegister (values 4)) 4 hstride hfits
  simp only [hread, hlimit] at hfound hstop hmissed hgiveUp
  refine ⟨hstride, hfits, hfound.mpr ⟨3, by decide, by decide⟩, ?_, ?_, ?_⟩
  · rw [hstop 3 (by decide) (by decide) (by decide)]
    rfl
  · rw [← Bool.not_eq_true, hmissed]
    rintro ⟨n, hn, hup⟩
    have hlast : 4 ≤ n := of_decide_eq_true hup
    omega
  · have hdown : ∀ n ≤ 3, decide (4 ≤ n) = false := by
      intro n hn
      rw [decide_eq_false_iff_not]
      omega
    rw [hgiveUp hdown]
    rfl

end XgmacDriver
