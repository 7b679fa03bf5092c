import Mathlib.Data.List.TakeWhile
import XgmacDriver.Event.Notifier
import XgmacDriver.Proofs.EventWords

/-! # A notifier over its history

Interrupts, waits and takes of completions reach a notifier in any order. From the moment it is
armed it accepts every interrupt, and each accepted one shows in the word of exactly one wait, the
next one. The count of completions is what was counted less what was taken, and an interrupt that
finds it at its maximum is not counted.
-/

namespace XgmacDriver

/-- What a word says if it comes of the interrupts `is`. Its code and its channel are exact if there
is one fault among them. -/
structure EventWord.Tells (is : List Interrupt) (w : EventWord) : Prop where
  rx : w.rx = true ↔ .received ∈ is
  tx : w.tx = true ↔ .transmitted ∈ is
  err : w.err = true ↔ ∃ code channel, .fault code channel ∈ is
  fault : ∀ code channel, Interrupt.faults is = [(code, channel)] →
    w.errCode = code ∧ w.errChannel = channel

theorem EventWord.tells_gathered (is : List Interrupt) : Tells is (gathered is) where
  rx := rx_gathered
  tx := tx_gathered
  err := err_gathered
  fault code channel hfaults := by
    rw [errCode_gathered, errChannel_gathered, hfaults]
    exact ⟨UInt8.zero_or, UInt8.zero_or⟩

inductive NotifierCall
  | arm
  | interrupt (i : Interrupt)
  | wait
  | take
deriving DecidableEq

namespace NotifierCall

def interrupt? : NotifierCall → Option Interrupt
  | interrupt i => some i
  | _ => none

/-- The interrupts that are accepted: those after the notifier is armed. -/
def accepted (calls : List NotifierCall) : List Interrupt :=
  (calls.dropWhile (· ≠ arm)).filterMap interrupt?

theorem accepted_concat (calls : List NotifierCall) (call : NotifierCall) :
    accepted (calls ++ [call]) =
      accepted calls ++ if arm ∈ calls then call.interrupt?.toList else [] := by
  have hempty : (calls.dropWhile (· ≠ arm)).isEmpty = true ↔ arm ∉ calls := by
    rw [List.isEmpty_iff, List.dropWhile_eq_nil_iff]
    simp only [decide_eq_true_eq]
    constructor
    · intro h hmem
      exact h arm hmem rfl
    · rintro h _ hmem rfl
      exact h hmem
  rw [accepted, List.dropWhile_append, accepted]
  by_cases harm : arm ∈ calls
  · rw [if_neg (fun h => hempty.mp h harm), if_pos harm, List.filterMap_append]
    cases call <;> rfl
  · rw [if_pos (hempty.mpr harm), if_neg harm, List.isEmpty_iff.mp (hempty.mpr harm)]
    cases call <;> rfl

end NotifierCall

structure NotifierHistory where
  notifier : Notifier
  /-- The interrupts accepted since the last wait. -/
  recent : List Interrupt
  /-- Every wait: the interrupts accepted since the one before it, and the word that it returned. -/
  waits : List (List Interrupt × EventWord)
  /-- The completions that found the count below its maximum. -/
  counted : Nat
  /-- The completions that were taken. -/
  taken : Nat

namespace NotifierHistory

def fresh (max : Nat) : NotifierHistory := ⟨.new max, [], [], 0, 0⟩

def step (s : NotifierHistory) : NotifierCall → NotifierHistory
  | .arm => { s with notifier := s.notifier.arm }
  | .interrupt i =>
      let accepted := s.notifier.armed
      let below := s.notifier.completions.count < s.notifier.completions.max
      { s with
        notifier := s.notifier.interrupt i
        recent := if accepted then s.recent ++ [i] else s.recent
        counted := if accepted ∧ i = .transmitted ∧ below then s.counted + 1 else s.counted }
  | .wait =>
      { s with
        notifier := s.notifier.clear
        recent := []
        waits := s.waits ++ [(s.recent, s.notifier.word)] }
  | .take =>
      { s with
        notifier := s.notifier.takeCompletion
        taken := if s.notifier.completions.take.1 then s.taken + 1 else s.taken }

def run (s : NotifierHistory) (calls : List NotifierCall) : NotifierHistory := calls.foldl step s

theorem run_append (s : NotifierHistory) (calls more : List NotifierCall) :
    s.run (calls ++ more) = (s.run calls).run more := List.foldl_append

/-- What is known of a history after `calls`. -/
structure Recorded (max : Nat) (calls : List NotifierCall) (s : NotifierHistory) : Prop where
  armed : s.notifier.armed = true ↔ .arm ∈ calls
  word : s.notifier.word = .gathered s.recent
  waits : ∀ w ∈ s.waits, w.2 = .gathered w.1
  accepted : s.waits.flatMap Prod.fst ++ s.recent = NotifierCall.accepted calls
  max_eq : s.notifier.completions.max = max
  count_le : s.notifier.completions.count ≤ max
  count_add : s.notifier.completions.count + s.taken = s.counted

variable {max : Nat} {calls : List NotifierCall} {s : NotifierHistory}

theorem recorded_fresh (max : Nat) : (fresh max).Recorded max [] where
  armed := iff_of_false nofun nofun
  word := rfl
  waits := nofun
  accepted := rfl
  max_eq := rfl
  count_le := Nat.zero_le max
  count_add := rfl

theorem step_interrupt_of_not_armed (h : s.notifier.armed = false) (i : Interrupt) :
    s.step (.interrupt i) = s := by
  simp [step, Notifier.interrupt_of_not_armed h, h]

namespace Recorded

theorem arm (h : s.Recorded max calls) : (s.step .arm).Recorded max (calls ++ [.arm]) where
  armed := iff_of_true rfl (by simp)
  word := h.word
  waits := h.waits
  accepted := by
    rw [NotifierCall.accepted_concat, ← h.accepted]
    simp [step, NotifierCall.interrupt?]
  max_eq := h.max_eq
  count_le := h.count_le
  count_add := h.count_add

/-- An interrupt that is accepted joins the word, and a completion is counted below the maximum. -/
theorem interrupt (h : s.Recorded max calls) (i : Interrupt) :
    (s.step (.interrupt i)).Recorded max (calls ++ [.interrupt i]) := by
  have harm : .arm ∈ calls ++ [.interrupt i] ↔ .arm ∈ calls := by simp
  have haccepted := NotifierCall.accepted_concat calls (.interrupt i)
  by_cases harmed : s.notifier.armed = true
  · rw [if_pos (h.armed.mp harmed), ← h.accepted] at haccepted
    have hcompletions : (s.notifier.interrupt i).completions =
        if i = .transmitted then s.notifier.completions.give.2 else s.notifier.completions := by
      simp [Notifier.interrupt, harmed, Notifier.notify]
    have hcount := s.notifier.completions.count_give
    have hle := h.count_le
    have hadd := h.count_add
    have hmax := h.max_eq
    constructor
    case armed =>
      rw [harm, ← h.armed, ← (Notifier.steady_interrupt i s.notifier).1]
      rfl
    case word =>
      have hword : (s.notifier.interrupt i).word = s.notifier.word ||| .ofInterrupt i := by
        simp [Notifier.interrupt, harmed]
      simp only [step, harmed, if_true, hword, h.word, EventWord.gathered_concat]
    case waits => exact h.waits
    case accepted =>
      simp [step, harmed, haccepted, NotifierCall.interrupt?]
    case max_eq => exact ((Notifier.steady_interrupt i s.notifier).2).trans hmax
    case count_le =>
      simp only [step, hcompletions]
      split
      · rw [hcount]
        split <;> omega
      · exact hle
    case count_add =>
      simp only [step, hcompletions, harmed, true_and]
      by_cases hi : i = .transmitted
      · simp only [hi, if_true, true_and, hcount]
        split <;> omega
      · simp only [hi, if_false, false_and]
        exact hadd
  · have hnot : s.notifier.armed = false := by simpa using harmed
    rw [if_neg (fun hmem => harmed (h.armed.mpr hmem)), List.append_nil] at haccepted
    rw [step_interrupt_of_not_armed hnot]
    exact { h with armed := h.armed.trans harm.symm, accepted := h.accepted.trans haccepted.symm }

/-- A wait tells of what was accepted since the last one, and the next begins with nothing. -/
theorem wait (h : s.Recorded max calls) : (s.step .wait).Recorded max (calls ++ [.wait]) where
  armed := h.armed.trans (by simp)
  word := rfl
  waits := by
    intro w hw
    rcases List.mem_append.mp hw with hw | hw
    · exact h.waits w hw
    · obtain rfl := List.mem_singleton.mp hw
      exact h.word
  accepted := by
    rw [NotifierCall.accepted_concat, ← h.accepted]
    simp [step, NotifierCall.interrupt?]
  max_eq := h.max_eq
  count_le := h.count_le
  count_add := h.count_add

theorem take (h : s.Recorded max calls) : (s.step .take).Recorded max (calls ++ [.take]) := by
  have hcount := s.notifier.completions.count_take
  have hle := h.count_le
  have hadd := h.count_add
  constructor
  case armed => exact h.armed.trans (by simp)
  case word => exact h.word
  case waits => exact h.waits
  case accepted =>
    rw [NotifierCall.accepted_concat, ← h.accepted]
    simp [step, NotifierCall.interrupt?]
  case max_eq => exact (CompletionCounter.max_take _).trans h.max_eq
  case count_le =>
    simp only [step, Notifier.takeCompletion]
    omega
  case count_add =>
    simp only [step, Notifier.takeCompletion]
    split at hcount
    · rw [if_pos ‹_›]
      omega
    · rw [if_neg ‹_›]
      omega

theorem step (h : s.Recorded max calls) (call : NotifierCall) :
    (s.step call).Recorded max (calls ++ [call]) := by
  cases call with
  | arm => exact h.arm
  | interrupt i => exact h.interrupt i
  | wait => exact h.wait
  | take => exact h.take

end Recorded

theorem recorded (max : Nat) (calls : List NotifierCall) :
    ((fresh max).run calls).Recorded max calls := by
  induction calls using List.reverseRecOn with
  | nil => exact recorded_fresh max
  | append_singleton calls call ih =>
      rw [run_append]
      exact ih.step call

/-- Before a notifier is armed an interrupt leaves no trace. Every accepted interrupt is told of by
the next wait, and by no other, and the count of completions is exact. -/
theorem run_exact (max : Nat) (calls : List NotifierCall) :
    let s := (fresh max).run calls
    (∀ before i after, calls = before ++ .interrupt i :: after → .arm ∉ before →
      s = (fresh max).run (before ++ after)) ∧
    s.waits.flatMap Prod.fst ++ s.recent = NotifierCall.accepted calls ∧
    (∀ w ∈ s.waits, w.2.Tells w.1) ∧
    s.notifier.completions.count ≤ max ∧
    s.notifier.completions.count + s.taken = s.counted := by
  intro s
  have h : s.Recorded max calls := recorded max calls
  refine ⟨?_, h.accepted, ?_, h.count_le, h.count_add⟩
  · rintro before i after rfl hbefore
    have hnot : ((fresh max).run before).notifier.armed = false := by
      rw [← Bool.not_eq_true, (recorded max before).armed]
      exact hbefore
    show (fresh max).run (before ++ .interrupt i :: after) = _
    rw [run_append, run_append]
    show (((fresh max).run before).step (.interrupt i)).run after = _
    rw [step_interrupt_of_not_armed hnot]
  · intro w hw
    rw [h.waits w hw]
    exact EventWord.tells_gathered w.1

/-- One fault among other interrupts, and one completion too many for a count of two. -/
def oneFault : List NotifierCall :=
  [.arm, .interrupt .received, .interrupt (.fault 3 5), .interrupt .transmitted, .wait,
    .interrupt .transmitted, .interrupt .transmitted, .take]

theorem run_exact_one_fault :
    let s := (fresh 2).run (.interrupt .received :: oneFault)
    s = (fresh 2).run oneFault ∧ s.waits.length = 1 ∧
      (∀ w ∈ s.waits, w.2.errCode = 3 ∧ w.2.errChannel = 5) ∧
      s.notifier.completions.count = 1 := by
  intro s
  obtain ⟨hearly, -, hwaits, -, hadd⟩ := run_exact 2 (.interrupt .received :: oneFault)
  have hfaults : ∀ w ∈ s.waits, Interrupt.faults w.1 = [(3, 5)] := by decide
  have htaken : s.taken = 1 := by decide
  have hcounted : s.counted = 2 := by decide
  have hcount : s.notifier.completions.count + s.taken = s.counted := hadd
  refine ⟨hearly [] .received oneFault rfl (by decide), by decide, ?_, by omega⟩
  intro w hw
  exact (hwaits w hw).fault 3 5 (hfaults w hw)

end NotifierHistory

end XgmacDriver
