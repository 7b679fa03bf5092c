import XgmacDriver.Event.Word

/-! # The interrupt notifier

An interrupt does two things only: it ORs its event into the word on which the deferred task waits,
and for a completed transmission it also counts one completion, up to a maximum. Before the notifier
is armed an interrupt does nothing.
-/

namespace XgmacDriver

/-- Completed transmissions that wait to be reclaimed. -/
structure CompletionCounter where
  count : Nat
  max : Nat
deriving DecidableEq

namespace CompletionCounter

def new (max : Nat) : CompletionCounter := ⟨0, max⟩

def give (c : CompletionCounter) : Bool × CompletionCounter :=
  if c.count < c.max then (true, { c with count := c.count + 1 }) else (false, c)

def take (c : CompletionCounter) : Bool × CompletionCounter :=
  if 0 < c.count then (true, { c with count := c.count - 1 }) else (false, c)

theorem count_give (c : CompletionCounter) :
    c.give.2.count = c.count + if c.count < c.max then 1 else 0 := by
  unfold give
  split <;> rfl

theorem count_take (c : CompletionCounter) :
    c.take.2.count + (if c.take.1 then 1 else 0) = c.count := by
  unfold take
  split
  · exact Nat.sub_add_cancel ‹_›
  · rfl

theorem take_fst_iff (c : CompletionCounter) : c.take.1 = true ↔ 0 < c.count := by
  unfold take
  by_cases h : 0 < c.count
  · simp [h]
  · simp [h]

@[simp] theorem max_give (c : CompletionCounter) : c.give.2.max = c.max := by
  unfold give
  split <;> rfl

@[simp] theorem max_take (c : CompletionCounter) : c.take.2.max = c.max := by
  unfold take
  split <;> rfl

end CompletionCounter

structure Notifier where
  armed : Bool
  /-- What has happened since the task last waited. -/
  word : EventWord
  completions : CompletionCounter
deriving DecidableEq

namespace Notifier

def new (maxCompletions : Nat) : Notifier := ⟨false, .none, .new maxCompletions⟩

def arm (n : Notifier) : Notifier := { n with armed := true }

def notify (n : Notifier) (w : EventWord) : Notifier := { n with word := n.word ||| w }

def clear (n : Notifier) : Notifier := { n with word := .none }

def takeCompletion (n : Notifier) : Notifier := { n with completions := n.completions.take.2 }

def interrupt (n : Notifier) (i : Interrupt) : Notifier :=
  if !n.armed then n
  else
    let completions := if i = .transmitted then n.completions.give.2 else n.completions
    { n with completions }.notify (.ofInterrupt i)

@[simp] theorem word_notify (n : Notifier) (w : EventWord) :
    (n.notify w).word = n.word ||| w := rfl

theorem interrupt_of_not_armed {n : Notifier} (h : n.armed = false) (i : Interrupt) :
    n.interrupt i = n := by simp [interrupt, h]

/-- A change that leaves alone whether the notifier is armed and how far it counts. -/
def Steady (f : Notifier → Notifier) : Prop :=
  ∀ n, (f n).armed = n.armed ∧ (f n).completions.max = n.completions.max

theorem steady_clear : Steady clear := fun _ => ⟨rfl, rfl⟩

theorem steady_takeCompletion : Steady takeCompletion := fun n => ⟨rfl, n.completions.max_take⟩

theorem steady_interrupt (i : Interrupt) : Steady (·.interrupt i) := by
  intro n
  dsimp only [interrupt]
  split
  · exact ⟨rfl, rfl⟩
  · refine ⟨rfl, ?_⟩
    show (if i = .transmitted then n.completions.give.2 else n.completions).max = _
    split
    · exact CompletionCounter.max_give _
    · rfl

end Notifier

end XgmacDriver
