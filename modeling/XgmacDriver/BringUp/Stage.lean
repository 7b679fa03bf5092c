/-! # Bring-up stages

Bring-up runs five working stages in a fixed order. They open the MAC, initialise the PHY, set up
the buffers and the DMA, start the MAC, and wait for the link to create the deferred task. A stage
that completes hands over to the next one, one that cannot complete yet stays where it is, and a
failure ends the attempt; a later attempt then starts over. `Stage.remaining` counts the working
stages left, and every step to another stage lowers it.
-/

namespace XgmacDriver

inductive Stage
  | engineInit
  | linkPartnerInit
  | transferInit
  | engineStart
  | linkWait
  | ready
  | failed
deriving DecidableEq

inductive StageOutcome
  | done
  | pending
  | failed
deriving DecidableEq

namespace Stage

def name : Stage → String
  | engineInit => "EngineInit"
  | linkPartnerInit => "LinkPartnerInit"
  | transferInit => "TransferInit"
  | engineStart => "EngineStart"
  | linkWait => "LinkWait"
  | ready => "Ready"
  | failed => "Failed"

/-- The stage at which a new attempt starts: a failed bring-up starts over. -/
def entry : Stage → Stage
  | failed => engineInit
  | s => s

def successor : Stage → Stage
  | engineInit => linkPartnerInit
  | linkPartnerInit => transferInit
  | transferInit => engineStart
  | engineStart => linkWait
  | linkWait => ready
  | ready => ready
  | failed => failed

def isTerminal : Stage → Bool
  | ready | failed => true
  | _ => false

def next (s : Stage) (outcome : StageOutcome) : Stage :=
  if s.isTerminal then s
  else match outcome with
    | .done => s.successor
    | .pending => s
    | .failed => failed

def remaining : Stage → Nat
  | engineInit => 5
  | linkPartnerInit => 4
  | transferInit => 3
  | engineStart => 2
  | linkWait => 1
  | ready | failed => 0

theorem isTerminal_iff {s : Stage} : s.isTerminal = true ↔ s = ready ∨ s = failed := by
  cases s <;> simp [isTerminal]

theorem remaining_next_lt {s : Stage} {outcome : StageOutcome} (h : s.next outcome ≠ s) :
    (s.next outcome).remaining < s.remaining := by
  revert h
  cases s <;> cases outcome <;> simp [next, isTerminal, successor, remaining]

end Stage

end XgmacDriver
