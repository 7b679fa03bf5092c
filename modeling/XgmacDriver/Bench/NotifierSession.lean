import XgmacDriver.Event.Notifier

/-! # Sessions with the notifier

The interrupt notifier on its own, with a word whose idle waits return at once and are counted.
-/

namespace XgmacDriver.Bench

structure NotifierSession where
  notifier : Notifier
  /-- Waits that found nothing. -/
  blocks : Nat := 0
  blockedTime : UInt64 := 0

inductive NotifierStep
  | arm
  | interrupt (i : Interrupt)
  | notify (w : EventWord)
  | wait (ms : UInt64)
  | take

inductive NotifierAnswer
  | nothing
  | events (w : EventWord)
  | flag (b : Bool)

namespace NotifierSession

def step (s : NotifierSession) : NotifierStep → NotifierAnswer × NotifierSession
  | .arm => (.nothing, { s with notifier := s.notifier.arm })
  | .interrupt i => (.nothing, { s with notifier := s.notifier.interrupt i })
  | .notify w => (.nothing, { s with notifier := s.notifier.notify w })
  | .wait ms =>
      let s' :=
        if s.notifier.word = .none then
          { s with blocks := s.blocks + 1, blockedTime := s.blockedTime + ms }
        else s
      (.events s.notifier.word, { s' with notifier := s.notifier.clear })
  | .take =>
      let (taken, completions) := s.notifier.completions.take
      (.flag taken, { s with notifier := { s.notifier with completions } })

def run (s : NotifierSession) : List NotifierStep → List (NotifierAnswer × NotifierSession)
  | [] => []
  | step :: rest =>
      let (answer, s) := s.step step
      (answer, s) :: s.run rest

end NotifierSession

end XgmacDriver.Bench
