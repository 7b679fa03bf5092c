import XgmacDriver.Machine.Basic

/-! # Buffers in the exchanges of a run

A run appends its exchanges to the trace. Which buffers it obtained from the stack, handed up and
released can be read off them, as can the order of its dealings with the ring of the engine.
-/

namespace XgmacDriver

namespace Exchange

def delivered : Exchange → List NetworkBuffer
  | rxEvent _ frames true => frames.map (·.frame.buffer)
  | _ => []

def obtained : Exchange → List NetworkBuffer
  | getBuffer _ _ (some buffer) => [buffer]
  | _ => []

def released : Exchange → List UInt16
  | releaseBuffer index _ => [index]
  | _ => []

def refilled : Exchange → List Addr
  | command (.refill a) _ => [a]
  | _ => []

def submitted : Exchange → List Addr
  | command (.transmit frame) (.ok ()) => [frame.buf]
  | _ => []

def handedBack : Exchange → List Addr
  | nextTransmitted (.ok (some a)) => [a]
  | _ => []

/-- Whether this is a read of the receive ring or a refill. -/
def onRing : Exchange → Bool
  | nextReceived _ | command (.refill _) _ => true
  | _ => false

end Exchange

def RxCompletion.buffers (completed : List RxCompletion) : List Addr := completed.filterMap (·.buf)

namespace Machine

variable {σ : Type}

def since (n : Nat) (m : Machine σ) : List Exchange := m.trace.toList.drop n

/-- The buffers of all refills so far, of the refused ones too. -/
def refilled (m : Machine σ) : List Addr := m.trace.toList.flatMap Exchange.refilled

def submitted (m : Machine σ) : List Addr := m.trace.toList.flatMap Exchange.submitted

def handedBack (m : Machine σ) : List Addr := m.trace.toList.flatMap Exchange.handedBack

def released (m : Machine σ) : List UInt16 := m.trace.toList.flatMap Exchange.released

theorem since_size (m : Machine σ) : m.since m.trace.size = [] := by
  simp [since]

theorem since_of_append {m m' : Machine σ} {xs : List Exchange}
    (h : m'.trace.toList = m.trace.toList ++ xs) : m'.since m.trace.size = xs := by
  rw [since, h, ← Array.length_toList, List.drop_left]

theorem since_push {n : Nat} {m m' : Machine σ} {x : Exchange} (hn : n ≤ m.trace.size)
    (hm : m'.trace = m.trace.push x) : m'.since n = m.since n ++ [x] := by
  have hlength : n ≤ m.trace.toList.length := by simpa using hn
  rw [since, hm, Array.toList_push, List.drop_append_of_le_length hlength, since]

theorem refilled_push {m m' : Machine σ} {x : Exchange} (hm : m'.trace = m.trace.push x) :
    m'.refilled = m.refilled ++ x.refilled := by
  simp [refilled, hm]

theorem submitted_push {m m' : Machine σ} {x : Exchange} (hm : m'.trace = m.trace.push x) :
    m'.submitted = m.submitted ++ x.submitted := by
  simp [submitted, hm]

theorem handedBack_push {m m' : Machine σ} {x : Exchange} (hm : m'.trace = m.trace.push x) :
    m'.handedBack = m.handedBack ++ x.handedBack := by
  simp [handedBack, hm]

theorem released_push {m m' : Machine σ} {x : Exchange} (hm : m'.trace = m.trace.push x) :
    m'.released = m.released ++ x.released := by
  simp [released, hm]

end Machine

end XgmacDriver
