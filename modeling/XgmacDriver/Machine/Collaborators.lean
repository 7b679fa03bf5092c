import XgmacDriver.Buffer.Lock
import XgmacDriver.Machine.Exchange
import XgmacDriver.Machine.Interface

/-! # Collaborators

What the driver asks of the world: the hardware and its engine, the IP stack, the scheduler, the
allocator and whoever else wants a pool. Their answers are functions of a state `σ` about which the
driver knows nothing, so a statement about all collaborators covers every behaviour they can show.
-/

namespace XgmacDriver

structure Collaborators (σ : Type) where
  openEmac : (index : UInt8) → σ → Bool × σ
  command : (clock : Clock) → Command → σ → Except EngineStatus Unit × σ
  /-- The record that discovery makes of an earlier one. -/
  discovered : σ → PhyRecord → PhyRecord
  /-- The record that negotiation makes of an earlier one. -/
  negotiated : σ → PhyRecord → PhyRecord
  readPhy : (phy register : UInt8) → σ → UInt32 × σ
  rxDescriptors : σ → Nat
  getBuffer : (wanted timeout : Nat) → σ → Option NetworkBuffer × σ
  releaseBuffer : (index : UInt16) → σ → Bool × σ
  considerFrame : (frame : List UInt8) → σ → Disposition × σ
  matchEndpoint : (interface : UInt8) → (frame : List UInt8) → σ → Option UInt16 × σ
  lookup : (payload : Addr) → σ → Option NetworkBuffer × σ
  sendRxEvent : (frames : List Delivery) → (timeout : Nat) → σ → Bool × σ
  spawn : TaskSpec → σ → Option UInt32 × σ
  /-- What arrives while the deferred task is blocked. -/
  duringWait : (ms : UInt64) → σ → List Arrival × σ
  allocate : Direction → σ → (size : Nat) → Option Addr
  /-- Who else holds the lock of a pool. -/
  lock : Direction → σ → Lock

end XgmacDriver
