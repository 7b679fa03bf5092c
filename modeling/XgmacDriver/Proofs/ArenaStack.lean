import XgmacDriver.Machine.Collaborators
import XgmacDriver.Proofs.ArenaPartition

/-! # Stacks that keep their buffers in an arena

What the driver relies on when the stack is an arena: which of its calls change the arena, and how.
The smallest such stack is its arena and nothing else.
-/

namespace XgmacDriver

variable {σ : Type}

/-- The stack is an arena, seen by `arena` in the state of the collaborators. It may refuse to hand
out a buffer, and it may hand out a descriptor without a payload. -/
structure ArenaStack (c : Collaborators σ) (arena : σ → Arena) : Prop where
  getBuffer_none : ∀ {wanted block w w'}, c.getBuffer wanted block w = (none, w') →
    arena w' = arena w ∨ (arena w).take wanted = (none, arena w')
  getBuffer_some : ∀ {wanted block w w' buffer},
    c.getBuffer wanted block w = (some buffer, w') →
      ∃ taken, (arena w).take wanted = (some taken, arena w') ∧ buffer.index = taken.index ∧
        (buffer.payload = taken.payload ∨ buffer.payload = none)
  releaseBuffer : ∀ {i w w' accepted}, c.releaseBuffer i w = (accepted, w') →
    (arena w).give i = (accepted, arena w')
  lookup : ∀ {a w w' answer}, c.lookup a w = (answer, w') →
    answer = (arena w).lookup a ∧ arena w' = arena w
  command : ∀ {clock k w w' answer}, c.command clock k w = (answer, w') → arena w' = arena w
  considerFrame : ∀ {bytes w w' verdict}, c.considerFrame bytes w = (verdict, w') →
    arena w' = arena w
  matchEndpoint : ∀ {i bytes w w' answer}, c.matchEndpoint i bytes w = (answer, w') →
    arena w' = arena w
  sendRxEvent : ∀ {frames timeout w w' taken}, c.sendRxEvent frames timeout w = (taken, w') →
    arena w' = arena w

def regionStart : Addr := ⟨dmaAlignment, by decide⟩

/-- A world that consists of the arena. The engine gives every command the same answer, and so does
the stack to every event. -/
def Collaborators.ofArena (answer : Except EngineStatus Unit) (taken : Bool) :
    Collaborators Arena where
  openEmac _ a := (true, a)
  command _ _ a := (answer, a)
  discovered _ phy := phy
  negotiated _ phy := phy
  readPhy _ _ a := (linkBit, a)
  rxDescriptors a := a.slots
  getBuffer wanted _ a := a.take wanted
  releaseBuffer i a := a.give i
  considerFrame _ a := (.process, a)
  matchEndpoint _ _ a := (none, a)
  lookup p a := (a.lookup p, a)
  sendRxEvent _ _ a := (taken, a)
  spawn _ a := (some 1, a)
  duringWait _ a := ([], a)
  allocate _ _ _ := some regionStart
  lock _ _ := .free

theorem arenaStack_ofArena (answer : Except EngineStatus Unit) (taken : Bool) :
    ArenaStack (.ofArena answer taken) id where
  getBuffer_none h := Or.inr h
  getBuffer_some h := ⟨_, h, rfl, Or.inl rfl⟩
  releaseBuffer h := h
  lookup h := by cases h; exact ⟨rfl, rfl⟩
  command h := by cases h; rfl
  considerFrame h := by cases h; rfl
  matchEndpoint h := by cases h; rfl
  sendRxEvent h := by cases h; rfl

end XgmacDriver
