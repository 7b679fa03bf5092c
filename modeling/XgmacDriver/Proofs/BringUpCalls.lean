import XgmacDriver.Proofs.BlindViews
import XgmacDriver.Proofs.BringUpRule

/-! # The calls of bring-up

What bring-up asks of the engine and of the scheduler follows a script: the commands that set the
engine up, then reads of the link status, then the creation of the task. `InOrder` describes the
calls on one engine, wherever in the script they stop. Each step of bring-up adds the next call of
the script or none.
-/

namespace XgmacDriver

variable {σ : Type}

namespace Exchange

/-- Whether this is a call of the engine or of the scheduler, the opening of an engine included. -/
def isCall : Exchange → Bool
  | openEmac .. | command .. | nextReceived _ | nextTransmitted _ | readPhy .. | spawn .. => true
  | _ => false

def isOpening : Exchange → Bool
  | openEmac .. => true
  | _ => false

/-- A read of the link status that found the link as given. -/
def ReadsLink (up : Bool) (x : Exchange) : Prop :=
  ∃ phy status, x = readPhy phy phyStatusRegister status ∧ linkUp status = up

end Exchange

def Machine.calls (m : Machine σ) : List Exchange := m.trace.toList.filter Exchange.isCall

/-- The operations that set up an engine with `n` receive descriptors, in their order. -/
def setupScript (n : Nat) : List String :=
  ["set_callback", "phy_discover", "phy_initialize", "dma_initialize"] ++
    List.replicate n "refill_rx_descriptor" ++ ["cfg_speed_mode", "emac_start"]

def Accepted (operations : List String) (es : List Exchange) : Prop :=
  ∃ ks : List Command, ks.map Command.operation = operations ∧
    es = ks.map fun k => .command k (.ok ())

/-- All were accepted but the last one. -/
def Refused (operations : List String) (es : List Exchange) : Prop :=
  ∃ before k status accepted, before ++ [k.operation] = operations ∧ Accepted before accepted ∧
    es = accepted ++ [.command k (.error status)]

/-- The setting up of an engine with `n` receive descriptors, wherever it stopped. -/
def SettingUp (n : Nat) (es : List Exchange) : Prop :=
  ∃ operations, operations <+: setupScript n ∧ (Accepted operations es ∨ Refused operations es)

def LinkDown (es : List Exchange) : Prop := ∀ x ∈ es, x.ReadsLink false

/-- Reads of the link status of which only the last one finds the link up, then one attempt to
create the task. -/
def Linked (es : List Exchange) : Prop :=
  ∃ down up spec answer, LinkDown down ∧ up.ReadsLink true ∧
    es = down ++ [up, .spawn spec answer]

/-- The calls on one engine with `n` receive descriptors. -/
inductive InOrder (n : Nat) : List Exchange → Prop
  | settingUp {es : List Exchange} : SettingUp n es → InOrder n es
  | polling {commands polls : List Exchange} : Accepted (setupScript n) commands →
      LinkDown polls ∨ Linked polls → InOrder n (commands ++ polls)

variable {operations : List String} {es es' : List Exchange}

theorem Accepted.command (h : Accepted operations es) (k : Command) :
    Accepted (operations ++ [k.operation]) (es ++ [.command k (.ok ())]) := by
  obtain ⟨ks, rfl, rfl⟩ := h
  exact ⟨ks ++ [k], by simp, by simp⟩

theorem Accepted.refused (h : Accepted operations es) (k : Command) (status : EngineStatus) :
    Refused (operations ++ [k.operation]) (es ++ [.command k (.error status)]) :=
  ⟨operations, k, status, es, rfl, h, rfl⟩

theorem linkDown_nil : LinkDown [] := fun _ hx => absurd hx List.not_mem_nil

theorem LinkDown.append (h : LinkDown es) (h' : LinkDown es') : LinkDown (es ++ es') := by
  intro x hx
  rcases List.mem_append.mp hx with hx | hx
  · exact h x hx
  · exact h' x hx

theorem LinkDown.append_linked (h : LinkDown es) (h' : Linked es') : Linked (es ++ es') := by
  obtain ⟨down, up, spec, answer, hdown, hup, rfl⟩ := h'
  exact ⟨es ++ down, up, spec, answer, h.append hdown, hup, by rw [List.append_assoc]⟩

theorem Accepted.not_isOpening (h : Accepted operations es) : ∀ x ∈ es, x.isOpening = false := by
  obtain ⟨ks, -, rfl⟩ := h
  intro x hx
  obtain ⟨k, -, rfl⟩ := List.mem_map.mp hx
  rfl

theorem SettingUp.not_isOpening {n : Nat} (h : SettingUp n es) :
    ∀ x ∈ es, x.isOpening = false := by
  obtain ⟨operations, -, haccepted | ⟨before, k, status, accepted, -, haccepted, rfl⟩⟩ := h
  · exact haccepted.not_isOpening
  · intro x hx
    rcases List.mem_append.mp hx with hx | hx
    · exact haccepted.not_isOpening x hx
    · obtain rfl := List.mem_singleton.mp hx
      rfl

theorem LinkDown.not_isOpening (h : LinkDown es) : ∀ x ∈ es, x.isOpening = false := by
  intro x hx
  obtain ⟨phy, status, rfl, -⟩ := h x hx
  rfl

theorem Linked.not_isOpening (h : Linked es) : ∀ x ∈ es, x.isOpening = false := by
  obtain ⟨down, up, spec, answer, hdown, ⟨phy, status, rfl, -⟩, rfl⟩ := h
  intro x hx
  simp only [List.mem_append, List.mem_cons, List.not_mem_nil, or_false] at hx
  rcases hx with hx | rfl | rfl
  · exact hdown.not_isOpening x hx
  · rfl
  · rfl

theorem InOrder.not_isOpening {n : Nat} (h : InOrder n es) : ∀ x ∈ es, x.isOpening = false := by
  cases h with
  | settingUp hes => exact hes.not_isOpening
  | polling hcommands hpolls =>
      intro x hx
      rcases List.mem_append.mp hx with hx | hx
      · exact hcommands.not_isOpening x hx
      · exact hpolls.elim (·.not_isOpening x hx) (·.not_isOpening x hx)

/-! ## What a step adds -/

structure BringUpView where
  stage : Stage
  engineOpen : Bool
  task : Option UInt32
  calls : List Exchange

def Machine.bringUp (m : Machine σ) : BringUpView where
  stage := m.interface.stage
  engineOpen := m.interface.engineOpen
  task := m.interface.task
  calls := m.calls

/-- `P` holds of the calls that were made after `before`. -/
def Added (before : List Exchange) (P : List Exchange → Prop) (calls : List Exchange) : Prop :=
  ∃ es, calls = before ++ es ∧ P es

/-- A call of `initialise` that began at stage `start` is on its way, and `P` holds of what it has
called after `before`. -/
structure BringUpView.Making (start : Stage) (before : List Exchange)
    (P : List Exchange → Prop) (v : BringUpView) : Prop where
  stage : v.stage = start
  engineOpen : v.engineOpen = true
  task : v.task = none
  calls : Added before P v.calls

def Making (start : Stage) (before : List Exchange) (P : List Exchange → Prop) (m : Machine σ) :
    Prop :=
  m.bringUp.Making start before P

variable {start : Stage} {before : List Exchange} {P Q : List Exchange → Prop}
  {c : Collaborators σ}

theorem Added.mono {calls : List Exchange} (h : Added before P calls) (hP : ∀ es, P es → Q es) :
    Added before Q calls := by
  obtain ⟨es, hcalls, hes⟩ := h
  exact ⟨es, hcalls, hP es hes⟩

theorem Making.mono {m : Machine σ} (h : Making start before P m) (hP : ∀ es, P es → Q es) :
    Making start before Q m :=
  { h with calls := h.calls.mono hP }

theorem Machine.calls_push {m m' : Machine σ} {x : Exchange} (hm : m'.trace = m.trace.push x) :
    m'.calls = m.calls ++ if x.isCall then [x] else [] := by
  simp only [Machine.calls, hm, Array.toList_push, List.filter_append]
  cases hx : x.isCall <;> simp [hx]

theorem Making.call {m m' : Machine σ} {x : Exchange} (h : Making start before P m)
    (htrace : m'.trace = m.trace.push x) (hinterface : m'.interface = m.interface)
    (hx : x.isCall = true) (hP : ∀ es, P es → Q (es ++ [x])) : Making start before Q m' := by
  obtain ⟨es, hcalls, hes⟩ := h.calls
  refine ⟨?_, ?_, ?_, es ++ [x], ?_, hP es hes⟩
  · exact (congrArg Interface.stage hinterface).trans h.stage
  · exact (congrArg Interface.engineOpen hinterface).trans h.engineOpen
  · exact (congrArg Interface.task hinterface).trans h.task
  · have hm : m.calls = before ++ es := hcalls
    show m'.calls = before ++ (es ++ [x])
    rw [Machine.calls_push htrace, if_pos hx, hm, List.append_assoc]

theorem Machine.blind_bringUp :
    Blind (fun x => x.isCall = false) (bringUp : Machine σ → BringUpView) where
  congr := by
    rintro m ⟨⟩ rfl rfl rfl
    rfl
  push m x hx := by
    have hcalls : calls { m with trace := m.trace.push x } = m.calls := by
      rw [calls_push rfl, hx]
      exact List.append_nil _
    simp only [bringUp, hcalls]

open Machine

namespace Driver

theorem keepsBringUp_latchLink (status : UInt32) :
    Keeps bringUp (latchLink status : Driver σ Unit) :=
  fun _ => rfl

theorem keepsBringUp_getBuffer (wanted block : Nat) : Keeps bringUp (getBuffer c wanted block) :=
  blind_bringUp.ask _ _ fun _ => rfl

theorem keepsBringUp_onPool {α : Type} (d : Direction)
    (call : Pool → Lock → Clock → Memory → Pool.Reply α) :
    Keeps bringUp (onPool c d call) := by
  intro m
  cases d with
  | tx => rfl
  | rx => rfl

theorem keepsBringUp_createPool (d : Direction) : Keeps bringUp (createPool c d) := by
  intro m
  cases d with
  | tx => rfl
  | rx => rfl

theorem Keeps.making {α : Type} {x : Driver σ α} (hx : Keeps bringUp x) :
    Meets (Making start before P) x fun _ => Making start before P :=
  hx.meets (BringUpView.Making start before P)

theorem making_command (k : Command) :
    Meets (Making start before (Accepted operations)) (command c k) fun
      | .ok () => Making start before (Accepted (operations ++ [k.operation]))
      | .error _ => Making start before (Refused (operations ++ [k.operation])) := by
  refine meets_command (fun m world hm _ => ?_) fun m world status hm _ => ?_
  · exact hm.call rfl rfl rfl fun es hes => hes.command k
  · exact hm.call rfl rfl rfl fun es hes => hes.refused k status

theorem making_readLinkStatus (phy : UInt8) :
    Meets (Making start before LinkDown) (readLinkStatus c phy) fun status =>
      Making start before fun es => ∃ down x, LinkDown down ∧ x.ReadsLink (linkUp status) ∧
        es = down ++ [x] := by
  intro m hm
  exact hm.call rfl rfl rfl fun es hes => ⟨es, _, hes, ⟨phy, _, rfl, rfl⟩, rfl⟩

/-- Reads of the link status of which the last one decides. -/
def Decided (up : Bool) (es : List Exchange) : Prop :=
  if up then ∃ down x, LinkDown down ∧ x.ReadsLink true ∧ es = down ++ [x] else LinkDown es

theorem making_checkLink (phy : UInt8) (maxWait : UInt64) :
    Meets (Making start before LinkDown) (checkLink c phy maxWait) fun up =>
      Making start before (Decided up) := by
  refine meets_checkLink (making_readLinkStatus phy)
    (fun status => (keepsBringUp_latchLink status).making) (fun status m hup hm => ?_)
    (fun status hdown => ?_) (fun entry => (blind_bringUp.report entry).making)
    (fun _ hm => hm) maxWait
  · exact hm.mono fun es hes => by simpa [Decided, hup] using hes
  · refine (blind_bringUp.sleep _).making.post fun _ m hm => hm.mono ?_
    rintro es ⟨down, x, hes, hx, rfl⟩
    rw [hdown] at hx
    exact hes.append fun y hy => List.mem_singleton.mp hy ▸ hx

end Driver

end XgmacDriver
