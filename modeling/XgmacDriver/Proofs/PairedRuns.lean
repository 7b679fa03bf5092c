import XgmacDriver.Proofs.Triple
import XgmacDriver.Receive

/-! # Runs in pairs

Two machines are alike if they differ at most in when receive events went out and in whether frames
are to be batched. A collaborator that `Sees` only what they have in common answers both of them the
same, so a step that sends no event and does not ask about batching keeps them alike.
-/

namespace XgmacDriver

variable {σ τ α β γ δ : Type}

namespace Exchange

def isEvent : Exchange → Bool
  | rxEvent .. => true
  | _ => false

/-- Whether this is a read of the receive ring or an event. -/
def isArrival : Exchange → Bool
  | nextReceived _ | rxEvent .. => true
  | _ => false

def event : Exchange → Option (List RxFrame)
  | rxEvent _ deliveries _ => some (deliveries.map (·.frame))
  | _ => none

end Exchange

namespace Machine

def others (m : Machine σ) : List Exchange := m.trace.toList.filter fun x => !x.isEvent

def arrivals (m : Machine σ) : List Exchange := m.trace.toList.filter Exchange.isArrival

def events (m : Machine σ) : List (List RxFrame) := m.trace.toList.filterMap Exchange.event

variable {m m' : Machine σ} {x : Exchange}

theorem others_push (h : m'.trace = m.trace.push x) :
    m'.others = m.others ++ if x.isEvent then [] else [x] := by
  simp only [others, h, Array.toList_push, List.filter_append]
  cases hx : x.isEvent <;> simp [hx]

theorem arrivals_push (h : m'.trace = m.trace.push x) :
    m'.arrivals = m.arrivals ++ if x.isArrival then [x] else [] := by
  simp only [arrivals, h, Array.toList_push, List.filter_append]
  cases hx : x.isArrival <;> simp [hx]

theorem events_push (h : m'.trace = m.trace.push x) :
    m'.events = m.events ++ x.event.toList := by
  simp only [events, h, Array.toList_push, List.filterMap_append]
  cases hx : x.event <;> simp [hx]

theorem events_eq (m : Machine σ) : m.events = m.arrivals.filterMap Exchange.event := by
  rw [events, arrivals, List.filterMap_filter]
  congr 1
  funext x
  cases x <;> rfl

end Machine

/-- The interface, set to deliver frames one by one. -/
def Interface.single (i : Interface) : Interface :=
  { i with config := { i.config with linkedRx := false } }

/-- The answer and what can be seen of the world afterwards depend on what could be seen before. -/
def Sees (view : σ → τ) (ask : σ → α × σ) : Prop :=
  ∀ w w', view w = view w' → (ask w).1 = (ask w').1 ∧ view (ask w).2 = view (ask w').2

structure Alike (view : σ → τ) (m m' : Machine σ) : Prop where
  interface : m.interface.single = m'.interface.single
  engine : m.engine = m'.engine
  clock : m.clock = m'.clock
  memory : m.memory = m'.memory
  others : m.others = m'.others
  log : m.log = m'.log
  world : view m.world = view m'.world

theorem Alike.symm {view : σ → τ} {m m' : Machine σ} (h : Alike view m m') : Alike view m' m :=
  ⟨h.interface.symm, h.engine.symm, h.clock.symm, h.memory.symm, h.others.symm, h.log.symm,
    h.world.symm⟩

namespace Driver

variable {view : σ → τ}

/-- Run on two machines with `R`, the two steps end with results and machines that satisfy `Q`. -/
def Pairs (R : Machine σ → Machine σ → Prop) (x : Driver σ α) (y : Driver σ β)
    (Q : α → β → Machine σ → Machine σ → Prop) : Prop :=
  ∀ m m', R m m' → Q (x.run m).1 (y.run m').1 (x.run m).2 (y.run m').2

theorem Pairs.bind {R : Machine σ → Machine σ → Prop} {x : Driver σ α} {y : Driver σ β}
    {S : α → β → Machine σ → Machine σ → Prop} {f : α → Driver σ γ} {g : β → Driver σ δ}
    {Q : γ → δ → Machine σ → Machine σ → Prop} (hx : Pairs R x y S)
    (hf : ∀ a b, Pairs (S a b) (f a) (g b) Q) : Pairs R (x >>= f) (y >>= g) Q := by
  intro m m' hm
  exact hf _ _ _ _ (hx m m' hm)

theorem pairs_pure {R : Machine σ → Machine σ → Prop} {Q : α → β → Machine σ → Machine σ → Prop}
    {a : α} {b : β} (h : ∀ m m', R m m' → Q a b m m') :
    Pairs R (pure a : Driver σ α) (pure b : Driver σ β) Q := h

theorem Pairs.bind_same {R : Machine σ → Machine σ → Prop} {x : Driver σ α}
    {S : α → Machine σ → Machine σ → Prop} {f : α → Driver σ β} {g : α → Driver σ γ}
    {Q : β → γ → Machine σ → Machine σ → Prop}
    (hx : Pairs R x x fun a b m m' => a = b ∧ S a m m')
    (hf : ∀ a, Pairs (S a) (f a) (g a) Q) : Pairs R (x >>= f) (x >>= g) Q := by
  refine hx.bind fun a b => ?_
  rintro m m' ⟨rfl, hm⟩
  exact hf a m m' hm

/-- What only reads of the receive ring and events change, and whether frames are batched. -/
structure ArrivalView where
  linked : Bool
  completed : List RxCompletion
  arrivals : List Exchange

def arrivalView (m : Machine σ) : ArrivalView where
  linked := m.interface.config.linkedRx
  completed := m.engine.completed
  arrivals := m.arrivals

/-- A step by which machines that are alike cannot be told apart, and which neither reads the
receive ring nor sends an event. -/
structure Aside (view : σ → τ) (x : Driver σ α) : Prop where
  same : Pairs (Alike view) x x fun a b m m' => a = b ∧ Alike view m m'
  keeps : Keeps arrivalView x

theorem aside_pure (a : α) : Aside view (pure a : Driver σ α) :=
  ⟨pairs_pure fun _ _ hm => ⟨rfl, hm⟩, keeps_pure a⟩

theorem Aside.bind {x : Driver σ α} {f : α → Driver σ β} (hx : Aside view x)
    (hf : ∀ a, Aside view (f a)) : Aside view (x >>= f) where
  same := hx.same.bind_same fun a => (hf a).same
  keeps := hx.keeps.bind fun a => (hf a).keeps

theorem Aside.ite {p : Prop} [Decidable p] {x y : Driver σ α}
    (hx : Aside view x) (hy : Aside view y) : Aside view (if p then x else y) := by
  by_cases h : p
  · rwa [if_pos h]
  · rwa [if_neg h]

/-- What is read off the machine must not tell machines apart that are alike. -/
theorem aside_read {f : α → Driver σ β} (read : Machine σ → α)
    (hread : ∀ m m', Alike view m m' → f (read m) = f (read m')) (hf : ∀ a, Aside view (f a)) :
    Aside view (get >>= fun m => f (read m)) where
  same := by
    intro m m' hm
    show ((f (read m)).run m).1 = ((f (read m')).run m').1 ∧
      Alike view ((f (read m)).run m).2 ((f (read m')).run m').2
    rw [hread m m' hm]
    exact (hf (read m')).same m m' hm
  keeps m := (hf (read m)).keeps m

theorem aside_interface {f : Interface → Driver σ β} (hsingle : ∀ i, f i = f i.single)
    (hf : ∀ i, Aside view (f i)) : Aside view (interface >>= f) := by
  refine aside_read (·.interface) (fun m m' hm => ?_) hf
  rw [hsingle, hm.interface, ← hsingle]

theorem aside_config {f : Config → Driver σ β}
    (hsingle : ∀ config, f config = f { config with linkedRx := false })
    (hf : ∀ config, Aside view (f config)) : Aside view (config >>= f) := by
  refine aside_read (·.interface.config) (fun m m' hm => ?_) hf
  have hconfig := congrArg Interface.config hm.interface
  rw [hsingle, hsingle m'.interface.config]
  exact congrArg f hconfig

theorem aside_consult {ask : σ → α × σ} (h : Sees view ask) : Aside view (consult ask) where
  same := by
    intro m m' hm
    obtain ⟨hanswer, hworld⟩ := h m.world m'.world hm.world
    exact ⟨hanswer, { hm with world := hworld }⟩
  keeps _ := rfl

theorem aside_record {x : Exchange} (hx : x.isArrival = false) : Aside view (record x) where
  same := by
    intro m m' hm
    have hpush : ∀ m : Machine σ, ((record x).run m).2.others = m.others ++
        if x.isEvent then [] else [x] := fun m => Machine.others_push rfl
    refine ⟨rfl, { hm with others := ?_ }⟩
    show ((record x).run m).2.others = ((record x).run m').2.others
    rw [hpush, hpush, hm.others]
  keeps m := by
    have harrivals : ((record x).run m).2.arrivals = m.arrivals := by
      rw [Machine.arrivals_push (m := m) rfl, hx, if_neg Bool.false_ne_true, List.append_nil]
    exact congrArg (ArrivalView.mk _ _) harrivals

theorem aside_report (entry : LogEntry) : Aside view (report entry : Driver σ Unit) where
  same _ _ hm := ⟨rfl, { hm with log := congrArg (·.push entry) hm.log }⟩
  keeps _ := rfl

theorem aside_readMemory (a : Addr) (n : Nat) :
    Aside view (readMemory a n : Driver σ (List UInt8)) where
  same _ _ hm := ⟨congrArg (Memory.read · a n) hm.memory, hm⟩
  keeps _ := rfl

theorem aside_copyMemory (src dst : Addr) (n : Nat) :
    Aside view (copyMemory src dst n : Driver σ Unit) where
  same _ _ hm := ⟨rfl, { hm with memory := congrArg (Memory.copy · src dst n) hm.memory }⟩
  keeps _ := rfl

theorem aside_accept (k : Command) : Aside view (modifyEngine (·.accept k) : Driver σ Unit) where
  same _ _ hm := ⟨rfl, { hm with engine := congrArg (·.accept k) hm.engine }⟩
  keeps _ := by
    cases k <;> rfl

section

variable {c : Collaborators σ}

theorem aside_getBuffer {wanted block : Nat} (h : Sees view (c.getBuffer wanted block)) :
    Aside view (getBuffer c wanted block) :=
  (aside_consult h).bind fun _ => (aside_record rfl).bind fun _ => aside_pure _

theorem aside_releaseBuffer {index : UInt16} (h : Sees view (c.releaseBuffer index)) :
    Aside view (releaseBuffer c index) :=
  (aside_consult h).bind fun _ => aside_record rfl

theorem aside_considerFrame {bytes : List UInt8} (h : Sees view (c.considerFrame bytes)) :
    Aside view (considerFrame c bytes) :=
  (aside_consult h).bind fun _ => (aside_record rfl).bind fun _ => aside_pure _

theorem aside_matchEndpoint {bytes : List UInt8}
    (h : ∀ index, Sees view (c.matchEndpoint index bytes)) : Aside view (matchEndpoint c bytes) :=
  aside_interface (fun _ => rfl) fun i => (aside_consult (h i.index)).bind fun _ =>
    (aside_record rfl).bind fun _ => aside_pure _

theorem aside_lookup {a : Addr} (h : Sees view (c.lookup a)) : Aside view (lookup c a) :=
  (aside_consult h).bind fun _ => (aside_record rfl).bind fun _ => aside_pure _

theorem aside_command {k : Command} (h : ∀ clock, Sees view (c.command clock k)) :
    Aside view (command c k) := by
  refine aside_read (f := fun clock => do
      let answer ← consult (c.command clock k)
      record (.command k answer)
      if answer.isOk then modifyEngine (·.accept k)
      return answer) (·.clock) (fun m m' hm => ?_) fun clock => ?_
  · rw [hm.clock]
  · refine (aside_consult (h clock)).bind fun answer => (aside_record rfl).bind fun _ => ?_
    exact Aside.ite ((aside_accept k).bind fun _ => aside_pure _) (aside_pure _)

theorem aside_onPool {d : Direction} {call : Pool → Lock → Clock → Memory → Pool.Reply α}
    (h : ∀ w w', view w = view w' → c.lock d w = c.lock d w') : Aside view (onPool c d call) where
  same := by
    intro m m' hm
    have hpool : m.interface.pool d = m'.interface.pool d := by
      have hpools := congrArg (Interface.pool · d) hm.interface
      cases d <;> exact hpools
    have hreply : call (m.interface.pool d) (c.lock d m.world) m.clock m.memory =
        call (m'.interface.pool d) (c.lock d m'.world) m'.clock m'.memory := by
      rw [hpool, h _ _ hm.world, hm.clock, hm.memory]
    rw [run_onPool, run_onPool, hreply]
    refine ⟨rfl, { hm with interface := ?_, clock := rfl, memory := rfl, log := ?_ }⟩
    · have hset := congrArg (Interface.setPool · (call (m'.interface.pool d) (c.lock d m'.world)
        m'.clock m'.memory).pool d) hm.interface
      cases d <;> exact hset
    · exact congrArg (· ++ _) hm.log
  keeps m := by
    cases d <;> rfl

end

end Driver

end XgmacDriver
