import XgmacDriver.Proofs.PoolAccounts
import XgmacDriver.Proofs.TransmitView

/-! # The books of transmission

With copying, three parties keep count of the frames in flight: the pool by its slots in use, the
engine by its queues and the notifier by its counter. `Books` says that they agree, up to slots that
the driver has in hand and completions that it has already taken off the counter. `Standing` says
what bring-up has achieved. Both are known to hold as long as no frame is submitted before the
interface is ready, which is the condition of `Ledger`.
-/

namespace XgmacDriver.TxView

def buffersOf (answers : List TxAnswer) : List Addr :=
  answers.filterMap fun
    | .ok buf => buf
    | .error _ => none

@[simp] theorem buffersOf_map_ok (as : List Addr) :
    buffersOf (as.map fun a => .ok (some a)) = as := by
  simp [buffersOf, List.filterMap_map]

@[simp] theorem buffersOf_append (answers answers' : List TxAnswer) :
    buffersOf (answers ++ answers') = buffersOf answers ++ buffersOf answers' :=
  List.filterMap_append

theorem buffersOf_cons (answer : TxAnswer) (rest : List TxAnswer) :
    buffersOf (answer :: rest) = buffersOf [answer] ++ buffersOf rest :=
  buffersOf_append [answer] rest

/-- The buffers of completed frames that the driver has not asked for. -/
def waiting (v : TxView) : List Addr := buffersOf v.done

def inFlight (v : TxView) : List Addr := v.outstanding ++ v.waiting

structure Books (hand : List Addr) (debt : Nat) (v : TxView) : Prop where
  copying : v.zeroCopy = false
  max_eq : v.completions.max = poolSlots
  capacity_eq : v.pool.capacity = poolSlots
  slotSize_eq : v.pool.slotSize = maxPacketSize
  slots : v.pool.isInitialized = true → ∃ base, v.pool.Accounts base (v.inFlight ++ hand)
  vacant : v.pool.isInitialized = false → v.inFlight ++ hand = []
  flow : v.submitted.Perm (v.handedBack ++ v.inFlight)
  done_eq : v.done = v.waiting.map fun a => .ok (some a)
  count_eq : v.completions.count + debt = v.done.length

/-- What holds once bring-up has got past the stages before `s`. -/
structure Passed (s : Stage) (v : TxView) : Prop where
  opened : s.entry.remaining < 5 → v.engineOpen = true ∧ v.callback = true
  pooled : s.entry.remaining < 3 → v.pool.isInitialized = true
  spawned : s.entry.remaining = 0 → v.armed = true

theorem Passed.of_le {s t : Stage} {v : TxView} (h : v.Passed s)
    (hopened : t.entry.remaining < 5 → s.entry.remaining < 5)
    (hpooled : t.entry.remaining < 3 → s.entry.remaining < 3)
    (hspawned : t.entry.remaining = 0 → s.entry.remaining = 0) : v.Passed t where
  opened ht := h.opened (hopened ht)
  pooled ht := h.pooled (hpooled ht)
  spawned ht := h.spawned (hspawned ht)

theorem Passed.entry {s : Stage} {v : TxView} (h : v.Passed s) : v.Passed s.entry := by
  have hentry : s.entry.entry = s.entry := by cases s <;> rfl
  exact h.of_le (by rw [hentry]; exact id) (by rw [hentry]; exact id) (by rw [hentry]; exact id)

theorem passed_engineInit (v : TxView) : v.Passed .engineInit :=
  ⟨fun hs => absurd hs (by decide), fun hs => absurd hs (by decide),
    fun hs => absurd hs (by decide)⟩

structure Standing (reached : Stage) (v : TxView) : Prop where
  reached : v.Passed reached
  stage : v.Passed v.stage
  armed : v.task.isSome = true → v.armed = true

/-- An interface that is brought up has got to a stage and must not have sent anything yet, one that
runs is ready. -/
inductive Phase
  | bringUp (reached : Stage)
  | running

def Phase.reached : Phase → Stage
  | bringUp reached => reached
  | running => .ready

def Ledger (phase : Phase) (p : TxView → Prop) (v : TxView) : Prop :=
  phase = .running ∨ v.submitted = [] → v.Standing phase.reached ∧ p v

variable {v v' : TxView} {phase : Phase} {reached : Stage} {p p' : TxView → Prop}
  {hand : List Addr} {debt : Nat} {a : Addr}

theorem Ledger.mono (h : v.Ledger phase p) (hp : v.Standing phase.reached → p v → p' v) :
    v.Ledger phase p' := by
  intro hquiet
  obtain ⟨hstanding, hv⟩ := h hquiet
  exact ⟨hstanding, hp hstanding hv⟩

theorem Ledger.step (h : v.Ledger phase p) (hsubmitted : v'.submitted = v.submitted)
    (hstep : v.Standing phase.reached → p v → v'.Standing phase.reached ∧ p' v') :
    v'.Ledger phase p' := by
  intro hquiet
  rw [hsubmitted] at hquiet
  obtain ⟨hstanding, hv⟩ := h hquiet
  exact hstep hstanding hv

theorem Passed.mono {s : Stage} (h : v.Passed s)
    (hopen : v.engineOpen = true → v'.engineOpen = true)
    (hcallback : v.callback = true → v'.callback = true)
    (hpool : v.pool.isInitialized = true → v'.pool.isInitialized = true)
    (harmed : v.armed = true → v'.armed = true) : v'.Passed s where
  opened hs := ⟨hopen (h.opened hs).1, hcallback (h.opened hs).2⟩
  pooled hs := hpool (h.pooled hs)
  spawned hs := harmed (h.spawned hs)

theorem Standing.mono (h : v.Standing reached) (hstage : v'.stage = v.stage)
    (htask : v'.task = v.task) (hopen : v.engineOpen = true → v'.engineOpen = true)
    (hcallback : v.callback = true → v'.callback = true)
    (hpool : v.pool.isInitialized = true → v'.pool.isInitialized = true)
    (harmed : v.armed = true → v'.armed = true) : v'.Standing reached where
  reached := h.reached.mono hopen hcallback hpool harmed
  stage := hstage ▸ h.stage.mono hopen hcallback hpool harmed
  armed hs := harmed (h.armed (htask ▸ hs))

theorem Standing.setPool {pool : Pool} (h : v.Standing reached)
    (hpool : v.pool.isInitialized = true → pool.isInitialized = true) :
    Standing reached { v with pool } :=
  h.mono rfl rfl id id hpool id

namespace Books

theorem length_le (h : v.Books hand debt) : (v.inFlight ++ hand).length ≤ poolSlots := by
  cases hpool : v.pool.isInitialized with
  | true =>
      obtain ⟨base, haccounts⟩ := h.slots hpool
      exact h.capacity_eq ▸ haccounts.length_le
  | false => simp [h.vacant hpool]

theorem nodup (h : v.Books hand debt) : (v.inFlight ++ hand).Nodup := by
  cases hpool : v.pool.isInitialized with
  | true =>
      obtain ⟨base, haccounts⟩ := h.slots hpool
      exact haccounts.nodup
  | false => simp [h.vacant hpool]

theorem length_waiting (h : v.Books hand debt) : v.waiting.length = v.done.length := by
  rw [h.done_eq, List.length_map]

theorem setPool {pool : Pool} {hand' : List Addr} (base : Addr) (h : v.Books hand debt)
    (hcapacity : pool.capacity = v.pool.capacity) (hsize : pool.slotSize = v.pool.slotSize)
    (haccounts : pool.Accounts base (v.inFlight ++ hand')) :
    Books hand' debt { v with pool } where
  copying := h.copying
  max_eq := h.max_eq
  capacity_eq := hcapacity.trans h.capacity_eq
  slotSize_eq := hsize.trans h.slotSize_eq
  slots _ := ⟨base, haccounts⟩
  vacant hpool := absurd (haccounts.isInitialized.symm.trans hpool) nofun
  flow := h.flow
  done_eq := h.done_eq
  count_eq := h.count_eq

theorem create {allocate : Nat → Option Addr} (h : v.Books [] debt)
    (hvacant : v.pool.isInitialized = false) :
    Books [] debt { v with pool := (v.pool.create allocate).2 } := by
  have hcapacity := Pool.capacity_create v.pool allocate
  have hsize := Pool.slotSize_create v.pool allocate
  have hflight := h.vacant hvacant
  cases hresult : (v.pool.create allocate).1 with
  | ok =>
      obtain ⟨base, haccounts⟩ := Pool.accounts_create hvacant
        (by rw [h.slotSize_eq]; decide) (by rw [h.capacity_eq]; decide) hresult
      exact h.setPool base hcapacity hsize (by rw [hflight]; exact haccounts)
  | error f =>
      have hvacant' := Pool.not_isInitialized_of_create_error hresult
      exact {
        h with
        capacity_eq := hcapacity.trans h.capacity_eq
        slotSize_eq := hsize.trans h.slotSize_eq
        slots := fun hpool => absurd (hvacant'.symm.trans hpool) nofun
        vacant := fun _ => hflight }

theorem acquire {clock : Clock} {memory : Memory} {reply : Pool.Reply Addr}
    (h : v.Books [] debt) (hreply : v.pool.acquire maxPacketSize .free clock memory = reply) :
    (v.pool.isInitialized = true → reply.pool.isInitialized = true) ∧
      match reply.result with
      | .ok a => Books [a] debt { v with pool := reply.pool }
      | .error _ => Books [] debt { v with pool := reply.pool } := by
  have hfits : maxPacketSize ≤ v.pool.slotSize := h.slotSize_eq ▸ Nat.le_refl _
  cases hpool : v.pool.isInitialized with
  | false =>
      rw [Pool.acquire, if_neg (Nat.not_lt.mpr hfits), if_pos (by simp [hpool])] at hreply
      subst hreply
      exact ⟨fun hready => absurd hready Bool.false_ne_true, h⟩
  | true =>
      obtain ⟨base, haccounts⟩ := h.slots hpool
      rcases Nat.lt_or_eq_of_le haccounts.length_le with hleft | hfull
      · obtain ⟨a, ring, hacquire, hcapacity, -, hnext⟩ :=
          haccounts.acquire clock memory maxPacketSize hfits hleft
        rw [hacquire] at hreply
        subst hreply
        refine ⟨fun _ => hnext.isInitialized, h.setPool base hcapacity rfl (hnext.congr ?_)⟩
        rw [List.append_nil]
        exact (List.perm_append_singleton a v.inFlight).symm
      · rw [haccounts.acquire_exhausted clock memory maxPacketSize hfits hfull] at hreply
        subst hreply
        exact ⟨fun _ => hpool, h⟩

theorem release (clock : Clock) (memory : Memory) (h : v.Books [a] debt) :
    ∃ ring, v.pool.release a .free clock memory =
        ⟨.ok (), { v.pool with ring }, memory.fill a v.pool.slotSize 0, clock, []⟩ ∧
      ring.queue = v.pool.ring.queue ++ [a] ∧
      Books [] debt { v with pool := { v.pool with ring } } := by
  cases hpool : v.pool.isInitialized with
  | false => exact absurd (h.vacant hpool) (by simp)
  | true =>
      obtain ⟨base, haccounts⟩ := h.slots hpool
      have hslot : v.pool.Accounts base (a :: v.inFlight) :=
        haccounts.congr (List.perm_append_singleton a v.inFlight)
      obtain ⟨ring, hrelease, hcapacity, hqueue, hrest⟩ := hslot.release clock memory
      refine ⟨ring, hrelease, hqueue, h.setPool base hcapacity rfl ?_⟩
      rw [List.append_nil]
      exact hrest

theorem submit (h : v.Books [a] debt) : Books [] debt
    { v with outstanding := v.outstanding ++ [a], submitted := v.submitted ++ [a] } := by
  have hflight : (v.inFlight ++ [a]).Perm ((v.outstanding ++ [a]) ++ v.waiting ++ []) := by
    rw [inFlight, List.append_nil, List.append_assoc, List.append_assoc]
    exact List.perm_append_comm.append_left _
  refine ⟨h.copying, h.max_eq, h.capacity_eq, h.slotSize_eq, ?_, ?_, ?_, h.done_eq, h.count_eq⟩
  · intro hpool
    obtain ⟨base, haccounts⟩ := h.slots hpool
    exact ⟨base, haccounts.congr hflight⟩
  · intro hpool
    exact absurd (h.vacant hpool) (by simp)
  · have hflow := h.flow.append_right [a]
    rw [List.append_assoc] at hflow
    refine hflow.trans (List.Perm.append_left _ ?_)
    simpa [inFlight, waiting] using hflight

/-- One completion is taken off the counter before the engine is asked for it. -/
theorem takeCompletion {count : Nat} (h : v.Books hand 0)
    (hcount : v.completions.count = count + 1) :
    Books hand 1 { v with completions := v.completions.take.2 } ∧
      v.completions.take.2.count = count := by
  have htake : v.completions.take.2 = { v.completions with count } := by
    simp [CompletionCounter.take, hcount]
  refine ⟨⟨h.copying, ?_, h.capacity_eq, h.slotSize_eq, h.slots, h.vacant, h.flow, h.done_eq, ?_⟩,
    ?_⟩
  · rw [htake]
    exact h.max_eq
  · rw [htake]
    have hdone := h.count_eq
    simp only [hcount] at hdone
    exact hdone
  · rw [htake]

/-- The engine has a completion for every one that was counted, and hands its buffer back. -/
theorem handBack (h : v.Books [] 1) : ∃ a rest, v.done = .ok (some a) :: rest ∧
    v.waiting = a :: buffersOf rest ∧
    Books [a] 0 { v with done := rest, handedBack := v.handedBack ++ [a] } := by
  cases hwaiting : v.waiting with
  | nil =>
      have hcount := h.count_eq
      simp [h.done_eq, hwaiting] at hcount
  | cons a ws =>
      have hdone : v.done = .ok (some a) :: ws.map fun a => .ok (some a) := by
        rw [h.done_eq, hwaiting, List.map_cons]
      have hflight : v.inFlight.Perm (v.outstanding ++ ws ++ [a]) := by
        rw [inFlight, hwaiting, List.append_assoc]
        exact (List.perm_append_singleton a ws).symm.append_left _
      refine ⟨a, _, hdone, by rw [buffersOf_map_ok], h.copying, h.max_eq, h.capacity_eq,
        h.slotSize_eq, ?_, ?_, ?_, ?_, ?_⟩
      · intro hpool
        obtain ⟨base, haccounts⟩ := h.slots hpool
        rw [List.append_nil] at haccounts
        refine ⟨base, haccounts.congr ?_⟩
        simpa [inFlight, waiting] using hflight
      · intro hpool
        have hvacant := h.vacant hpool
        simp [inFlight, hwaiting] at hvacant
      · refine h.flow.trans ?_
        simp only [inFlight, waiting, buffersOf_map_ok, List.append_assoc]
        refine List.Perm.append_left _ (hflight.trans ?_)
        exact List.perm_append_comm
      · simp only [waiting, buffersOf_map_ok]
      · have hcount := h.count_eq
        rw [hdone, List.length_cons] at hcount
        exact Nat.succ.inj hcount

/-- A frame completes, and the counter has room for it. -/
theorem sent (h : v.Books [] 0) (ha : a ∈ v.outstanding) : Books [] 0 { v with
    outstanding := v.outstanding.erase a
    done := v.done ++ [.ok (some a)]
    completions := v.completions.give.2 } := by
  have hflight : v.inFlight.Perm (v.outstanding.erase a ++ (v.waiting ++ [a])) := by
    rw [inFlight, ← List.append_assoc]
    refine ((List.perm_cons_erase ha).append_right _).trans ?_
    exact (List.perm_append_singleton a _).symm
  have hone : buffersOf [.ok (some a)] = [a] := rfl
  have hroom : v.completions.count < v.completions.max := by
    have hlength := h.length_le
    have hpos := List.length_pos_of_mem ha
    have hcount := h.count_eq
    simp only [inFlight, List.append_nil, List.length_append, h.length_waiting] at hlength
    rw [h.max_eq]
    omega
  have hgive : v.completions.give.2 = { v.completions with count := v.completions.count + 1 } := by
    simp [CompletionCounter.give, hroom]
  refine ⟨h.copying, ?_, h.capacity_eq, h.slotSize_eq, ?_, ?_, ?_, ?_, ?_⟩
  · rw [hgive]
    exact h.max_eq
  · intro hpool
    obtain ⟨base, haccounts⟩ := h.slots hpool
    rw [List.append_nil] at haccounts
    refine ⟨base, haccounts.congr ?_⟩
    simpa [inFlight, waiting, hone] using hflight
  · intro hpool
    have hvacant := h.vacant hpool
    rw [List.append_nil, inFlight, List.append_eq_nil_iff] at hvacant
    rw [hvacant.1] at ha
    cases ha
  · refine h.flow.trans (List.Perm.append_left _ ?_)
    simpa [inFlight, waiting, hone] using hflight
  · simp only [waiting, buffersOf_append, hone, List.map_append]
    rw [← waiting, ← h.done_eq]
    rfl
  · rw [hgive, List.length_append, ← h.count_eq]
    rfl

end Books

/-- Of the buffers that waited at `start` the first ones, `as`, have been handed back since, and all
of them but `hand` are in the free ring again. -/
structure Reclaiming (start : TxView) (as hand : List Addr) (v : TxView) : Prop where
  waiting : start.waiting = as ++ v.waiting
  ring : start.pool.ring.queue ++ as = v.pool.ring.queue ++ hand
  outstanding : v.outstanding = start.outstanding

theorem Reclaiming.start (v : TxView) : Reclaiming v [] [] v := ⟨rfl, rfl, rfl⟩

end XgmacDriver.TxView
