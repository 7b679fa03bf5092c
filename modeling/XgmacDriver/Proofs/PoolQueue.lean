import XgmacDriver.Proofs.PoolAccounts

/-! # A pool as a bounded queue

From its creation on a pool is a queue of at most as many buffers as it has slots. It starts with
the slots in address order, an acquired buffer is the first of the queue, and a released one becomes
the last. Nothing is assumed of who releases what: a slot may be released twice while another one is
never given back.
-/

namespace XgmacDriver

namespace Pool

variable {p : Pool} {allocate : Nat → Option Addr} {f : Failure} {e : DriverError} {wanted : Nat}
  {a : Addr} {lock : Lock} {clock : Clock} {memory : Memory}

theorem ring_create_of_error (h : (p.create allocate).1 = .error f) :
    (p.create allocate).2.ring = p.ring := by
  have hcreation := p.creation allocate
  generalize p.create allocate = r at hcreation h
  cases hcreation with
  | allocated => cases h
  | _ => rfl

theorem release_of_error (h : (p.release a lock clock memory).result = .error e) :
    (p.release a lock clock memory).pool = p ∧
      (p.release a lock clock memory).memory = memory := by
  unfold release at h ⊢
  cases hlock : lock.obtain clock with
  | mk obtained after =>
      cases obtained with
      | false => exact ⟨rfl, rfl⟩
      | true =>
          simp only [hlock] at h ⊢
          split
          · exact ⟨rfl, rfl⟩
          · rename_i hused
            rw [if_neg hused] at h
            split
            · exact ⟨rfl, rfl⟩
            · rename_i hmember
              rw [if_neg hmember] at h
              cases h

end Pool

inductive PoolCall
  | create (allocate : Nat → Option Addr)
  | acquire (wanted : Nat) (clock : Clock)
  | release (a : Addr) (clock : Clock)

/-- A pool whose lock is free, with the addresses that it has handed out and taken back so far. -/
structure PoolHistory where
  pool : Pool
  memory : Memory
  acquired : List Addr
  released : List Addr

namespace PoolHistory

def fresh (name : String) (n slotSize : Nat) (memory : Memory) : PoolHistory :=
  ⟨.new name n slotSize, memory, [], []⟩

def step (s : PoolHistory) : PoolCall → PoolHistory
  | .create allocate => { s with pool := (s.pool.create allocate).2 }
  | .acquire wanted clock =>
      let r := s.pool.acquire wanted .free clock s.memory
      { s with
        pool := r.pool
        memory := r.memory
        acquired := s.acquired ++ r.result.toOption.toList }
  | .release a clock =>
      let r := s.pool.release a .free clock s.memory
      { s with
        pool := r.pool
        memory := r.memory
        released := if r.result.isOk then s.released ++ [a] else s.released }

def run (s : PoolHistory) (calls : List PoolCall) : PoolHistory := calls.foldl step s

/-- The pool has never been created, and nothing has passed through it. -/
structure Pristine (n slotSize : Nat) (s : PoolHistory) : Prop where
  not_initialized : s.pool.isInitialized = false
  slotSize_eq : s.pool.slotSize = slotSize
  capacity_eq : s.pool.capacity = n
  used_eq : s.pool.used = 0
  acquired_eq : s.acquired = []
  released_eq : s.released = []

/-- What was acquired and what is in the queue are, one after the other, the slots and what was
released. -/
structure Queued (base : Addr) (n slotSize : Nat) (s : PoolHistory) : Prop where
  backing : s.pool.backing = .ready base
  slotSize_eq : s.pool.slotSize = slotSize
  capacity_eq : s.pool.capacity = n
  wellFormed : s.pool.ring.WellFormed
  order : s.acquired ++ s.pool.ring.queue = (s.pool.slotStarts base).toList ++ s.released

variable {base : Addr} {n slotSize : Nat} {s : PoolHistory}

theorem step_acquire_of_error {wanted : Nat} {clock : Clock} {e : DriverError}
    (h : (s.pool.acquire wanted .free clock s.memory).result = .error e) :
    s.step (.acquire wanted clock) = s := by
  obtain ⟨hpool, hmemory⟩ := Pool.acquire_of_error h
  simp [step, hpool, hmemory, h, Except.toOption]

theorem step_release_of_error {a : Addr} {clock : Clock} {e : DriverError}
    (h : (s.pool.release a .free clock s.memory).result = .error e) :
    s.step (.release a clock) = s := by
  obtain ⟨hpool, hmemory⟩ := Pool.release_of_error h
  simp [step, hpool, hmemory, h, Except.isOk, Except.toBool]

theorem pristine_fresh (name : String) (n slotSize : Nat) (memory : Memory) :
    (fresh name n slotSize memory).Pristine n slotSize :=
  ⟨rfl, rfl, Ring.capacity_vacant n, rfl, rfl, rfl⟩

namespace Queued

theorem isInitialized (h : s.Queued base n slotSize) : s.pool.isInitialized = true :=
  Pool.isInitialized_iff.mpr ⟨base, h.backing⟩

theorem toList_slotStarts (h : s.Queued base n slotSize) : (s.pool.slotStarts base).toList =
    (List.range n).map fun i => base.add (i * slotSize) := by
  rw [Pool.toList_slotStarts, h.capacity_eq, h.slotSize_eq]

theorem used_le (h : s.Queued base n slotSize) : s.pool.used ≤ n := by
  rw [← h.capacity_eq]
  exact h.wellFormed.used_le

theorem length_acquired (h : s.Queued base n slotSize) :
    s.acquired.length = s.released.length + s.pool.used := by
  have hlength := congrArg List.length h.order
  have hused := h.used_le
  have hcapacity : s.pool.ring.capacity = n := h.capacity_eq
  simp only [List.length_append, Ring.length_queue h.wellFormed, h.toList_slotStarts,
    List.length_map, List.length_range, hcapacity] at hlength
  have hring : s.pool.used = s.pool.ring.used := rfl
  omega

theorem contains_iff (h : s.Queued base n slotSize) (hsize : 0 < slotSize) {a : Addr} :
    s.pool.contains a = true ↔ a ∈ (List.range n).map fun i => base.add (i * slotSize) := by
  rw [← h.toList_slotStarts]
  exact Pool.contains_iff h.backing (h.slotSize_eq ▸ hsize)

theorem acquire_result (h : s.Queued base n slotSize) {wanted : Nat} (hfits : wanted ≤ slotSize)
    (clock : Clock) (e : DriverError) :
    (s.pool.acquire wanted .free clock s.memory).result = .error e ↔
      s.pool.used = n ∧ e = .poolExhausted := by
  have hfits : wanted ≤ s.pool.slotSize := h.slotSize_eq ▸ hfits
  rcases Nat.lt_or_eq_of_le h.used_le with hleft | hfull
  · obtain ⟨a, ring, hacquire, -⟩ := Pool.acquire_of_lt clock s.memory h.isInitialized
      h.wellFormed hfits (h.capacity_eq ▸ hleft)
    simp [hacquire, Nat.ne_of_lt hleft]
  · have hacquire := Pool.acquire_of_full clock s.memory h.isInitialized hfits
      (hfull.trans h.capacity_eq.symm)
    simp [hacquire, hfull, eq_comm]

theorem release_result (h : s.Queued base n slotSize) (hsize : 0 < slotSize) (a : Addr)
    (clock : Clock) :
    (s.pool.release a .free clock s.memory).result =
      if s.pool.used = 0 then .error .poolEmpty
      else if a ∈ (List.range n).map fun i => base.add (i * slotSize) then .ok ()
      else .error .notPoolMember := by
  by_cases hempty : s.pool.used = 0
  · have hring : s.pool.ring.used = 0 := hempty
    simp [Pool.release, hempty, hring]
  · rw [if_neg hempty]
    have hring : ¬s.pool.ring.used = 0 := hempty
    by_cases hmember : s.pool.contains a = true
    · rw [if_pos ((h.contains_iff hsize).mp hmember)]
      simp [Pool.release, hring, hmember]
    · rw [if_neg fun ha => hmember ((h.contains_iff hsize).mpr ha)]
      simp [Pool.release, hring, hmember]

/-- An acquired buffer moves from the front of the queue to the end of what was acquired. -/
theorem acquire (h : s.Queued base n slotSize) (wanted : Nat) (clock : Clock) :
    (s.step (.acquire wanted clock)).Queued base n slotSize := by
  cases hresult : (s.pool.acquire wanted .free clock s.memory).result with
  | error e =>
      rw [step_acquire_of_error hresult]
      exact h
  | ok a =>
      have hfits : wanted ≤ s.pool.slotSize := by
        by_contra hlarge
        simp [Pool.acquire, Nat.not_le.mp hlarge] at hresult
      have hleft : s.pool.used < s.pool.capacity := by
        refine Nat.lt_of_le_of_ne h.wellFormed.used_le fun hfull => ?_
        simp [Pool.acquire_of_full clock s.memory h.isInitialized hfits hfull] at hresult
      obtain ⟨b, ring, hacquire, hcapacity, hqueue, hring⟩ := Pool.acquire_of_lt clock s.memory
        h.isInitialized h.wellFormed hfits hleft
      have hstep : s.step (.acquire wanted clock) =
          { s with pool := { s.pool with ring }, acquired := s.acquired ++ [b] } := by
        simp [step, hacquire, Except.toOption]
      rw [hstep]
      refine ⟨h.backing, h.slotSize_eq, hcapacity.trans h.capacity_eq, hring, ?_⟩
      have horder := h.order
      rw [hqueue] at horder
      rw [Pool.slotStarts_withRing hcapacity, List.append_assoc]
      exact horder

theorem release (h : s.Queued base n slotSize) (a : Addr) (clock : Clock) :
    (s.step (.release a clock)).Queued base n slotSize := by
  cases hresult : (s.pool.release a .free clock s.memory).result with
  | error e =>
      rw [step_release_of_error hresult]
      exact h
  | ok =>
      have hpos : 0 < s.pool.used := by
        refine Nat.pos_of_ne_zero fun hempty => ?_
        have hring : s.pool.ring.used = 0 := hempty
        simp [Pool.release, hring] at hresult
      have hmember : s.pool.contains a = true := by
        by_contra hforeign
        have hring : ¬s.pool.ring.used = 0 := Nat.ne_of_gt hpos
        have hforeign : s.pool.contains a = false := by simpa using hforeign
        simp [Pool.release, hring, hforeign] at hresult
      obtain ⟨ring, hrelease, hcapacity, hqueue, hring⟩ :=
        Pool.release_of_pos clock s.memory h.wellFormed hpos hmember
      have hstep : s.step (.release a clock) =
          { s with
            pool := { s.pool with ring }
            memory := s.memory.fill a s.pool.slotSize 0
            released := s.released ++ [a] } := by
        simp [step, hrelease, Except.isOk, Except.toBool]
      rw [hstep]
      refine ⟨h.backing, h.slotSize_eq, hcapacity.trans h.capacity_eq, hring, ?_⟩
      rw [hqueue, Pool.slotStarts_withRing hcapacity, ← List.append_assoc, h.order,
        List.append_assoc]

end Queued

/-- The first creation that succeeds fills the queue with the slots. -/
theorem Pristine.create (h : s.Pristine n slotSize) (hn : 0 < n) (allocate : Nat → Option Addr) :
    (s.step (.create allocate)).Pristine n slotSize ∨
      ∃ base, (s.step (.create allocate)).Queued base n slotSize := by
  have hslotSize := (Pool.slotSize_create s.pool allocate).trans h.slotSize_eq
  have hcapacity := (Pool.capacity_create s.pool allocate).trans h.capacity_eq
  cases hresult : (s.pool.create allocate).1 with
  | error f =>
      left
      refine ⟨Pool.not_isInitialized_of_create_error hresult, hslotSize, hcapacity, ?_,
        h.acquired_eq, h.released_eq⟩
      have hring := Pool.ring_create_of_error hresult
      show (s.pool.create allocate).2.ring.used = 0
      rw [hring]
      exact h.used_eq
  | ok =>
      right
      obtain ⟨base, hcreate⟩ := Pool.create_eq_of_ok h.not_initialized hresult
      have hpos : 0 < (s.pool.slotStarts base).size := by
        rw [Pool.size_slotStarts, h.capacity_eq]
        exact hn
      have hstep : s.step (.create allocate) = { s with
          pool := { s.pool with
            backing := .ready base, ring := .full (s.pool.slotStarts base) } } := by
        simp [step, hcreate]
      refine ⟨base, ?_⟩
      rw [hstep]
      refine ⟨rfl, h.slotSize_eq, ?_, Ring.wellFormed_full hpos, ?_⟩
      · simpa [Pool.capacity] using h.capacity_eq
      · rw [Pool.slotStarts_ready, Ring.queue_full, h.acquired_eq, h.released_eq, List.append_nil,
          List.nil_append]

theorem Pristine.step (h : s.Pristine n slotSize) (hn : 0 < n) (call : PoolCall) :
    (s.step call).Pristine n slotSize ∨ ∃ base, (s.step call).Queued base n slotSize := by
  cases call with
  | create allocate => exact h.create hn allocate
  | acquire wanted clock =>
      have hrefused : ∃ e, (s.pool.acquire wanted .free clock s.memory).result = .error e := by
        by_cases hfits : s.pool.slotSize < wanted
        · exact ⟨_, by rw [Pool.acquire, if_pos hfits]⟩
        · exact ⟨_, by rw [Pool.acquire, if_neg hfits, if_pos (by simp [h.not_initialized])]⟩
      obtain ⟨e, he⟩ := hrefused
      rw [step_acquire_of_error he]
      exact Or.inl h
  | release a clock =>
      have hempty : s.pool.ring.used = 0 := h.used_eq
      have hrefused : (s.pool.release a .free clock s.memory).result = .error .poolEmpty := by
        simp [Pool.release, hempty]
      rw [step_release_of_error hrefused]
      exact Or.inl h

theorem Queued.step_create (h : s.Queued base n slotSize) (allocate : Nat → Option Addr) :
    s.step (.create allocate) = s := by
  simp [PoolHistory.step, Pool.create_of_isInitialized allocate h.isInitialized]

theorem Queued.step (h : s.Queued base n slotSize) (call : PoolCall) :
    (s.step call).Queued base n slotSize := by
  cases call with
  | create allocate =>
      rw [h.step_create]
      exact h
  | acquire wanted clock => exact h.acquire wanted clock
  | release a clock => exact h.release a clock

theorem Queued.run (h : s.Queued base n slotSize) (calls : List PoolCall) :
    (s.run calls).Queued base n slotSize := by
  induction calls generalizing s with
  | nil => exact h
  | cons call calls ih => exact ih (h.step call)

theorem Pristine.run (h : s.Pristine n slotSize) (hn : 0 < n) (calls : List PoolCall) :
    (s.run calls).Pristine n slotSize ∨ ∃ base, (s.run calls).Queued base n slotSize := by
  induction calls generalizing s with
  | nil => exact Or.inl h
  | cons call calls ih =>
      rcases h.step hn call with hpristine | ⟨base, hqueued⟩
      · exact ih hpristine
      · exact Or.inr ⟨base, hqueued.run calls⟩

/-- Whatever was called before and since its creation, a pool has handed out its slots in order and
then the released addresses in order, and it refuses exactly what a queue of `n` buffers must. -/
theorem run_fifo {name : String} {memory : Memory} {calls : List PoolCall} (hn : 0 < n)
    (hsize : 0 < slotSize) (hs : s = (fresh name n slotSize memory).run calls)
    (hcreated : s.pool.backing = .ready base) :
    let starts := (List.range n).map fun i => base.add (i * slotSize)
    s.acquired <+: starts ++ s.released ∧
      s.acquired.length = s.released.length + s.pool.used ∧ s.pool.used ≤ n ∧
      (∀ wanted clock e, wanted ≤ slotSize →
        ((s.pool.acquire wanted .free clock s.memory).result = .error e ↔
          s.pool.used = n ∧ e = .poolExhausted)) ∧
      (∀ a clock, (s.pool.release a .free clock s.memory).result =
        if s.pool.used = 0 then .error .poolEmpty
        else if a ∈ starts then .ok () else .error .notPoolMember) ∧
      (∀ wanted clock e, (s.pool.acquire wanted .free clock s.memory).result = .error e →
        s.step (.acquire wanted clock) = s) ∧
      (∀ a clock e, (s.pool.release a .free clock s.memory).result = .error e →
        s.step (.release a clock) = s) ∧
      ∀ allocate, (s.pool.create allocate).1 = .ok () ∧ s.step (.create allocate) = s := by
  intro starts
  -- A pool that has a region has been created, and no later call moves the region.
  have hqueued : s.Queued base n slotSize := by
    rcases (pristine_fresh name n slotSize memory).run hn calls with hpristine | ⟨base', hqueued⟩
    · rw [← hs] at hpristine
      have hready : s.pool.isInitialized = true := Pool.isInitialized_iff.mpr ⟨base, hcreated⟩
      exact absurd (hpristine.not_initialized.symm.trans hready) Bool.false_ne_true
    · rw [← hs] at hqueued
      obtain rfl : base' = base := Backing.ready.inj (hqueued.backing.symm.trans hcreated)
      exact hqueued
  refine ⟨?_, hqueued.length_acquired, hqueued.used_le, ?_, hqueued.release_result hsize, ?_, ?_,
    ?_⟩
  · exact ⟨s.pool.ring.queue, by rw [hqueued.order, hqueued.toList_slotStarts]⟩
  · intro wanted clock e hfits
    exact hqueued.acquire_result hfits clock e
  · intro wanted clock e
    exact step_acquire_of_error
  · intro a clock e
    exact step_release_of_error
  · intro allocate
    rw [Pool.create_of_isInitialized allocate hqueued.isInitialized]
    exact ⟨rfl, hqueued.step_create allocate⟩

/-- The second of two slots is released twice, and the first one never. -/
def twoSlotHistory : PoolHistory :=
  let now : Clock := .startingAt 0 0
  let start : Addr := ⟨64, by decide⟩
  (fresh "Rx" 2 64 .zeroed).run [.acquire 64 now, .create fun _ => some start, .acquire 64 now,
    .acquire 1 now, .acquire 64 now, .release (start.add 64) now, .release (start.add 64) now,
    .release start now, .acquire 64 now]

theorem run_fifo_two_slots :
    twoSlotHistory.pool.used = 1 ∧ twoSlotHistory.acquired.length = 3 ∧
      twoSlotHistory.acquired <+:
        [⟨64, by decide⟩, ⟨128, by decide⟩] ++ twoSlotHistory.released := by
  have hcreated : twoSlotHistory.pool.backing = .ready ⟨64, by decide⟩ := by decide +kernel
  obtain ⟨hserved, hlength, -⟩ :=
    run_fifo (s := twoSlotHistory) (by decide) (by decide) rfl hcreated
  have hused : twoSlotHistory.pool.used = 1 := by decide +kernel
  have hreleased : twoSlotHistory.released.length = 2 := by decide +kernel
  rw [hused, hreleased] at hlength
  exact ⟨hused, hlength, hserved⟩

end PoolHistory

end XgmacDriver
