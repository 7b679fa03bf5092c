import XgmacDriver.Proofs.PoolAccounts

/-! # Who holds the slots of a pool

A pool counts the slots that are out, but it does not remember which ones. It takes back any of its
slots while the count is not zero, also one that nobody holds. Such a stray is then in the queue
twice, or in the queue and out at once. Up to the first stray every slot has one owner; after it the
pool owes one slot to two.
-/

namespace XgmacDriver

open scoped List

namespace Pool

variable {p : Pool} {a : Addr} {lock : Lock} {clock : Clock} {memory : Memory}

/-- A release adds the slot at the end of the queue or changes nothing, whoever holds the lock. -/
theorem release_cases (p : Pool) (a : Addr) (lock : Lock) (clock : Clock) (memory : Memory) :
    (∃ e, (p.release a lock clock memory).result = .error e) ∧
        (p.release a lock clock memory).pool = p ∧
        (p.release a lock clock memory).memory = memory ∨
      (p.release a lock clock memory).result = .ok () ∧
        (p.release a lock clock memory).pool = { p with ring := p.ring.give a } ∧
        (p.release a lock clock memory).memory = memory.fill a p.slotSize 0 ∧
        0 < p.used ∧ p.contains a = true := by
  unfold release
  cases lock.obtain clock with
  | mk obtained after =>
      cases obtained with
      | false => exact Or.inl ⟨⟨_, rfl⟩, rfl, rfl⟩
      | true =>
          dsimp only
          split
          · exact Or.inl ⟨⟨_, rfl⟩, rfl, rfl⟩
          · rename_i hused
            split
            · exact Or.inl ⟨⟨_, rfl⟩, rfl, rfl⟩
            · rename_i hmember
              exact Or.inr ⟨rfl, rfl, rfl, Nat.pos_of_ne_zero hused, by simpa using hmember⟩

theorem release_ok_iff : (p.release a lock clock memory).result = .ok () ↔
    (lock.obtain clock).1 = true ∧ 0 < p.used ∧ p.contains a = true := by
  unfold release
  cases lock.obtain clock with
  | mk obtained after =>
      cases obtained with
      | false => simp
      | true =>
          by_cases hused : p.ring.used = 0
          · simp [hused, used]
          · by_cases hmember : p.contains a = true
            · simp [hused, hmember, used, Nat.pos_of_ne_zero hused]
            · simp [hused, hmember]

/-- A slot of the pool is taken back, and filled with zeros, if the lock is had in time. -/
theorem release_of_contains (hused : 0 < p.used) (hmember : p.contains a = true) :
    p.release a lock clock memory =
      if (lock.obtain clock).1 then
        ⟨.ok (), { p with ring := p.ring.give a }, memory.fill a p.slotSize 0,
          (lock.obtain clock).2, []⟩
      else
        ⟨.error .poolLockTimeout, p, memory, (lock.obtain clock).2, [.lockTimeout p.name]⟩ := by
  have hne : ¬p.ring.used = 0 := Nat.ne_of_gt hused
  unfold release
  rcases lock.obtain clock with ⟨_ | _, after⟩
  · rfl
  · simp [hne, hmember]

theorem pos_of_create {allocate : Nat → Option Addr} (hvacant : p.isInitialized = false)
    (hok : (p.create allocate).1 = .ok ()) : 0 < p.capacity ∧ 0 < p.slotSize := by
  obtain ⟨base, hcreate⟩ := create_eq_of_ok hvacant hok
  have hbacking : (p.create allocate).2.backing = .ready base := by rw [hcreate]
  have hsize := (allocateRegion_eq_some_iff.mp (allocateRegion_of_create hvacant hbacking)).1
  exact ⟨Nat.pos_of_mul_pos_right hsize, Nat.pos_of_mul_pos_left hsize⟩

end Pool

inductive CustodyCall
  | acquire (wanted : Nat) (lock : Lock) (clock : Clock)
  | release (a : Addr) (lock : Lock) (clock : Clock)

structure PoolCustody where
  pool : Pool
  memory : Memory
  /-- What was acquired and not released since, once for each acquisition. -/
  held : List Addr
  /-- What was released while nobody held it. -/
  strays : List Addr

namespace PoolCustody

def start (p : Pool) (memory : Memory) : PoolCustody := ⟨p, memory, [], []⟩

def step (s : PoolCustody) : CustodyCall → PoolCustody
  | .acquire wanted lock clock =>
      let r := s.pool.acquire wanted lock clock s.memory
      { s with pool := r.pool, memory := r.memory, held := s.held ++ r.result.toOption.toList }
  | .release a lock clock =>
      let r := s.pool.release a lock clock s.memory
      match r.result with
      | .error _ => { s with pool := r.pool, memory := r.memory }
      | .ok () =>
          { pool := r.pool
            memory := r.memory
            held := s.held.erase a
            strays := if a ∈ s.held then s.strays else s.strays ++ [a] }

def run (s : PoolCustody) (calls : List CustodyCall) : PoolCustody := calls.foldl step s

/-- What the queue has and what is out are the slots, each of them once, and the strays. -/
structure Tallied (base : Addr) (starts : List Addr) (s : PoolCustody) : Prop where
  backing : s.pool.backing = .ready base
  slotSize_pos : 0 < s.pool.slotSize
  wellFormed : s.pool.ring.WellFormed
  starts_eq : (s.pool.slotStarts base).toList = starts
  strays_subset : ∀ a ∈ s.strays, a ∈ starts
  perm : (s.pool.ring.queue ++ s.held).Perm (starts ++ s.strays)

variable {s : PoolCustody} {base : Addr} {starts : List Addr}

namespace Tallied

theorem contains_iff (h : s.Tallied base starts) {a : Addr} :
    s.pool.contains a = true ↔ a ∈ starts := by
  rw [Pool.contains_iff h.backing h.slotSize_pos, h.starts_eq]

theorem nodup_starts (h : s.Tallied base starts) : starts.Nodup :=
  h.starts_eq ▸ Pool.nodup_slotStarts h.slotSize_pos

theorem length_starts (h : s.Tallied base starts) : starts.length = s.pool.capacity := by
  rw [← h.starts_eq, Array.length_toList, Pool.size_slotStarts]

theorem length_held (h : s.Tallied base starts) :
    s.held.length = s.pool.used + s.strays.length := by
  have hlength := h.perm.length_eq
  have hused := h.wellFormed.used_le
  have hcapacity : s.pool.capacity = s.pool.ring.capacity := rfl
  have hcount : s.pool.used = s.pool.ring.used := rfl
  simp only [List.length_append, Ring.length_queue h.wellFormed, h.length_starts] at hlength
  omega

/-- A slot that is acquired moves from the queue to what is held. -/
theorem acquire (h : s.Tallied base starts) (wanted : Nat) (lock : Lock) (clock : Clock) :
    (s.step (.acquire wanted lock clock)).Tallied base starts := by
  obtain ⟨hmemory, ⟨⟨e, herror⟩, hpool⟩ | ⟨a, ring, hok, hpool, hleft, htake⟩⟩ :=
    Pool.acquire_cases s.pool wanted lock clock s.memory
  · have hstep : s.step (.acquire wanted lock clock) = s := by
      simp [step, herror, hpool, hmemory, Except.toOption]
    rw [hstep]
    exact h
  · obtain ⟨hqueue, hring⟩ := Ring.queue_of_take h.wellFormed hleft htake
    have hcapacity := Ring.capacity_of_take htake
    have hstep : s.step (.acquire wanted lock clock) =
        { s with pool := { s.pool with ring }, held := s.held ++ [a] } := by
      simp [step, hok, hpool, hmemory, Except.toOption]
    rw [hstep]
    refine ⟨h.backing, h.slotSize_pos, hring, ?_, h.strays_subset, ?_⟩
    · rw [Pool.slotStarts_withRing hcapacity, h.starts_eq]
    · refine List.Perm.trans ?_ h.perm
      rw [hqueue, ← List.append_assoc]
      exact List.perm_append_comm

/-- A slot that is released joins the queue, and it comes from what is held or is one more stray. -/
theorem release (h : s.Tallied base starts) (a : Addr) (lock : Lock) (clock : Clock) :
    (s.step (.release a lock clock)).Tallied base starts := by
  obtain ⟨⟨e, herror⟩, hpool, hmemory⟩ | ⟨hok, hpool, -, hused, hmember⟩ :=
    Pool.release_cases s.pool a lock clock s.memory
  · have hstep : s.step (.release a lock clock) = s := by
      simp [step, herror, hpool, hmemory]
    rw [hstep]
    exact h
  · obtain ⟨hqueue, hring, -⟩ := Ring.give_of_pos h.wellFormed hused a
    have hstarts : (Pool.slotStarts { s.pool with ring := s.pool.ring.give a } base).toList =
        starts := by
      rw [Pool.slotStarts_withRing (Ring.capacity_give _ _), h.starts_eq]
    simp only [step, hok, hpool]
    by_cases hheld : a ∈ s.held
    · rw [if_pos hheld]
      refine ⟨h.backing, h.slotSize_pos, hring, hstarts, h.strays_subset, ?_⟩
      refine List.Perm.trans ?_ h.perm
      rw [hqueue, List.append_assoc]
      exact (List.perm_cons_erase hheld).symm.append_left _
    · rw [if_neg hheld, List.erase_of_not_mem hheld]
      refine ⟨h.backing, h.slotSize_pos, hring, hstarts, ?_, ?_⟩
      · intro b hb
        rcases List.mem_append.mp hb with hb | hb
        · exact h.strays_subset b hb
        · exact List.mem_singleton.mp hb ▸ h.contains_iff.mp hmember
      · calc
          _ = s.pool.ring.queue ++ ([a] ++ s.held) := by rw [hqueue, List.append_assoc]
          _ ~ s.pool.ring.queue ++ (s.held ++ [a]) := List.perm_append_comm.append_left _
          _ = s.pool.ring.queue ++ s.held ++ [a] := (List.append_assoc ..).symm
          _ ~ starts ++ s.strays ++ [a] := h.perm.append_right _
          _ = starts ++ (s.strays ++ [a]) := List.append_assoc ..

theorem step (h : s.Tallied base starts) (call : CustodyCall) :
    (s.step call).Tallied base starts := by
  cases call with
  | acquire wanted lock clock => exact h.acquire wanted lock clock
  | release a lock clock => exact h.release a lock clock

theorem run (h : s.Tallied base starts) (calls : List CustodyCall) :
    (s.run calls).Tallied base starts := by
  induction calls generalizing s with
  | nil => exact h
  | cons call calls ih => exact ih (h.step call)

/-- Without a stray the queue and what is held have no slot in common and none of them twice. -/
theorem nodup_of_no_strays (h : s.Tallied base starts) (hstrays : s.strays = []) :
    (s.pool.ring.queue ++ s.held).Nodup := by
  have hperm := h.perm
  rw [hstrays, List.append_nil] at hperm
  exact hperm.nodup_iff.mpr h.nodup_starts

theorem not_nodup_of_strays (h : s.Tallied base starts) (hstrays : s.strays ≠ []) :
    ¬(s.pool.ring.queue ++ s.held).Nodup := by
  obtain ⟨a, ha⟩ := List.exists_mem_of_ne_nil _ hstrays
  rw [h.perm.nodup_iff, List.nodup_append]
  rintro ⟨-, -, hapart⟩
  exact hapart a (h.strays_subset a ha) a ha rfl

theorem exists_empty_queue (h : s.Tallied base starts) :
    ∃ calls, (s.run calls).pool.ring.queue = [] ∧ (s.run calls).strays = s.strays := by
  generalize hlength : s.pool.ring.queue.length = n
  induction n generalizing s with
  | zero => exact ⟨[], List.length_eq_zero_iff.mp hlength, rfl⟩
  | succ n ih =>
      rw [Ring.length_queue h.wellFormed] at hlength
      obtain ⟨a, ring, hacquire, hcapacity, hqueue, hring⟩ :=
        Pool.acquire_of_lt (.startingAt 0 0) s.memory
          (Pool.isInitialized_iff.mpr ⟨base, h.backing⟩) h.wellFormed (Nat.zero_le s.pool.slotSize)
          (show s.pool.ring.used < s.pool.ring.capacity by omega)
      let call : CustodyCall := .acquire 0 .free (.startingAt 0 0)
      have hstep : s.step call =
          { s with pool := { s.pool with ring }, held := s.held ++ [a] } := by
        simp [call, PoolCustody.step, hacquire, Except.toOption]
      have hleft : (s.step call).pool.ring.queue.length = n := by
        have hlength' := congrArg List.length hqueue
        rw [Ring.length_queue h.wellFormed, List.length_cons] at hlength'
        rw [hstep]
        show ring.queue.length = n
        omega
      obtain ⟨calls, hempty, hstrays⟩ := ih (h.step call) hleft
      refine ⟨call :: calls, hempty, hstrays.trans ?_⟩
      rw [hstep]

end Tallied

theorem tallied_start {name : String} {n slotSize : Nat} {allocate : Nat → Option Addr} {p : Pool}
    (hcreate : (Pool.new name n slotSize).create allocate = (.ok (), p))
    (hbase : p.backing = .ready base) (memory : Memory) :
    (start p memory).Tallied base ((List.range n).map fun i => base.add (i * slotSize)) := by
  have hok : ((Pool.new name n slotSize).create allocate).1 = .ok () := congrArg Prod.fst hcreate
  obtain ⟨base', heq⟩ := Pool.create_eq_of_ok (Pool.not_isInitialized_new name n slotSize) hok
  obtain ⟨hcapacity, hsize⟩ := Pool.pos_of_create rfl hok
  rw [hcreate] at heq
  subst heq
  obtain rfl : base' = base := Backing.ready.inj hbase
  have hn : (Pool.new name n slotSize).capacity = n := Ring.capacity_vacant n
  have hstarts : ((Pool.new name n slotSize).slotStarts base').toList =
      (List.range n).map fun i => base'.add (i * slotSize) := by
    rw [Pool.toList_slotStarts, hn]
    rfl
  refine ⟨rfl, hsize, Ring.wellFormed_full (by simpa using hcapacity), ?_, by simp [start], ?_⟩
  · show (Pool.slotStarts { Pool.new name n slotSize with
      backing := .ready base', ring := .full _ } base').toList = _
    rw [Pool.slotStarts_ready, hstarts]
  · simp [start, Ring.queue_full, hstarts]

/-- A pool takes back every slot of its own while any is out, held or not. Its slots have one owner
each, now and for as long as nothing else goes astray, exactly if no stray was ever taken back. -/
theorem exclusive_iff {name : String} {n slotSize : Nat} {allocate : Nat → Option Addr} {p : Pool}
    (hcreate : (Pool.new name n slotSize).create allocate = (.ok (), p))
    (hbase : p.backing = .ready base) (memory : Memory) (calls : List CustodyCall) :
    let s := (start p memory).run calls
    (∀ a lock clock, (s.pool.release a lock clock s.memory).result = .ok () ↔
        (lock.obtain clock).1 = true ∧ 0 < s.pool.used ∧ ∃ i < n, base.add (i * slotSize) = a) ∧
      s.held.length = s.pool.used + s.strays.length ∧
      (s.strays = [] → (s.pool.ring.queue ++ s.held).Nodup) ∧
      ((∀ more, (s.run more).strays = s.strays → (s.run more).held.Nodup) ↔ s.strays = []) := by
  intro s
  have h : s.Tallied base ((List.range n).map fun i => base.add (i * slotSize)) :=
    (tallied_start hcreate hbase memory).run calls
  refine ⟨?_, h.length_held, h.nodup_of_no_strays, ?_, ?_⟩
  · intro a lock clock
    rw [Pool.release_ok_iff, h.contains_iff]
    simp only [List.mem_map, List.mem_range]
  · -- Once the queue is empty everything is out, the slot of the stray twice.
    intro hexclusive
    by_contra hstrays
    obtain ⟨more, hempty, hsame⟩ := h.exists_empty_queue
    refine (h.run more).not_nodup_of_strays (hsame ▸ hstrays) ?_
    rw [hempty]
    exact hexclusive more hsame
  · intro hstrays more hsame
    have hnodup := (h.run more).nodup_of_no_strays (hsame.trans hstrays)
    exact (List.nodup_append.mp hnodup).2.1

/-- The first of two slots is acquired and released twice while the second one is out. -/
def doubleRelease : List CustodyCall :=
  let now : Clock := .startingAt 0 0
  [.acquire 64 .free now, .acquire 64 .free now, .release ⟨1024, by decide⟩ .free now,
    .release ⟨1024, by decide⟩ .free now]

theorem exclusive_iff_two_slots :
    let p := ((Pool.new "Rx" 2 64).create fun _ => some ⟨1024, by decide⟩).2
    let s := (start p .zeroed).run doubleRelease
    s.strays = [⟨1024, by decide⟩] ∧ s.pool.used = 0 ∧
      ¬∀ more, (s.run more).strays = s.strays → (s.run more).held.Nodup := by
  intro p s
  have hcreate : (Pool.new "Rx" 2 64).create (fun _ => some ⟨1024, by decide⟩) = (.ok (), p) := by
    decide +kernel
  have hbase : p.backing = .ready ⟨1024, by decide⟩ := rfl
  obtain ⟨-, -, -, hexclusive⟩ := exclusive_iff hcreate hbase .zeroed doubleRelease
  have hstrays : s.strays = [⟨1024, by decide⟩] := by decide +kernel
  refine ⟨hstrays, by decide +kernel, ?_⟩
  rw [hexclusive]
  show s.strays ≠ []
  rw [hstrays]
  exact List.cons_ne_nil _ _

end PoolCustody

end XgmacDriver
