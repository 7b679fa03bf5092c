import XgmacDriver.Memory.Address

/-! # Rings of buffers

A ring hands out the buffers of its places in turn, starting at `head`, and takes buffers back in
turn at `tail`. A place is vacant from the moment its buffer is handed out until a buffer is put
there.
-/

namespace XgmacDriver

structure Ring where
  places : Array (Option Addr)
  head : Nat
  tail : Nat
  used : Nat
deriving DecidableEq

namespace Ring

/-- A ring of `n` places none of which has ever held a buffer. -/
def vacant (n : Nat) : Ring := ⟨Array.replicate n none, 0, 0, 0⟩

def full (buffers : Array Addr) : Ring := ⟨buffers.map some, 0, 0, 0⟩

def capacity (r : Ring) : Nat := r.places.size

/-- The place after place `i`, around the end. -/
def after (r : Ring) (i : Nat) : Nat := (i + 1) % r.capacity

/-- Hand out the buffer at the head, `none` if that place is vacant. -/
def take (r : Ring) : Option (Addr × Ring) :=
  match r.places[r.head]? with
  | some (some a) =>
      some (a, { r with
        places := r.places.setIfInBounds r.head none
        head := r.after r.head
        used := r.used + 1 })
  | _ => none

def give (r : Ring) (a : Addr) : Ring :=
  { r with
    places := r.places.setIfInBounds r.tail (some a)
    tail := r.after r.tail
    used := r.used - 1 }

@[simp] theorem capacity_vacant (n : Nat) : (vacant n).capacity = n := by simp [vacant, capacity]

@[simp] theorem capacity_full (buffers : Array Addr) : (full buffers).capacity = buffers.size := by
  simp [full, capacity]

@[simp] theorem capacity_give (r : Ring) (a : Addr) : (r.give a).capacity = r.capacity := by
  simp [give, capacity]

theorem take_eq_some_iff {r s : Ring} {a : Addr} : r.take = some (a, s) ↔
    r.places[r.head]? = some (some a) ∧ s = { r with
      places := r.places.setIfInBounds r.head none
      head := r.after r.head
      used := r.used + 1 } := by
  unfold take
  split
  · next b hb => simp [hb, eq_comm]
  · next hvacant =>
      refine iff_of_false nofun ?_
      rintro ⟨ha, -⟩
      exact hvacant a ha

theorem capacity_of_take {r s : Ring} {a : Addr} (h : r.take = some (a, s)) :
    s.capacity = r.capacity := by
  obtain ⟨-, rfl⟩ := take_eq_some_iff.mp h
  simp [capacity]

theorem used_of_take {r s : Ring} {a : Addr} (h : r.take = some (a, s)) : s.used = r.used + 1 := by
  obtain ⟨-, rfl⟩ := take_eq_some_iff.mp h
  rfl

end Ring

end XgmacDriver
