import Std.Data.TreeMap
import XgmacDriver.Memory.Address

/-! # Byte memory

Every byte that was never written reads as zero. A run of bytes is written in address order, and a
copy reads its whole source before it writes.
-/

namespace XgmacDriver

structure Memory where
  cells : Std.TreeMap Nat UInt8

namespace Memory

def zeroed : Memory := ⟨∅⟩

instance : Inhabited Memory := ⟨zeroed⟩

def get (m : Memory) (i : Nat) : UInt8 := m.cells.getD i 0

def set (m : Memory) (i : Nat) (b : UInt8) : Memory := ⟨m.cells.insert i b⟩

def read (m : Memory) (a : Addr) (n : Nat) : List UInt8 :=
  (List.range n).map fun i => m.get (a.toNat + i)

def writeFrom (m : Memory) (i : Nat) : List UInt8 → Memory
  | [] => m
  | b :: bs => (m.set i b).writeFrom (i + 1) bs

def write (m : Memory) (a : Addr) (bytes : List UInt8) : Memory := m.writeFrom a.toNat bytes

def fill (m : Memory) (a : Addr) (n : Nat) (b : UInt8) : Memory := m.write a (List.replicate n b)

def copy (m : Memory) (src dst : Addr) (n : Nat) : Memory := m.write dst (m.read src n)

theorem get_set (m : Memory) (i j : Nat) (b : UInt8) :
    (m.set i b).get j = if i = j then b else m.get j := by
  simp [get, set, Std.TreeMap.getD_insert]

theorem get_writeFrom (m : Memory) (i j : Nat) (bytes : List UInt8) :
    (m.writeFrom i bytes).get j = if j < i then m.get j else bytes.getD (j - i) (m.get j) := by
  induction bytes generalizing m i with
  | nil => simp [writeFrom]
  | cons b bs ih =>
      rw [writeFrom, ih, get_set]
      by_cases hlt : j < i
      · rw [if_pos hlt, if_pos (by omega), if_neg (by omega)]
      · by_cases heq : i = j
        · subst heq; simp
        · rw [if_neg hlt, if_neg (by omega), if_neg heq,
            show j - i = j - (i + 1) + 1 by omega, List.getD_cons_succ]

/-- A write changes the bytes that it covers and no others. -/
theorem get_write (m : Memory) (a : Addr) (bytes : List UInt8) (i : Nat) :
    (m.write a bytes).get i =
      if a.toNat ≤ i ∧ i < a.toNat + bytes.length then bytes.getD (i - a.toNat) 0 else m.get i := by
  rw [write, get_writeFrom]
  by_cases hlt : i < a.toNat
  · rw [if_pos hlt, if_neg (by omega)]
  · rw [if_neg hlt]
    by_cases hin : i - a.toNat < bytes.length
    · rw [if_pos (by omega)]
      simp [hin]
    · rw [if_neg (by omega)]
      simp [Nat.not_lt.mp hin]

@[simp] theorem length_read (m : Memory) (a : Addr) (n : Nat) : (m.read a n).length = n := by
  simp [read]

theorem getElem?_read (m : Memory) (a : Addr) {n i : Nat} (h : i < n) :
    (m.read a n)[i]? = some (m.get (a.toNat + i)) := by
  simp [read, h]

theorem read_congr {m m' : Memory} {a a' : Addr} {n : Nat}
    (h : ∀ i < n, m.get (a.toNat + i) = m'.get (a'.toNat + i)) : m.read a n = m'.read a' n := by
  apply List.map_congr_left
  intro i hi
  exact h i (List.mem_range.mp hi)

theorem read_eq_replicate_iff {m : Memory} {a : Addr} {n : Nat} {b : UInt8} :
    m.read a n = List.replicate n b ↔ ∀ i < n, m.get (a.toNat + i) = b := by
  rw [List.eq_replicate_iff, length_read]
  simp [read]

/-- A part of a region that is filled is filled. -/
theorem read_add_of_replicate {m : Memory} {a : Addr} {k l n : Nat} {b : UInt8}
    (h : m.read a n = List.replicate n b) (hle : k + l ≤ n) :
    m.read (a.add k) l = List.replicate l b := by
  rw [read_eq_replicate_iff] at h ⊢
  intro i hi
  rw [Addr.toNat_add, Nat.add_assoc]
  exact h (k + i) (by omega)

theorem read_write_of_disjoint {m : Memory} {a b : Addr} {n : Nat} {bytes : List UInt8}
    (h : a.toNat + n ≤ b.toNat ∨ b.toNat + bytes.length ≤ a.toNat) :
    (m.write b bytes).read a n = m.read a n := by
  apply read_congr
  intro i hi
  rw [get_write, if_neg (by omega)]

theorem read_write_self (m : Memory) (a : Addr) {n : Nat} {bytes : List UInt8}
    (h : n ≤ bytes.length) : (m.write a bytes).read a n = bytes.take n := by
  apply List.ext_getElem?
  intro i
  by_cases hi : i < n
  · rw [getElem?_read _ _ hi, get_write, if_pos (by omega), List.getElem?_take_of_lt hi]
    simp [show i < bytes.length by omega]
  · rw [List.getElem?_eq_none (by simpa using hi), List.getElem?_eq_none (by simp; omega)]

theorem read_fill_self (m : Memory) (a : Addr) (n : Nat) (b : UInt8) :
    (m.fill a n b).read a n = List.replicate n b := by
  rw [fill, read_write_self _ _ (by simp), List.take_of_length_le (by simp)]

theorem read_copy_self (m : Memory) (src dst : Addr) (n : Nat) :
    (m.copy src dst n).read dst n = m.read src n := by
  rw [copy, read_write_self _ _ (by simp), List.take_of_length_le (by simp)]

end Memory

end XgmacDriver
