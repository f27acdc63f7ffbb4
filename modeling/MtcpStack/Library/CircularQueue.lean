import Mathlib.Data.List.Basic
import Mathlib.Data.Nat.ModEq

/-! # Circular queues

A queue in a fixed array: `start` is the slot of the first element, `stop` the slot behind the
last one, and both go round the end of the array. `contents` is the queue as a list. -/

structure CircularQueue (α : Type*) where
  slots : List α
  start : ℕ
  stop : ℕ
  num : ℕ
deriving DecidableEq, Repr

namespace CircularQueue

variable {α : Type*} (r : CircularQueue α)

/-- The slot behind slot `i`. -/
def advance (i : ℕ) : ℕ := if r.slots.length ≤ i + 1 then 0 else i + 1

/-- Store an element behind the last one. -/
def enqueue (x : α) : CircularQueue α where
  slots := r.slots.set r.stop x
  start := r.start
  stop := r.advance r.stop
  num := r.num + 1

/-- The slot of the first element. -/
def front? : Option α := r.slots[r.start]?

/-- Drop the first element; its slot keeps its value. -/
def dequeue : CircularQueue α where
  slots := r.slots
  start := r.advance r.start
  stop := r.stop
  num := r.num - 1

/-- The elements, from the first to the last. -/
def contents : List α :=
  (List.range r.num).filterMap fun i => r.slots[(r.start + i) % r.slots.length]?

structure Valid : Prop where
  start_lt : r.start < r.slots.length
  num_le : r.num ≤ r.slots.length
  stop_eq : r.stop = (r.start + r.num) % r.slots.length

/-- An empty queue on an array. -/
def ofSlots (slots : List α) : CircularQueue α := ⟨slots, 0, 0, 0⟩

theorem valid_ofSlots {slots : List α} (h : 0 < slots.length) : (ofSlots slots).Valid where
  start_lt := h
  num_le := Nat.zero_le _
  stop_eq := (Nat.zero_mod _).symm

@[simp] theorem contents_ofSlots (slots : List α) : (ofSlots slots).contents = [] := rfl

variable {r}

theorem advance_eq {i : ℕ} (h : i < r.slots.length) : r.advance i = (i + 1) % r.slots.length := by
  unfold advance
  split_ifs with hwrap
  · have hlast : i + 1 = r.slots.length := by omega
    rw [hlast, Nat.mod_self]
  · exact (Nat.mod_eq_of_lt (by omega)).symm

/-- Two offsets below the size lead to different slots. -/
theorem add_mod_inj {n a i j : ℕ} (hi : i < n) (hj : j < n) (h : (a + i) % n = (a + j) % n) :
    i = j := by
  have hmod : a + i ≡ a + j [MOD n] := h
  exact (Nat.ModEq.add_left_cancel' a hmod).eq_of_lt_of_lt hi hj

theorem Valid.enqueue (h : r.Valid) (hroom : r.num < r.slots.length) (x : α) :
    (r.enqueue x).Valid where
  start_lt := by simpa [CircularQueue.enqueue] using h.start_lt
  num_le := by
    simp only [CircularQueue.enqueue, List.length_set]
    omega
  stop_eq := by
    have hpos : 0 < r.slots.length := by omega
    have hstop : r.stop < r.slots.length := h.stop_eq ▸ Nat.mod_lt _ hpos
    simp only [CircularQueue.enqueue, List.length_set]
    rw [advance_eq hstop, h.stop_eq, Nat.mod_add_mod, Nat.add_assoc]

theorem Valid.contents_enqueue (h : r.Valid) (hroom : r.num < r.slots.length) (x : α) :
    (r.enqueue x).contents = r.contents ++ [x] := by
  have hpos : 0 < r.slots.length := by omega
  have hstop : r.stop < r.slots.length := h.stop_eq ▸ Nat.mod_lt _ hpos
  simp only [contents, CircularQueue.enqueue, List.length_set, List.range_succ, List.filterMap_append]
  congr 1
  · -- The slots of the elements that are there are not the one that is written.
    apply List.filterMap_congr
    intro i hi
    have hlt : i < r.num := List.mem_range.mp hi
    refine List.getElem?_set_ne ?_
    rw [h.stop_eq]
    intro heq
    have := add_mod_inj (hroom) (by omega) heq
    omega
  · simp [← h.stop_eq, hstop]

theorem Valid.dequeue (h : r.Valid) (hnum : 0 < r.num) : r.dequeue.Valid where
  start_lt := by
    simp only [CircularQueue.dequeue, advance_eq h.start_lt]
    exact Nat.mod_lt _ (by have := h.start_lt; omega)
  num_le := by
    have := h.num_le
    simp only [CircularQueue.dequeue]
    omega
  stop_eq := by
    simp only [CircularQueue.dequeue, advance_eq h.start_lt, Nat.mod_add_mod, h.stop_eq]
    congr 1
    omega

/-- A queue that is not empty has its first element in the slot `start`. -/
theorem Valid.contents_dequeue (h : r.Valid) (hnum : 0 < r.num) :
    ∃ x, r.front? = some x ∧ r.contents = x :: r.dequeue.contents := by
  have hfront : r.front? = some (r.slots.get ⟨r.start, h.start_lt⟩) :=
    List.getElem?_eq_getElem h.start_lt
  obtain ⟨n, hn⟩ : ∃ n, r.num = n + 1 := ⟨r.num - 1, by omega⟩
  refine ⟨_, hfront, ?_⟩
  simp only [contents, hn, List.range_succ_eq_map, List.filterMap_cons, Nat.add_zero,
    Nat.mod_eq_of_lt h.start_lt, List.getElem?_eq_getElem h.start_lt, List.filterMap_map]
  congr 1
  simp only [CircularQueue.dequeue, hn, Nat.add_sub_cancel, advance_eq h.start_lt, Nat.mod_add_mod]
  apply List.filterMap_congr
  intro i _
  simp only [Function.comp]
  congr 2
  omega

theorem Valid.length_contents (h : r.Valid) : r.contents.length = r.num := by
  have hpos : 0 < r.slots.length := by
    have := h.start_lt
    omega
  have hsome : ∀ i, r.slots[(r.start + i) % r.slots.length]?
      = some (r.slots.get ⟨(r.start + i) % r.slots.length, Nat.mod_lt _ hpos⟩) := fun i =>
    List.getElem?_eq_getElem _
  simp only [contents, hsome, List.filterMap_eq_map', List.length_map, List.length_range]

end CircularQueue
