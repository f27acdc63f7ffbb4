import Mathlib.Data.List.Basic
import Mathlib.Order.Lattice

/-! # Bounded queues

A queue that keeps all it has ever accepted and how much of that has been removed again. What is
between the two is pending, and it is never more than the capacity. -/

structure BoundedQueue (α : Type*) (capacity : ℕ) where
  accepted : List α
  removed : ℕ
  removed_le : removed ≤ accepted.length
  fits : accepted.length ≤ removed + capacity

namespace BoundedQueue

variable {α : Type*} {n : ℕ}

def empty : BoundedQueue α n := ⟨[], 0, le_rfl, Nat.zero_le _⟩

variable (q : BoundedQueue α n)

/-- What has been accepted and not removed, in order. -/
def pending : List α := q.accepted.drop q.removed

theorem length_accepted : q.accepted.length = q.removed + q.pending.length := by
  rw [pending, List.length_drop, Nat.add_sub_cancel' q.removed_le]

theorem length_pending_le : q.pending.length ≤ n := by
  have hfits := q.fits
  have hlength := q.length_accepted
  omega

/-- Accept as much as there is room for. -/
def put (xs : List α) : BoundedQueue α n where
  accepted := q.accepted ++ xs.take (n - q.pending.length)
  removed := q.removed
  removed_le := by
    rw [List.length_append]
    exact q.removed_le.trans (Nat.le_add_right _ _)
  fits := by
    have hlength := q.length_accepted
    have hpending := q.length_pending_le
    rw [List.length_append, List.length_take]
    omega

/-- Remove up to `k` elements from the front. -/
def remove (k : ℕ) : BoundedQueue α n where
  accepted := q.accepted
  removed := q.removed + min k q.pending.length
  removed_le := by
    rw [q.length_accepted]
    omega
  fits := by
    have hfits := q.fits
    omega

theorem pending_put (xs : List α) :
    (q.put xs).pending = q.pending ++ xs.take (n - q.pending.length) :=
  List.drop_append_of_le_length q.removed_le

theorem pending_remove (k : ℕ) : (q.remove k).pending = q.pending.drop k := by
  simp only [pending, remove, List.drop_drop]
  rcases le_total k (q.accepted.drop q.removed).length with hle | hle
  · rw [min_eq_left hle]
  · have hlength := q.length_accepted
    rw [pending] at hlength
    rw [min_eq_right hle, List.drop_eq_nil_of_le (by omega), List.drop_eq_nil_of_le (by omega)]

end BoundedQueue
