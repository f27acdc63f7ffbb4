import Mathlib.Data.List.Rotate
import MtcpStack.Library.CircularQueue
import MtcpStack.Library.Slice

/-! # A block used in a circle

A window of a block starts at an offset and goes on at the front when it reaches the end. It is
read and extended by one copy, or by two when it goes round. -/

namespace MtcpStack.BlockRing

open Slice

variable {α : Type*} {m m' : List α} {off n len : ℕ}

/-- The `n` cells from `off` on, going round the end of the block. -/
def window (m : List α) (off n : ℕ) : List α := (m.rotate off).take n

theorem window_length (h : n ≤ m.length) : (window m off n).length = n := by
  simpa [window] using h

theorem window_getElem? {i : ℕ} (h : n ≤ m.length) (hi : i < n) :
    (window m off n)[i]? = m[(off + i) % m.length]? := by
  rw [window, List.getElem?_take, if_pos hi, List.getElem?_rotate (by omega), Nat.add_comm]

@[simp] theorem window_zero : window m off 0 = [] := List.take_zero

theorem window_take {k : ℕ} (h : k ≤ n) : (window m off n).take k = window m off k := by
  rw [window, List.take_take, Nat.min_eq_left h, window]

/-- Without its first cells a window starts further on. -/
theorem window_drop {k : ℕ} (h : n ≤ m.length) (hk : k ≤ n) :
    (window m off n).drop k = window m ((off + k) % m.length) (n - k) := by
  apply List.ext_getElem?
  intro i
  rw [List.getElem?_drop]
  by_cases hi : i < n - k
  · rw [window_getElem? h (by omega), window_getElem? (by omega) hi, Nat.mod_add_mod,
      Nat.add_assoc]
  · rw [List.getElem?_eq_none (by rw [window_length h]; omega),
      List.getElem?_eq_none (by rw [window_length (by omega)]; omega)]

/-! ## Reading -/

/-- A window that does not go round is one slice. -/
theorem slice_eq_window (h : off + n ≤ m.length) : slice m off n = some (window m off n) := by
  rw [slice_eq_some]
  refine ⟨h, ?_⟩
  rw [window, List.rotate_eq_drop_append_take (by omega),
    List.take_append_of_le_length (by rw [List.length_drop]; omega)]

/-- A window that goes round is a slice at the end and one at the front. -/
theorem slices_eq_window (hoff : off ≤ m.length) (hn : n ≤ m.length) (hround : m.length ≤ off + n) :
    slice m off (m.length - off) = some (m.drop off) ∧
      slice m 0 (n - (m.length - off)) = some (m.take (n - (m.length - off))) ∧
      m.drop off ++ m.take (n - (m.length - off)) = window m off n := by
  refine ⟨?_, ?_, ?_⟩
  · rw [slice_eq_some]
    refine ⟨by omega, ?_⟩
    rw [← List.length_drop, List.take_length]
  · rw [slice_eq_some]
    exact ⟨by omega, by rw [List.drop_zero]⟩
  · have hall : (m.drop off).take n = m.drop off :=
      List.take_of_length_le (by rw [List.length_drop]; omega)
    rw [window, List.rotate_eq_drop_append_take hoff, List.take_append, List.length_drop, hall,
      List.take_take, Nat.min_eq_left (by omega)]

/-! ## Writing -/

/-- `m'` is `m` with `bs` in the cells from `start` on, going round, and nothing else changed. -/
structure Stores (m m' : List α) (start : ℕ) (bs : List α) : Prop where
  length_eq : m'.length = m.length
  inside : ∀ i < bs.length, m'[(start + i) % m.length]? = bs[i]?
  outside : ∀ j < m.length, (∀ i < bs.length, j ≠ (start + i) % m.length) → m'[j]? = m[j]?

/-- One copy that stays inside the block. -/
theorem Stores.of_blit {start : ℕ} {bs : List α} (h : blit m start bs = some m') :
    Stores m m' start bs := by
  have hfit := (blit_eq_some.mp h).1
  have hcell : ∀ i < bs.length, (start + i) % m.length = start + i := fun i hi =>
    Nat.mod_eq_of_lt (by omega)
  refine ⟨blit_length h, fun i hi => ?_, fun j hj hne => ?_⟩
  · rw [hcell i hi]
    exact blit_getElem?_inside h hi
  · refine blit_getElem?_outside h ?_
    by_contra hin
    have hi : j - start < bs.length := by omega
    exact hne (j - start) hi (by rw [hcell _ hi]; omega)

/-- Two copies, one up to the end of the block and one at its front. -/
theorem Stores.of_blits {start : ℕ} {bs : List α} {m₁ : List α} (hstart : start < m.length)
    (hlen : bs.length ≤ m.length) (hround : m.length ≤ start + bs.length)
    (hfirst : blit m start (bs.take (m.length - start)) = some m₁)
    (hsecond : blit m₁ 0 (bs.drop (m.length - start)) = some m') : Stores m m' start bs := by
  have hlen₁ := blit_length hfirst
  have htake : (bs.take (m.length - start)).length = m.length - start := by
    rw [List.length_take]
    omega
  have hdrop : (bs.drop (m.length - start)).length = bs.length - (m.length - start) :=
    List.length_drop
  refine ⟨(blit_length hsecond).trans hlen₁, fun i hi => ?_, fun j hj hne => ?_⟩
  · by_cases hend : i < m.length - start
    · -- a cell of the first copy; the second one ends before it
      rw [Nat.mod_eq_of_lt (by omega), blit_getElem?_outside hsecond (by omega),
        blit_getElem?_inside hfirst (by omega), List.getElem?_take, if_pos hend]
    · have hmod : (start + i) % m.length = i - (m.length - start) := by
        rw [show start + i = i - (m.length - start) + m.length by omega, Nat.add_mod_right,
          Nat.mod_eq_of_lt (by omega)]
      have hcell := blit_getElem?_inside hsecond
        (show i - (m.length - start) < (bs.drop (m.length - start)).length by omega)
      rw [Nat.zero_add, List.getElem?_drop] at hcell
      rw [hmod, hcell]
      congr 1
      omega
  · by_cases hfront : j < bs.length - (m.length - start)
    · refine absurd ?_ (hne (j + (m.length - start)) (by omega))
      rw [show start + (j + (m.length - start)) = j + m.length by omega, Nat.add_mod_right,
        Nat.mod_eq_of_lt hj]
    by_cases hback : start ≤ j
    · refine absurd ?_ (hne (j - start) (by omega))
      rw [show start + (j - start) = j by omega, Nat.mod_eq_of_lt hj]
    rw [blit_getElem?_outside hsecond (by omega), blit_getElem?_outside hfirst (by omega)]

/-- What is stored behind a window extends it. -/
theorem Stores.window {bs : List α} (h : Stores m m' ((off + len) % m.length) bs)
    (hfit : len + bs.length ≤ m.length) :
    window m' off (len + bs.length) = window m off len ++ bs := by
  have hlen := h.length_eq
  have hwindow : (BlockRing.window m off len).length = len := window_length (by omega)
  apply List.ext_getElem?
  intro i
  by_cases hi : i < len + bs.length
  · rw [window_getElem? (by omega) hi, hlen]
    by_cases hold : i < len
    · rw [List.getElem?_append_left (by omega), window_getElem? (by omega) hold]
      refine h.outside _ (Nat.mod_lt _ (by omega)) fun k hk heq => ?_
      rw [Nat.mod_add_mod, Nat.add_assoc] at heq
      have hsame := CircularQueue.add_mod_inj (by omega) (by omega) heq
      omega
    · rw [List.getElem?_append_right (by omega), hwindow, ← h.inside (i - len) (by omega),
        Nat.mod_add_mod, Nat.add_assoc, Nat.add_sub_cancel' (by omega)]
  · rw [List.getElem?_eq_none (by rw [window_length (by omega)]; omega),
      List.getElem?_eq_none (by rw [List.length_append]; omega)]

end MtcpStack.BlockRing
