import Mathlib.Data.List.Basic

/-! # Checked copies inside a block of memory

A block is a list. `slice` reads `n` cells from an offset and `blit` writes a list at an
offset; both fail when the cells do not lie inside the block. `cell` lemmas say what every
single cell of the result is. -/

namespace MtcpStack.Slice

variable {α : Type*}

/-- `n` cells of the block `m` from offset `off`, if they lie inside `m`. -/
def slice (m : List α) (off n : ℕ) : Option (List α) :=
  if off + n ≤ m.length then some ((m.drop off).take n) else none

/-- The block `m` with the cells from `off` overwritten by `src`, if they lie inside `m`. -/
def blit (m : List α) (off : ℕ) (src : List α) : Option (List α) :=
  if off + src.length ≤ m.length then
    some (m.take off ++ src ++ m.drop (off + src.length))
  else none

theorem slice_eq_some {m xs : List α} {off n : ℕ} :
    slice m off n = some xs ↔ off + n ≤ m.length ∧ (m.drop off).take n = xs := by
  simp only [slice, Option.ite_none_right_eq_some, Option.some.injEq]

theorem slice_length {m xs : List α} {off n : ℕ} (h : slice m off n = some xs) :
    xs.length = n := by
  obtain ⟨hle, rfl⟩ := slice_eq_some.mp h
  simp
  omega

theorem slice_getElem? {m xs : List α} {off n i : ℕ} (h : slice m off n = some xs)
    (hi : i < n) : xs[i]? = m[off + i]? := by
  obtain ⟨-, rfl⟩ := slice_eq_some.mp h
  simp [hi]

theorem blit_eq_some {m m' src : List α} {off : ℕ} :
    blit m off src = some m' ↔ off + src.length ≤ m.length ∧
      m.take off ++ src ++ m.drop (off + src.length) = m' := by
  simp only [blit, Option.ite_none_right_eq_some, Option.some.injEq]

theorem blit_length {m m' src : List α} {off : ℕ} (h : blit m off src = some m') :
    m'.length = m.length := by
  obtain ⟨hle, rfl⟩ := blit_eq_some.mp h
  simp
  omega

theorem blit_getElem?_inside {m m' src : List α} {off i : ℕ} (h : blit m off src = some m')
    (hi : i < src.length) : m'[off + i]? = src[i]? := by
  obtain ⟨hle, rfl⟩ := blit_eq_some.mp h
  have htake : (m.take off).length = off := by
    simp
    omega
  rw [List.append_assoc, List.getElem?_append_right (by omega), htake,
    Nat.add_sub_cancel_left, List.getElem?_append_left hi]

theorem blit_getElem?_outside {m m' src : List α} {off i : ℕ} (h : blit m off src = some m')
    (hi : i < off ∨ off + src.length ≤ i) : m'[i]? = m[i]? := by
  obtain ⟨hle, rfl⟩ := blit_eq_some.mp h
  have htake : (m.take off).length = off := by
    simp
    omega
  rcases hi with hi | hi
  · rw [List.append_assoc, List.getElem?_append_left (by omega), List.getElem?_take, if_pos hi]
  · rw [List.getElem?_append_right (by simp; omega)]
    simp only [List.length_append, htake, List.getElem?_drop]
    congr 1
    omega

/-- Bytes written behind a slice extend it. -/
theorem slice_blit_append {m m' xs src : List α} {off n : ℕ}
    (hslice : slice m off n = some xs) (hblit : blit m (off + n) src = some m') :
    slice m' off (n + src.length) = some (xs ++ src) := by
  obtain ⟨hle, rfl⟩ := slice_eq_some.mp hslice
  obtain ⟨hfit, rfl⟩ := blit_eq_some.mp hblit
  rw [slice_eq_some]
  refine ⟨?_, ?_⟩
  · simp only [List.length_append, List.length_take, List.length_drop]
    omega
  · apply List.ext_getElem?
    intro i
    simp only [List.getElem?_take, List.getElem?_drop, List.getElem?_append, List.length_append,
      List.length_take, List.length_drop]
    grind

/-- A slice moved to the front of the block reads back there. -/
theorem slice_blit_front {m m' xs : List α} (hblit : blit m 0 xs = some m') :
    slice m' 0 xs.length = some xs := by
  obtain ⟨hle, rfl⟩ := blit_eq_some.mp hblit
  simp [slice_eq_some]

theorem slice_drop {m xs : List α} {off n k : ℕ} (h : slice m off n = some xs) (hk : k ≤ n) :
    slice m (off + k) (n - k) = some (xs.drop k) := by
  obtain ⟨hle, rfl⟩ := slice_eq_some.mp h
  rw [slice_eq_some]
  refine ⟨by omega, ?_⟩
  rw [List.drop_take, List.drop_drop]

theorem slice_take {m xs : List α} {off n k : ℕ} (h : slice m off n = some xs) (hk : k ≤ n) :
    slice m off k = some (xs.take k) := by
  obtain ⟨hle, rfl⟩ := slice_eq_some.mp h
  rw [slice_eq_some]
  refine ⟨by omega, ?_⟩
  rw [List.take_take, Nat.min_eq_left hk]

end MtcpStack.Slice
