import Mathlib.Data.List.Nodup
import Mathlib.Logic.Function.Basic

/-! # Lists kept in the order of their stamps

A roll is a list of keys, with a flag for each key that says whether it is listed and a stamp. A key
that is stamped goes to the end of the list. As time does not go back, the list stays sorted by
its stamps, and what is due can be found from the front. -/

structure Roll (κ : Type*) where
  list : List κ
  on : κ → Bool
  stamp : κ → ℕ

namespace Roll

variable {κ : Type*} [DecidableEq κ]

/-- Stamps a key and puts it at the end. -/
def push (r : Roll κ) (i : κ) (now : ℕ) : Roll κ where
  list := (if r.on i then r.list.erase i else r.list) ++ [i]
  on := Function.update r.on i true
  stamp := Function.update r.stamp i now

/-- Takes a key off the list. -/
def drop (r : Roll κ) (i : κ) : Roll κ where
  list := r.list.erase i
  on := Function.update r.on i false
  stamp := r.stamp

/-- Stamps a key that stays where it is. -/
def mark (r : Roll κ) (i : κ) (now : ℕ) : Roll κ where
  list := r.list
  on := r.on
  stamp := Function.update r.stamp i now

/-- The flags are right, no stamp lies ahead of `now`, and the list is sorted. -/
structure Ok (now : ℕ) (r : Roll κ) : Prop where
  nodup : r.list.Nodup
  mem_iff : ∀ i, i ∈ r.list ↔ r.on i = true
  stamp_le : ∀ i ∈ r.list, r.stamp i ≤ now
  sorted : r.list.Pairwise fun i j => r.stamp i ≤ r.stamp j

variable {r : Roll κ} {now : ℕ} {i : κ}

omit [DecidableEq κ] in
theorem Ok.later (h : r.Ok now) {now' : ℕ} (hle : now ≤ now') : r.Ok now' :=
  { h with stamp_le := fun i hi => Nat.le_trans (h.stamp_le i hi) hle }

omit [DecidableEq κ] in
theorem ok_empty (stamp : κ → ℕ) : (⟨[], fun _ => false, stamp⟩ : Roll κ).Ok now where
  nodup := .nil
  mem_iff := by simp
  stamp_le := by simp
  sorted := .nil

/-- The list a key is appended to does not have it. -/
theorem Ok.pushed_list (h : r.Ok now) (i : κ) :
    (if r.on i then r.list.erase i else r.list) = r.list.erase i := by
  split
  · rfl
  · rename_i hoff
    have hi : i ∉ r.list := fun hi => hoff ((h.mem_iff i).1 hi)
    exact (List.erase_of_not_mem hi).symm

theorem Ok.push (h : r.Ok now) (i : κ) : (r.push i now).Ok now := by
  have hlist : (r.push i now).list = r.list.erase i ++ [i] := by
    rw [Roll.push, h.pushed_list]
  have hne : ∀ j ∈ r.list.erase i, j ≠ i := fun j hj hji => h.nodup.not_mem_erase (hji ▸ hj)
  have hkept : ∀ j ∈ r.list.erase i, (r.push i now).stamp j = r.stamp j := fun j hj =>
    Function.update_of_ne (hne j hj) _ _
  have hnew : (r.push i now).stamp i = now := Function.update_self ..
  refine ⟨?_, ?_, ?_, ?_⟩
  · rw [hlist, List.nodup_append]
    refine ⟨h.nodup.erase i, List.nodup_singleton i, ?_⟩
    simpa using hne
  · intro j
    rw [hlist]
    by_cases hj : j = i
    · simp [hj, Roll.push]
    · simp [hj, Roll.push, List.mem_erase_of_ne hj, h.mem_iff]
  · intro j hj
    rw [hlist, List.mem_append, List.mem_singleton] at hj
    rcases hj with hj | rfl
    · rw [hkept j hj]
      exact h.stamp_le j (List.mem_of_mem_erase hj)
    · exact Nat.le_of_eq hnew
  · rw [hlist, List.pairwise_append]
    refine ⟨?_, List.pairwise_singleton _ _, ?_⟩
    · refine (h.sorted.sublist List.erase_sublist).imp_of_mem fun {j k} hj hk hjk => ?_
      rwa [hkept j hj, hkept k hk]
    · intro j hj k hk
      obtain rfl := List.mem_singleton.1 hk
      rw [hkept j hj, hnew]
      exact h.stamp_le j (List.mem_of_mem_erase hj)

theorem Ok.drop (h : r.Ok now) (i : κ) : (r.drop i).Ok now where
  nodup := h.nodup.erase i
  mem_iff j := by
    by_cases hj : j = i
    · simpa [hj, Roll.drop] using h.nodup.not_mem_erase
    · simp [hj, Roll.drop, List.mem_erase_of_ne hj, h.mem_iff]
  stamp_le j hj := h.stamp_le j (List.mem_of_mem_erase hj)
  sorted := h.sorted.sublist List.erase_sublist

theorem Ok.mark (h : r.Ok now) (hoff : r.on i = false) (stamp : ℕ) : (r.mark i stamp).Ok now := by
  have hkept : ∀ j ∈ r.list, (r.mark i stamp).stamp j = r.stamp j := by
    intro j hj
    refine Function.update_of_ne (fun hji => ?_) _ _
    simp [hji, h.mem_iff, hoff] at hj
  refine ⟨h.nodup, h.mem_iff, fun j hj => ?_, ?_⟩
  · rw [hkept j hj]
    exact h.stamp_le j hj
  · refine h.sorted.imp_of_mem fun {j k} hj hk hjk => ?_
    rwa [hkept j hj, hkept k hk]

/-- A key that is off the list may be replaced by another one that is. -/
theorem Ok.enter (h : r.Ok now) (hoff : r.on i = false) (stamp : ℕ) :
    Ok now ⟨r.list, Function.update r.on i false, Function.update r.stamp i stamp⟩ := by
  have hsame : Function.update r.on i false = r.on := by rw [← hoff, Function.update_eq_self]
  rw [hsame]
  exact h.mark hoff stamp

omit [DecidableEq κ] in
/-- What is due lies in front: a search that stops at the first key that is not due misses none. -/
theorem Ok.takeWhile_due (h : r.Ok now) {due : κ → Bool}
    (hdue : ∀ i ∈ r.list, ∀ j ∈ r.list, r.stamp i ≤ r.stamp j → due j = true → due i = true) :
    r.list.takeWhile due = r.list.filter due := by
  have hsorted := h.sorted
  generalize r.list = l at hsorted hdue
  induction hsorted with
  | nil => rfl
  | @cons i l hle hl ih =>
    by_cases hi : due i = true
    · have hrest := ih fun j hj k hk => hdue j (by simp [hj]) k (by simp [hk])
      rw [List.takeWhile_cons_of_pos hi, List.filter_cons_of_pos hi, hrest]
    · have hnone : l.filter due = [] := List.filter_eq_nil_iff.2 fun j hj hj' =>
        hi (hdue i (by simp) j (by simp [hj]) (hle j hj) hj')
      rw [List.takeWhile_cons_of_neg hi, List.filter_cons_of_neg hi, hnone]

end Roll
