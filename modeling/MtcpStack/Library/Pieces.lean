import Mathlib.Algebra.BigOperators.Group.List.Basic
import Mathlib.Algebra.GroupWithZero.Nat
import Mathlib.Data.Int.Notation

/-! # Copying in pieces

A loop that hands the pieces of a request to a copy function, one after the other. A copy says
how much of its piece it moved; the loop ends when a piece is moved in part or not at all. If all
the pieces draw on the same room, the loop moves what one copy of the whole request would. -/

namespace Pieces

variable {π σ : Type*} (size : π → ℕ) (copy : π → σ → σ × ℤ)

/-- Copies the pieces in order, skipping empty ones; `moved` counts what has been moved. -/
def copyAll : List π → ℤ → σ → σ × ℤ
  | [], moved, s => (s, moved)
  | p :: ps, moved, s =>
    if size p = 0 then copyAll ps moved s
    else
      let r := copy p s
      if r.2 ≤ 0 then (r.1, moved)
      else if r.2 < size p then (r.1, moved + r.2)
      else copyAll ps (moved + r.2) r.1

/-- The length of a request. -/
def total (ps : List π) : ℕ := (ps.map size).sum

@[simp] theorem total_nil : total size [] = 0 := rfl

@[simp] theorem total_cons (p : π) (ps : List π) : total size (p :: ps) = size p + total size ps :=
  List.sum_cons

@[simp] theorem total_append (ps qs : List π) :
    total size (ps ++ qs) = total size ps + total size qs := by
  simp [total]

/-- Copies that share `room`: after `t` units have been moved the state satisfies `P t`, and the
next piece of the request is moved as far as the rest of the room goes. -/
structure Fills (room : ℕ) (request : List π) (P : ℕ → σ → Prop) : Prop where
  move : ∀ {before p after s}, request = before ++ p :: after → 0 < size p →
    total size before < room → P (total size before) s →
    ∃ s', copy p s = (s', ((min (size p) (room - total size before) : ℕ) : ℤ)) ∧
      P (min (total size before + size p) room) s'
  full : ∀ {p s}, P room s → ∃ s' ret, copy p s = (s', ret) ∧ ret ≤ 0 ∧ P room s'

variable {size copy}

theorem Fills.copyAll_from {room : ℕ} {request : List π} {P : ℕ → σ → Prop}
    (h : Fills size copy room request P) (ps : List π) {before : List π} {s : σ}
    (hrequest : request = before ++ ps) (hroom : total size before ≤ room)
    (hstart : P (total size before) s) :
    ∃ s', copyAll size copy ps (total size before) s =
        (s', ((min (total size request) room : ℕ) : ℤ)) ∧ P (min (total size request) room) s' := by
  induction ps generalizing before s with
  | nil =>
    have hall : total size request = total size before := by simp [hrequest]
    rw [hall, Nat.min_eq_left hroom]
    exact ⟨s, rfl, hstart⟩
  | cons p ps ih =>
    have hnext : request = (before ++ [p]) ++ ps := by simp [hrequest]
    have hreach : total size before + size p ≤ total size request := by
      rw [hnext]
      simp
    unfold copyAll
    by_cases hempty : size p = 0
    · rw [if_pos hempty]
      have hsame : total size (before ++ [p]) = total size before := by simp [hempty]
      rw [← hsame]
      exact ih hnext (hsame ▸ hroom) (hsame ▸ hstart)
    rw [if_neg hempty]
    rcases Nat.lt_or_eq_of_le hroom with hleft | hfull
    · obtain ⟨s', hcopy, hmoved⟩ := h.move hrequest (by omega) hleft hstart
      simp only [hcopy]
      rw [if_neg (by omega)]
      split
      case isTrue hshort =>
        -- the room ends inside this piece
        have hend : min (total size request) room = room := by omega
        rw [show min (total size before + size p) room = room by omega] at hmoved
        rw [hend]
        exact ⟨s', by simp only [Prod.mk.injEq, true_and]; omega, hmoved⟩
      case isFalse hwhole =>
        have hsum : total size (before ++ [p]) = total size before + size p := by simp
        have hfit : total size before + size p ≤ room := by omega
        rw [Nat.min_eq_left hfit, ← hsum] at hmoved
        rw [show ((total size before : ℕ) : ℤ) + ((min (size p) (room - total size before) : ℕ) : ℤ) =
          ((total size (before ++ [p]) : ℕ) : ℤ) by omega]
        exact ih hnext (hsum ▸ hfit) hmoved
    · rw [hfull] at hstart ⊢
      obtain ⟨s', ret, hcopy, hret, hstay⟩ := h.full (p := p) hstart
      simp only [hcopy]
      rw [if_pos hret, show min (total size request) room = room by omega]
      exact ⟨s', rfl, hstay⟩

/-- Nothing is moved when no copy of a piece that is not empty moves anything. -/
theorem copyAll_refused {s s' : σ} {ret : ℤ} (hcopy : ∀ p, 0 < size p → copy p s = (s', ret))
    (hret : ret ≤ 0) (request : List π) (htotal : 0 < total size request) :
    copyAll size copy request 0 s = (s', 0) := by
  induction request with
  | nil => exact absurd htotal (Nat.lt_irrefl 0)
  | cons p ps ih =>
    unfold copyAll
    by_cases hempty : size p = 0
    · rw [if_pos hempty]
      exact ih (by simpa [hempty] using htotal)
    · rw [if_neg hempty, hcopy p (Nat.pos_of_ne_zero hempty)]
      exact if_pos hret

/-- The loop moves the whole request, or as much as there is room for. -/
theorem Fills.copyAll {room : ℕ} {request : List π} {P : ℕ → σ → Prop}
    (h : Fills size copy room request P) {s : σ} (hstart : P 0 s) :
    ∃ s', copyAll size copy request 0 s = (s', ((min (total size request) room : ℕ) : ℤ)) ∧
      P (min (total size request) room) s' :=
  h.copyAll_from request (List.nil_append _).symm (Nat.zero_le _) hstart

end Pieces
