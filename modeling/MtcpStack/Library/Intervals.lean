import Mathlib.Data.List.Basic
import Mathlib.Order.Basic
import Mathlib.Order.Lattice

/-! # Sets of places kept as sorted intervals

A finite set of natural numbers is kept as a list of half-open intervals in increasing order,
none empty and no two touching. `insertIv` adds an interval, absorbing all it overlaps or
touches. -/

namespace MtcpStack.Intervals

/-- The places from the first number up to, not including, the second. -/
abbrev Interval := ℕ × ℕ

def Covers (l : List Interval) (i : ℕ) : Prop := ∃ p ∈ l, p.1 ≤ i ∧ i < p.2

/-- The intervals start at `k` or later, are not empty and leave gaps between them. -/
def Canonical : ℕ → List Interval → Prop
  | _, [] => True
  | k, p :: l => k ≤ p.1 ∧ p.1 < p.2 ∧ Canonical (p.2 + 1) l

/-- Adds the interval `x`. -/
def insertIv (x : Interval) : List Interval → List Interval
  | [] => [x]
  | p :: l =>
    if x.2 < p.1 then x :: p :: l
    else if p.2 < x.1 then p :: insertIv x l
    else insertIv (min x.1 p.1, max x.2 p.2) l

/-- How many places from `k` on are covered by the first interval. -/
def prefixLen (k : ℕ) : List Interval → ℕ
  | [] => 0
  | p :: _ => if p.1 = k then p.2 - k else 0

/-- The list without its first `n` places, all of which lie in the first interval. -/
def dropFirst (n : ℕ) : List Interval → List Interval
  | [] => []
  | p :: l => if p.1 + n = p.2 then l else (p.1 + n, p.2) :: l

/-! ## Canonical lists -/

variable {l : List Interval}

theorem Canonical.mono {j k : ℕ} (hjk : j ≤ k) (h : Canonical k l) :
    Canonical j l := by
  cases l with
  | nil => trivial
  | cons p l =>
      obtain ⟨hk, hp, hl⟩ := h
      exact ⟨hjk.trans hk, hp, hl⟩

theorem Canonical.bounds {k : ℕ} (h : Canonical k l) {p : Interval}
    (hp : p ∈ l) : k ≤ p.1 ∧ p.1 < p.2 := by
  induction l generalizing k with
  | nil => simp at hp
  | cons q l ih =>
      obtain ⟨hk, hq, hl⟩ := h
      rcases List.mem_cons.mp hp with rfl | hp
      · exact ⟨hk, hq⟩
      · have hb := ih hl hp
        omega

/-- Every interval ends before the next one starts, with a gap between them. -/
theorem Canonical.pairwise {k : ℕ} (h : Canonical k l) :
    l.Pairwise fun p q => p.2 < q.1 := by
  induction l generalizing k with
  | nil => exact .nil
  | cons p l ih =>
      obtain ⟨-, -, hl⟩ := h
      exact .cons (fun q hq => (hl.bounds hq).1) (ih hl)

theorem Canonical.le_of_covers {k i : ℕ} (h : Canonical k l) (hi : Covers l i) : k ≤ i := by
  obtain ⟨p, hp, hlo, -⟩ := hi
  exact (h.bounds hp).1.trans hlo

@[simp] theorem covers_nil (i : ℕ) : ¬ Covers [] i := by
  simp [Covers]

theorem covers_cons (p : Interval) (l : List Interval) (i : ℕ) :
    Covers (p :: l) i ↔ (p.1 ≤ i ∧ i < p.2) ∨ Covers l i := by
  simp [Covers]

/-! ## Insertion -/

theorem insertIv_canonical {k : ℕ} {x : Interval} (h : Canonical k l)
    (hk : k ≤ x.1) (hx : x.1 < x.2) : Canonical k (insertIv x l) := by
  induction l generalizing k x with
  | nil => exact ⟨hk, hx, trivial⟩
  | cons p l ih =>
      obtain ⟨hkp, hp, hl⟩ := h
      unfold insertIv
      split
      case isTrue hlt => exact ⟨hk, hx, by omega, hp, hl⟩
      case isFalse hlt =>
        split
        case isTrue hgt => exact ⟨hkp, hp, ih hl (by omega) hx⟩
        case isFalse hgt => exact ih (hl.mono (by omega)) (by simp; omega) (by simp; omega)

theorem covers_insertIv {k : ℕ} {x : Interval} (h : Canonical k l) (i : ℕ) :
    Covers (insertIv x l) i ↔ (x.1 ≤ i ∧ i < x.2) ∨ Covers l i := by
  induction l generalizing k x with
  | nil => simp [insertIv, Covers]
  | cons p l ih =>
      obtain ⟨hkp, hp, hl⟩ := h
      unfold insertIv
      split
      case isTrue hlt => rw [covers_cons]
      case isFalse hlt =>
        split
        case isTrue hgt =>
          rw [covers_cons, ih hl, covers_cons]
          tauto
        case isFalse hgt =>
          rw [ih hl, covers_cons, ← or_assoc]
          refine or_congr_left ?_
          simp only [inf_le_iff, lt_sup_iff]
          omega

theorem insertIv_bound {b : ℕ} {x : Interval} (hx : x.2 ≤ b)
    (h : ∀ p ∈ l, p.2 ≤ b) : ∀ p ∈ insertIv x l, p.2 ≤ b := by
  induction l generalizing x with
  | nil => simpa [insertIv] using hx
  | cons q l ih =>
      have hq : q.2 ≤ b := h q List.mem_cons_self
      have hl : ∀ p ∈ l, p.2 ≤ b := fun p hp => h p (List.mem_cons_of_mem q hp)
      unfold insertIv
      split
      case isTrue hlt => exact List.forall_mem_cons.mpr ⟨hx, h⟩
      case isFalse hlt =>
        split
        case isTrue hgt => exact List.forall_mem_cons.mpr ⟨hq, ih hx hl⟩
        case isFalse hgt => exact ih (max_le hx hq) hl

theorem insertIv_ne_nil (x : Interval) (l : List Interval) : insertIv x l ≠ [] := by
  induction l generalizing x with
  | nil => simp [insertIv]
  | cons p l ih =>
      unfold insertIv
      split
      · simp
      · split
        · simp
        · exact ih _

/-! ## The covered prefix -/

theorem covers_of_lt_prefixLen {k i : ℕ} (hlo : k ≤ i)
    (hhi : i < k + prefixLen k l) : Covers l i := by
  cases l with
  | nil => simp [prefixLen] at hhi; omega
  | cons p l =>
      rw [covers_cons]
      simp only [prefixLen] at hhi
      split at hhi <;> omega

theorem not_covers_prefixLen {k : ℕ} (h : Canonical k l) :
    ¬ Covers l (k + prefixLen k l) := by
  cases l with
  | nil => simp
  | cons p l =>
      obtain ⟨hkp, hp, hl⟩ := h
      rw [covers_cons]
      rintro (hc | hc)
      · simp only [prefixLen] at hc
        split at hc <;> omega
      · have hle := hl.le_of_covers hc
        simp only [prefixLen] at hle
        split at hle <;> omega

theorem prefixLen_pos {k : ℕ} (h : Canonical k l) :
    0 < prefixLen k l ↔ Covers l k := by
  refine ⟨fun hpos => covers_of_lt_prefixLen le_rfl (by omega), fun hc => ?_⟩
  by_contra hzero
  have hend := not_covers_prefixLen h
  rw [Nat.eq_zero_of_not_pos hzero] at hend
  exact hend hc

theorem prefixLen_le {k b : ℕ} (hk : k ≤ b) (h : ∀ p ∈ l, p.2 ≤ b) :
    k + prefixLen k l ≤ b := by
  cases l with
  | nil => simpa [prefixLen] using hk
  | cons p l =>
      have hp := h p List.mem_cons_self
      simp only [prefixLen]
      split <;> omega

/-! ## Dropping from the front -/

theorem dropFirst_canonical {k n : ℕ} (h : Canonical k l)
    (hn : n ≤ prefixLen k l) (hpos : 0 < n) : Canonical (k + n) (dropFirst n l) := by
  cases l with
  | nil => trivial
  | cons p l =>
      obtain ⟨hkp, hp, hl⟩ := h
      simp only [prefixLen] at hn
      simp only [dropFirst]
      split at hn
      case isFalse => omega
      case isTrue heq =>
        split
        · exact hl.mono (by omega)
        · exact ⟨by simp; omega, by simp; omega, hl⟩

theorem covers_dropFirst {k n i : ℕ} (h : Canonical k l) (hn : n ≤ prefixLen k l) (hpos : 0 < n) :
    Covers (dropFirst n l) i ↔ k + n ≤ i ∧ Covers l i := by
  cases l with
  | nil => simp [dropFirst]
  | cons p l =>
      obtain ⟨hkp, hp, hl⟩ := h
      simp only [prefixLen] at hn
      split at hn
      case isFalse => omega
      case isTrue heq =>
        rw [covers_cons]
        simp only [dropFirst]
        split
        case isTrue hend =>
          refine ⟨fun hc => ⟨?_, Or.inr hc⟩, fun hc => ?_⟩
          · have := hl.le_of_covers hc
            omega
          · exact hc.2.resolve_left (by omega)
        case isFalse hend =>
          rw [covers_cons]
          refine ⟨fun hc => ?_, fun hc => ?_⟩
          · rcases hc with hc | hc
            · exact ⟨by simp at hc; omega, Or.inl (by simp at hc; omega)⟩
            · have := hl.le_of_covers hc
              exact ⟨by omega, Or.inr hc⟩
          · rcases hc.2 with hin | hin
            · exact Or.inl ⟨by simp; omega, hin.2⟩
            · exact Or.inr hin

theorem prefixLen_dropFirst {k n : ℕ} (h : Canonical k l) (hn : n ≤ prefixLen k l) (hpos : 0 < n) :
    prefixLen (k + n) (dropFirst n l) = prefixLen k l - n := by
  cases l with
  | nil => simp [prefixLen, dropFirst]
  | cons p l =>
      obtain ⟨hkp, hp, hl⟩ := h
      simp only [prefixLen] at hn
      split at hn
      case isFalse => omega
      case isTrue heq =>
        subst heq
        have hfirst : prefixLen p.1 (p :: l) = p.2 - p.1 := by simp [prefixLen]
        rw [hfirst]
        simp only [dropFirst]
        split
        case isTrue hend =>
          cases l with
          | nil => simp [prefixLen]; omega
          | cons q l =>
              have hq := hl.1
              simp only [prefixLen]
              split <;> omega
        case isFalse hend =>
          simp only [prefixLen, if_true]
          omega

theorem dropFirst_bound {b n : ℕ} (h : ∀ p ∈ l, p.2 ≤ b) :
    ∀ p ∈ dropFirst n l, p.2 ≤ b := by
  cases l with
  | nil => exact h
  | cons q l =>
      have hq := h q List.mem_cons_self
      have hl : ∀ p ∈ l, p.2 ≤ b := fun p hp => h p (List.mem_cons_of_mem q hp)
      simp only [dropFirst]
      split
      · exact hl
      · exact List.forall_mem_cons.mpr ⟨hq, hl⟩

end MtcpStack.Intervals
