import Mathlib.Data.Nat.Basic
import Mathlib.Logic.Relation

/-! # Loops over an index

A loop walks over indices and carries a value along. Its body ends the loop with a result or
goes on from another index. -/

namespace MtcpStack.Scan

variable {σ ρ : Type*}

/-- The loop, cut off after `fuel` rounds. -/
def scan (body : ℕ → σ → ρ ⊕ (ℕ × σ)) : ℕ → ℕ → σ → Option ρ
  | 0, _, _ => none
  | fuel + 1, i, s =>
    match body i s with
    | .inl r => some r
    | .inr (j, s') => scan body fuel j s'

/-- One round that goes on. -/
def Round (body : ℕ → σ → ρ ⊕ (ℕ × σ)) (p q : ℕ × σ) : Prop := body p.1 p.2 = .inr q

/-- The loop comes from one index and value to another. -/
abbrev Visits (body : ℕ → σ → ρ ⊕ (ℕ × σ)) : ℕ × σ → ℕ × σ → Prop :=
  Relation.ReflTransGen (Round body)

variable {body : ℕ → σ → ρ ⊕ (ℕ × σ)}

/-- A loop whose index grows with every round, and that ends at `len` at the latest, ends. -/
theorem scan_isSome {len fuel i : ℕ} {s : σ}
    (hend : ∀ j t q, body j t = .inr q → j < len)
    (hup : ∀ p q, Visits body (i, s) p → Round body p q → p.1 < q.1) (hfuel : len - i < fuel) :
    (scan body fuel i s).isSome = true := by
  induction fuel generalizing i s with
  | zero => omega
  | succ fuel ih =>
      rw [scan]
      cases hbody : body i s with
      | inl r => rfl
      | inr q =>
          have hlt : i < q.1 := hup (i, s) q .refl hbody
          have hlen : i < len := hend i s q hbody
          exact ih (fun p r hp => hup p r (.head hbody hp)) (by omega)

/-- A loop that comes to a round that leads back to where it started never ends. -/
theorem scan_eq_none {p q : ℕ × σ} (hvisit : Visits body p q) (hstuck : Round body q q)
    (fuel : ℕ) : scan body fuel p.1 p.2 = none := by
  induction fuel generalizing p with
  | zero => rfl
  | succ fuel ih =>
      cases hvisit.cases_head with
      | inl heq =>
          subst heq
          rw [scan, show body p.1 p.2 = .inr p from hstuck]
          exact ih .refl
      | inr hround =>
          obtain ⟨r, hfirst, hrest⟩ := hround
          rw [scan, show body p.1 p.2 = .inr r from hfirst]
          exact ih hrest

/-- When the body goes on only below `len`, and each round moves the index forward unless it
leads back to where it started, the loop moves forward and ends exactly when it comes to no round
that leads back. -/
theorem scan_ends_iff {stuck : ℕ → σ → Prop} {len : ℕ} {p : ℕ × σ}
    (hend : ∀ j t q, body j t = .inr q → j < len)
    (hup : ∀ j t q, body j t = .inr q → ¬ stuck j t → j < q.1)
    (hstuck : ∀ j t, stuck j t → body j t = .inr (j, t)) :
    ((∀ q r, Visits body p q → Round body q r → q.1 < r.1) ∧
        ∀ fuel, len < fuel → (scan body fuel p.1 p.2).isSome = true)
      ↔ ∀ q, Visits body p q → ¬ stuck q.1 q.2 := by
  constructor
  · rintro ⟨hforward, -⟩ q hvisit hat
    exact lt_irrefl _ (hforward q q hvisit (hstuck q.1 q.2 hat))
  · intro hfree
    have hforward : ∀ q r, Visits body p q → Round body q r → q.1 < r.1 :=
      fun q r hvisit hround => hup q.1 q.2 r hround (hfree q hvisit)
    exact ⟨hforward, fun fuel hfuel => scan_isSome hend hforward (by omega)⟩

/-- Loops whose bodies agree wherever the first comes to have the same result. -/
theorem scan_congr {body' : ℕ → σ → ρ ⊕ (ℕ × σ)} {i : ℕ} {s : σ}
    (h : ∀ p, Visits body (i, s) p → body' p.1 p.2 = body p.1 p.2) (fuel : ℕ) :
    scan body' fuel i s = scan body fuel i s := by
  induction fuel generalizing i s with
  | zero => rfl
  | succ fuel ih =>
      rw [scan, scan, show body' i s = body i s from h (i, s) .refl]
      cases hbody : body i s with
      | inl r => rfl
      | inr q => exact ih fun p hp => h p (.head hbody hp)

end MtcpStack.Scan
