import Mathlib.Logic.Basic

/-! # Runs with a note

A system takes one call after the other. A note is kept beside its state; it may say which calls
are allowed next. -/

namespace MtcpStack

/-- What a call does to the state and to the note, and when it is allowed. -/
structure Noting (σ κ ν : Type*) where
  apply : σ → κ → σ
  note : ν → σ → κ → ν
  allowed : ν → σ → κ → Bool

namespace Noting

variable {σ κ ν : Type*} {M : Noting σ κ ν} {s₀ s : σ} {n₀ n : ν}

/-- The states and notes of the runs from `s₀` and `n₀`. -/
inductive Run (M : Noting σ κ ν) (s₀ : σ) (n₀ : ν) : σ → ν → Prop
  | start : Run M s₀ n₀ s₀ n₀
  | call {s n c} (hrun : Run M s₀ n₀ s n) (hallowed : M.allowed n s c = true) :
      Run M s₀ n₀ (M.apply s c) (M.note n s c)

theorem Run.invariant {P : σ → ν → Prop} (hstart : P s₀ n₀)
    (hcall : ∀ {s n c}, P s n → M.allowed n s c = true → P (M.apply s c) (M.note n s c))
    (hrun : M.Run s₀ n₀ s n) : P s n := by
  induction hrun with
  | start => exact hstart
  | call _ hallowed ih => exact hcall ih hallowed

/-- The state and the note after a list of calls. -/
def after (M : Noting σ κ ν) (s : σ) (n : ν) (cs : List κ) : σ × ν :=
  cs.foldl (fun p c => (M.apply p.1 c, M.note p.2 p.1 c)) (s, n)

/-- All calls of the list are allowed in turn. -/
def legal (M : Noting σ κ ν) (s : σ) (n : ν) : List κ → Bool
  | [] => true
  | c :: cs => M.allowed n s c && M.legal (M.apply s c) (M.note n s c) cs

theorem Run.after (hrun : M.Run s₀ n₀ s n) {cs : List κ} (hlegal : M.legal s n cs = true) :
    M.Run s₀ n₀ (M.after s n cs).1 (M.after s n cs).2 := by
  induction cs generalizing s n with
  | nil => exact hrun
  | cons c cs ih =>
      obtain ⟨hallowed, hrest⟩ := Bool.and_eq_true_iff.mp hlegal
      exact ih (hrun.call hallowed) hrest

end Noting

end MtcpStack
