import Mathlib.Algebra.Order.Group.Nat
import Mathlib.Data.Nat.Log
import Mathlib.Tactic.Ring

/-! # Numbers of bounded precision

Rounding a natural number to `p` significant binary digits, to the nearest with ties to even,
and the numbers that this leaves as they are. -/

namespace Binary

/-- The quotient of `n` by `2 ^ k` to the nearest, a tie going to the even quotient. -/
def shiftEven (n k : ℕ) : ℕ :=
  let q := n / 2 ^ k
  let r := n % 2 ^ k
  if 2 * r < 2 ^ k ∨ 2 * r = 2 ^ k ∧ q % 2 = 0 then q else q + 1

/-- How many binary digits `n` has beyond `p`. -/
def excess (p n : ℕ) : ℕ := n.log2 + 1 - p

/-- The number of `p` significant binary digits nearest to `n`. -/
def roundEven (p n : ℕ) : ℕ := shiftEven n (excess p n) * 2 ^ excess p n

/-- `n` is written with at most `p` significant binary digits. -/
def Fits (p n : ℕ) : Prop := ∃ m k, m < 2 ^ p ∧ n = m * 2 ^ k

theorem fits_of_lt {p n : ℕ} (h : n < 2 ^ p) : Fits p n :=
  ⟨n, 0, h, by simp⟩

/-- A number of at most `p` significant digits ends in as many zeros as it has digits beyond. -/
theorem Fits.dvd {p n : ℕ} (h : Fits p n) : 2 ^ excess p n ∣ n := by
  obtain ⟨m, k, hm, rfl⟩ := h
  by_cases hzero : m = 0
  · simp [hzero]
  · have hlt : m * 2 ^ k < 2 ^ (p + k) := by
      rw [pow_add]
      exact Nat.mul_lt_mul_of_pos_right hm (Nat.two_pow_pos k)
    have hne : m * 2 ^ k ≠ 0 := Nat.mul_ne_zero hzero (Nat.two_pow_pos k).ne'
    have hlog : (m * 2 ^ k).log2 < p + k := (Nat.log2_lt hne).mpr hlt
    have hexcess : excess p (m * 2 ^ k) ≤ k := by
      unfold excess
      omega
    exact Dvd.dvd.mul_left (pow_dvd_pow 2 hexcess) m

theorem shiftEven_of_dvd {n k : ℕ} (h : 2 ^ k ∣ n) : shiftEven n k = n / 2 ^ k := by
  have hmod : n % 2 ^ k = 0 := Nat.mod_eq_zero_of_dvd h
  simp [shiftEven, hmod]

/-- Rounding leaves every number that fits as it is. -/
theorem roundEven_of_fits {p n : ℕ} (h : Fits p n) : roundEven p n = n := by
  rw [roundEven, shiftEven_of_dvd h.dvd, Nat.div_mul_cancel h.dvd]

/-- Rounding leaves no other number as it is: what it leaves is a multiple of the power of two
that the excess asks for. -/
theorem roundEven_eq_iff {p n : ℕ} : roundEven p n = n ↔ Fits p n := by
  refine ⟨fun h => ⟨n / 2 ^ excess p n, excess p n, ?_, ?_⟩, roundEven_of_fits⟩
  · have hpower : n < 2 ^ (p + excess p n) :=
      calc n < 2 ^ (n.log2 + 1) := Nat.lt_log2_self
        _ ≤ 2 ^ (p + excess p n) := Nat.pow_le_pow_right two_pos (by unfold excess; omega)
    rw [pow_add] at hpower
    exact Nat.div_lt_of_lt_mul (Nat.mul_comm _ _ ▸ hpower)
  · have hdvd : 2 ^ excess p n ∣ n := Dvd.intro_left _ h
    exact (Nat.div_mul_cancel hdvd).symm

end Binary
