import Mathlib.Data.BitVec
import Mathlib.Tactic.Linarith
import Mathlib.Tactic.Ring

/-! # Serial numbers

Numbers of a fixed width that wrap around, as used for sequence numbers and clock ticks.
`seqAt b n` is the serial number `n` places after `b`. Two numbers written in this form
with the same base compare, through the sign of their difference, as their places do, as long
as the places are less than half the number space apart. -/

namespace MtcpStack.Serial

variable {w : ℕ}

/-- The serial number `n` places after `b`. -/
def seqAt (b : BitVec w) (n : ℕ) : BitVec w := b + BitVec.ofNat w n

@[simp] theorem seqAt_zero (b : BitVec w) : seqAt b 0 = b := by
  simp [seqAt]

theorem seqAt_add (b : BitVec w) (m n : ℕ) : seqAt b (m + n) = seqAt b m + BitVec.ofNat w n := by
  simp [seqAt, BitVec.ofNat_add, BitVec.add_assoc]

theorem seqAt_seqAt (b : BitVec w) (m n : ℕ) : seqAt (seqAt b m) n = seqAt b (m + n) := by
  rw [seqAt_add]
  rfl

theorem seqAt_sub_seqAt (b : BitVec w) (x y : ℕ) :
    seqAt b x - seqAt b y = BitVec.ofInt w ((x : ℤ) - y) := by
  rw [seqAt, seqAt, add_sub_add_left_eq_sub, sub_eq_add_neg (x : ℤ), BitVec.ofInt_add,
    BitVec.ofInt_neg, BitVec.ofInt_natCast, BitVec.ofInt_natCast, sub_eq_add_neg]

/-- Every serial number is some number of places after a given base. -/
theorem exists_seqAt (b a : BitVec w) : ∃ n, n < 2 ^ w ∧ a = seqAt b n :=
  ⟨(a - b).toNat, BitVec.isLt _, by rw [seqAt, BitVec.ofNat_toNat, BitVec.setWidth_eq]; ring⟩

/-! ## Distances -/

theorem toNat_seqAt_sub_seqAt {b : BitVec w} {x y : ℕ} (hle : y ≤ x) (hlt : x - y < 2 ^ w) :
    (seqAt b x - seqAt b y).toNat = x - y := by
  rw [seqAt_sub_seqAt, ← Nat.cast_sub hle, BitVec.ofInt_natCast, BitVec.toNat_ofNat,
    Nat.mod_eq_of_lt hlt]

theorem toNat_seqAt_sub {b : BitVec w} {x : ℕ} (hx : x < 2 ^ w) : (seqAt b x - b).toNat = x := by
  rw [seqAt, add_sub_cancel_left, BitVec.toNat_ofNat, Nat.mod_eq_of_lt hx]

theorem toInt_seqAt_sub_seqAt {b : BitVec w} {x y : ℕ} (hw : 0 < w)
    (hlo : (y : ℤ) - x ≤ 2 ^ (w - 1)) (hhi : (x : ℤ) - y < 2 ^ (w - 1)) :
    (seqAt b x - seqAt b y).toInt = (x : ℤ) - y := by
  obtain ⟨k, rfl⟩ : ∃ k, w = k + 1 := ⟨w - 1, by omega⟩
  simp only [Nat.add_sub_cancel] at hlo hhi
  rw [seqAt_sub_seqAt, BitVec.toInt_ofInt]
  have hpow : ((2 ^ (k + 1) : ℕ) : ℤ) = 2 * 2 ^ k := by
    push_cast
    ring
  have hpos : (0 : ℤ) < 2 ^ k := by positivity
  apply Int.bmod_eq_of_le
  · rw [hpow]
    omega
  · rw [hpow]
    omega

theorem toInt_ofNat_of_lt {n : ℕ} (h : 2 * n < 2 ^ w) : (BitVec.ofNat w n).toInt = n := by
  have hn : (BitVec.ofNat w n).toNat = n := by
    rw [BitVec.toNat_ofNat, Nat.mod_eq_of_lt (by omega)]
  rw [BitVec.toInt_eq_toNat_of_lt (by rw [hn]; exact h), hn]

/-- A number that does not compare below `seqAt b x` is less than half the number space after
it. -/
theorem lt_half_of_toInt_nonneg {b : BitVec w} {x n : ℕ} (hn : n < 2 ^ w)
    (h : 0 ≤ (seqAt b (x + n) - seqAt b x).toInt) : 2 * n < 2 ^ w := by
  have hdist : (seqAt b (x + n) - seqAt b x).toNat = n := by
    rw [toNat_seqAt_sub_seqAt (Nat.le_add_right x n) (by omega), Nat.add_sub_cancel_left]
  rw [BitVec.toInt_eq_toNat_cond, hdist] at h
  by_contra hge
  rw [if_neg hge] at h
  have : ((2 ^ w : ℕ) : ℤ) ≤ n := by omega
  omega

theorem seqAt_inj {b : BitVec w} {x y : ℕ} (hx : x < y + 2 ^ w) (hy : y < x + 2 ^ w) :
    seqAt b x = seqAt b y ↔ x = y := by
  refine ⟨fun h => ?_, fun h => by rw [h]⟩
  rcases le_total x y with hle | hle
  · have hd := toNat_seqAt_sub_seqAt (b := b) hle (by omega)
    rw [h, sub_self] at hd
    simp at hd
    omega
  · have hd := toNat_seqAt_sub_seqAt (b := b) hle (by omega)
    rw [h, sub_self] at hd
    simp at hd
    omega

/-! ## Moving forward -/

/-- `b` is at most `n` places after `a`. -/
def Within (n : ℕ) (a b : BitVec w) : Prop := ∃ k ≤ n, b = seqAt a k

theorem Within.refl (n : ℕ) (a : BitVec w) : Within n a a := ⟨0, Nat.zero_le n, (seqAt_zero a).symm⟩

theorem Within.trans {m n : ℕ} {a b c : BitVec w} (h : Within m a b) (h' : Within n b c) :
    Within (m + n) a c := by
  obtain ⟨k, hk, rfl⟩ := h
  obtain ⟨k', hk', rfl⟩ := h'
  exact ⟨k + k', by omega, seqAt_seqAt a k k'⟩

theorem Within.mono {m n : ℕ} {a b : BitVec w} (h : Within m a b) (hle : m ≤ n) : Within n a b := by
  obtain ⟨k, hk, hb⟩ := h
  exact ⟨k, hk.trans hle, hb⟩

/-- Less than half the number space ahead is not behind. -/
theorem Within.toInt_nonneg {n : ℕ} {a b : BitVec w} (h : Within n a b) (hn : 2 * n < 2 ^ w) :
    0 ≤ (b - a).toInt := by
  obtain ⟨k, hk, rfl⟩ := h
  rw [seqAt, add_sub_cancel_left, toInt_ofNat_of_lt (by omega)]
  omega

end MtcpStack.Serial
