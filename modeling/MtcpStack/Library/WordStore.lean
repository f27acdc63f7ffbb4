import Mathlib.Data.BitVec
import Mathlib.Data.List.Basic

/-! # Words in a byte memory

A word of `n` bytes at an address, least significant byte first. -/

namespace MtcpStack.WordStore

def readWord (mem : ℕ → BitVec 8) : ℕ → ℕ → ℕ
  | _, 0 => 0
  | a, n + 1 => (mem a).toNat + 256 * readWord mem (a + 1) n

def writeWord (mem : ℕ → BitVec 8) : ℕ → ℕ → ℕ → ℕ → BitVec 8
  | _, 0, _ => mem
  | a, n + 1, x => writeWord (Function.update mem a (BitVec.ofNat 8 x)) (a + 1) n (x / 256)

variable {mem mem' : ℕ → BitVec 8} {a b n m x : ℕ}

theorem readWord_congr (h : ∀ k, a ≤ k → k < a + n → mem' k = mem k) :
    readWord mem' a n = readWord mem a n := by
  induction n generalizing a with
  | zero => rfl
  | succ n ih =>
    rw [readWord, readWord, h a le_rfl (by omega), ih fun k hlo hhi => h k (by omega) (by omega)]

theorem readWord_lt : readWord mem a n < 256 ^ n := by
  induction n generalizing a with
  | zero => exact Nat.one_pos
  | succ n ih =>
    have hrest := ih (a := a + 1)
    rw [readWord, pow_succ]
    omega

theorem writeWord_outside {k : ℕ} (h : k < a ∨ a + n ≤ k) : writeWord mem a n x k = mem k := by
  induction n generalizing mem a x with
  | zero => rfl
  | succ n ih => rw [writeWord, ih (by omega), Function.update_of_ne (by omega)]

theorem readWord_writeWord (h : x < 256 ^ n) : readWord (writeWord mem a n x) a n = x := by
  induction n generalizing mem a x with
  | zero =>
    rw [pow_zero] at h
    rw [readWord]
    omega
  | succ n ih =>
    rw [pow_succ] at h
    rw [writeWord, readWord, ih (by omega), writeWord_outside (by omega), Function.update_self,
      BitVec.toNat_ofNat]
    omega

theorem readWord_writeWord_disjoint (h : a + n ≤ b ∨ b + m ≤ a) :
    readWord (writeWord mem a n x) b m = readWord mem b m :=
  readWord_congr fun _ hlo hhi => writeWord_outside (by omega)

end MtcpStack.WordStore
