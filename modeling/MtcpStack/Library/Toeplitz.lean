import Mathlib.Data.BitVec
import Mathlib.Data.List.Basic

/-! # Toeplitz hashing

A Toeplitz hash is the exclusive or of the table entries at the positions of the set bits, the
most significant bit first. Entries may be combined in any order, so the hash of a permuted word
is the hash of the word under the permuted table. -/

namespace Toeplitz

variable {v w : ℕ}

/-- The table entries at the positions `ps` whose bit is set in `x`, combined with `acc`. -/
def mix (t : ℕ → BitVec v) (x : BitVec w) (ps : List ℕ) (acc : BitVec v) : BitVec v :=
  ps.foldl (fun acc i => if x.getMsbD i then acc ^^^ t i else acc) acc

/-- The hash of all bits of `x`. -/
def digest (t : ℕ → BitVec v) (x : BitVec w) : BitVec v := mix t x (List.range w) 0#v

/-- The accumulator can be taken out. -/
theorem mix_eq_xor (t : ℕ → BitVec v) (x : BitVec w) (ps : List ℕ) (acc : BitVec v) :
    mix t x ps acc = acc ^^^ mix t x ps 0#v := by
  induction ps generalizing acc with
  | nil => simp [mix]
  | cons i ps ih =>
      simp only [mix, List.foldl_cons] at ih ⊢
      rw [ih (if x.getMsbD i then acc ^^^ t i else acc), ih (if x.getMsbD i then 0#v ^^^ t i else 0#v)]
      split
      · rw [BitVec.zero_xor, BitVec.xor_assoc]
      · rw [BitVec.zero_xor]

/-- The order of the positions does not matter. -/
theorem mix_perm (t : ℕ → BitVec v) (x : BitVec w) {ps qs : List ℕ} (h : ps.Perm qs)
    (acc : BitVec v) : mix t x ps acc = mix t x qs acc := by
  have : RightCommutative fun (acc : BitVec v) (i : ℕ) =>
      if x.getMsbD i then acc ^^^ t i else acc := by
    refine ⟨fun a i j => ?_⟩
    split_ifs
    · rw [BitVec.xor_assoc, BitVec.xor_comm (t i), ← BitVec.xor_assoc]
    all_goals rfl
  exact h.foldl_eq acc

/-- Reading every bit and every entry at a moved position. -/
theorem mix_map (t : ℕ → BitVec v) (x : BitVec w) (f : ℕ → ℕ) (ps : List ℕ) (acc : BitVec v) :
    mix t x (ps.map f) acc =
      ps.foldl (fun acc i => if x.getMsbD (f i) then acc ^^^ t (f i) else acc) acc := by
  simp only [mix, List.foldl_map]

/-- Moving the bits of a word leaves the hash when the table has equal entries at the places a bit
moves between. -/
theorem digest_permuted (t : ℕ → BitVec v) {x y : BitVec w} (f : ℕ → ℕ)
    (hbits : ∀ i < w, y.getMsbD i = x.getMsbD (f i)) (htable : ∀ i < w, t (f i) = t i)
    (hperm : ((List.range w).map f).Perm (List.range w)) : digest t y = digest t x := by
  have hmoved : digest t y = mix t x ((List.range w).map f) 0#v := by
    rw [mix_map, digest, mix]
    refine List.foldl_ext _ _ _ fun acc i hi => ?_
    have hlt := List.mem_range.mp hi
    rw [hbits i hlt, htable i hlt]
  rw [hmoved, mix_perm t x hperm, digest]

end Toeplitz
