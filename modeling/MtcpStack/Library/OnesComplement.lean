import Mathlib.Data.Nat.ModEq
import Mathlib.Algebra.Order.Group.Nat
import Mathlib.Tactic.Ring

/-! # One's complement sums

Words below `b` are added with an end-around carry. The sum of a list of words is its sum as
natural numbers, reduced modulo `b - 1` to a word that is zero only when every word is. -/

namespace MtcpStack.OnesComplement

variable {b x y : ℕ}

/-- Addition with an end-around carry. -/
def add (b x y : ℕ) : ℕ := if x + y < b then x + y else x + y + 1 - b

/-- The one's complement sum of a list of words. -/
def sum (b : ℕ) (ws : List ℕ) : ℕ := ws.foldl (add b) 0

/-- The word that stands for `x`. -/
def residue (b x : ℕ) : ℕ := if x = 0 then 0 else (x - 1) % (b - 1) + 1

/-- The part of `x` above one word, added to the part below. -/
def carry (b x : ℕ) : ℕ := x / b + x % b

/-! ## Residues -/

theorem residue_lt (hb : 1 < b) : residue b x < b := by
  unfold residue
  split
  · omega
  · have := Nat.mod_lt (x - 1) (show 0 < b - 1 by omega)
    omega

theorem residue_pos (hx : 0 < x) : 0 < residue b x := by
  rw [residue, if_neg hx.ne']
  exact Nat.succ_pos _

theorem residue_modEq (b x : ℕ) : residue b x ≡ x [MOD b - 1] := by
  unfold residue
  split
  · next h => rw [h]
  · next h =>
      have hmod : (x - 1) % (b - 1) + 1 ≡ x - 1 + 1 [MOD b - 1] :=
        (Nat.mod_modEq (x - 1) (b - 1)).add_right 1
      rwa [Nat.sub_add_cancel (Nat.pos_of_ne_zero h)] at hmod

/-- A positive word is the residue of every positive number it is congruent to. -/
theorem residue_eq (hx : 0 < x) (hy : 0 < y) (hyb : y < b) (h : y ≡ x [MOD b - 1]) :
    residue b x = y := by
  have hmod : (y - 1) ≡ (x - 1) [MOD b - 1] := by
    refine Nat.ModEq.add_right_cancel' 1 ?_
    rwa [Nat.sub_add_cancel hx, Nat.sub_add_cancel hy]
  rw [residue, if_neg hx.ne', ← hmod, Nat.mod_eq_of_lt (by omega)]
  omega

theorem residue_congr (hb : 1 < b) (hx : 0 < x) (hy : 0 < y) (h : x ≡ y [MOD b - 1]) :
    residue b x = residue b y :=
  residue_eq hx (residue_pos hy) (residue_lt hb) ((residue_modEq b y).trans h.symm)

theorem residue_of_lt (hx : x < b) : residue b x = x := by
  rcases Nat.eq_zero_or_pos x with rfl | hpos
  · rfl
  · exact residue_eq hpos hpos hx rfl

/-- A positive multiple of `b - 1` is the word of ones. -/
theorem residue_of_dvd (hb : 1 < b) (hx : 0 < x) (h : b - 1 ∣ x) : residue b x = b - 1 :=
  residue_eq hx (by omega) (by omega)
    (((Nat.modEq_zero_iff_dvd).mpr (dvd_refl _)).trans ((Nat.modEq_zero_iff_dvd).mpr h).symm)

/-- What an end-around carry takes off is a multiple of `b - 1`. -/
theorem sub_modEq (hb : 0 < b) (hx : b ≤ x) : x + 1 - b ≡ x [MOD b - 1] := by
  have hmod : x + 1 - b + (b - 1) ≡ x + 1 - b [MOD b - 1] := Nat.add_modEq_right
  rw [show x + 1 - b + (b - 1) = x by omega] at hmod
  exact hmod.symm

/-! ## Sums -/

theorem add_eq_residue (hb : 1 < b) (hx : x < b) (hy : y < b) :
    add b x y = residue b (x + y) := by
  unfold add
  split
  · next h => rw [residue_of_lt h]
  · next h =>
      exact (residue_eq (by omega) (by omega) (by omega) (sub_modEq (by omega) (by omega))).symm

theorem add_residue (hb : 1 < b) (hy : y < b) :
    add b (residue b x) y = residue b (x + y) := by
  rw [add_eq_residue hb (residue_lt hb) hy]
  rcases Nat.eq_zero_or_pos x with rfl | hx
  · rfl
  · have hpos := residue_pos (b := b) hx
    exact residue_congr hb (by omega) (by omega) ((residue_modEq b x).add_right y)

theorem foldl_add_residue (hb : 1 < b) {ws : List ℕ} (hws : ∀ w ∈ ws, w < b) :
    ws.foldl (add b) (residue b x) = residue b (x + ws.sum) := by
  induction ws generalizing x with
  | nil => rfl
  | cons w ws ih =>
      rw [List.foldl_cons, add_residue hb (hws w List.mem_cons_self),
        ih fun v hv => hws v (List.mem_cons_of_mem w hv), List.sum_cons, Nat.add_assoc]

theorem sum_eq_residue (hb : 1 < b) {ws : List ℕ} (hws : ∀ w ∈ ws, w < b) :
    sum b ws = residue b ws.sum := by
  have hfold := foldl_add_residue (x := 0) hb hws
  rwa [Nat.zero_add] at hfold

/-! ## Folding -/

theorem carry_add_mul (hb : 0 < b) (x : ℕ) : carry b x + (b - 1) * (x / b) = x := by
  have hmul : b * (x / b) = (b - 1) * (x / b) + x / b := by
    rw [← Nat.succ_mul, Nat.succ_eq_add_one, Nat.sub_add_cancel hb]
  have hdiv := Nat.div_add_mod x b
  rw [carry]
  omega

theorem carry_modEq (hb : 0 < b) (x : ℕ) : carry b x ≡ x [MOD b - 1] := by
  have hmod : carry b x % (b - 1) = (carry b x + (b - 1) * (x / b)) % (b - 1) :=
    (Nat.add_mul_mod_self_left ..).symm
  rwa [carry_add_mul hb x] at hmod

theorem carry_pos (hb : 0 < b) (hx : 0 < x) : 0 < carry b x := by
  refine Nat.pos_of_ne_zero fun hzero => ?_
  have hdiv : x / b = 0 := (Nat.add_eq_zero_iff.mp hzero).1
  have hsplit := carry_add_mul hb x
  rw [hzero, hdiv] at hsplit
  omega

theorem carry_lt (hb : 0 < b) (hx : x < b * b) : carry b x < 2 * b - 1 := by
  have hdiv : x / b < b := Nat.div_lt_of_lt_mul hx
  have hmod : x % b < b := Nat.mod_lt x hb
  unfold carry
  omega

/-- Two rounds of folding reduce a double word to its residue. -/
theorem fold_twice (hb : 1 < b) (hx : x < b * b) :
    (carry b x + carry b x / b) % b = residue b x := by
  have hb' : 0 < b := by omega
  rcases Nat.eq_zero_or_pos x with rfl | hpos
  · simp [carry, residue]
  have hlt := carry_lt hb' hx
  by_cases hsmall : carry b x < b
  · rw [Nat.div_eq_of_lt hsmall, Nat.add_zero, Nat.mod_eq_of_lt hsmall]
    exact (residue_eq hpos (carry_pos hb' hpos) hsmall (carry_modEq hb' x)).symm
  · -- the second carry is one, and what remains is a word again
    have hdiv : carry b x / b = 1 := Nat.div_eq_of_lt_le (by omega) (by omega)
    have hword : (carry b x + 1) % b = carry b x + 1 - b := by
      rw [Nat.mod_eq_sub_mod (by omega), Nat.mod_eq_of_lt (by omega)]
    rw [hdiv, hword]
    refine (residue_eq hpos (by omega) (by omega) (.trans ?_ (carry_modEq hb' x))).symm
    exact sub_modEq (by omega) (by omega)

/-- A sum together with the complement of its residue is the word of ones. -/
theorem residue_add_complement (hb : 1 < b) (x : ℕ) :
    residue b (x + (b - 1 - residue b x)) = b - 1 := by
  rcases Nat.eq_zero_or_pos x with rfl | hx
  · rw [Nat.zero_add, residue_of_lt (show 0 < b by omega), residue_of_lt (by omega)]
    rfl
  have hlt := residue_lt (x := x) hb
  refine residue_of_dvd hb (by omega) ((Nat.modEq_zero_iff_dvd).mp ?_)
  have hsum : residue b x + (b - 1 - residue b x) = b - 1 := by omega
  calc x + (b - 1 - residue b x)
      ≡ residue b x + (b - 1 - residue b x) [MOD b - 1] :=
        (residue_modEq b x).symm.add_right _
    _ ≡ 0 [MOD b - 1] := by rw [hsum]; exact (Nat.modEq_zero_iff_dvd).mpr (dvd_refl _)

/-- What is added to a sum shows in its residue, unless it is a whole round. -/
theorem residue_add_ne {d : ℕ} (hd : 0 < d) (hdb : d < b - 1) :
    residue b (x + d) ≠ residue b x := by
  intro heq
  have hmod : x + d ≡ x + 0 [MOD b - 1] :=
    (residue_modEq b (x + d)).symm.trans (heq ▸ residue_modEq b x)
  have hzero : d ≡ 0 [MOD b - 1] := Nat.ModEq.add_left_cancel' x hmod
  exact hd.ne' (Nat.eq_zero_of_dvd_of_lt ((Nat.modEq_zero_iff_dvd).mp hzero) hdb)

/-- The complement of a sum that is `d` too large makes up for the sum only when `d` is zero. -/
theorem residue_add_complement_iff {d : ℕ} (hb : 1 < b) (hdb : d < b - 1) :
    residue b (x + (b - 1 - residue b (x + d))) = b - 1 ↔ d = 0 := by
  constructor
  · intro hones
    have hlt := residue_lt (x := x + d) hb
    have hround : b - 1 ≡ 0 [MOD b - 1] := (Nat.modEq_zero_iff_dvd).mpr (dvd_refl _)
    have hsum : x + (b - 1 - residue b (x + d)) ≡ 0 [MOD b - 1] := by
      have hmod := residue_modEq b (x + (b - 1 - residue b (x + d)))
      rw [hones] at hmod
      exact hmod.symm.trans hround
    have hback : residue b (x + d) + (b - 1 - residue b (x + d)) = b - 1 := by omega
    -- Both `x` and `x + d` are what the complement is missing to a whole round.
    have hdiff : x + d + (b - 1 - residue b (x + d))
        ≡ x + (b - 1 - residue b (x + d)) [MOD b - 1] :=
      calc x + d + (b - 1 - residue b (x + d))
          ≡ residue b (x + d) + (b - 1 - residue b (x + d)) [MOD b - 1] :=
            (residue_modEq b (x + d)).symm.add_right _
        _ ≡ 0 [MOD b - 1] := by rw [hback]; exact hround
        _ ≡ x + (b - 1 - residue b (x + d)) [MOD b - 1] := hsum.symm
    have hzero : d ≡ 0 [MOD b - 1] :=
      Nat.ModEq.add_left_cancel' x (Nat.ModEq.add_right_cancel' _ hdiff)
    exact Nat.eq_zero_of_dvd_of_lt ((Nat.modEq_zero_iff_dvd).mp hzero) hdb
  · rintro rfl
    exact residue_add_complement hb x

/-! ## Words of two digits

A word is written as two digits below `r`. Summing the words read with the low digit first gives
`r` times the sum of the words read with the high digit first. -/

variable {r : ℕ}

/-- The sum of the words of a list of digits, low digit first; an odd digit at the end is
followed by zero. -/
def lowFirst (r : ℕ) : List ℕ → ℕ
  | [] => 0
  | [d] => d
  | d :: e :: ds => d + r * e + lowFirst r ds

/-- The words of a list of digits, high digit first. -/
def words (r : ℕ) : List ℕ → List ℕ
  | [] => []
  | [d] => [r * d]
  | d :: e :: ds => (r * d + e) :: words r ds

/-- A word with its digits exchanged. -/
def swap (r x : ℕ) : ℕ := x / r + r * (x % r)

theorem lowFirst_append {ds es : List ℕ} (h : ds.length % 2 = 0) :
    lowFirst r (ds ++ es) = lowFirst r ds + lowFirst r es := by
  induction ds using lowFirst.induct with
  | case1 => simp [lowFirst]
  | case2 d => simp at h
  | case3 d e ds ih =>
      rw [List.length_cons, List.length_cons] at h
      rw [List.cons_append, List.cons_append, lowFirst, lowFirst, ih (by omega)]
      omega

theorem two_digits_lt {d e : ℕ} (hd : d < r) (he : e < r) : r * d + e < r * r := by
  have hmul : r * (d + 1) ≤ r * r := Nat.mul_le_mul_left r hd
  rw [Nat.mul_succ] at hmul
  omega

theorem lowFirst_le {ds : List ℕ} (h : ∀ d ∈ ds, d < r) :
    lowFirst r ds ≤ (ds.length + 1) / 2 * (r * r) := by
  induction ds using lowFirst.induct with
  | case1 => simp [lowFirst]
  | case2 d =>
      have hd : d < r := h d List.mem_cons_self
      rw [lowFirst, List.length_singleton, Nat.one_mul]
      exact hd.le.trans (Nat.le_mul_self r)
  | case3 d e ds ih =>
      have hword : r * e + d < r * r := two_digits_lt (h e (by simp)) (h d (by simp))
      have hds := ih fun x hx => h x (by simp [hx])
      rw [lowFirst, List.length_cons, List.length_cons,
        show (ds.length + 1 + 1 + 1) / 2 = (ds.length + 1) / 2 + 1 by omega, Nat.succ_mul]
      omega

theorem words_lt {ds : List ℕ} (h : ∀ d ∈ ds, d < r) : ∀ w ∈ words r ds, w < r * r := by
  induction ds using lowFirst.induct with
  | case1 => simp [words]
  | case2 d =>
      have hd : d < r := h d List.mem_cons_self
      intro w hw
      rw [words, List.mem_singleton] at hw
      rw [hw]
      exact two_digits_lt hd (Nat.zero_lt_of_lt hd)
  | case3 d e ds ih =>
      intro w hw
      rw [words, List.mem_cons] at hw
      rcases hw with rfl | hw
      · exact two_digits_lt (h d (by simp)) (h e (by simp))
      · exact ih (fun x hx => h x (by simp [hx])) w hw

theorem mul_self_mul_modEq (hr : 0 < r) (x : ℕ) : r * r * x ≡ x [MOD r * r - 1] := by
  have hsq : 1 + (r * r - 1) ≡ 1 [MOD r * r - 1] := Nat.add_modEq_right
  rw [Nat.add_sub_cancel' (Nat.mul_pos hr hr)] at hsq
  simpa using hsq.mul_right x

theorem sum_words_modEq (hr : 0 < r) (ds : List ℕ) :
    (words r ds).sum ≡ r * lowFirst r ds [MOD r * r - 1] := by
  induction ds using lowFirst.induct with
  | case1 => rfl
  | case2 d => rw [words, lowFirst, List.sum_singleton]
  | case3 d e ds ih =>
      have hsplit : r * lowFirst r (d :: e :: ds) = r * d + r * r * e + r * lowFirst r ds := by
        rw [lowFirst]
        ring
      rw [words, List.sum_cons, hsplit]
      exact ((mul_self_mul_modEq hr e).symm.add_left (r * d)).add ih

theorem sum_words_pos (hr : 0 < r) (ds : List ℕ) : 0 < (words r ds).sum ↔ 0 < lowFirst r ds := by
  induction ds using lowFirst.induct with
  | case1 => rfl
  | case2 d => simp [words, lowFirst, hr]
  | case3 d e ds ih =>
      have hd : 0 < r * d ↔ 0 < d := by simp [hr]
      have he : 0 < r * e ↔ 0 < e := by simp [hr]
      rw [words, lowFirst, List.sum_cons]
      omega

theorem swap_modEq (hr : 0 < r) (x : ℕ) : swap r x ≡ r * x [MOD r * r - 1] := by
  have hsplit : r * x = r * r * (x / r) + r * (x % r) := by
    rw [Nat.mul_assoc, ← Nat.mul_add, Nat.div_add_mod]
  rw [hsplit, swap]
  exact (mul_self_mul_modEq hr (x / r)).symm.add_right _

theorem swap_lt (hr : 0 < r) (hx : x < r * r) : swap r x < r * r := by
  rw [swap, Nat.add_comm]
  exact two_digits_lt (Nat.mod_lt x hr) (Nat.div_lt_of_lt_mul hx)

theorem swap_pos (hr : 0 < r) (hx : 0 < x) : 0 < swap r x := by
  refine Nat.pos_of_ne_zero fun hzero => ?_
  obtain ⟨hdiv, hmod⟩ := Nat.add_eq_zero_iff.mp hzero
  have hsplit := Nat.div_add_mod x r
  rw [hdiv, (Nat.mul_eq_zero.mp hmod).resolve_left hr.ne'] at hsplit
  omega

/-- Exchanging the digits of the residue of a sum is the same as exchanging them in the sum. -/
theorem swap_residue (hr : 1 < r) (hx : 0 < x) :
    swap r (residue (r * r) x) = residue (r * r) (r * x) := by
  have hr' : 0 < r := by omega
  have hb : 1 < r * r := lt_of_lt_of_le hr (Nat.le_mul_self r)
  refine (residue_eq (Nat.mul_pos hr' hx) (swap_pos hr' (residue_pos hx))
    (swap_lt hr' (residue_lt hb)) ?_).symm
  exact (swap_modEq hr' _).trans ((residue_modEq (r * r) x).mul_left r)

end MtcpStack.OnesComplement
