import MtcpStack.Library.Intervals
import MtcpStack.Library.Serial
import MtcpStack.Model.RingBuffer

/-! # The fragment list

The fragments of a receive buffer are the intervals of arrived places, written with wrapped
sequence numbers. Linking a segment in is inserting its interval, and taking bytes from the
front is dropping places, as long as all places lie in a window smaller than half the sequence
space. -/

namespace MtcpStack

open Serial Intervals

/-! ## Comparisons -/

theorem getMinSeq_left {a b : U32} (h : (b - a).toNat < 2 ^ 31) : getMinSeq a b = a := by
  have ha := a.isLt
  have hb := b.isLt
  unfold getMinSeq halfMaxSeq
  rw [BitVec.toNat_sub] at h
  simp only [BitVec.toNat_sub]
  split
  case isTrue => rfl
  case isFalse hne =>
    rw [← BitVec.toNat_inj] at hne
    split <;> split <;> first | rfl | omega

theorem getMinSeq_right {a b : U32} (h : (a - b).toNat < 2 ^ 31) : getMinSeq a b = b := by
  have ha := a.isLt
  have hb := b.isLt
  unfold getMinSeq halfMaxSeq
  rw [BitVec.toNat_sub] at h
  simp only [BitVec.toNat_sub]
  split
  case isTrue heq => exact heq
  case isFalse hne =>
    rw [← BitVec.toNat_inj] at hne
    split <;> split <;> first | rfl | omega

theorem getMaxSeq_left {a b : U32} (h : (a - b).toNat < 2 ^ 31) : getMaxSeq a b = a := by
  have ha := a.isLt
  have hb := b.isLt
  unfold getMaxSeq halfMaxSeq
  rw [BitVec.toNat_sub] at h
  simp only [BitVec.toNat_sub]
  split
  case isTrue => rfl
  case isFalse hne =>
    rw [← BitVec.toNat_inj] at hne
    split <;> split <;> first | rfl | omega

theorem getMaxSeq_right {a b : U32} (h : (b - a).toNat < 2 ^ 31) : getMaxSeq a b = b := by
  have ha := a.isLt
  have hb := b.isLt
  unfold getMaxSeq halfMaxSeq
  rw [BitVec.toNat_sub] at h
  simp only [BitVec.toNat_sub]
  split
  case isTrue heq => exact heq
  case isFalse hne =>
    rw [← BitVec.toNat_inj] at hne
    split <;> split <;> first | rfl | omega

section Places

variable (base : U32) {x y : ℕ}

theorem getMinSeq_seqAt (hx : x < y + 2 ^ 31) (hy : y < x + 2 ^ 31) :
    getMinSeq (seqAt base x) (seqAt base y) = seqAt base (min x y) := by
  rcases le_total x y with hle | hle
  · rw [min_eq_left hle]
    apply getMinSeq_left
    rw [toNat_seqAt_sub_seqAt hle (by omega)]
    omega
  · rw [min_eq_right hle]
    apply getMinSeq_right
    rw [toNat_seqAt_sub_seqAt hle (by omega)]
    omega

theorem getMaxSeq_seqAt (hx : x < y + 2 ^ 31) (hy : y < x + 2 ^ 31) :
    getMaxSeq (seqAt base x) (seqAt base y) = seqAt base (max x y) := by
  rcases le_total x y with hle | hle
  · rw [max_eq_right hle]
    apply getMaxSeq_right
    rw [toNat_seqAt_sub_seqAt hle (by omega)]
    omega
  · rw [max_eq_left hle]
    apply getMaxSeq_left
    rw [toNat_seqAt_sub_seqAt hle (by omega)]
    omega

theorem getMinSeq_seqAt_eq_left (hx : x < y + 2 ^ 31) (hy : y < x + 2 ^ 31) :
    getMinSeq (seqAt base x) (seqAt base y) = seqAt base x ↔ x ≤ y := by
  rw [getMinSeq_seqAt base hx hy, seqAt_inj (by omega) (by omega)]
  omega

theorem getMinSeq_seqAt_eq_right (hx : x < y + 2 ^ 31) (hy : y < x + 2 ^ 31) :
    getMinSeq (seqAt base x) (seqAt base y) = seqAt base y ↔ y ≤ x := by
  rw [getMinSeq_seqAt base hx hy, seqAt_inj (by omega) (by omega)]
  omega

theorem getMaxSeq_seqAt_eq_right (hx : x < y + 2 ^ 31) (hy : y < x + 2 ^ 31) :
    getMaxSeq (seqAt base x) (seqAt base y) = seqAt base y ↔ x ≤ y := by
  rw [getMaxSeq_seqAt base hx hy, seqAt_inj (by omega) (by omega)]
  omega

end Places

/-! ## Fragments as intervals -/

/-- The fragment that stands for an interval of places after `base`. -/
def toFrag (base : U32) (p : Interval) : FragmentCtx := ⟨seqAt base p.1, p.2 - p.1⟩

/-- The places of an interval lie in the window `[lo, lo + 2^30]`. -/
def InWindow (lo : ℕ) (p : Interval) : Prop := lo ≤ p.1 ∧ p.1 < p.2 ∧ p.2 ≤ lo + 2 ^ 30

theorem toFrag_endSeq {base : U32} {p : Interval} (h : p.1 < p.2) :
    (toFrag base p).endSeq = seqAt base p.2 := by
  rw [FragmentCtx.endSeq, toFrag, ← seqAt_add, Nat.add_sub_cancel' h.le]

theorem canMerge_toFrag (base : U32) {lo : ℕ} {p q : Interval} (hp : InWindow lo p)
    (hq : InWindow lo q) :
    canMerge (toFrag base p) (toFrag base q) = true ↔ q.1 ≤ p.2 ∧ p.1 ≤ q.2 := by
  obtain ⟨hp0, hp1, hp2⟩ := hp
  obtain ⟨hq0, hq1, hq2⟩ := hq
  have hsucc : ∀ n, seqAt base n + 1 = seqAt base (n + 1) := fun n => (seqAt_add base n 1).symm
  have hpq := getMinSeq_seqAt_eq_left base (x := p.2 + 1) (y := q.1) (by omega) (by omega)
  have hqp := getMinSeq_seqAt_eq_left base (x := q.2 + 1) (y := p.1) (by omega) (by omega)
  simp only [canMerge, toFrag_endSeq hp1, toFrag_endSeq hq1, hsucc, Bool.not_eq_true',
    Bool.or_eq_false_iff, beq_eq_false_iff_ne, ne_eq]
  rw [show (toFrag base q).seq = seqAt base q.1 from rfl,
    show (toFrag base p).seq = seqAt base p.1 from rfl, hpq, hqp]
  omega

theorem mergeFragments_toFrag (base : U32) {lo : ℕ} {p q : Interval} (hp : InWindow lo p)
    (hq : InWindow lo q) :
    mergeFragments (toFrag base p) (toFrag base q) =
      toFrag base (min p.1 q.1, max p.2 q.2) := by
  obtain ⟨hp0, hp1, hp2⟩ := hp
  obtain ⟨hq0, hq1, hq2⟩ := hq
  have hmin := getMinSeq_seqAt base (x := p.1) (y := q.1) (by omega) (by omega)
  have hmax := getMaxSeq_seqAt base (x := p.2) (y := q.2) (by omega) (by omega)
  have hlen : (seqAt base (max p.2 q.2) - seqAt base (min p.1 q.1)).toNat % 2 ^ 31 =
      max p.2 q.2 - min p.1 q.1 := by
    rw [toNat_seqAt_sub_seqAt (by omega) (by omega), Nat.mod_eq_of_lt (by omega)]
  simp only [mergeFragments, toFrag_endSeq hp1, toFrag_endSeq hq1]
  rw [show (toFrag base q).seq = seqAt base q.1 from rfl,
    show (toFrag base p).seq = seqAt base p.1 from rfl, hmin, hmax, hlen]
  rfl

theorem inWindow_union {lo : ℕ} {p q : Interval} (hp : InWindow lo p) (hq : InWindow lo q) :
    InWindow lo (min p.1 q.1, max p.2 q.2) := by
  obtain ⟨hp0, hp1, hp2⟩ := hp
  obtain ⟨hq0, hq1, hq2⟩ := hq
  refine ⟨?_, ?_, ?_⟩ <;> simp only [le_inf_iff, sup_le_iff, inf_lt_iff, lt_sup_iff] <;> omega

/-! ## Linking a segment in -/

section Scan

variable (base : U32) {lo : ℕ}

/-- Once it has absorbed a fragment, the loop goes on exactly as insertion does. -/
theorem mergeScan_merged (endSeq : U32) {x : Interval} {l : List Interval} {k : ℕ} (hl : Canonical k l)
    (hk : x.1 ≤ k) (hx : InWindow lo x) (hw : ∀ p ∈ l, InWindow lo p) (pre : List FragmentCtx) :
    ∃ r, mergeScan endSeq pre (toFrag base x) true (l.map (toFrag base)) = r ∧ r.merged = true ∧
      r.passed ++ r.newCtx :: r.rest = pre ++ (insertIv x l).map (toFrag base) := by
  induction l generalizing x k with
  | nil => exact ⟨_, rfl, rfl, by simp [mergeScan, insertIv]⟩
  | cons p l ih =>
      obtain ⟨hkp, hp, hcl⟩ := hl
      have hpw := hw p List.mem_cons_self
      have hlw : ∀ q ∈ l, InWindow lo q := fun q hq => hw q (List.mem_cons_of_mem p hq)
      refine ⟨_, rfl, ?_⟩
      simp only [List.map_cons, mergeScan]
      by_cases hm : canMerge (toFrag base x) (toFrag base p) = true
      · rw [if_pos hm, mergeFragments_toFrag base hx hpw]
        have hle := (canMerge_toFrag base hx hpw).mp hm
        obtain ⟨r, hr, hmr, hlist⟩ :=
          ih hcl (x := (min x.1 p.1, max x.2 p.2)) (by simp; omega) (inWindow_union hx hpw) hlw
        rw [hr]
        refine ⟨hmr, ?_⟩
        rw [hlist, insertIv, if_neg (by omega), if_neg (by omega)]
      · rw [if_neg hm]
        have hgap : x.2 < p.1 := by
          rw [canMerge_toFrag base hx hpw] at hm
          omega
        simp [insertIv, hgap]

/-- Before that it steps over the fragments that end before the segment, and stops at the
first that starts behind it. -/
theorem mergeScan_fresh {x : Interval} {l : List Interval} {k : ℕ} (hl : Canonical k l)
    (hx : InWindow lo x) (hw : ∀ p ∈ l, InWindow lo p) (pre : List FragmentCtx) :
    ∃ r, mergeScan (seqAt base x.2) pre (toFrag base x) false (l.map (toFrag base)) = r ∧
      ((r.merged = true ∧
          r.passed ++ r.newCtx :: r.rest = pre ++ (insertIv x l).map (toFrag base)) ∨
        ∃ l₁ l₂, l = l₁ ++ l₂ ∧ insertIv x l = l₁ ++ x :: l₂ ∧
          r = ⟨pre ++ l₁.map (toFrag base), toFrag base x, false, l₂.map (toFrag base)⟩ ∧
          (∀ p ∈ l₁, p.2 < x.1) ∧ ∀ p ∈ l₂, x.2 < p.1) := by
  induction l generalizing k pre with
  | nil => exact ⟨_, rfl, Or.inr ⟨[], [], by simp [mergeScan, insertIv]⟩⟩
  | cons p l ih =>
      obtain ⟨hkp, hp, hcl⟩ := hl
      have hpw := hw p List.mem_cons_self
      have hlw : ∀ q ∈ l, InWindow lo q := fun q hq => hw q (List.mem_cons_of_mem p hq)
      have hm := canMerge_toFrag base hx hpw
      have hmax : getMaxSeq (seqAt base x.2) (toFrag base p).seq = (toFrag base p).seq ↔
          x.2 ≤ p.1 := by
        obtain ⟨hx0, hx1, hx2⟩ := hx
        obtain ⟨hp0, hp1, hp2⟩ := hpw
        exact getMaxSeq_seqAt_eq_right base (by omega) (by omega)
      refine ⟨_, rfl, ?_⟩
      simp only [List.map_cons, mergeScan]
      by_cases hmerge : canMerge (toFrag base x) (toFrag base p) = true
      · have hle := hm.mp hmerge
        rw [if_pos hmerge, mergeFragments_toFrag base hx hpw]
        obtain ⟨r, hr, hmr, hlist⟩ := mergeScan_merged base (seqAt base x.2) hcl
          (x := (min x.1 p.1, max x.2 p.2)) (by simp; omega) (inWindow_union hx hpw) hlw pre
        rw [hr]
        refine Or.inl ⟨hmr, ?_⟩
        rw [hlist, insertIv, if_neg (by omega), if_neg (by omega)]
      · rw [if_neg hmerge]
        rw [hm] at hmerge
        have hxne := hx.2.1
        by_cases hstop : x.2 ≤ p.1
        · rw [if_pos (by simp [hmax.mpr hstop])]
          refine Or.inr ⟨[], p :: l, rfl, ?_, by simp, by simp, ?_⟩
          · rw [insertIv, if_pos (by omega)]
            rfl
          · intro q hq
            rcases List.mem_cons.mp hq with rfl | hq
            · omega
            · have := (hcl.bounds hq).1
              omega
        · rw [if_neg (by simp [hmax, hstop])]
          have hbefore : p.2 < x.1 := by omega
          obtain ⟨r, hr, hcase⟩ := ih hcl hlw (pre ++ [toFrag base p])
          rw [hr]
          have hins : insertIv x (p :: l) = p :: insertIv x l := by
            rw [insertIv, if_neg (by omega), if_pos hbefore]
          rcases hcase with ⟨hmr, hlist⟩ | ⟨l₁, l₂, hl, hil, hreq, h₁, h₂⟩
          · refine Or.inl ⟨hmr, ?_⟩
            rw [hlist, hins]
            simp
          · refine Or.inr ⟨p :: l₁, l₂, by rw [hl]; rfl, by rw [hins, hil]; rfl, ?_, ?_, h₂⟩
            · rw [hreq]
              simp
            · exact List.forall_mem_cons.mpr ⟨hbefore, h₁⟩

end Scan

/-- `RBPut` links a segment into the fragment list by inserting its interval; its assertion
holds and its pointers are not null. -/
theorem linkFragment_toFrag (base : U32) {lo k : ℕ} {x : Interval} {l : List Interval}
    (hl : Canonical k l) (hx : InWindow lo x) (hw : ∀ p ∈ l, InWindow lo p) :
    linkFragment (l.map (toFrag base)) (seqAt base x.1) (x.2 - x.1) =
      some ((insertIv x l).map (toFrag base)) := by
  have hlen : (x.2 - x.1) % 2 ^ 31 = x.2 - x.1 := by
    obtain ⟨hx0, hx1, hx2⟩ := hx
    exact Nat.mod_eq_of_lt (by omega)
  have hend : seqAt base x.1 + BitVec.ofNat 32 (x.2 - x.1) = seqAt base x.2 := by
    rw [← seqAt_add, Nat.add_sub_cancel' hx.2.1.le]
  have hnew : (⟨seqAt base x.1, x.2 - x.1⟩ : FragmentCtx) = toFrag base x := rfl
  obtain ⟨r, hr, hcase⟩ := mergeScan_fresh base hl hx hw []
  unfold linkFragment
  simp only [hlen, hend, hnew, hr]
  rcases hcase with ⟨hmr, hlist⟩ | ⟨l₁, l₂, hsplit, hins, rfl, h₁, h₂⟩
  · simp [hmr, hlist]
  · simp only [Bool.false_eq_true, if_false, List.nil_append]
    cases l with
    | nil =>
        obtain ⟨rfl, rfl⟩ := List.append_eq_nil_iff.mp hsplit.symm
        simp [hins]
    | cons p l =>
        have hpw := hw p List.mem_cons_self
        have hfirst : getMinSeq (seqAt base x.1) (toFrag base p).seq = seqAt base x.1 ↔
            x.1 ≤ p.1 := by
          obtain ⟨hx0, hx1, hx2⟩ := hx
          obtain ⟨hp0, hp1, hp2⟩ := hpw
          exact getMinSeq_seqAt_eq_left base (by omega) (by omega)
        simp only [List.map_cons, hfirst]
        by_cases hle : x.1 ≤ p.1
        · -- nothing was stepped over
          rw [if_pos hle]
          cases l₁ with
          | nil =>
              rw [List.nil_append] at hsplit
              rw [hins, ← hsplit]
              simp
          | cons q l₁ =>
              obtain ⟨rfl, -⟩ := List.cons_eq_cons.mp hsplit
              have := h₁ p List.mem_cons_self
              have := hpw.2.1
              omega
        · rw [if_neg hle]
          have hne : l₁ ≠ [] := by
            rintro rfl
            rw [List.nil_append] at hsplit
            have := h₂ p (by rw [← hsplit]; exact List.mem_cons_self)
            have := hx.2.1
            omega
          have hmem : l₁.getLast hne ∈ l₁ := List.getLast_mem hne
          have hlast : (l₁.map (toFrag base)).getLast? = some (toFrag base (l₁.getLast hne)) := by
            rw [List.getLast?_map, List.getLast?_eq_some_getLast hne]
            rfl
          have hqw : InWindow lo (l₁.getLast hne) :=
            hw _ (by rw [hsplit]; exact List.mem_append_left _ hmem)
          have hprev : getMinSeq (seqAt base x.1) (toFrag base (l₁.getLast hne)).endSeq =
              (toFrag base (l₁.getLast hne)).endSeq := by
            have hlt := h₁ _ hmem
            obtain ⟨hx0, hx1, hx2⟩ := hx
            obtain ⟨hq0, hq1, hq2⟩ := hqw
            rw [toFrag_endSeq hq1, getMinSeq_seqAt_eq_right base (by omega) (by omega)]
            omega
          rw [hlast]
          simp only [hprev, if_true, hins]
          simp

/-- Taking `n` bytes of the first fragment drops their places. -/
theorem dropFragment_toFrag {base : U32} {k n : ℕ} {l : List Interval} (hl : Canonical k l)
    (hn : n ≤ prefixLen k l) (hpos : 0 < n) :
    dropFragment (l.map (toFrag base)) n = some ((dropFirst n l).map (toFrag base)) := by
  cases l with
  | nil => simp [prefixLen] at hn; omega
  | cons p l =>
      obtain ⟨hkp, hp, hcl⟩ := hl
      simp only [prefixLen] at hn
      split at hn
      case isFalse => omega
      case isTrue heq =>
        simp only [List.map_cons, dropFragment, dropFirst, toFrag]
        by_cases hall : p.1 + n = p.2
        · rw [if_pos hall, if_pos (by omega)]
        · rw [if_neg hall, if_neg (by omega), if_pos (by omega), ← seqAt_add]
          simp only [List.map_cons, toFrag, Option.some.injEq, List.cons.injEq, and_true,
            FragmentCtx.mk.injEq, true_and]
          omega

end MtcpStack
