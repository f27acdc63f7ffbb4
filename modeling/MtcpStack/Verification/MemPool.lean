import MtcpStack.Model.MemPool

/-! # Chunks of a pool -/

namespace MtcpStack

open WordStore

/-! ## Headers -/

section Headers

variable {mem mem' : ℕ → U8} {p q : ℕ}

theorem toInt_ofInt_of_lt {n : ℕ} (h : n < 2 ^ 31) :
    (BitVec.ofNat 32 (BitVec.ofInt 32 (n : ℤ)).toNat).toInt = n := by
  rw [BitVec.ofNat_toNat, BitVec.setWidth_eq, BitVec.toInt_ofInt]
  exact Int.bmod_eq_of_le_mul_two (by omega) (by omega)

theorem mcFreeChunks_set {n : ℕ} (h : n < 2 ^ 31) :
    mcFreeChunks (setMcFreeChunks mem p n) p = n := by
  rw [mcFreeChunks, setMcFreeChunks, readWord_writeWord (BitVec.isLt _), toInt_ofInt_of_lt h]

theorem mcFreeChunks_setNext (next : ℕ) :
    mcFreeChunks (setMcNext mem p next) p = mcFreeChunks mem p := by
  rw [mcFreeChunks, setMcNext, readWord_writeWord_disjoint (by omega), mcFreeChunks]

theorem mcNext_setNext {next : ℕ} (h : next < 2 ^ 64) : mcNext (setMcNext mem p next) p = next :=
  readWord_writeWord (by simpa using h)

theorem mcNext_setFree (n : ℤ) : mcNext (setMcFreeChunks mem p n) p = mcNext mem p :=
  readWord_writeWord_disjoint (by omega)

/-- Nothing has changed outside the header at `p`. -/
def KeepsOff (mem mem' : ℕ → U8) (p : ℕ) : Prop :=
  ∀ k, k < p ∨ p + sizeofMemChunk ≤ k → mem' k = mem k

theorem keepsOff_setFree (n : ℤ) : KeepsOff mem (setMcFreeChunks mem p n) p :=
  fun _ hk => writeWord_outside (by rw [sizeofMemChunk] at hk; omega)

theorem keepsOff_setNext (next : ℕ) : KeepsOff mem (setMcNext mem p next) p :=
  fun _ hk => writeWord_outside (by rw [sizeofMemChunk] at hk; omega)

theorem mcFreeChunks_congr (h : ∀ k, p ≤ k → k < p + sizeofMemChunk → mem' k = mem k) :
    mcFreeChunks mem' p = mcFreeChunks mem p := by
  rw [mcFreeChunks, readWord_congr fun k hlo hhi => h k hlo (by rw [sizeofMemChunk]; omega),
    mcFreeChunks]

theorem mcNext_congr (h : ∀ k, p ≤ k → k < p + sizeofMemChunk → mem' k = mem k) :
    mcNext mem' p = mcNext mem p :=
  readWord_congr fun k hlo hhi => h k (by omega) (by rw [sizeofMemChunk]; omega)

end Headers

/-! ## Runs of free chunks -/

/-- The address of chunk `i`. -/
def chunkAt (start c i : ℕ) : ℕ := start + i * c

/-- The list of runs that starts at `ptr`: each run has the index of its first chunk and the number
of its chunks. -/
def LinkedRuns (start c : ℕ) (mem : ℕ → U8) : ℕ → List (ℕ × ℕ) → Prop
  | ptr, [] => ptr = 0
  | ptr, (i, k) :: runs =>
    ptr = chunkAt start c i ∧ mcFreeChunks mem ptr = k ∧
      LinkedRuns start c mem (mcNext mem ptr) runs

/-- The chunks of the runs. -/
def runChunks (runs : List (ℕ × ℕ)) : List ℕ := runs.flatMap fun r => List.range' r.1 r.2

@[simp] theorem runChunks_nil : runChunks [] = [] := rfl

@[simp] theorem runChunks_cons (r : ℕ × ℕ) (runs : List (ℕ × ℕ)) :
    runChunks (r :: runs) = List.range' r.1 r.2 ++ runChunks runs := rfl

theorem mem_runChunks_head {r : ℕ × ℕ} {runs : List (ℕ × ℕ)} (hr : r ∈ runs) (hpos : 0 < r.2) :
    r.1 ∈ runChunks runs :=
  List.mem_flatMap.mpr ⟨r, hr, by simpa using hpos⟩

section Runs

variable {start c : ℕ} {mem mem' : ℕ → U8}

theorem chunkAt_le (start c : ℕ) {i j : ℕ} (h : i < j) :
    chunkAt start c i + c ≤ chunkAt start c j := by
  have hmul : (i + 1) * c ≤ j * c := Nat.mul_le_mul_right c h
  rw [Nat.succ_mul] at hmul
  rw [chunkAt, chunkAt]
  omega

theorem chunkAt_succ (i : ℕ) : chunkAt start c (i + 1) = chunkAt start c i + c := by
  rw [chunkAt, chunkAt, Nat.succ_mul]
  omega

theorem chunkAt_injective (start : ℕ) (hc : 0 < c) : Function.Injective (chunkAt start c) := by
  intro i j h
  rw [chunkAt, chunkAt] at h
  exact Nat.eq_of_mul_eq_mul_right hc (by omega)

/-- The runs do not depend on memory outside the headers of their first chunks. -/
theorem LinkedRuns.congr {ptr : ℕ} {runs : List (ℕ × ℕ)} (hl : LinkedRuns start c mem ptr runs)
    (h : ∀ r ∈ runs, ∀ k, chunkAt start c r.1 ≤ k → k < chunkAt start c r.1 + sizeofMemChunk →
      mem' k = mem k) : LinkedRuns start c mem' ptr runs := by
  induction runs generalizing ptr with
  | nil => exact hl
  | cons r runs ih =>
    obtain ⟨hptr, hfree, hrest⟩ := hl
    rw [List.forall_mem_cons] at h
    subst hptr
    refine ⟨rfl, (mcFreeChunks_congr h.1).trans hfree, ?_⟩
    rw [mcNext_congr h.1]
    exact ih hrest h.2

/-- A change inside chunk `i` does not matter to runs that start elsewhere. -/
theorem LinkedRuns.off {ptr i : ℕ} {runs : List (ℕ × ℕ)} (hl : LinkedRuns start c mem ptr runs)
    (hc : sizeofMemChunk ≤ c) (hne : ∀ r ∈ runs, r.1 ≠ i)
    (h : ∀ k, k < chunkAt start c i ∨ chunkAt start c i + c ≤ k → mem' k = mem k) :
    LinkedRuns start c mem' ptr runs := by
  refine hl.congr fun r hr k hlo hhi => h k ?_
  rcases Nat.lt_or_gt_of_ne (hne r hr) with hlt | hgt
  · have := chunkAt_le start c hlt
    omega
  · have := chunkAt_le start c hgt
    omega

end Runs

/-! ## One call -/

namespace MemPool

variable {mp : MemPool} {k : ℕ}

/-- The first run has more chunks. -/
theorem mpAllocateChunk_more (hfree : mp.freeChunks ≠ 0) (hk : k + 2 < 2 ^ 31)
    (hcount : mcFreeChunks mp.mem mp.freePtr = (k + 2 : ℕ)) {c : ℕ} (hc : mp.chunkSize = c) :
    let mem := setMcFreeChunks mp.mem mp.freePtr (k + 1 : ℕ)
    let mem' := setMcFreeChunks mem (mp.freePtr + c) (k + 1 : ℕ)
    mp.mpAllocateChunk =
      some ({ mp with
        freePtr := mp.freePtr + c
        freeChunks := mp.freeChunks - 1
        mem := setMcNext mem' (mp.freePtr + c) (mcNext mem' mp.freePtr) }, some mp.freePtr) := by
  have hless : mcFreeChunks mp.mem mp.freePtr - 1 = (k + 1 : ℕ) := by
    rw [hcount]
    push_cast
    omega
  have hset : mcFreeChunks (setMcFreeChunks mp.mem mp.freePtr (k + 1 : ℕ)) mp.freePtr =
      (k + 1 : ℕ) := mcFreeChunks_set (by omega)
  have hq : ((mp.freePtr : ℤ) + mp.chunkSize).toNat = mp.freePtr + c := by
    rw [hc]
    omega
  simp only [mpAllocateChunk, if_neg hfree, hless, hset, hq]
  rw [if_neg (by omega), if_pos (by omega)]

/-- The first run has one chunk. -/
theorem mpAllocateChunk_last (hfree : mp.freeChunks ≠ 0)
    (hcount : mcFreeChunks mp.mem mp.freePtr = 1) :
    let mem := setMcFreeChunks mp.mem mp.freePtr (0 : ℕ)
    mp.mpAllocateChunk =
      some ({ mp with freePtr := mcNext mem mp.freePtr, freeChunks := mp.freeChunks - 1, mem },
        some mp.freePtr) := by
  have hless : mcFreeChunks mp.mem mp.freePtr - 1 = (0 : ℕ) := by
    rw [hcount]
    rfl
  have hset : mcFreeChunks (setMcFreeChunks mp.mem mp.freePtr (0 : ℕ)) mp.freePtr = (0 : ℕ) :=
    mcFreeChunks_set (by omega)
  simp only [mpAllocateChunk, if_neg hfree, hless, hset]
  rw [if_neg (by omega), if_neg (by simp)]

end MemPool

/-! ## The pool -/

/-- A pool of `n` chunks of `c` bytes: the chunks with the indices `live` are with clients, the
others are in the runs of the free list. -/
structure Partition (mp : MemPool) (c n : ℕ) (runs : List (ℕ × ℕ)) (live : List ℕ) : Prop where
  header_le : sizeofMemChunk ≤ c
  chunkSize_eq : mp.chunkSize = c
  total_eq : mp.totalChunks = n
  total_lt : n < 2 ^ 31
  start_pos : 0 < mp.startPtr
  fits : mp.startPtr + n * c ≤ 2 ^ 64
  linked : LinkedRuns mp.startPtr c mp.mem mp.freePtr runs
  pos : ∀ r ∈ runs, 0 < r.2
  perm : (runChunks runs ++ live).Perm (List.range n)
  free_eq : mp.freeChunks = (runChunks runs).length

namespace Partition

variable {mp : MemPool} {c n : ℕ} {runs : List (ℕ × ℕ)} {live : List ℕ}

theorem nodup (hp : Partition mp c n runs live) : (runChunks runs ++ live).Nodup :=
  hp.perm.nodup_iff.mpr List.nodup_range

theorem length_eq (hp : Partition mp c n runs live) :
    (runChunks runs).length + live.length = n := by
  rw [← List.length_append, hp.perm.length_eq, List.length_range]

theorem lt_of_live (hp : Partition mp c n runs live) {i : ℕ} (hi : i ∈ live) : i < n :=
  List.mem_range.mp (hp.perm.mem_iff.mp (List.mem_append_right _ hi))

theorem lt_of_free (hp : Partition mp c n runs live) {i : ℕ} (hi : i ∈ runChunks runs) : i < n :=
  List.mem_range.mp (hp.perm.mem_iff.mp (List.mem_append_left _ hi))

/-- A run does not start at a live chunk. -/
theorem head_ne (hp : Partition mp c n runs live) {i : ℕ} (hi : i ∈ live) :
    ∀ r ∈ runs, r.1 ≠ i := by
  rintro r hr rfl
  exact (List.disjoint_of_nodup_append hp.nodup) (mem_runChunks_head hr (hp.pos r hr)) hi

theorem chunkAt_lt (hp : Partition mp c n runs live) {i : ℕ} (hi : i < n) :
    chunkAt mp.startPtr c i < 2 ^ 64 := by
  have hle := chunkAt_le mp.startPtr c hi
  have hfits := hp.fits
  have hc := hp.header_le
  rw [sizeofMemChunk] at hc
  rw [chunkAt, chunkAt] at *
  omega

theorem freePtr_lt (hp : Partition mp c n runs live) : mp.freePtr < 2 ^ 64 := by
  cases runs with
  | nil =>
    have hzero : mp.freePtr = 0 := hp.linked
    rw [hzero]
    decide
  | cons r runs =>
    have hptr : mp.freePtr = chunkAt mp.startPtr c r.1 := hp.linked.1
    rw [hptr]
    exact hp.chunkAt_lt
      (hp.lt_of_free (mem_runChunks_head List.mem_cons_self (hp.pos r List.mem_cons_self)))

theorem allocate_none (hp : Partition mp c n [] live) : mp.mpAllocateChunk = some (mp, none) := by
  have hfree : mp.freeChunks = 0 := hp.free_eq
  rw [MemPool.mpAllocateChunk, if_pos hfree]

theorem freeChunks_cons {i k : ℕ} (hp : Partition mp c n ((i, k) :: runs) live) :
    mp.freeChunks = (k + (runChunks runs).length : ℕ) := by
  rw [hp.free_eq, runChunks_cons, List.length_append, List.length_range']

theorem run_lt {i k : ℕ} (hp : Partition mp c n ((i, k) :: runs) live) : k < 2 ^ 31 := by
  have hlength := hp.length_eq
  have hlt := hp.total_lt
  rw [runChunks_cons, List.length_append, List.length_range'] at hlength
  omega

/-- The later runs start at none of the chunks of the first one. -/
theorem head_ne_run {i k : ℕ} (hp : Partition mp c n ((i, k) :: runs) live) :
    ∀ r ∈ runs, ∀ j ∈ List.range' i k, r.1 ≠ j := by
  rintro r hr j hj rfl
  have hnodup := (List.nodup_append.mp hp.nodup).1
  rw [runChunks_cons] at hnodup
  exact (List.disjoint_of_nodup_append hnodup) hj
    (mem_runChunks_head hr (hp.pos r (List.mem_cons_of_mem _ hr)))

/-- The first chunk moves from the free ones to the live ones. -/
theorem perm_allocate {i k : ℕ} (hp : Partition mp c n ((i, k + 1) :: runs) live) :
    (List.range' (i + 1) k ++ runChunks runs ++ (i :: live)).Perm (List.range n) := by
  refine List.perm_middle.trans ?_
  have hperm := hp.perm
  rwa [runChunks_cons, List.range'_succ] at hperm

/-- The last chunk of the first run is handed out. -/
theorem allocate_last {i : ℕ} (hp : Partition mp c n ((i, 1) :: runs) live) :
    ∃ mp', mp.mpAllocateChunk = some (mp', some mp.freePtr) ∧ mp'.startPtr = mp.startPtr ∧
      Partition mp' c n runs (i :: live) := by
  obtain ⟨hptr, hcount, hrest⟩ := hp.linked
  have hfree := hp.freeChunks_cons
  have hc := hp.header_le
  refine ⟨_, MemPool.mpAllocateChunk_last (by omega) hcount, rfl, ?_⟩
  refine ⟨hc, hp.chunkSize_eq, hp.total_eq, hp.total_lt, hp.start_pos, hp.fits, ?_,
    fun r hr => hp.pos r (List.mem_cons_of_mem _ hr), hp.perm_allocate, ?_⟩
  · simp only [mcNext_setFree]
    refine hrest.off hc (fun r hr => hp.head_ne_run r hr i (by simp)) fun x hx => ?_
    refine keepsOff_setFree _ x ?_
    rw [hptr]
    omega
  · simp only [hfree]
    push_cast
    omega

/-- The first chunk of a longer run is handed out, and its header moves on to the next one. -/
theorem allocate_more {i k : ℕ} (hp : Partition mp c n ((i, k + 2) :: runs) live) :
    ∃ mp', mp.mpAllocateChunk = some (mp', some mp.freePtr) ∧ mp'.startPtr = mp.startPtr ∧
      Partition mp' c n ((i + 1, k + 1) :: runs) (i :: live) := by
  obtain ⟨hptr, hcount, hrest⟩ := hp.linked
  have hfree := hp.freeChunks_cons
  have hlt := hp.run_lt
  have hc := hp.header_le
  have hheader : sizeofMemChunk = 16 := rfl
  have hnext : mp.freePtr + c = chunkAt mp.startPtr c (i + 1) := by rw [hptr, chunkAt_succ]
  refine ⟨_, MemPool.mpAllocateChunk_more (by omega) hlt hcount hp.chunkSize_eq, rfl, ?_⟩
  -- the header of the old first chunk is not touched by the one that is written behind it
  generalize hmem : setMcFreeChunks mp.mem mp.freePtr (k + 1 : ℕ) = mem
  generalize hmem' : setMcFreeChunks mem (mp.freePtr + c) (k + 1 : ℕ) = mem'
  have hold : mcNext mem' mp.freePtr = mcNext mp.mem mp.freePtr := by
    rw [← hmem', mcNext_congr fun x _ hx => keepsOff_setFree _ x (by omega), ← hmem,
      mcNext_setFree]
  have hkeep : ∀ x, x < mp.freePtr ∨ mp.freePtr + c + sizeofMemChunk ≤ x → mem' x = mp.mem x := by
    intro x hx
    rw [← hmem', keepsOff_setFree _ x (by omega), ← hmem, keepsOff_setFree _ x (by omega)]
  refine ⟨hc, hp.chunkSize_eq, hp.total_eq, hp.total_lt, hp.start_pos, hp.fits, ?_, ?_,
    hp.perm_allocate, ?_⟩
  · have hnextlt : mcNext mem' mp.freePtr < 2 ^ 64 := readWord_lt
    refine ⟨hnext, ?_, ?_⟩
    · rw [mcFreeChunks_setNext, ← hmem']
      exact mcFreeChunks_set (by omega)
    rw [mcNext_setNext hnextlt, hold]
    refine hrest.congr fun r hr x hlo hhi => ?_
    have hi := hp.head_ne_run r hr i (by simp)
    have hi' := hp.head_ne_run r hr (i + 1) (by simp)
    have houtside : x < mp.freePtr ∨ mp.freePtr + c + sizeofMemChunk ≤ x := by
      rcases Nat.lt_or_gt_of_ne hi with hbefore | hbehind
      · have hle := chunkAt_le mp.startPtr c hbefore
        omega
      · have hle := chunkAt_le mp.startPtr c (show i + 1 < r.1 by omega)
        omega
    have hbehind : x < mp.freePtr + c ∨ mp.freePtr + c + sizeofMemChunk ≤ x := by omega
    exact (keepsOff_setNext _ x hbehind).trans (hkeep x houtside)
  · refine List.forall_mem_cons.mpr ⟨Nat.succ_pos k, fun r hr => ?_⟩
    exact hp.pos r (List.mem_cons_of_mem _ hr)
  · simp only [hfree, runChunks_cons, List.length_append, List.length_range']
    push_cast
    omega

theorem allocate_some {r : ℕ × ℕ} (hp : Partition mp c n (r :: runs) live) :
    ∃ mp' runs', mp.mpAllocateChunk = some (mp', some (chunkAt mp.startPtr c r.1)) ∧
      mp'.startPtr = mp.startPtr ∧ runChunks (r :: runs) = r.1 :: runChunks runs' ∧
      Partition mp' c n runs' (r.1 :: live) := by
  obtain ⟨i, k⟩ := r
  have hptr : mp.freePtr = chunkAt mp.startPtr c i := hp.linked.1
  match k, hp with
  | 0, hp => exact absurd (hp.pos (i, 0) List.mem_cons_self) (by simp)
  | 1, hp =>
    obtain ⟨mp', hcall, hstart, hp'⟩ := hp.allocate_last
    exact ⟨mp', _, hptr ▸ hcall, hstart, rfl, hp'⟩
  | k + 2, hp =>
    obtain ⟨mp', hcall, hstart, hp'⟩ := hp.allocate_more
    exact ⟨mp', _, hptr ▸ hcall, hstart, rfl, hp'⟩

/-- A live chunk becomes a run of its own in front of the others. -/
theorem free {i : ℕ} (hp : Partition mp c n runs live) (hi : i ∈ live) :
    ∃ mp', mp.mpFreeChunk (chunkAt mp.startPtr c i) = some mp' ∧ mp'.startPtr = mp.startPtr ∧
      Partition mp' c n ((i, 1) :: runs) (live.erase i) := by
  have hc := hp.header_le
  have haligned : ((chunkAt mp.startPtr c i : ℤ) - mp.startPtr).tmod mp.chunkSize = 0 := by
    rw [hp.chunkSize_eq, chunkAt]
    push_cast
    rw [add_sub_cancel_left, Int.mul_tmod_left]
  refine ⟨_, if_neg (not_not.mpr haligned), rfl, ?_⟩
  refine ⟨hc, hp.chunkSize_eq, hp.total_eq, hp.total_lt, hp.start_pos, hp.fits, ?_, ?_, ?_, ?_⟩
  · refine ⟨rfl, ?_, ?_⟩
    · rw [mcFreeChunks_setNext]
      exact mcFreeChunks_set (n := 1) (by decide)
    · rw [mcNext_setNext hp.freePtr_lt]
      refine hp.linked.off hc (hp.head_ne hi) fun x hx => ?_
      have houtside : x < chunkAt mp.startPtr c i ∨
          chunkAt mp.startPtr c i + sizeofMemChunk ≤ x := by omega
      exact (keepsOff_setNext _ x houtside).trans (keepsOff_setFree _ x houtside)
  · exact List.forall_mem_cons.mpr ⟨Nat.one_pos, hp.pos⟩
  · have hmove : (i :: (runChunks runs ++ live.erase i)).Perm (runChunks runs ++ live) :=
      List.perm_middle.symm.trans (List.Perm.append_left _ (List.perm_cons_erase hi).symm)
    exact hmove.trans hp.perm
  · simp only [hp.free_eq, runChunks_cons, List.length_append, List.length_range']
    push_cast
    omega

/-- A client that writes inside a live chunk does not touch the free list. -/
theorem clientWrite {i a : ℕ} (hp : Partition mp c n runs live) (hi : i ∈ live)
    (hlo : chunkAt mp.startPtr c i ≤ a) (hhi : a < chunkAt mp.startPtr c i + c) (v : U8) :
    Partition (mp.clientWrite a v) c n runs live := by
  refine ⟨hp.header_le, hp.chunkSize_eq, hp.total_eq, hp.total_lt, hp.start_pos, hp.fits, ?_,
    hp.pos, hp.perm, hp.free_eq⟩
  exact hp.linked.off hp.header_le (hp.head_ne hi) fun x hx => Function.update_of_ne (by omega) ..

end Partition

/-! ## Making a pool -/

/-- A signed number as `size_t`. -/
theorem toNat_signExtend64 (x : U32) :
    ((x.signExtend 64).toNat : ℤ) = if 0 ≤ x.toInt then x.toInt else 2 ^ 64 + x.toInt := by
  have hint : (x.signExtend 64).toInt = x.toInt := BitVec.toInt_signExtend_of_le (by decide)
  have hcond := BitVec.toInt_eq_toNat_cond (x.signExtend 64)
  have hlt := (x.signExtend 64).isLt
  split_ifs at hcond ⊢ <;> omega

/-- A block can be had only if the number of chunks has not become negative, and then it has room
for all of them. -/
theorem memalignGives_chunks {block c : ℕ} {size : BitVec 64} {n : U32} (hc : 0 < c)
    (hc' : c < 2 ^ 31) (hsize : size.toNat = c)
    (hgives : memalignGives block (size * n.signExtend 64)) :
    ∃ k : ℕ, n.toInt = k ∧ block + k * c ≤ 2 ^ 64 := by
  obtain ⟨-, hsmall, hfits⟩ := hgives
  have hn := toNat_signExtend64 n
  have hle : -2 ^ 31 ≤ n.toInt := BitVec.le_toInt n
  rw [BitVec.toNat_mul, hsize] at hsmall hfits
  by_cases hneg : 0 ≤ n.toInt
  · rw [if_pos hneg] at hn
    refine ⟨(n.signExtend 64).toNat, hn.symm, ?_⟩
    have hlt : (n.signExtend 64).toNat < 2 ^ 31 := by
      have := BitVec.toInt_lt (x := n)
      omega
    have hmul : c * (n.signExtend 64).toNat ≤ 2 ^ 31 * 2 ^ 31 := Nat.mul_le_mul hc'.le hlt.le
    rw [Nat.mod_eq_of_lt (by omega), Nat.mul_comm] at hfits
    exact hfits
  · -- the size is within `2 ^ 62` of `2 ^ 64`, and no block is that large
    rw [if_neg hneg] at hn
    obtain ⟨m, hm⟩ : ∃ m : ℕ, (m : ℤ) = -n.toInt := ⟨n.toInt.natAbs, by omega⟩
    have hn' : (n.signExtend 64).toNat = 2 ^ 64 - m := by omega
    have hmul : c * m ≤ 2 ^ 31 * 2 ^ 31 := Nat.mul_le_mul hc'.le (by omega)
    have hpos : 0 < c * m := Nat.mul_pos hc (by omega)
    have hwrap : c * (2 ^ 64 - m) = 2 ^ 64 - c * m + 2 ^ 64 * (c - 1) := by
      rw [Nat.mul_sub, Nat.mul_sub, Nat.mul_comm c (2 ^ 64), Nat.mul_one]
      have : 2 ^ 64 ≤ 2 ^ 64 * c := Nat.le_mul_of_pos_right _ hc
      omega
    rw [hn', hwrap, Nat.add_mul_mod_self_left, Nat.mod_eq_of_lt (by omega)] at hsmall
    omega

/-- A pool without chunks: its header says so, and there is nothing to hand out. -/
structure EmptyPool (mp : MemPool) : Prop where
  total_eq : mp.totalChunks = 0
  free_eq : mp.freeChunks = 0
  freePtr_eq : mp.freePtr = mp.startPtr
  header : mcFreeChunks mp.mem mp.freePtr = 0
  last : mcNext mp.mem mp.freePtr = 0

/-- What `MPCreate` makes: a pool without chunks, or one run of all chunks. -/
theorem mpCreate_cases {chunkSize : U32} {totalSize : BitVec 64} {block : ℕ} {mem : ℕ → U8}
    {mp : MemPool} (hmp : mpCreate chunkSize totalSize block mem = some mp) :
    EmptyPool mp ∨ ∃ c n, 0 < n ∧ Partition mp c n [(0, n)] [] := by
  simp only [mpCreate] at hmp
  split_ifs at hmp with hheader hmod hgives
  generalize hn :
    ((totalSize + (chunkSize - 1).signExtend 64) / chunkSize.signExtend 64).setWidth 32 = n
    at hmp hgives
  have hempty : n.toInt = 0 → EmptyPool mp := by
    intro hzero
    rw [hzero] at hmp
    cases hmp
    refine ⟨rfl, rfl, rfl, ?_, mcNext_setNext (by decide)⟩
    simp only [mcFreeChunks_setNext]
    exact mcFreeChunks_set (n := 0) (by decide)
  have hsize := toNat_signExtend64 chunkSize
  have hlow := BitVec.le_toInt chunkSize
  have hhigh := BitVec.toInt_lt (x := chunkSize)
  by_cases hneg : 0 ≤ chunkSize.toInt
  · rw [if_pos hneg] at hsize
    have hheader16 : sizeofMemChunk = 16 := rfl
    obtain ⟨k, hk, hfits⟩ := memalignGives_chunks (c := (chunkSize.signExtend 64).toNat)
      (by omega) (by omega) rfl hgives
    by_cases hzero : k = 0
    · exact .inl (hempty (by rw [hk, hzero]; rfl))
    · refine .inr ⟨(chunkSize.signExtend 64).toNat, k, by omega, ?_⟩
      have hlt : k < 2 ^ 31 := by
        have := BitVec.toInt_lt (x := n)
        omega
      rw [hk] at hmp
      cases hmp
      refine ⟨by omega, hsize.symm, rfl, hlt, Nat.pos_of_ne_zero hgives.1, hfits, ⟨?_, ?_, ?_⟩, ?_,
        ?_, ?_⟩
      · simp [chunkAt]
      · rw [mcFreeChunks_setNext]
        exact mcFreeChunks_set hlt
      · exact mcNext_setNext (by decide)
      · simpa using Nat.pos_of_ne_zero hzero
      · simp [List.range_eq_range']
      · simp
  · -- as `size_t` the chunk size is so large that there is at most one chunk, which does not fit
    rw [if_neg hneg] at hsize
    have hquot : n.toNat ≤ 1 := by
      rw [← hn, BitVec.toNat_setWidth, BitVec.toNat_udiv]
      refine (Nat.mod_le _ _).trans ?_
      have hA := (totalSize + (chunkSize - 1).signExtend 64).isLt
      have := Nat.div_lt_of_lt_mul (show (totalSize + (chunkSize - 1).signExtend 64).toNat <
        (chunkSize.signExtend 64).toNat * 2 by omega)
      omega
    rcases Nat.le_one_iff_eq_zero_or_eq_one.mp hquot with hzero | hone
    · exact .inl (hempty (by rw [BitVec.eq_of_toNat_eq (y := 0#32) hzero]; rfl))
    · have hn1 : n = 1#32 := BitVec.eq_of_toNat_eq hone
      have hmul : chunkSize.signExtend 64 * n.signExtend 64 = chunkSize.signExtend 64 := by
        rw [hn1]
        exact BitVec.mul_one _
      have hsmall := hgives.2.1
      rw [hmul] at hsmall
      omega

/-! ## Runs -/

variable {chunkSize : U32} {totalSize : BitVec 64} {mp mp' : MemPool} {live : List ℕ}

/-- A pool in a run, with the addresses of its live chunks. -/
def PoolOk (mp : MemPool) (live : List ℕ) : Prop :=
  EmptyPool mp ∧ live = [] ∨
    ∃ c n runs idx, Partition mp c n runs idx ∧ live = idx.map (chunkAt mp.startPtr c)

theorem EmptyPool.allocate (he : EmptyPool mp) :
    mp.mpAllocateChunk = some (mp, none) := by
  rw [MemPool.mpAllocateChunk, if_pos he.free_eq]

theorem PoolOk.allocate {r : Option ℕ} (hok : PoolOk mp live)
    (ha : mp.mpAllocateChunk = some (mp', r)) : PoolOk mp' (r.toList ++ live) := by
  rcases hok with ⟨he, rfl⟩ | ⟨c, n, runs, idx, hp, rfl⟩
  · rw [he.allocate] at ha
    cases ha
    exact .inl ⟨he, rfl⟩
  · cases runs with
    | nil =>
      rw [hp.allocate_none] at ha
      cases ha
      exact .inr ⟨c, n, [], idx, hp, rfl⟩
    | cons run runs =>
      obtain ⟨mp₁, runs', hcall, hstart, -, hp'⟩ := hp.allocate_some
      rw [hcall] at ha
      cases ha
      exact .inr ⟨c, n, runs', _, hp', by rw [hstart]; rfl⟩

theorem PoolOk.free {p : ℕ} (hok : PoolOk mp live)
    (hlive : p ∈ live) (hf : mp.mpFreeChunk p = some mp') : PoolOk mp' (live.erase p) := by
  rcases hok with ⟨-, rfl⟩ | ⟨c, n, runs, idx, hp, rfl⟩
  · exact absurd hlive List.not_mem_nil
  · obtain ⟨i, hi, rfl⟩ := List.mem_map.mp hlive
    obtain ⟨mp₁, hcall, hstart, hp'⟩ := hp.free hi
    rw [hcall] at hf
    cases hf
    have hc : 0 < c := Nat.lt_of_lt_of_le (by decide) hp.header_le
    refine .inr ⟨c, n, _, _, hp', ?_⟩
    rw [hstart, List.map_erase (chunkAt_injective mp.startPtr hc)]

theorem PoolOk.clientWrite {p a : ℕ} (hok : PoolOk mp live)
    (hlive : p ∈ live) (hlo : p ≤ a) (hhi : (a : ℤ) < p + mp.chunkSize) (v : U8) :
    PoolOk (mp.clientWrite a v) live := by
  rcases hok with ⟨-, rfl⟩ | ⟨c, n, runs, idx, hp, rfl⟩
  · exact absurd hlive List.not_mem_nil
  · obtain ⟨i, hi, rfl⟩ := List.mem_map.mp hlive
    rw [hp.chunkSize_eq] at hhi
    exact .inr ⟨c, n, runs, idx, hp.clientWrite hi hlo (by omega) v, rfl⟩

theorem PoolReached.ok (hreach : PoolReached chunkSize totalSize mp live) : PoolOk mp live := by
  induction hreach with
  | create hmp =>
    exact (mpCreate_cases hmp).imp (fun he => ⟨he, rfl⟩) fun ⟨c, n, _, hp⟩ => ⟨c, n, _, [], hp, rfl⟩
  | allocate _ ha ih => exact ih.allocate ha
  | refuse _ ha ih => exact ih.allocate ha
  | free _ hp hf ih => exact ih.free hp hf
  | write _ hp hlo hhi v ih => exact ih.clientWrite hp hlo hhi v

/-- The chunks of a pool are handed out and taken back correctly. -/
structure ChunksOk (mp : MemPool) (live : List ℕ) : Prop where
  distinct : live.Nodup
  aligned : ∀ p ∈ live, ∃ i : ℕ, (i : ℤ) < mp.totalChunks ∧
    (p : ℤ) = mp.startPtr + i * mp.chunkSize ∧
    p + mp.chunkSize ≤ mp.startPtr + mp.totalChunks * mp.chunkSize
  allocates : ∃ mp' r, mp.mpAllocateChunk = some (mp', r) ∧
    (r = none ↔ (live.length : ℤ) = mp.totalChunks)
  frees : ∀ p ∈ live, ∃ mp', mp.mpFreeChunk p = some mp'
  counted : mp.freeChunks = mp.totalChunks - live.length
  covered : ∃ runs, LinkedRuns mp.startPtr mp.chunkSize.toNat mp.mem mp.freePtr runs ∧
    (runChunks runs).Nodup ∧ ∀ i : ℕ, i ∈ runChunks runs ↔
      (i : ℤ) < mp.totalChunks ∧ chunkAt mp.startPtr mp.chunkSize.toNat i ∉ live

theorem EmptyPool.chunksOk (he : EmptyPool mp) : ChunksOk mp [] where
  distinct := List.nodup_nil
  aligned := nofun
  allocates := ⟨mp, none, he.allocate, by simp [he.total_eq]⟩
  frees := nofun
  counted := by simp [he.free_eq, he.total_eq]
  covered := by
    refine ⟨[(0, 0)], ⟨?_, he.header, he.last⟩, List.nodup_nil, fun i => ?_⟩
    · rw [he.freePtr_eq, chunkAt, Nat.zero_mul, Nat.add_zero]
    · simp [he.total_eq]

theorem Partition.chunksOk {c n : ℕ} {runs : List (ℕ × ℕ)} {idx : List ℕ}
    (hp : Partition mp c n runs idx) : ChunksOk mp (idx.map (chunkAt mp.startPtr c)) := by
  have hc : 0 < c := Nat.lt_of_lt_of_le (by decide) hp.header_le
  have hinj := chunkAt_injective mp.startPtr hc
  have hlength := hp.length_eq
  obtain ⟨hfree, hlive, hdisjoint⟩ := List.nodup_append'.mp hp.nodup
  refine ⟨hlive.map hinj, fun p hmem => ?_, ?_, fun p hmem => ?_, ?_, ?_⟩
  · obtain ⟨i, hi, rfl⟩ := List.mem_map.mp hmem
    have hlt := hp.lt_of_live hi
    have hle := chunkAt_le mp.startPtr c hlt
    rw [hp.total_eq, hp.chunkSize_eq]
    refine ⟨i, by omega, by simp [chunkAt], ?_⟩
    have hend : (chunkAt mp.startPtr c n : ℤ) = mp.startPtr + n * c := by simp [chunkAt]
    omega
  · cases runs with
    | nil =>
      refine ⟨mp, none, hp.allocate_none, ?_⟩
      rw [runChunks_nil, List.length_nil] at hlength
      rw [hp.total_eq, List.length_map]
      exact ⟨fun _ => by omega, fun _ => rfl⟩
    | cons run runs =>
      obtain ⟨mp', runs', hcall, -⟩ := hp.allocate_some
      refine ⟨mp', _, hcall, ?_⟩
      have hpos : 0 < (runChunks (run :: runs)).length :=
        List.length_pos_of_mem (mem_runChunks_head List.mem_cons_self
          (hp.pos run List.mem_cons_self))
      rw [hp.total_eq, List.length_map]
      exact ⟨nofun, fun _ => by omega⟩
  · obtain ⟨i, hi, rfl⟩ := List.mem_map.mp hmem
    obtain ⟨mp', hcall, -⟩ := hp.free hi
    exact ⟨mp', hcall⟩
  · rw [hp.free_eq, hp.total_eq, List.length_map]
    omega
  · have hsize : mp.chunkSize.toNat = c := by rw [hp.chunkSize_eq, Int.toNat_natCast]
    refine ⟨runs, by rw [hsize]; exact hp.linked, hfree, fun i => ?_⟩
    rw [hsize, hp.total_eq, Int.ofNat_lt, List.mem_map_of_injective hinj]
    have hall : i ∈ runChunks runs ∨ i ∈ idx ↔ i < n := by
      rw [← List.mem_append, hp.perm.mem_iff, List.mem_range]
    constructor
    · intro hi
      exact ⟨hall.mp (.inl hi), fun hi' => hdisjoint hi hi'⟩
    · rintro ⟨hlt, hnot⟩
      exact (hall.mpr hlt).resolve_right hnot

/-- For every chunk size that `MPCreate` accepts and every total size, in every run in which only
live chunks are freed and clients write inside live chunks: the live chunks are distinct chunks of
the pool, `MPAllocateChunk` fails when and only when all chunks are live, the counter is right, and
the free list has the other chunks, each of them once. -/
theorem chunk_pool_runs {chunkSize : U32} {totalSize : BitVec 64} {mp : MemPool} {live : List ℕ}
    (hreach : PoolReached chunkSize totalSize mp live) : ChunksOk mp live := by
  rcases hreach.ok with ⟨he, rfl⟩ | ⟨c, n, runs, idx, hp, rfl⟩
  · exact he.chunksOk
  · exact hp.chunksOk

/-- Two chunks are allocated, the first one is written to, freed and allocated again. -/
theorem chunk_pool_runs_reuse : ∃ mp, PoolReached 16 40 mp [4096, 4112] ∧ mp.totalChunks = 3 ∧
    mp.freeChunks = 1 ∧ ChunksOk mp [4096, 4112] := by
  have hrun : ((mpCreate 16 40 4096 fun _ => 0).bind fun mp => mp.mpAllocateChunk.bind fun r =>
      r.1.mpAllocateChunk.bind fun r' =>
      ((r'.1.clientWrite 4099 255).mpFreeChunk 4096).bind fun mp' =>
      mp'.mpAllocateChunk.map fun r'' =>
        (r.2, r'.2, r'.1.chunkSize, r''.2, r''.1.totalChunks, r''.1.freeChunks)) =
      some (some 4096, some 4112, 16, some 4096, 3, 1) := by decide +kernel
  simp only [Option.bind_eq_some_iff, Option.map_eq_some_iff, Prod.mk.injEq] at hrun
  obtain ⟨mp, hmp, ⟨mp₁, _⟩, h₁, ⟨mp₂, _⟩, h₂, mp₃, h₃, ⟨mp₄, _⟩, h₄, rfl, rfl, hsize, rfl, htotal,
    hfree⟩ := hrun
  have hwrite := PoolReached.write (((PoolReached.create hmp).allocate h₁).allocate h₂)
    (p := 4096) (a := 4099) (by simp) (by decide) (by rw [hsize]; decide) 255
  have hreach := (hwrite.free (by simp) h₃).allocate h₄
  exact ⟨mp₄, hreach, htotal, hfree, chunk_pool_runs hreach⟩

end MtcpStack
