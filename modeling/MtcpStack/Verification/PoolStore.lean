import MtcpStack.Model.PoolStore
import MtcpStack.Verification.AddrPool
import Mathlib.Data.List.ProdSigma

/-! # Address pools, cell by cell -/

namespace MtcpStack

open TailQueue

namespace PoolStore

/-! ## The loops that fill a pool -/

/-- The pool after cells for the addresses and ports `vis` have been filled. -/
def filled (addrBase : U32) (vis : List (ℕ × ℕ)) : Fill := vis.foldl (Fill.add addrBase) Fill.start

section Filled

variable {addrBase : U32} {vis : List (ℕ × ℕ)}

theorem filled_nil (addrBase : U32) : filled addrBase [] = Fill.start := rfl

theorem filled_append_one (v : ℕ × ℕ) :
    filled addrBase (vis ++ [v]) = (filled addrBase vis).add addrBase v := by
  rw [filled, List.foldl_append]
  rfl

theorem pool_filled :
    (filled addrBase vis).pool = vis.map fun v => poolEntry addrBase v.1 v.2 := by
  induction vis using List.reverseRecOn with
  | nil => rfl
  | append_singleton vis v ih => rw [filled_append_one, Fill.add, ih, List.map_append]; rfl

theorem length_filled : (filled addrBase vis).pool.length = vis.length := by
  rw [pool_filled, List.length_map]

/-- All cells are on the free list, in order. -/
theorem links_filled :
    TailQueue.Holds (filled addrBase vis).links .free (List.range vis.length) ∧
      TailQueue.Holds (filled addrBase vis).links .used [] := by
  induction vis using List.reverseRecOn with
  | nil => exact ⟨⟨trivial, rfl, rfl, List.nodup_nil⟩, ⟨trivial, rfl, rfl, List.nodup_nil⟩⟩
  | append_singleton vis v ih =>
    have hnew : vis.length ∉ List.range vis.length := by simp
    rw [filled_append_one, Fill.add, length_filled, List.length_append, List.length_singleton,
      List.range_succ]
    exact ⟨ih.1.insertTail hnew,
      ih.1.insertTail_other ih.2 nofun (List.disjoint_nil_right _) List.not_mem_nil⟩

/-- The mapper leads to the cell of an address and a port. -/
theorem mapper_filled (hnodup : vis.Nodup) (i j k : ℕ) :
    (filled addrBase vis).mapper i j = some k ↔ vis[k]? = some (i, j) := by
  induction vis using List.reverseRecOn with
  | nil => exact ⟨by rintro ⟨⟩, by rintro ⟨⟩⟩
  | append_singleton vis v ih =>
    obtain ⟨hvis, -, hdisj⟩ := List.nodup_append'.mp hnodup
    have hv : ∀ k, vis[k]? ≠ some v := fun k hk =>
      hdisj (List.mem_of_getElem? hk) (List.mem_singleton_self v)
    rw [filled_append_one, Fill.add]
    simp only [length_filled]
    by_cases heq : (i, j) = v
    · rw [if_pos heq, heq, Option.some.injEq]
      constructor
      · rintro rfl
        exact List.getElem?_concat_length
      · intro hk
        rcases Nat.lt_trichotomy k vis.length with hlt | rfl | hgt
        · rw [List.getElem?_append_left hlt] at hk
          exact absurd hk (hv k)
        · rfl
        · rw [List.getElem?_eq_none (by simp; omega)] at hk
          cases hk
    · rw [if_neg heq, ih hvis]
      by_cases hlt : k < vis.length
      · rw [List.getElem?_append_left hlt]
      · rw [List.getElem?_eq_none (by omega), List.getElem?_append_right (by omega)]
        refine ⟨by simp, fun hk => ?_⟩
        rw [List.getElem?_singleton] at hk
        split_ifs at hk
        exact absurd (Option.some.inj hk).symm heq

end Filled

theorem length_ports : ports.length = 64511 := List.length_range'

theorem take_append_take {α : Type} (as bs : List α) (n : ℕ) :
    (as.take n ++ bs).take n = (as ++ bs).take n := by
  rw [List.take_append, List.take_append, List.take_take, Nat.min_self, List.length_take]
  congr 2
  omega

section Loops

variable {addrBase : U32} {vis : List (ℕ × ℕ)} {n i : ℕ}

/-- The inner loop of `CreateAddressPool` fills cells until the array is full. -/
theorem fillPorts_filled (js : List ℕ) (hroom : vis.length < n) :
    fillPorts addrBase n i js (filled addrBase vis) =
      some (filled addrBase ((vis ++ js.map (i, ·)).take n)) := by
  induction js generalizing vis with
  | nil =>
    rw [List.map_nil, List.append_nil, List.take_of_length_le hroom.le]
    rfl
  | cons j js ih =>
    have happend : vis ++ (j :: js).map (i, ·) = vis ++ [(i, j)] ++ js.map (i, ·) := by simp
    have hlength : (vis ++ [(i, j)]).length = vis.length + 1 := by simp
    rw [fillPorts, length_filled, if_neg (by omega)]
    simp only [← filled_append_one, length_filled]
    by_cases hfull : (n : ℤ) ≤ (vis ++ [(i, j)]).length
    · rw [if_pos hfull, happend, List.take_left' (by omega)]
    · rw [if_neg hfull, ih (by omega), happend]

theorem fillPorts_full {js : List ℕ} (hjs : js ≠ []) (hfull : n ≤ vis.length) :
    fillPorts addrBase n i js (filled addrBase vis) = none := by
  obtain ⟨j, js, rfl⟩ := List.exists_cons_of_ne_nil hjs
  rw [fillPorts, length_filled, if_pos (by omega)]

/-- The loops of `CreateAddressPool` stay inside the array when it is not full before the last
address. -/
theorem fillAll_filled (addrBase : U32) {js : List ℕ} (hjs : js ≠ []) (is : List ℕ)
    (hle : vis.length ≤ n) :
    is.foldlM (fun f i => fillPorts addrBase n i js f) (filled addrBase vis) =
      if is = [] ∨ vis.length + (is.length - 1) * js.length < n then
        some (filled addrBase ((vis ++ is ×ˢ js).take n))
      else none := by
  induction is generalizing vis with
  | nil =>
    rw [if_pos (.inl rfl), List.nil_product, List.append_nil, List.take_of_length_le hle]
    rfl
  | cons i is ih =>
    rw [List.foldlM_cons]
    by_cases hroom : vis.length < n
    · have hlength : ((vis ++ js.map (i, ·)).take n).length = min n (vis.length + js.length) := by
        simp
      rw [fillPorts_filled js hroom, Option.bind_eq_bind, Option.bind_some,
        ih (List.length_take_le ..), take_append_take, List.append_assoc, ← List.product_cons,
        hlength]
      congr 1
      cases is with
      | nil => simpa using hroom
      | cons i' is =>
        have hmul := Nat.add_one_mul is.length js.length
        simp only [List.length_cons, Nat.add_sub_cancel, reduceCtorEq, false_or, eq_iff_iff]
        omega
    · have hcond : ¬ (i :: is = [] ∨ vis.length + ((i :: is).length - 1) * js.length < n) := by
        rintro (hnil | hlt)
        · cases hnil
        · omega
      rw [fillPorts_full hjs (Nat.le_of_not_lt hroom), if_neg hcond]
      rfl

/-- The inner loop of `CreateAddressPoolPerCore` fills cells for the core's own ports until the
array is full. -/
theorem fillPortsPerCore_filled (own : ℕ × ℕ → Bool) (js : List ℕ) (hle : vis.length ≤ n) :
    fillPortsPerCore addrBase n own i js (filled addrBase vis) =
      filled addrBase ((vis ++ (js.map (i, ·)).filter own).take n) := by
  induction js generalizing vis with
  | nil =>
    rw [List.map_nil, List.filter_nil, List.append_nil, List.take_of_length_le hle]
    rfl
  | cons j js ih =>
    rw [fillPortsPerCore, length_filled]
    by_cases hfull : (n : ℤ) ≤ vis.length
    · rw [if_pos hfull, List.take_left' (by omega)]
    rw [if_neg hfull, List.map_cons, List.filter_cons]
    by_cases hown : own (i, j) = true
    · have hlength : (vis ++ [(i, j)]).length = vis.length + 1 := by simp
      rw [if_pos hown, if_pos hown, ← filled_append_one, ih (by omega)]
      simp
    · rw [if_neg hown, if_neg hown, ih hle]

theorem fillAllPerCore_filled (own : ℕ × ℕ → Bool) (js is : List ℕ) (hle : vis.length ≤ n) :
    is.foldl (fun f i => fillPortsPerCore addrBase n own i js f) (filled addrBase vis) =
      filled addrBase ((vis ++ (is ×ˢ js).filter own).take n) := by
  induction is generalizing vis with
  | nil => rw [List.foldl_nil, List.nil_product, List.filter_nil, List.append_nil,
      List.take_of_length_le hle]
  | cons i is ih =>
    rw [List.foldl_cons, fillPortsPerCore_filled own js hle, ih (List.length_take_le ..),
      take_append_take, List.product_cons, List.filter_append, List.append_assoc]

end Loops

/-! ## Pools that have been made -/

/-- The number of cells is exact when it is an `int`; otherwise it is negative, or the array is full
before the last address. -/
theorem product_room {m : ℤ} (hm : 0 ≤ m) :
    0 ≤ (m * 64511).bmod (2 ^ 32) ∧ (m = 0 ∨ (m - 1) * 64511 < (m * 64511).bmod (2 ^ 32)) ↔
      m * 64511 < 2 ^ 31 := by
  by_cases hint : m * 64511 < 2 ^ 31
  · rw [Int.bmod_eq_of_le (by omega) (by omega)]
    omega
  · have hlt : (m * 64511).bmod (2 ^ 32) < 2 ^ 31 := Int.bmod_lt (by decide)
    refine iff_of_false (fun ⟨hpos, hroom⟩ => ?_) hint
    have hwrap : (m * 64511).bmod (2 ^ 32) = m * 64511 - 2 ^ 32 := by
      rw [Int.bmod_def, Int.emod_eq_of_lt (by omega) (by omega)]
      exact if_neg (by omega)
    omega

theorem ports_ne_nil : ports ≠ [] := List.ne_nil_of_length_pos (by rw [length_ports]; decide)

/-- `CreateAddressPool` makes a pool of all addresses and ports when their number is an `int`, and
none otherwise. -/
theorem createAddressPool_eq (memory : Bool) (saddrBase numAddr : U32) :
    createAddressPool memory saddrBase numAddr =
      if memory = true ∧ 0 ≤ numAddr.toInt ∧ numAddr.toInt * 64511 < 2 ^ 31 then
        some ((filled (ntohl saddrBase) (List.range numAddr.toInt.toNat ×ˢ ports)).finish
          (ntohl saddrBase) numAddr)
      else none := by
  have hprod : (numAddr * BitVec.ofNat 32 (maxPort - minPort)).toInt =
      (numAddr.toInt * 64511).bmod (2 ^ 32) := BitVec.toInt_mul ..
  rw [createAddressPool, hprod]
  by_cases hneg : ¬ memory = true ∨ (numAddr.toInt * 64511).bmod (2 ^ 32) < 0 ∨ numAddr.toInt < 0
  · rw [if_pos hneg, if_neg]
    rintro ⟨hmem, hnum, hint⟩
    have hpos := ((product_room hnum).mpr hint).1
    rcases hneg with hnomem | hneg | hneg
    · exact hnomem hmem
    · omega
    · omega
  rw [if_neg hneg]
  obtain ⟨hmem, hrest⟩ := not_or.mp hneg
  obtain ⟨hpos, hnum⟩ := not_or.mp hrest
  have hroom := product_room (m := numAddr.toInt) (by omega)
  obtain ⟨n, hn⟩ := Int.eq_ofNat_of_zero_le (Int.not_lt.mp hpos)
  obtain ⟨m, hm⟩ := Int.eq_ofNat_of_zero_le (Int.not_lt.mp hnum)
  have hle : ([] : List (ℕ × ℕ)).length ≤ n := Nat.zero_le n
  have hfill := fillAll_filled (ntohl saddrBase) ports_ne_nil (List.range m) hle
  rw [hn, hm] at hroom
  have hcond : List.range m = [] ∨ 0 + (m - 1) * 64511 < n ↔ (m : ℤ) * 64511 < 2 ^ 31 := by
    rw [List.range_eq_nil]
    omega
  rw [hn, hm, Int.toNat_natCast, ← filled_nil (ntohl saddrBase), hfill, List.length_nil,
    List.length_range, length_ports]
  by_cases hint : (m : ℤ) * 64511 < 2 ^ 31
  · have hexact : (n : ℤ) = m * 64511 := by
      rw [← hn, hm, Int.bmod_eq_of_le (by omega) (by omega)]
    have hlength : (List.range m ×ˢ ports).length ≤ n := by
      rw [List.length_product, List.length_range, length_ports]
      omega
    rw [if_pos (hcond.mpr hint), if_pos ⟨not_not.mp hmem, by omega, hint⟩, List.nil_append,
      List.take_of_length_le hlength]
    rfl
  · rw [if_neg (hcond.not.mpr hint), if_neg (fun h => hint h.2.2)]
    rfl

/-- The cells of a core's pool are some of all addresses and ports, in order. -/
theorem createAddressPoolPerCore_filled {memory : Bool} {core numQueues : U32} {endianCheck : Bool}
    {saddrBase numAddr : U32} {daddr : SockAddr} {ps : PoolStore}
    (hps : createAddressPoolPerCore memory core numQueues endianCheck saddrBase numAddr daddr =
      some ps) :
    ∃ vis, vis.Sublist (List.range numAddr.toInt.toNat ×ˢ ports) ∧
      ps = (filled (ntohl saddrBase) vis).finish (ntohl saddrBase) numAddr := by
  rw [createAddressPoolPerCore] at hps
  generalize ((numAddr * BitVec.ofNat 32 (maxPort - minPort)).sdiv numQueues).toInt = n at hps
  generalize (fun v : ℕ × ℕ => decide (poolRssCore (poolEntry (ntohl saddrBase) v.1 v.2) daddr
    numQueues endianCheck = some core)) = own at hps
  dsimp only at hps
  split_ifs at hps with hqueues hfail
  obtain ⟨n, rfl⟩ := Int.eq_ofNat_of_zero_le (Int.not_lt.mp fun h => hfail (.inr (.inl h)))
  rw [← filled_nil (ntohl saddrBase), fillAllPerCore_filled own ports _ (Nat.zero_le _)] at hps
  cases hps
  exact ⟨_, (List.take_sublist _ _).trans List.filter_sublist, rfl⟩

theorem filled_of_made {ps : PoolStore} (hmade : MadePool ps) :
    ∃ addrBase numAddr vis, vis.Sublist (List.range numAddr.toInt.toNat ×ˢ ports) ∧
      ps = (filled addrBase vis).finish addrBase numAddr := by
  cases hmade with
  | pool hps =>
    rw [createAddressPool_eq] at hps
    split_ifs at hps
    cases hps
    exact ⟨_, _, _, List.Sublist.refl _, rfl⟩
  | perCore hps => exact ⟨_, _, createAddressPoolPerCore_filled hps⟩

/-! ## What a pool keeps -/

variable (ps : PoolStore)

/-- The cell to which a mapper leads. -/
def mapped (mapper : ℕ → ℕ → Option ℕ) (a : SockAddr) : Option ℕ :=
  if 0 ≤ (ntohl a.addr - ps.addrBase).toInt ∧ (ntohl a.addr - ps.addrBase).toInt < ps.numAddr then
    mapper (ntohl a.addr - ps.addrBase).toNat (ntohs a.port).toNat
  else none

/-- The cells hold different addresses, and the mapper leads from each to its cell. -/
structure Shape : Prop where
  numEntry_eq : ps.numEntry = ps.pool.length
  nodup : ps.pool.Nodup
  mapper_eq : ∃ mapper, ps.mapper = some mapper ∧
    ∀ a k, ps.mapped mapper a = some k ↔ ps.pool[k]? = some a

/-- Every cell is on one of the lists, once, and the counters are the lengths of the lists. -/
structure Parts (fs us : List ℕ) : Prop where
  free : TailQueue.Holds ps.links .free fs
  used : TailQueue.Holds ps.links .used us
  perm : (fs ++ us).Perm (List.range ps.pool.length)
  numFree_eq : ps.numFree = fs.length
  numUsed_eq : ps.numUsed = us.length

section Made

variable {addrBase numAddr : U32} {vis : List (ℕ × ℕ)}

theorem bound_of_sublist (hsub : vis.Sublist (List.range numAddr.toInt.toNat ×ˢ ports))
    {v : ℕ × ℕ} (hv : v ∈ vis) : (v.1 : ℤ) < numAddr.toInt ∧ v.1 < 2 ^ 31 ∧ v.2 < 2 ^ 16 := by
  have hnum : numAddr.toInt < 2 ^ 31 := BitVec.toInt_lt
  obtain ⟨hi, hj⟩ := List.mem_product.mp (hsub.subset hv)
  rw [List.mem_range] at hi
  simp only [ports, List.mem_range'_1, minPort, maxPort] at hj
  omega

theorem pool_finish :
    ((filled addrBase vis).finish addrBase numAddr).pool =
      vis.map fun v => poolEntry addrBase v.1 v.2 := pool_filled

theorem mapped_finish (mapper : ℕ → ℕ → Option ℕ) (a : SockAddr) :
    ((filled addrBase vis).finish addrBase numAddr).mapped mapper a =
      if 0 ≤ (ntohl a.addr - addrBase).toInt ∧ (ntohl a.addr - addrBase).toInt < numAddr.toInt then
        mapper (ntohl a.addr - addrBase).toNat (ntohs a.port).toNat
      else none := rfl

/-- The entry for the index and the port of an address is the address. -/
theorem poolEntry_index (a : SockAddr) :
    poolEntry addrBase (ntohl a.addr - addrBase).toNat (ntohs a.port).toNat = a := by
  rw [poolEntry, BitVec.ofNat_toNat, BitVec.ofNat_toNat, BitVec.setWidth_eq, BitVec.setWidth_eq,
    ntohs_ntohs, add_sub_cancel, ntohl_ntohl]

theorem shape_filled (addrBase : U32)
    (hsub : vis.Sublist (List.range numAddr.toInt.toNat ×ˢ ports)) :
    Shape ((filled addrBase vis).finish addrBase numAddr) := by
  have hvis : vis.Nodup := hsub.nodup (List.nodup_range.product (List.nodup_range' ..))
  refine ⟨rfl, ?_, _, rfl, fun a k => ?_⟩
  · rw [pool_finish]
    refine List.Nodup.map_on (fun v hv w hw heq => ?_) hvis
    obtain ⟨-, hi, hj⟩ := bound_of_sublist hsub hv
    obtain ⟨-, hi', hj'⟩ := bound_of_sublist hsub hw
    obtain ⟨hi, hj⟩ := poolEntry_inj (by omega) (by omega) hj hj' heq
    exact Prod.ext hi hj
  rw [pool_finish, List.getElem?_map, Option.map_eq_some_iff, mapped_finish]
  constructor
  · intro hmapped
    split_ifs at hmapped
    exact ⟨_, (mapper_filled hvis ..).mp hmapped, poolEntry_index a⟩
  · rintro ⟨⟨i, j⟩, hk, rfl⟩
    obtain ⟨hnum, hi, hj⟩ := bound_of_sublist hsub (List.mem_of_getElem? hk)
    have hindex : ntohl (poolEntry addrBase i j).addr - addrBase = BitVec.ofNat 32 i := by
      rw [poolEntry, ntohl_ntohl, add_sub_cancel_left]
    have hport : (ntohs (poolEntry addrBase i j).port).toNat = j := by
      rw [poolEntry, ntohs_ntohs, BitVec.toNat_ofNat, Nat.mod_eq_of_lt hj]
    have hnat : (BitVec.ofNat 32 i).toNat = i := by
      rw [BitVec.toNat_ofNat, Nat.mod_eq_of_lt (by omega)]
    rw [hindex, Serial.toInt_ofNat_of_lt (by omega), if_pos ⟨by omega, hnum⟩, hnat, hport]
    exact (mapper_filled hvis ..).mpr hk

theorem parts_filled :
    Parts ((filled addrBase vis).finish addrBase numAddr) (List.range vis.length) [] where
  free := links_filled.1
  used := links_filled.2
  perm := by rw [List.append_nil, pool_finish, List.length_map]
  numFree_eq := by
    rw [List.length_range]
    exact congrArg _ length_filled
  numUsed_eq := rfl

end Made

/-! ## Cells -/

section Cells

variable {ps} {fs gs us vs : List ℕ} {k : ℕ} {a : SockAddr}

@[simp] theorem numFree_take : (ps.take k).numFree = ps.numFree - 1 := rfl

@[simp] theorem numUsed_take : (ps.take k).numUsed = ps.numUsed + 1 := rfl

@[simp] theorem numFree_giveBack : (ps.giveBack k).numFree = ps.numFree + 1 := rfl

@[simp] theorem numUsed_giveBack : (ps.giveBack k).numUsed = ps.numUsed - 1 := rfl

theorem getElem?_iff_cell (hk : k < ps.pool.length) :
    ps.pool[k]? = some a ↔ ps.cell k = a := by
  rw [cell, List.getD_eq_getElem?_getD, List.getElem?_eq_getElem hk, Option.some.injEq,
    Option.getD_some]

theorem map_cell_range (ps : PoolStore) : (List.range ps.pool.length).map ps.cell = ps.pool := by
  refine List.ext_getElem (by simp) fun k hk hk' => ?_
  rw [List.getElem_map, List.getElem_range]
  exact (getElem?_iff_cell hk').mp (List.getElem?_eq_getElem hk')

theorem Shape.cell_inj (h : ps.Shape) {i j : ℕ} (hi : i < ps.pool.length)
    (hj : j < ps.pool.length) (heq : ps.cell i = ps.cell j) : i = j := by
  have hi' := (getElem?_iff_cell hi).mpr heq
  have hj' := (getElem?_iff_cell hj).mpr rfl
  exact (List.getElem?_inj hi h.nodup).mp (hi'.trans hj'.symm)

theorem Parts.lt_of_mem (h : ps.Parts fs us) (hk : k ∈ fs ++ us) : k < ps.pool.length :=
  List.mem_range.mp (h.perm.mem_iff.mp hk)

theorem Parts.disjoint (h : ps.Parts fs us) : fs.Disjoint us :=
  (List.nodup_append'.mp (h.perm.nodup_iff.mpr List.nodup_range)).2.2

/-- A cell goes from the free list to the used list. -/
theorem Parts.take (h : ps.Parts (fs ++ k :: gs) us) :
    (ps.take k).Parts (fs ++ gs) (us ++ [k]) := by
  obtain ⟨hfree, hused⟩ := h.free.move h.used nofun h.disjoint
  refine ⟨hfree, hused, List.Perm.trans ?_ h.perm, ?_, ?_⟩
  · refine List.perm_iff_count.mpr fun x => ?_
    simp only [List.count_append, List.count_cons, List.count_nil]
    omega
  · have hnum := h.numFree_eq
    rw [List.length_append, List.length_cons] at hnum
    rw [numFree_take, List.length_append]
    omega
  · rw [numUsed_take, h.numUsed_eq, List.length_append]
    rfl

/-- A cell goes from the used list to the free list. -/
theorem Parts.giveBack (h : ps.Parts fs (us ++ k :: vs)) :
    (ps.giveBack k).Parts (fs ++ [k]) (us ++ vs) := by
  obtain ⟨hused, hfree⟩ := h.used.move h.free nofun h.disjoint.symm
  refine ⟨hfree, hused, List.Perm.trans ?_ h.perm, ?_, ?_⟩
  · refine List.perm_iff_count.mpr fun x => ?_
    simp only [List.count_append, List.count_cons, List.count_nil]
    omega
  · rw [numFree_giveBack, h.numFree_eq, List.length_append]
    rfl
  · have hnum := h.numUsed_eq
    rw [List.length_append, List.length_cons] at hnum
    rw [numUsed_giveBack, List.length_append]
    omega

/-! ## The pool of addresses -/

/-- The pool in which an entry is named by its address. -/
def abs (ps : PoolStore) (fs us : List ℕ) : AddrPool where
  pool := ps.pool
  addrBase := ps.addrBase
  numAddr := ps.numAddr.toNat
  numFree := ps.numFree
  numUsed := ps.numUsed
  freeList := fs.map ps.cell
  usedList := us.map ps.cell

/-- The cells are those of the address pool `ap`. -/
structure Refines (ps : PoolStore) (ap : AddrPool) : Prop where
  shape : ps.Shape
  parts : ∃ fs us, ps.Parts fs us ∧ ps.abs fs us = ap

theorem erase_map_cell (h : ps.Shape) (hlt : ∀ i ∈ fs ++ k :: gs, i < ps.pool.length)
    (hnodup : (fs ++ k :: gs).Nodup) :
    ((fs ++ k :: gs).map ps.cell).erase (ps.cell k) = (fs ++ gs).map ps.cell := by
  have hk : ps.cell k ∉ fs.map ps.cell := by
    intro hmem
    obtain ⟨i, hi, heq⟩ := List.mem_map.mp hmem
    have hik := h.cell_inj (hlt i (by simp [hi])) (hlt k (by simp)) heq
    exact (List.nodup_append'.mp hnodup).2.2 hi (hik ▸ List.mem_cons_self)
  rw [List.map_append, List.map_cons, List.erase_append_right _ hk, List.erase_cons_head,
    List.map_append]

theorem refines_take (h : ps.Shape) (hparts : ps.Parts fs us) (hk : k ∈ fs) :
    Refines (ps.take k) ((ps.abs fs us).use (ps.cell k)) := by
  obtain ⟨fs, gs, rfl⟩ := List.append_of_mem hk
  refine ⟨⟨h.1, h.2, h.3⟩, _, _, hparts.take, ?_⟩
  have herase := erase_map_cell h (fun i hi => hparts.lt_of_mem (List.mem_append_left us hi))
    hparts.free.nodup
  have hused : (us ++ [k]).map ps.cell = us.map ps.cell ++ [ps.cell k] := List.map_append
  simp only [abs, AddrPool.use, herase, ← hused]
  rfl

theorem Shape.lookup_eq (h : ps.Shape) (a : SockAddr) :
    ∃ found, ps.lookup a = some found ∧ ∀ k, found = some k ↔ ps.pool[k]? = some a := by
  obtain ⟨mapper, hmapper, hmapped⟩ := h.mapper_eq
  refine ⟨ps.mapped mapper a, ?_, hmapped a⟩
  rw [lookup, hmapper, mapped]
  exact (apply_ite some ..).symm

/-- Through the mapper `FreeAddress` finds every cell, on whichever list it is. -/
theorem Shape.freeAddress_cell (h : ps.Shape) (hk : k < ps.pool.length) :
    ps.freeAddress (ps.cell k) = some (ps.giveBack k, 0) := by
  obtain ⟨found, hlookup, hfound⟩ := h.lookup_eq (ps.cell k)
  obtain rfl := (hfound k).mpr ((getElem?_iff_cell hk).mpr rfl)
  rw [PoolStore.freeAddress, hlookup]
  rfl

theorem Shape.mapped_abs (h : ps.Shape) (hk : ps.pool[k]? = some a) :
    (ps.abs fs us).mapped a = true := by
  obtain ⟨mapper, -, hmapped⟩ := h.mapper_eq
  have hfound := (hmapped a k).mpr hk
  rw [mapped] at hfound
  split_ifs at hfound with hindex
  have hindex' : 0 ≤ (ntohl a.addr - (ps.abs fs us).addrBase).toInt ∧
      (ntohl a.addr - (ps.abs fs us).addrBase).toInt < (ps.abs fs us).numAddr := by
    refine ⟨hindex.1, ?_⟩
    have hlt : (ntohl a.addr - ps.addrBase).toInt < ps.numAddr := hindex.2
    have hnat : ps.numAddr ≤ ps.numAddr.toNat := Int.self_le_toNat _
    exact lt_of_lt_of_le hlt hnat
  rw [AddrPool.mapped, Bool.and_eq_true]
  exact ⟨decide_eq_true hindex', List.contains_iff_mem.mpr (List.mem_of_getElem? hk)⟩

theorem refines_giveBack (h : ps.Shape) (hparts : ps.Parts fs us) (hk : k ∈ us) :
    ∃ ap, MtcpStack.freeAddress (ps.abs fs us) (ps.cell k) = .freed ap ∧
      Refines (ps.giveBack k) ap := by
  have hlt := hparts.lt_of_mem (List.mem_append_right fs hk)
  have hmapped : (ps.abs fs us).mapped (ps.cell k) = true :=
    h.mapped_abs ((getElem?_iff_cell hlt).mpr rfl)
  have hused : ps.cell k ∈ (ps.abs fs us).usedList := List.mem_map_of_mem hk
  refine ⟨_, by rw [MtcpStack.freeAddress, if_pos hmapped, if_pos hused],
    ⟨h.1, h.2, h.3⟩, ?_⟩
  obtain ⟨us, vs, rfl⟩ := List.append_of_mem hk
  refine ⟨_, _, hparts.giveBack, ?_⟩
  have herase := erase_map_cell h (fun i hi => hparts.lt_of_mem (List.mem_append_right fs hi))
    hparts.used.nodup
  have hfree : (fs ++ [k]).map ps.cell = fs.map ps.cell ++ [ps.cell k] := List.map_append
  simp only [abs, herase, ← hfree]
  rfl

end Cells

/-! ## Calls -/

section Calls

variable {ps} {ap : AddrPool} {fs us : List ℕ} {a : SockAddr}

/-- `FetchAddress` ends, with the result and in the pool of the address pool. -/
theorem Refines.fetchAddress (h : ps.Refines ap) (core numQueues : U32) (endianCheck : Bool)
    (daddr saddr : SockAddr) :
    ∃ ps', ps.fetchAddress core numQueues endianCheck daddr saddr =
        some (ps', (MtcpStack.fetchAddress ap core numQueues endianCheck daddr saddr).map
          Prod.snd) ∧
      ps'.Refines (((MtcpStack.fetchAddress ap core numQueues endianCheck daddr saddr).map
        Prod.fst).getD ap) := by
  obtain ⟨hshape, fs, us, hparts, rfl⟩ := h
  have hfuel : fs.length ≤ ps.pool.length := by
    have hlength := hparts.perm.length_eq
    rw [List.length_append, List.length_range] at hlength
    omega
  have hfind : (ps.abs fs us).freeList.find?
      (fetchMatches core numQueues endianCheck daddr saddr) =
        (fs.find? fun k => fetchMatches core numQueues endianCheck daddr saddr (ps.cell k)).map
          ps.cell := List.find?_map ..
  rw [PoolStore.fetchAddress, hparts.free.walk _ hfuel, MtcpStack.fetchAddress, hfind]
  cases hk : fs.find? fun k => fetchMatches core numQueues endianCheck daddr saddr (ps.cell k) with
  | none => exact ⟨ps, rfl, hshape, fs, us, hparts, rfl⟩
  | some k => exact ⟨_, rfl, refines_take hshape hparts (List.mem_of_find?_eq_some hk)⟩

/-- `FetchAddressPerCore` has the result and the pool of the address pool. -/
theorem Refines.fetchAddressPerCore (h : ps.Refines ap) :
    ps.fetchAddressPerCore.2 = (MtcpStack.fetchAddressPerCore ap).map Prod.snd ∧
      ps.fetchAddressPerCore.1.Refines
        (((MtcpStack.fetchAddressPerCore ap).map Prod.fst).getD ap) := by
  obtain ⟨hshape, fs, us, hparts, rfl⟩ := h
  have hhead : (ps.abs fs us).freeList.head? = fs.head?.map ps.cell := List.head?_map ..
  rw [PoolStore.fetchAddressPerCore, hparts.free.first_eq, MtcpStack.fetchAddressPerCore, hhead]
  cases hk : fs.head? with
  | none => exact ⟨rfl, hshape, fs, us, hparts, rfl⟩
  | some k => exact ⟨rfl, refines_take hshape hparts (List.mem_of_head? hk)⟩

/-- `FreeAddress` of a used address gives it back. -/
theorem Refines.freeAddress (h : ps.Refines ap) (ha : a ∈ ap.usedList) :
    ∃ ps' ap', ps.freeAddress a = some (ps', 0) ∧ MtcpStack.freeAddress ap a = .freed ap' ∧
      ps'.Refines ap' := by
  obtain ⟨hshape, fs, us, hparts, rfl⟩ := h
  obtain ⟨k, hk, rfl⟩ := List.mem_map.mp ha
  have hlt := hparts.lt_of_mem (List.mem_append_right fs hk)
  obtain ⟨ap', hfreed, hrefines⟩ := refines_giveBack hshape hparts hk
  exact ⟨ps.giveBack k, ap', hshape.freeAddress_cell hlt, hfreed, hrefines⟩

/-- Every entry is on one of the lists. -/
theorem Refines.perm (h : ps.Refines ap) : (ap.freeList ++ ap.usedList).Perm ps.pool := by
  obtain ⟨-, fs, us, hparts, rfl⟩ := h
  have hperm := hparts.perm.map ps.cell
  rw [List.map_append, map_cell_range] at hperm
  exact hperm

theorem Refines.sound (h : ps.Refines ap) : ap.Sound where
  nodup := h.perm.nodup_iff.mpr h.shape.nodup
  mapped a ha := by
    obtain ⟨k, hk⟩ := List.mem_iff_getElem?.mp (h.perm.mem_iff.mp ha)
    obtain ⟨hshape, fs, us, -, rfl⟩ := h
    exact hshape.mapped_abs hk

theorem abs_filled (addrBase numAddr : U32) (vis : List (ℕ × ℕ)) :
    ((filled addrBase vis).finish addrBase numAddr).abs (List.range vis.length) [] =
      .ofEntries addrBase numAddr.toInt.toNat (vis.map fun v => poolEntry addrBase v.1 v.2) := by
  have hcells := map_cell_range ((filled addrBase vis).finish addrBase numAddr)
  have hfree : ((filled addrBase vis).finish addrBase numAddr).numFree =
      (vis.map fun v => poolEntry addrBase v.1 v.2).length :=
    congrArg (fun pool : List SockAddr => (pool.length : ℤ)) pool_filled
  rw [pool_finish, List.length_map] at hcells
  rw [abs, hcells, hfree, pool_finish]
  rfl

theorem addressSpace_eq (addrBase : U32) (n : ℕ) :
    addressSpace addrBase n =
      (List.range n ×ˢ ports).map fun v => poolEntry addrBase v.1 v.2 := by
  rw [addressSpace, ← List.range_eq_range', ← ports]
  induction List.range n with
  | nil => rfl
  | cons i is ih =>
    rw [List.flatMap_cons, ih, List.product_cons, List.map_append, List.map_map]
    rfl

/-- `CreateAddressPool` makes the cells of the address pool. -/
theorem refines_createAddressPool {memory : Bool} {saddrBase numAddr : U32}
    (hps : createAddressPool memory saddrBase numAddr = some ps) :
    ps.Refines (MtcpStack.createAddressPool saddrBase numAddr.toInt.toNat) := by
  rw [createAddressPool_eq] at hps
  split_ifs at hps
  cases hps
  refine ⟨shape_filled _ (List.Sublist.refl _), _, _, parts_filled, ?_⟩
  rw [abs_filled, MtcpStack.createAddressPool, addressSpace_eq]

theorem refines_of_made (hmade : MadePool ps) : ∃ ap, ps.Refines ap ∧ ap.usedList = [] := by
  obtain ⟨addrBase, numAddr, vis, hsub, rfl⟩ := filled_of_made hmade
  exact ⟨_, ⟨shape_filled addrBase hsub, _, _, parts_filled, rfl⟩, rfl⟩

end Calls

/-! ## Runs -/

section Runs

variable {start : PoolStore} {out : List SockAddr} {ps}

theorem pool_of_reached (hreach : StoreReached start ps out) : ps.pool = start.pool := by
  induction hreach with
  | start => rfl
  | fetch hreach hcall ih =>
    obtain ⟨k, -, hresult⟩ := Option.map_eq_some_iff.mp hcall
    cases k <;> cases hresult <;> exact ih
  | @fetchPerCore ps out hreach ih =>
    rw [fetchAddressPerCore]
    cases ps.links.first .free <;> exact ih
  | free hreach ha hcall ih =>
    obtain ⟨k, -, hresult⟩ := Option.map_eq_some_iff.mp hcall
    cases k <;> cases hresult <;> exact ih

/-- Along a run the addresses that are out are the used ones. -/
theorem refines_of_reached (hmade : MadePool start) (hreach : StoreReached start ps out) :
    ∃ ap, ps.Refines ap ∧ out.Perm ap.usedList := by
  -- an address that has been taken is out
  have htaken : ∀ {ap : AddrPool} {out : List SockAddr} (a : SockAddr), out.Perm ap.usedList →
      ([a] ++ out).Perm (ap.use a).usedList := fun a hout =>
    (hout.cons a).trans (List.perm_append_singleton a _).symm
  induction hreach with
  | start =>
    obtain ⟨ap, hrefines, hused⟩ := refines_of_made hmade
    exact ⟨ap, hrefines, hused ▸ List.Perm.nil⟩
  | @fetch ps ps' out core numQueues endianCheck daddr saddr a hreach hcall ih =>
    obtain ⟨ap, hrefines, hout⟩ := ih
    obtain ⟨ps'', hcall', hrefines'⟩ :=
      hrefines.fetchAddress core numQueues endianCheck daddr saddr
    obtain ⟨rfl, rfl⟩ := Prod.mk.inj (Option.some.inj (hcall.symm.trans hcall'))
    refine ⟨_, hrefines', ?_⟩
    cases hfetch : MtcpStack.fetchAddress ap core numQueues endianCheck daddr saddr with
    | none => exact hout
    | some result =>
      obtain ⟨ap', a⟩ := result
      obtain ⟨-, -, rfl⟩ := fetchAddress_spec hfetch
      exact htaken a hout
  | fetchPerCore hreach ih =>
    obtain ⟨ap, hrefines, hout⟩ := ih
    obtain ⟨hresult, hrefines'⟩ := hrefines.fetchAddressPerCore
    refine ⟨_, hrefines', ?_⟩
    rw [hresult]
    cases hfetch : MtcpStack.fetchAddressPerCore ap with
    | none => exact hout
    | some result =>
      obtain ⟨ap', a⟩ := result
      obtain ⟨-, rfl⟩ := fetchAddressPerCore_spec hfetch
      exact htaken a hout
  | free hreach ha hcall ih =>
    obtain ⟨ap, hrefines, hout⟩ := ih
    obtain ⟨ps'', ap', hcall', hfreed, hrefines'⟩ := hrefines.freeAddress (hout.mem_iff.mp ha)
    obtain ⟨rfl, rfl⟩ := Prod.mk.inj (Option.some.inj (hcall.symm.trans hcall'))
    refine ⟨ap', hrefines', ?_⟩
    rw [(freeAddress_spec hfreed).2.2.1]
    exact hout.erase _

/-- A fetched address is a free one that fits; without an address no free one fits. -/
structure Gives (ps : PoolStore) (fs : List ℕ) (out : List SockAddr) (fits : SockAddr → Bool)
    (result : Option SockAddr) : Prop where
  address : ∀ a, result = some a → a ∈ fs.map ps.cell ∧ a ∉ out ∧ fits a = true
  nothing : result = none → ∀ a ∈ fs.map ps.cell, fits a = false

/-- What the calls keep of a pool whose addresses `out` are out, and what they do with it. -/
structure Kept (ps : PoolStore) (out : List SockAddr) (fs us : List ℕ) : Prop where
  numEntry_eq : ps.numEntry = ps.pool.length
  nodup : ps.pool.Nodup
  parts : ps.Parts fs us
  numFree_add_numUsed : ps.numFree + ps.numUsed = ps.numEntry
  out_perm : out.Perm (us.map ps.cell)
  out_nodup : out.Nodup
  fetchAddress : ∀ core numQueues endianCheck daddr saddr, ∃ ps' result,
    ps.fetchAddress core numQueues endianCheck daddr saddr = some (ps', result) ∧
      ps.Gives fs out (fetchMatches core numQueues endianCheck daddr saddr) result
  fetchAddressPerCore : ps.Gives fs out (fun _ => true) ps.fetchAddressPerCore.2
  freeAddress : ∀ a ∈ out, ∃ ps', ps.freeAddress a = some (ps', 0)

theorem gives_find {fs : List ℕ} (hfree : ∀ a ∈ fs.map ps.cell, a ∉ out)
    (fits : SockAddr → Bool) : ps.Gives fs out fits ((fs.map ps.cell).find? fits) where
  address a ha :=
    have hmem := List.mem_of_find?_eq_some ha
    ⟨hmem, hfree a hmem, List.find?_some ha⟩
  nothing hnone a ha := Bool.eq_false_iff.mpr (List.find?_eq_none.mp hnone a ha)

/-- The entries stay divided between the two lists along every run, and the calls give out what is
free and fits. -/
theorem pool_partition (hmade : MadePool start) (hreach : StoreReached start ps out) :
    ps.pool = start.pool ∧ ∃ fs us, ps.Kept out fs us := by
  obtain ⟨ap, hrefines, hout⟩ := refines_of_reached hmade hreach
  have hnodup := hrefines.sound.nodup
  have hfetch := hrefines.fetchAddress
  have hfetchPerCore := hrefines.fetchAddressPerCore.1
  have hfree := fun a (ha : a ∈ out) => hrefines.freeAddress (hout.mem_iff.mp ha)
  obtain ⟨hshape, fs, us, hparts, rfl⟩ := hrefines
  obtain ⟨-, hused, hdisj⟩ := List.nodup_append'.mp hnodup
  have hnotout : ∀ a ∈ fs.map ps.cell, a ∉ out := fun a ha hmem =>
    hdisj ha (hout.mem_iff.mp hmem)
  refine ⟨pool_of_reached hreach, fs, us, hshape.numEntry_eq, hshape.nodup, hparts, ?_, hout,
    hout.nodup_iff.mpr hused, fun core numQueues endianCheck daddr saddr => ?_, ?_,
    fun a ha => ?_⟩
  · have hlength := hparts.perm.length_eq
    rw [List.length_append, List.length_range] at hlength
    rw [hparts.numFree_eq, hparts.numUsed_eq, hshape.numEntry_eq]
    omega
  · obtain ⟨ps', hcall, -⟩ := hfetch core numQueues endianCheck daddr saddr
    have hfind :
        (MtcpStack.fetchAddress (ps.abs fs us) core numQueues endianCheck daddr saddr).map
            Prod.snd =
          (fs.map ps.cell).find? (fetchMatches core numQueues endianCheck daddr saddr) := by
      rw [MtcpStack.fetchAddress, Option.map_map]
      exact Option.map_id'
    rw [hfind] at hcall
    exact ⟨ps', _, hcall, gives_find hnotout _⟩
  · have hhead : (MtcpStack.fetchAddressPerCore (ps.abs fs us)).map Prod.snd =
        (fs.map ps.cell).find? fun _ => true := by
      rw [MtcpStack.fetchAddressPerCore, Option.map_map]
      cases fs <;> rfl
    rw [hfetchPerCore, hhead]
    exact gives_find hnotout _
  · obtain ⟨ps', -, hcall, -⟩ := hfree a ha
    exact ⟨ps', hcall⟩

/-- The first address of a pool for 10.0.0.1 goes to the first connection. -/
theorem fetchAddressPerCore_first (hps : createAddressPool true 0x0100000A#32 1#32 = some ps) :
    ps.fetchAddressPerCore.2 = some ⟨0x0100000A#32, 0x0104#16⟩ := by
  rw [(refines_createAddressPool hps).fetchAddressPerCore.1]
  rfl

/-- An address is fetched and given back. -/
theorem pool_partition_one :
    ∃ ps ps', createAddressPool true 0x0100000A#32 1#32 = some ps ∧
      ps.fetchAddressPerCore.2 = some ⟨0x0100000A#32, 0x0104#16⟩ ∧
      ps.fetchAddressPerCore.1.freeAddress ⟨0x0100000A#32, 0x0104#16⟩ = some (ps', 0) ∧
      ps'.pool = ps.pool ∧ ∃ fs us, ps'.Kept [] fs us := by
  have hps := (createAddressPool_eq true 0x0100000A#32 1#32).trans (if_pos (by decide))
  generalize (filled _ _).finish _ _ = ps at hps
  have hfetch := fetchAddressPerCore_first hps
  have hreach : StoreReached ps ps.fetchAddressPerCore.1 _ := .fetchPerCore .start
  rw [hfetch] at hreach
  obtain ⟨-, fs, us, hkept⟩ := pool_partition (.pool hps) hreach
  obtain ⟨ps', hfree⟩ := hkept.freeAddress _ List.mem_cons_self
  exact ⟨ps, ps', hps, hfetch, hfree,
    by simpa using pool_partition (.pool hps) (hreach.free List.mem_cons_self hfree)⟩

end Runs

/-! ## Addresses that are not out -/

section Search

variable {ps}

/-- A search of a list for an address. Without a mapper `FreeAddress` searches the used list. -/
def search (ps : PoolStore) (q : PoolList) (a : SockAddr) : Option (Option ℕ) :=
  ps.links.walk (fun k => a.port == (ps.cell k).port && a.addr == (ps.cell k).addr)
    ps.pool.length (ps.links.first q)

theorem lookup_unmapped (ps : PoolStore) (a : SockAddr) :
    ({ ps with mapper := none } : PoolStore).lookup a = ps.search .used a := rfl

theorem same_iff {a b : SockAddr} : (a.port == b.port && a.addr == b.addr) = true ↔ b = a := by
  obtain ⟨addr, port⟩ := a
  obtain ⟨addr', port'⟩ := b
  simp only [Bool.and_eq_true, beq_iff_eq, SockAddr.mk.injEq]
  exact ⟨fun h => ⟨h.2.symm, h.1.symm⟩, fun h => ⟨h.2.symm, h.1.symm⟩⟩

variable {fs us ks : List ℕ} {q : PoolList} {a : SockAddr}

/-- A search ends and finds the cell of the address, if it is in the list. -/
theorem search_eq (hks : TailQueue.Holds ps.links q ks) (hlength : ks.length ≤ ps.pool.length)
    (a : SockAddr) :
    ∃ found, ps.search q a = some found ∧ (∀ k, found = some k → k ∈ ks ∧ ps.cell k = a) ∧
      (found = none ↔ ∀ k ∈ ks, ps.cell k ≠ a) := by
  refine ⟨_, hks.walk _ hlength, fun k hk => ⟨List.mem_of_find?_eq_some hk, ?_⟩, ?_⟩
  · have hsame := List.find?_some hk
    exact same_iff.mp hsame
  · rw [List.find?_eq_none]
    exact forall₂_congr fun k _ => same_iff.not

/-- In a new pool the used list is empty. -/
theorem search_used_filled (addrBase numAddr : U32) (vis : List (ℕ × ℕ)) (a : SockAddr) :
    ((filled addrBase vis).finish addrBase numAddr).search .used a = some none :=
  parts_filled.used.walk _ (Nat.zero_le _)

theorem lookup_filled_none (addrBase numAddr : U32) (vis : List (ℕ × ℕ)) (a : SockAddr)
    (hindex : ¬ (0 ≤ (ntohl a.addr - addrBase).toInt ∧
      (ntohl a.addr - addrBase).toInt < numAddr.toInt)) :
    ((filled addrBase vis).finish addrBase numAddr).lookup a = some none :=
  if_neg hindex

/-- The mapper and a search of the used list agree on all addresses but the free ones. -/
theorem lookup_eq_search (hshape : ps.Shape) (hparts : ps.Parts fs us) (a : SockAddr) :
    ps.lookup a = ps.search .used a ↔ ps.search .free a = some none := by
  have hlength := hparts.perm.length_eq
  rw [List.length_append, List.length_range] at hlength
  obtain ⟨found, hlookup, hfound⟩ := hshape.lookup_eq a
  obtain ⟨free, hfree, -, hfree'⟩ := search_eq hparts.free (by omega) a
  obtain ⟨used, hused, husedSome, husedNone⟩ := search_eq hparts.used (by omega) a
  rw [hlookup, hused, hfree, Option.some.injEq, Option.some.injEq, hfree']
  cases used with
  | some k =>
    obtain ⟨hk, hcell⟩ := husedSome k rfl
    have hlt := hparts.lt_of_mem (List.mem_append_right fs hk)
    refine iff_of_true ((hfound k).mpr ((getElem?_iff_cell hlt).mpr hcell)) fun i hi heq => ?_
    have hik := hshape.cell_inj (hparts.lt_of_mem (List.mem_append_left us hi)) hlt
      (heq.trans hcell.symm)
    exact hparts.disjoint hi (hik ▸ hk)
  | none =>
    have hnot := husedNone.mp rfl
    constructor
    · rintro rfl i hi heq
      have hlt := hparts.lt_of_mem (List.mem_append_left us hi)
      exact nomatch (hfound i).mpr ((getElem?_iff_cell hlt).mpr heq)
    · intro hnot'
      refine Option.eq_none_iff_forall_ne_some.mpr fun k hk => ?_
      have hget := (hfound k).mp hk
      have hlt := (List.getElem?_eq_some_iff.mp hget).1
      have hcell := (getElem?_iff_cell hlt).mp hget
      rcases List.mem_append.mp (hparts.perm.mem_iff.mpr (List.mem_range.mpr hlt)) with hi | hi
      · exact hnot' k hi hcell
      · exact hnot k hi hcell

/-- The two lookups of `FreeAddress` agree on the addresses that are not free, and only on them;
what is on neither list is rejected. -/
theorem free_address_lookup {start : PoolStore} {out : List SockAddr} (hmade : MadePool start)
    (hreach : StoreReached start ps out) (a : SockAddr) :
    (ps.lookup a = ({ ps with mapper := none } : PoolStore).lookup a ↔
      ps.search .free a = some none) ∧
    (ps.search .free a = some none → ps.search .used a = some none →
      ps.freeAddress a = some (ps, -1)) := by
  obtain ⟨ap, ⟨hshape, fs, us, hparts, -⟩, -⟩ := refines_of_reached hmade hreach
  rw [lookup_unmapped]
  refine ⟨lookup_eq_search hshape hparts a, fun hfree hused => ?_⟩
  rw [freeAddress, (lookup_eq_search hshape hparts a).mpr hfree, hused]
  rfl

theorem search_free_of_out {start : PoolStore} {out : List SockAddr} (hmade : MadePool start)
    (hreach : StoreReached start ps out) (ha : a ∈ out) : ps.search .free a = some none := by
  obtain ⟨ap, hrefines, hout⟩ := refines_of_reached hmade hreach
  have hnodup := hrefines.sound.nodup
  obtain ⟨-, fs, us, hparts, rfl⟩ := hrefines
  have hlength := hparts.perm.length_eq
  rw [List.length_append, List.length_range] at hlength
  obtain ⟨found, hfound, -, hnone⟩ := search_eq hparts.free (by omega) a
  rw [hfound, hnone.mpr fun k hk heq => ?_]
  exact (List.nodup_append'.mp hnodup).2.2 (heq ▸ List.mem_map_of_mem hk) (hout.mem_iff.mp ha)

/-- An address that is out, and one that is not of the pool. -/
theorem free_address_lookup_one :
    ∃ ps, createAddressPool true 0x0100000A#32 1#32 = some ps ∧
      ps.fetchAddressPerCore.1.lookup ⟨0x0100000A#32, 0x0104#16⟩ =
        ({ ps.fetchAddressPerCore.1 with mapper := none } : PoolStore).lookup
          ⟨0x0100000A#32, 0x0104#16⟩ ∧
      ps.freeAddress ⟨0, 0⟩ = some (ps, -1) := by
  have hps := (createAddressPool_eq true 0x0100000A#32 1#32).trans (if_pos (by decide))
  obtain ⟨vis, hvis⟩ : ∃ vis, vis = List.range (1#32).toInt.toNat ×ˢ ports := ⟨_, rfl⟩
  rw [← hvis] at hps
  have hused := search_used_filled (ntohl 0x0100000A#32) 1#32 vis ⟨0, 0⟩
  have hlookup := lookup_filled_none (ntohl 0x0100000A#32) 1#32 vis ⟨0, 0⟩ (by decide)
  obtain ⟨hagree, hfreeAddress⟩ := free_address_lookup (.pool hps) .start ⟨0, 0⟩
  rw [lookup_unmapped] at hagree
  have hfree := hagree.mp (hlookup.trans hused.symm)
  generalize (filled _ vis).finish _ _ = ps at hps hused hfree hfreeAddress
  have hreach : StoreReached ps ps.fetchAddressPerCore.1 _ := .fetchPerCore .start
  refine ⟨_, hps, (free_address_lookup (.pool hps) hreach _).1.mpr ?_, hfreeAddress hfree hused⟩
  rw [fetchAddressPerCore_first hps] at hreach
  exact search_free_of_out (.pool hps) hreach List.mem_cons_self

/-- An address that is free and has never been out is given back, and the counters are wrong. -/
theorem free_address_not_out :
    ∃ ps ps', createAddressPool true 0x0100000A#32 1#32 = some ps ∧
      ps.search .used ⟨0x0100000A#32, 0x0104#16⟩ = some none ∧
      ps.freeAddress ⟨0x0100000A#32, 0x0104#16⟩ = some (ps', 0) ∧
      ps'.numUsed = -1 ∧ ps'.numFree = ps.numEntry + 1 := by
  have hps := (createAddressPool_eq true 0x0100000A#32 1#32).trans (if_pos (by decide))
  have hfirst : (List.range (1#32).toInt.toNat ×ˢ ports)[0]? = some (0, 1025) := rfl
  have hget : ((filled (ntohl 0x0100000A#32) (List.range (1#32).toInt.toNat ×ˢ ports)).finish
      (ntohl 0x0100000A#32) 1#32).pool[0]? = some ⟨0x0100000A#32, 0x0104#16⟩ := by
    rw [pool_finish, List.getElem?_map, hfirst]
    decide
  obtain ⟨hlt, -⟩ := List.getElem?_eq_some_iff.mp hget
  have hfreed := (shape_filled (ntohl 0x0100000A#32) (List.Sublist.refl _)).freeAddress_cell hlt
  rw [(getElem?_iff_cell hlt).mp hget] at hfreed
  exact ⟨_, _, hps, search_used_filled .., hfreed, rfl, rfl⟩

end Search

end PoolStore

end MtcpStack
