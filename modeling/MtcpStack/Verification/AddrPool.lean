import MtcpStack.Library.Serial
import MtcpStack.Model.AddrPool
import MtcpStack.Verification.Rss
import Mathlib.Data.List.Nodup
import Mathlib.Data.List.Range
import Mathlib.Data.List.Flatten

/-! # Sound address pools

Every entry of a pool is on one of its lists, once, and the mapper finds it. Creating a pool
establishes this; taking an entry and giving it back keep it. -/

namespace MtcpStack

/-! ## Byte order -/

theorem ntohl_ntohl (x : U32) : ntohl (ntohl x) = x := by
  apply BitVec.eq_of_getMsbD_eq
  intro i hi
  rw [ntohl_getMsbD _ i hi, ntohl_getMsbD]
  · congr 1
    unfold byteSwapped
    omega
  · unfold byteSwapped
    omega

theorem ntohs_ntohs (x : U16) : ntohs (ntohs x) = x := by
  apply BitVec.eq_of_getMsbD_eq
  intro i hi
  rw [ntohs_getMsbD _ i hi, ntohs_getMsbD]
  · congr 1
    unfold byteSwapped
    omega
  · unfold byteSwapped
    omega

/-! ## Soundness -/

structure AddrPool.Sound (ap : AddrPool) : Prop where
  nodup : (ap.freeList ++ ap.usedList).Nodup
  mapped : ∀ a ∈ ap.freeList ++ ap.usedList, ap.mapped a = true

section

variable {ap : AddrPool} {a e : SockAddr}

/-- Taking a free entry. -/
theorem AddrPool.use_perm (hfree : e ∈ ap.freeList) :
    ((ap.use e).freeList ++ (ap.use e).usedList).Perm (ap.freeList ++ ap.usedList) := by
  unfold AddrPool.use
  simp only
  rw [← List.append_assoc]
  exact (List.perm_append_singleton e _).trans
    ((List.perm_cons_erase hfree).symm.append_right ap.usedList)

theorem AddrPool.Sound.use (h : ap.Sound) (hfree : e ∈ ap.freeList) : (ap.use e).Sound :=
  ⟨(AddrPool.use_perm hfree).nodup_iff.mpr h.nodup,
    fun a ha => h.mapped a ((AddrPool.use_perm hfree).mem_iff.mp ha)⟩

/-- Giving an entry back. -/
theorem freeAddress_spec {ap' : AddrPool} (hfreed : freeAddress ap a = .freed ap') :
    (ap'.freeList ++ ap'.usedList).Perm (ap.freeList ++ ap.usedList) ∧
      ap'.freeList = ap.freeList ++ [a] ∧ ap'.usedList = ap.usedList.erase a ∧
      ap.mapped a = true ∧ ap'.mapped = ap.mapped := by
  unfold freeAddress at hfreed
  split_ifs at hfreed with hmap hused
  obtain rfl := Freed.freed.inj hfreed
  refine ⟨?_, rfl, rfl, hmap, rfl⟩
  simp only
  rw [List.append_assoc]
  exact (List.perm_cons_erase hused).symm.append_left ap.freeList

theorem freeAddress_sound {ap' : AddrPool} (h : ap.Sound) (hfreed : freeAddress ap a = .freed ap') :
    ap'.Sound := by
  obtain ⟨hperm, -, -, -, hmapped⟩ := freeAddress_spec hfreed
  exact ⟨hperm.nodup_iff.mpr h.nodup, fun b hb => hmapped ▸ h.mapped b (hperm.mem_iff.mp hb)⟩

/-- A used entry can always be given back. -/
theorem freeAddress_of_used (h : ap.Sound) (hused : a ∈ ap.usedList) :
    ∃ ap', freeAddress ap a = .freed ap' := by
  have hmap := h.mapped a (List.mem_append_right _ hused)
  exact ⟨_, by rw [freeAddress, if_pos hmap, if_pos hused]⟩

end

/-! ## Fetching -/

theorem fetchAddress_spec {ap ap' : AddrPool} {core nq : U32} {ec : Bool} {dst saddr a : SockAddr}
    (h : fetchAddress ap core nq ec dst saddr = some (ap', a)) :
    a ∈ ap.freeList ∧ fetchRssCore a dst nq ec = some core ∧ ap' = ap.use a := by
  obtain ⟨e, hfind, heq⟩ := Option.map_eq_some_iff.mp h
  obtain ⟨rfl, rfl⟩ := Prod.mk.inj heq
  have hmatch := List.find?_some hfind
  simp only [fetchMatches, Bool.and_eq_true, decide_eq_true_eq] at hmatch
  exact ⟨List.mem_of_find?_eq_some hfind, hmatch.2, rfl⟩

theorem fetchAddressPerCore_spec {ap ap' : AddrPool} {a : SockAddr}
    (h : fetchAddressPerCore ap = some (ap', a)) : a ∈ ap.freeList ∧ ap' = ap.use a := by
  obtain ⟨e, hhead, heq⟩ := Option.map_eq_some_iff.mp h
  obtain ⟨rfl, rfl⟩ := Prod.mk.inj heq
  exact ⟨List.mem_of_head? hhead, rfl⟩

/-! ## Creation -/

theorem poolEntry_inj {base : U32} {i j i' j' : ℕ} (hi : i < 2 ^ 32) (hi' : i' < 2 ^ 32)
    (hj : j < 2 ^ 16) (hj' : j' < 2 ^ 16) (h : poolEntry base i j = poolEntry base i' j') :
    i = i' ∧ j = j' := by
  obtain ⟨haddr, hport⟩ := SockAddr.mk.inj h
  have haddr' := congrArg ntohl haddr
  have hport' := congrArg ntohs hport
  rw [ntohl_ntohl, ntohl_ntohl, add_right_inj] at haddr'
  rw [ntohs_ntohs, ntohs_ntohs] at hport'
  have h₁ := congrArg BitVec.toNat haddr'
  have h₂ := congrArg BitVec.toNat hport'
  simp only [BitVec.toNat_ofNat] at h₁ h₂
  rw [Nat.mod_eq_of_lt hi, Nat.mod_eq_of_lt hi'] at h₁
  rw [Nat.mod_eq_of_lt hj, Nat.mod_eq_of_lt hj'] at h₂
  exact ⟨h₁, h₂⟩

theorem addressSpace_nodup (base : U32) {numAddr : ℕ} (hnum : numAddr < 2 ^ 31) :
    (addressSpace base numAddr).Nodup := by
  unfold addressSpace
  rw [List.nodup_flatMap]
  refine ⟨fun i hi => ?_, ?_⟩
  · refine List.Nodup.map_on (fun j hj j' hj' h => ?_) (List.nodup_range' ..)
    simp only [List.mem_range'_1, minPort, maxPort] at hi hj hj'
    exact (poolEntry_inj (by omega) (by omega) (by omega) (by omega) h).2
  · refine (List.nodup_range' ..).pairwise_of_forall_ne fun i hi i' hi' hne => ?_
    refine List.disjoint_left.mpr fun a ha ha' => ?_
    obtain ⟨j, hj, rfl⟩ := List.mem_map.mp ha
    obtain ⟨j', hj', heq⟩ := List.mem_map.mp ha'
    simp only [List.mem_range'_1, minPort, maxPort] at hi hi' hj hj'
    exact hne (poolEntry_inj (by omega) (by omega) (by omega) (by omega) heq).1.symm

/-- The address of an entry is in the range of the mapper. -/
theorem addressSpace_index {base : U32} {numAddr : ℕ} (hnum : numAddr < 2 ^ 31) {a : SockAddr}
    (ha : a ∈ addressSpace base numAddr) :
    0 ≤ (ntohl a.addr - base).toInt ∧ (ntohl a.addr - base).toInt < numAddr := by
  obtain ⟨i, hi, hentry⟩ := List.mem_flatMap.mp ha
  obtain ⟨j, -, rfl⟩ := List.mem_map.mp hentry
  simp only [List.mem_range'_1] at hi
  have hdiff : ntohl (poolEntry base i j).addr - base = BitVec.ofNat 32 i := by
    rw [poolEntry, ntohl_ntohl, add_sub_cancel_left]
  rw [hdiff, Serial.toInt_ofNat_of_lt (by omega)]
  omega

/-- A pool of distinct addresses of its range is sound. -/
theorem ofEntries_sound {base : U32} {numAddr : ℕ} (hnum : numAddr < 2 ^ 31)
    {entries : List SockAddr} (hsub : entries.Sublist (addressSpace base numAddr)) :
    (AddrPool.ofEntries base numAddr entries).Sound where
  nodup := by
    simpa [AddrPool.ofEntries] using hsub.nodup (addressSpace_nodup base hnum)
  mapped a ha := by
    have hmem : a ∈ entries := by simpa [AddrPool.ofEntries] using ha
    obtain ⟨hlo, hhi⟩ := addressSpace_index hnum (hsub.subset hmem)
    have hindex : decide (0 ≤ (ntohl a.addr - base).toInt ∧
        (ntohl a.addr - base).toInt < numAddr) = true := decide_eq_true ⟨hlo, hhi⟩
    rw [AddrPool.mapped, Bool.and_eq_true]
    exact ⟨hindex, List.contains_iff_mem.mpr hmem⟩

theorem createAddressPool_sound (saddrBase : U32) {numAddr : ℕ} (hnum : numAddr < 2 ^ 31) :
    (createAddressPool saddrBase numAddr).Sound :=
  ofEntries_sound hnum (List.Sublist.refl _)

/-- The entries of a core's pool are received on this core. -/
theorem createAddressPoolPerCore_core {core nq : U32} {ec : Bool} {saddrBase : U32} {numAddr : ℕ}
    {daddr e : SockAddr}
    (he : e ∈ (createAddressPoolPerCore core nq ec saddrBase numAddr daddr).freeList ++
      (createAddressPoolPerCore core nq ec saddrBase numAddr daddr).usedList) :
    poolRssCore e daddr nq ec = some core := by
  have hmem : e ∈ (createAddressPoolPerCore core nq ec saddrBase numAddr daddr).freeList := by
    simpa [createAddressPoolPerCore, AddrPool.ofEntries] using he
  exact of_decide_eq_true (List.mem_filter.mp (List.mem_of_mem_take hmem)).2

theorem createAddressPoolPerCore_sound (core nq : U32) (ec : Bool) (saddrBase : U32)
    {numAddr : ℕ} (hnum : numAddr < 2 ^ 31) (daddr : SockAddr) :
    (createAddressPoolPerCore core nq ec saddrBase numAddr daddr).Sound :=
  ofEntries_sound hnum ((List.take_sublist _ _).trans List.filter_sublist)

end MtcpStack
