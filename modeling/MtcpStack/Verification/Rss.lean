import Mathlib.Tactic.IntervalCases
import MtcpStack.Library.Toeplitz
import MtcpStack.Model.Rss

/-! # The core of a connection

The key consists of equal bytes, so the cached table repeats every eight entries. The hash is
therefore the same for both directions of a connection and in both byte orders. -/

namespace MtcpStack

open Toeplitz

/-! ## The table -/

/-- The part of the cache that repeats. -/
def rssTable (i : ℕ) : U32 := keyCache.getD (i % 8) 0

theorem keyCache_periodic : ∀ i < keyCacheLen, keyCache.getD i 0 = rssTable i := by
  decide +kernel

theorem rssTable_add {k : ℕ} (hk : k % 8 = 0) (i : ℕ) : rssTable (k + i) = rssTable i := by
  have hmod : (k + i) % 8 = i % 8 := by omega
  rw [rssTable, hmod, rssTable]

/-! ## The loops -/

theorem hashBits_eq_foldl {w : ℕ} (n i : ℕ) (x : BitVec w) (res : U32) (hn : n ≤ w) :
    hashBits n i x res = (List.range n).foldl
      (fun acc j => if x.getMsbD j then acc ^^^ keyCache.getD (i + j) 0 else acc) res := by
  induction n generalizing i w x res with
  | zero => rfl
  | succ n ih =>
      have hshift : ∀ j < n, (x <<< 1).getMsbD j = x.getMsbD (j + 1) := by
        intro j hj
        simp only [BitVec.getMsbD_shiftLeft]
      rw [hashBits, ih (i + 1) (x <<< 1) _ (by omega), List.range_succ_eq_map, List.foldl_cons,
        List.foldl_map]
      have hmsb : x.msb = x.getMsbD 0 := rfl
      rw [hmsb, Nat.add_zero]
      refine List.foldl_ext _ _ _ fun acc j hj => ?_
      rw [hshift j (List.mem_range.mp hj), Nat.succ_eq_add_one, Nat.add_right_comm i 1 j,
        Nat.add_assoc]

/-- A loop combines the hash of its word with what came before. -/
theorem hashBits_eq_digest {w : ℕ} (k : ℕ) (x : BitVec w) (res : U32) (hk : k % 8 = 0)
    (hw : k + w ≤ keyCacheLen) : hashBits w k x res = res ^^^ digest rssTable x := by
  rw [hashBits_eq_foldl w k x res le_rfl, digest, ← mix_eq_xor]
  refine List.foldl_ext _ _ _ fun acc j hj => ?_
  have hlt := List.mem_range.mp hj
  rw [keyCache_periodic _ (by omega), rssTable_add hk]

theorem getRSSHash_eq (sip dip : U32) (sp dp : U16) :
    getRSSHash sip dip sp dp =
      digest rssTable sip ^^^ digest rssTable dip ^^^ digest rssTable sp ^^^ digest rssTable dp := by
  unfold getRSSHash
  rw [hashBits_eq_digest 80 dp _ (by decide) (by decide),
    hashBits_eq_digest 64 sp _ (by decide) (by decide),
    hashBits_eq_digest 32 dip _ (by decide) (by decide),
    hashBits_eq_digest 0 sip _ (by decide) (by decide), BitVec.ofNat_eq_ofNat,
    BitVec.zero_xor]

/-! ## Byte order -/

/-- The place a bit comes from when the `n` bytes of a word are reversed. -/
def byteSwapped (n i : ℕ) : ℕ := 8 * (n - 1 - i / 8) + i % 8

theorem rssTable_byteSwapped (n i : ℕ) : rssTable (byteSwapped n i) = rssTable i := by
  have hmod : byteSwapped n i % 8 = i % 8 := by
    unfold byteSwapped
    omega
  rw [rssTable, hmod, rssTable]

theorem ntohl_getMsbD (x : U32) : ∀ i < 32, (ntohl x).getMsbD i = x.getMsbD (byteSwapped 4 i) := by
  intro i hi
  change BitVec.getMsbD (w := 8 + 8 + 8 + 8) (_ ++ _ ++ _ ++ _) i = _
  simp only [BitVec.getMsbD_append]
  unfold byteSwapped
  interval_cases i <;> simp [BitVec.getMsbD]

theorem ntohs_getMsbD (x : U16) : ∀ i < 16, (ntohs x).getMsbD i = x.getMsbD (byteSwapped 2 i) := by
  intro i hi
  change BitVec.getMsbD (w := 8 + 8) (_ ++ _) i = _
  simp only [BitVec.getMsbD_append]
  unfold byteSwapped
  interval_cases i <;> simp [BitVec.getMsbD]

theorem digest_ntohl (x : U32) : digest rssTable (ntohl x) = digest rssTable x :=
  digest_permuted rssTable (byteSwapped 4) (ntohl_getMsbD x) (fun i _ => rssTable_byteSwapped 4 i)
    (by decide)

theorem digest_ntohs (x : U16) : digest rssTable (ntohs x) = digest rssTable x :=
  digest_permuted rssTable (byteSwapped 2) (ntohs_getMsbD x) (fun i _ => rssTable_byteSwapped 2 i)
    (by decide)

/-! ## Agreement -/

theorem getRSSHash_exchange (sip dip : U32) (sp dp : U16) :
    getRSSHash dip sip dp sp = getRSSHash sip dip sp dp := by
  simp only [getRSSHash_eq]
  rw [BitVec.xor_comm (digest rssTable dip), BitVec.xor_assoc, BitVec.xor_comm (digest rssTable dp),
    ← BitVec.xor_assoc]

theorem getRSSCPUCore_congr {sip dip sip' dip' : U32} {sp dp sp' dp' : U16} (numQueues : U32)
    (endianCheck : Bool) (h : getRSSHash sip dip sp dp = getRSSHash sip' dip' sp' dp') :
    getRSSCPUCore sip dip sp dp numQueues endianCheck =
      getRSSCPUCore sip' dip' sp' dp' numQueues endianCheck := by
  unfold getRSSCPUCore
  rw [h]

theorem fetchRssCore_eq (saddr daddr : SockAddr) (numQueues : U32) (endianCheck : Bool) :
    fetchRssCore saddr daddr numQueues endianCheck =
      connectRssCore saddr daddr numQueues endianCheck := by
  apply getRSSCPUCore_congr
  simp only [getRSSHash_eq, digest_ntohl, digest_ntohs]

theorem poolRssCore_eq (saddr daddr : SockAddr) (numQueues : U32) (endianCheck : Bool) :
    poolRssCore saddr daddr numQueues endianCheck =
      connectRssCore saddr daddr numQueues endianCheck := by
  rw [← fetchRssCore_eq]
  exact getRSSCPUCore_congr numQueues endianCheck (getRSSHash_exchange _ _ _ _)

/-- The hash does not change when source and destination are exchanged, nor when an argument is
taken in the other byte order. So the three callers compute one core for a connection, and the
core of its other direction. -/
theorem rss_core_agreement :
    (∀ (sip dip : U32) (sp dp : U16),
      getRSSHash dip sip dp sp = getRSSHash sip dip sp dp ∧
      getRSSHash (ntohl sip) dip sp dp = getRSSHash sip dip sp dp ∧
      getRSSHash sip (ntohl dip) sp dp = getRSSHash sip dip sp dp ∧
      getRSSHash sip dip (ntohs sp) dp = getRSSHash sip dip sp dp ∧
      getRSSHash sip dip sp (ntohs dp) = getRSSHash sip dip sp dp) ∧
    ∀ (saddr daddr : SockAddr) (numQueues : U32) (endianCheck : Bool),
      fetchRssCore saddr daddr numQueues endianCheck =
        connectRssCore saddr daddr numQueues endianCheck ∧
      poolRssCore saddr daddr numQueues endianCheck =
        connectRssCore saddr daddr numQueues endianCheck ∧
      connectRssCore daddr saddr numQueues endianCheck =
        connectRssCore saddr daddr numQueues endianCheck := by
  refine ⟨fun sip dip sp dp => ⟨getRSSHash_exchange sip dip sp dp, ?_, ?_, ?_, ?_⟩,
    fun saddr daddr numQueues endianCheck =>
      ⟨fetchRssCore_eq saddr daddr numQueues endianCheck,
        poolRssCore_eq saddr daddr numQueues endianCheck,
        getRSSCPUCore_congr numQueues endianCheck (getRSSHash_exchange _ _ _ _)⟩⟩
  all_goals simp only [getRSSHash_eq, digest_ntohl, digest_ntohs]

end MtcpStack
