import MtcpStack.Library.Memory
import MtcpStack.Library.OnesComplement
import MtcpStack.Model.Checksum

/-! # What the checksums sum up

The accumulators add little endian words without overflow. Folded, they are the one's complement
sum of the words in network order with its bytes exchanged. -/

namespace MtcpStack

open Memory OnesComplement

/-- Bytes as digits. -/
def digits (bs : List U8) : List ℕ := bs.map BitVec.toNat

theorem digits_lt (bs : List U8) : ∀ d ∈ digits bs, d < 256 := by
  intro d hd
  obtain ⟨x, -, rfl⟩ := List.mem_map.mp hd
  exact x.isLt

/-- The sum of the little endian words of some bytes. -/
def leSum (bs : List U8) : ℕ := lowFirst 256 (digits bs)

theorem leSum_append {bs cs : List U8} (h : bs.length % 2 = 0) :
    leSum (bs ++ cs) = leSum bs + leSum cs := by
  rw [leSum, digits, List.map_append, lowFirst_append (by rwa [List.length_map])]
  rfl

theorem leSum_le (bs : List U8) : leSum bs ≤ (bs.length + 1) / 2 * 65536 := by
  have hle := lowFirst_le (digits_lt bs)
  rwa [digits, List.length_map] at hle

theorem leSum_load_two {buf : ℕ → U8} {i n : ℕ} : leSum (load buf i (n + 2)) =
    (buf i).toNat + 256 * (buf (i + 1)).toNat + leSum (load buf (i + 2) n) := rfl

/-! ## The loop -/

theorem wordAt_toNat (buf : ℕ → U8) (i : ℕ) :
    (wordAt buf i).toNat = (buf i).toNat + 256 * (buf (i + 1)).toNat := by
  rw [wordAt, BitVec.toNat_append, ← Nat.shiftLeft_add_eq_or_of_lt (buf i).isLt,
    Nat.shiftLeft_eq]
  omega

variable {buf : ℕ → U8} {last : ℕ → U16}

/-- As long as the accumulator does not overflow, it holds the sum of the words. -/
theorem sumWords_toNat (hlast : ∀ i, (last i).toNat = (buf i).toNat) {n i : ℕ} {sum : U32}
    (hsum : sum.toNat + leSum (load buf i n) < 2 ^ 32) :
    (sumWords buf last n i sum).toNat =
      sum.toNat + leSum (load buf i n) := by
  fun_induction sumWords buf last n i sum with
  | case1 i sum => rfl
  | case2 i sum =>
      have hone : leSum (load buf i 1) = (buf i).toNat := rfl
      rw [hone] at hsum ⊢
      rw [BitVec.toNat_add, BitVec.toNat_setWidth, hlast]
      omega
  | case3 n i sum ih =>
      rw [leSum_load_two] at hsum ⊢
      have hword : ((wordAt buf i).setWidth 32).toNat =
          (buf i).toNat + 256 * (buf (i + 1)).toNat := by
        rw [BitVec.toNat_setWidth, wordAt_toNat]
        omega
      have hadd : (sum + (wordAt buf i).setWidth 32).toNat =
          sum.toNat + ((buf i).toNat + 256 * (buf (i + 1)).toNat) := by
        rw [BitVec.toNat_add, hword]
        omega
      rw [ih (by omega), hadd]
      omega

theorem highWord_toNat (x : U32) : (x >>> 16).toNat = x.toNat / 65536 := by
  rw [BitVec.toNat_ushiftRight, Nat.shiftRight_eq_div_pow]

theorem lowWord_toNat (x : U32) : (x &&& 0xFFFF#32).toNat = x.toNat % 65536 := by
  rw [BitVec.toNat_and]
  exact Nat.and_two_pow_sub_one_eq_mod _ 16

theorem foldSum_toNat (sum : U32) : (foldSum sum).toNat = 65535 - residue 65536 sum.toNat := by
  have hlt : sum.toNat < 65536 * 65536 := sum.isLt
  have hcarryLt := carry_lt (by decide) hlt
  have hcarry : ((sum >>> 16) + (sum &&& 0xFFFF#32)).toNat = carry 65536 sum.toNat := by
    rw [BitVec.toNat_add, highWord_toNat, lowWord_toNat, ← carry]
    omega
  have htwice : ((sum >>> 16) + (sum &&& 0xFFFF#32) +
      ((sum >>> 16) + (sum &&& 0xFFFF#32)) >>> 16).toNat =
        carry 65536 sum.toNat + carry 65536 sum.toNat / 65536 := by
    rw [BitVec.toNat_add, highWord_toNat, hcarry]
    omega
  rw [foldSum, ← fold_twice (by decide) hlt, BitVec.toNat_setWidth, BitVec.toNat_not, htwice]
  omega

/-- The checksum of the internet protocols: the complement of the one's complement sum of the
words in network order. -/
def rfc1071 (bs : List U8) : ℕ := 65535 - OnesComplement.sum 65536 (words 256 (digits bs))

theorem ntohs_toNat (x : U16) : (ntohs x).toNat = swap 256 x.toNat := by
  rw [ntohs, BitVec.toNat_append, ← Nat.shiftLeft_add_eq_or_of_lt (BitVec.isLt _),
    Nat.shiftLeft_eq, swap]
  simp
  omega

theorem swap_complement {x : ℕ} (hx : x < 65536) : swap 256 (65535 - x) = 65535 - swap 256 x := by
  unfold swap
  omega

/-- Summing little endian words gives the checksum with its bytes exchanged. -/
theorem swap_complement_residue (bs : List U8) :
    swap 256 (65535 - residue 65536 (leSum bs)) = rfc1071 bs := by
  have hnet := sum_words_modEq (r := 256) (by decide) (digits bs)
  have hpos := sum_words_pos (r := 256) (by decide) (digits bs)
  rw [swap_complement (residue_lt (by decide)), rfc1071,
    sum_eq_residue (by decide) (words_lt (r := 256) (digits_lt bs))]
  congr 1
  rcases Nat.eq_zero_or_pos (leSum bs) with hzero | hlow
  · have hnil : (words 256 (digits bs)).sum = 0 := by
      change 0 < _ ↔ 0 < leSum bs at hpos
      omega
    rw [hzero, hnil]
    rfl
  · rw [swap_residue (r := 256) (by decide) hlow]
    exact residue_congr (by decide) (by omega) (hpos.mpr hlow) hnet.symm

/-! ## Storing a checksum -/

theorem load_storeWord {n i : ℕ} {v : U16} (h : i + 2 ≤ n) :
    load (storeWord buf i v) 0 n =
      load buf 0 i ++ ([v.extractLsb' 0 8, v.extractLsb' 8 8] ++ load buf (i + 2) (n - (i + 2))) := by
  have hbefore : load (storeWord buf i v) 0 i = load buf 0 i :=
    load_congr fun k _ hk => by
      rw [storeWord, if_neg (by omega), if_neg (by omega)]
  have hbehind : load (storeWord buf i v) (i + 2) (n - (i + 2)) =
      load buf (i + 2) (n - (i + 2)) :=
    load_congr fun k hk _ => by
      rw [storeWord, if_neg (by omega), if_neg (by omega)]
  have hword : load (storeWord buf i v) i 2 = [v.extractLsb' 0 8, v.extractLsb' 8 8] := by
    simp [storeWord]
  conv_lhs => rw [show n = i + (2 + (n - (i + 2))) by omega]
  rw [load_add, load_add, hbefore, Nat.zero_add, hword, hbehind]

theorem leSum_word (v : U16) : leSum [v.extractLsb' 0 8, v.extractLsb' 8 8] = v.toNat := by
  have hlt := v.isLt
  simp only [leSum, digits, List.map_cons, List.map_nil, lowFirst, BitVec.extractLsb'_toNat,
    Nat.shiftRight_eq_div_pow]
  omega

theorem leSum_load_storeWord {n i : ℕ} {v : U16} (h : i + 2 ≤ n) (heven : i % 2 = 0) :
    leSum (load (storeWord buf i v) 0 n) =
      leSum (load buf 0 i) + (v.toNat + leSum (load buf (i + 2) (n - (i + 2)))) := by
  have htail : leSum ([v.extractLsb' 0 8, v.extractLsb' 8 8] ++ load buf (i + 2) (n - (i + 2))) =
      v.toNat + leSum (load buf (i + 2) (n - (i + 2))) := by
    rw [leSum_append (by simp), leSum_word]
  rw [load_storeWord h, leSum_append (by rwa [load_length]), htail]

/-- Storing a word at an even place where there was zero adds it to the sum. -/
theorem leSum_storeWord {n i : ℕ} {v : U16} (h : i + 2 ≤ n) (heven : i % 2 = 0) :
    leSum (load (storeWord buf i v) 0 n) = leSum (load (storeWord buf i 0) 0 n) + v.toNat := by
  have hzero : BitVec.toNat (0 : U16) = 0 := rfl
  rw [leSum_load_storeWord h heven, leSum_load_storeWord h heven, hzero]
  omega

/-- The complement of a sum, added to it, makes the next complement zero. -/
theorem complement_residue_add (x : ℕ) :
    65535 - residue 65536 (x + (65535 - residue 65536 x)) = 0 := by
  have hones : residue 65536 (x + (65535 - residue 65536 x)) = 65535 :=
    residue_add_complement (by decide) x
  rw [hones]

/-! ## The TCP checksum -/

/-- The pseudo header; addresses are kept in network order. -/
def pseudoHeader (saddr daddr : U32) (len : U16) : List U8 :=
  (bytes32 saddr).reverse ++ (bytes32 daddr).reverse ++ [0, 6] ++ bytes16 len

theorem paddedByte_toNat (buf : ℕ → U8) (i : ℕ) : (paddedByte buf i).toNat = (buf i).toNat := by
  have hmask : ntohs 0xFF00#16 = 0xFF#16 := by decide
  rw [paddedByte, hmask, BitVec.toNat_and, wordAt_toNat]
  have hmod := Nat.and_two_pow_sub_one_eq_mod ((buf i).toNat + 256 * (buf (i + 1)).toNat) 8
  have hlt := (buf i).isLt
  rw [show (0xFF#16).toNat = 2 ^ 8 - 1 from rfl, hmod]
  omega

theorem leSum_bytes32 (x : U32) :
    leSum (bytes32 x).reverse = x.toNat % 65536 + x.toNat / 65536 := by
  have hlt := x.isLt
  simp only [leSum, bytes32, digits, List.reverse_cons, List.reverse_nil, List.nil_append,
    List.cons_append, List.map_cons, List.map_nil, lowFirst, BitVec.extractLsb'_toNat,
    Nat.shiftRight_eq_div_pow]
  omega

theorem leSum_bytes16 (x : U16) :
    leSum (bytes16 x) = (ntohs x).toNat := by
  have hlt := x.isLt
  rw [ntohs_toNat]
  simp only [leSum, bytes16, digits, List.map_cons, List.map_nil, lowFirst, BitVec.extractLsb'_toNat,
    Nat.shiftRight_eq_div_pow, swap]
  omega

theorem leSum_pseudoHeader (saddr daddr : U32) (len : U16) (bs : List U8) :
    leSum (pseudoHeader saddr daddr len ++ bs) =
      saddr.toNat % 65536 + saddr.toNat / 65536 + (daddr.toNat % 65536 + daddr.toNat / 65536) +
        1536 + (ntohs len).toNat + leSum bs := by
  have hproto : leSum [0, 6] = 1536 := rfl
  rw [leSum_append (by simp [pseudoHeader, bytes32, bytes16]), pseudoHeader,
    leSum_append (by simp [bytes32]), leSum_append (by simp [bytes32]),
    leSum_append (by simp [bytes32]), leSum_bytes32, leSum_bytes32, leSum_bytes16, hproto]

/-- The accumulator after `n` bytes of the segment. -/
theorem sumWords_paddedByte_toNat (buf : ℕ → U8) {n : ℕ} (hn : n < 65536) :
    (sumWords buf (paddedByte buf) n 0 0).toNat = leSum (load buf 0 n) := by
  have hle := leSum_le (load buf 0 n)
  rw [load_length] at hle
  have hzero : BitVec.toNat (0 : U32) = 0 := rfl
  rw [sumWords_toNat (paddedByte_toNat buf) (by omega), hzero, Nat.zero_add]

theorem tcpSum_toNat (buf : ℕ → U8) (len : U16) (saddr daddr : U32) :
    (tcpSum buf len saddr daddr).toNat =
      leSum (pseudoHeader saddr daddr len ++ load buf 0 len.toNat) := by
  have hle := leSum_le (load buf 0 len.toNat)
  rw [load_length] at hle
  have hlen := len.isLt
  have hswap := (ntohs len).isLt
  have hs := saddr.isLt
  have hd := daddr.isLt
  have hproto : (ntohs ipprotoTCP).toNat = 1536 := by decide
  rw [leSum_pseudoHeader]
  simp only [tcpSum, BitVec.toNat_add, sumWords_paddedByte_toNat buf hlen, lowWord_toNat,
    highWord_toNat, BitVec.toNat_setWidth, hproto]
  omega

theorem tcpCalcChecksum_toNat (buf : ℕ → U8) (len : U16) (saddr daddr : U32) :
    (tcpCalcChecksum buf len saddr daddr).toNat =
      65535 - residue 65536 (leSum (pseudoHeader saddr daddr len ++ load buf 0 len.toNat)) := by
  rw [tcpCalcChecksum, foldSum_toNat, tcpSum_toNat]

/-- Only the bytes of the segment count. -/
theorem tcpCalcChecksum_congr {buf' : ℕ → U8} {len : U16} {saddr daddr : U32}
    (h : ∀ k < len.toNat, buf' k = buf k) :
    tcpCalcChecksum buf' len saddr daddr = tcpCalcChecksum buf len saddr daddr := by
  apply BitVec.eq_of_toNat_eq
  rw [tcpCalcChecksum_toNat, tcpCalcChecksum_toNat,
    load_congr fun k _ hk => h k (by omega)]

/-- Where `check` is in the TCP header. -/
def checkOffset : ℕ := 16

theorem tcpCalcChecksum_stored {len : U16} {saddr daddr : U32} (hlen : 20 ≤ len.toNat) :
    tcpCalcChecksum (storeWord buf checkOffset
      (tcpCalcChecksum (storeWord buf checkOffset 0) len saddr daddr)) len saddr daddr = 0 := by
  apply BitVec.eq_of_toNat_eq
  rw [tcpCalcChecksum_toNat, leSum_pseudoHeader,
    leSum_storeWord (by rw [checkOffset]; omega) rfl, ← Nat.add_assoc, ← leSum_pseudoHeader,
    tcpCalcChecksum_toNat]
  exact complement_residue_add _

/-- A segment with its checksum stored verifies, the checksum is that of the internet protocols,
no byte behind the segment counts, and the accumulator holds the exact sum of the words after any
number of bytes. -/
theorem tcp_checksum_round_trip (buf : ℕ → U8) (len : U16) (saddr daddr : U32)
    (hlen : 20 ≤ len.toNat) :
    tcpCalcChecksum (storeWord buf checkOffset
      (tcpCalcChecksum (storeWord buf checkOffset 0) len saddr daddr)) len saddr daddr = 0 ∧
    (ntohs (tcpCalcChecksum buf len saddr daddr)).toNat =
      rfc1071 (pseudoHeader saddr daddr len ++ load buf 0 len.toNat) ∧
    (∀ buf' : ℕ → U8, (∀ k < len.toNat, buf' k = buf k) →
      tcpCalcChecksum buf' len saddr daddr = tcpCalcChecksum buf len saddr daddr) ∧
    (∀ n ≤ len.toNat, (sumWords buf (paddedByte buf) n 0 0).toNat = leSum (load buf 0 n)) ∧
    (tcpSum buf len saddr daddr).toNat =
      leSum (pseudoHeader saddr daddr len ++ load buf 0 len.toNat) := by
  refine ⟨tcpCalcChecksum_stored hlen, ?_, fun buf' h => tcpCalcChecksum_congr h,
    fun n hn => sumWords_paddedByte_toNat buf (lt_of_le_of_lt hn len.isLt),
    tcpSum_toNat buf len saddr daddr⟩
  rw [ntohs_toNat, tcpCalcChecksum_toNat, swap_complement_residue]

theorem tcp_checksum_round_trip_odd :
    tcpCalcChecksum (storeWord (fun _ => 7) checkOffset
      (tcpCalcChecksum (storeWord (fun _ => 7) checkOffset 0) 21 5 6)) 21 5 6 = 0 :=
  (tcp_checksum_round_trip (fun _ => 7) 21 5 6 (by decide)).1

end MtcpStack
