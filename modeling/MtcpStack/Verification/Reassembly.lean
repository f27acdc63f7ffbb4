import Mathlib.Order.ConditionallyCompleteLattice.Basic
import Mathlib.Order.Lattice.Nat
import MtcpStack.Model.Input
import MtcpStack.Verification.RingBuffer

/-! # Reassembly, abstractly

The receiving side as a set of places of the peer's byte stream. A segment is placed next to
the first place still missing; the places of the accepted segments are the received set, and
its frontier is the length of the longest prefix of the stream that has arrived. -/

namespace MtcpStack

open Serial Intervals

/-! ## The received set -/

/-- The first place not in the set: the length of the longest prefix inside it. -/
noncomputable def frontier (acc : Set ℕ) : ℕ := sInf accᶜ

theorem frontier_eq {acc : Set ℕ} {n : ℕ} (hbelow : ∀ i, i < n → i ∈ acc) (hn : n ∉ acc) :
    frontier acc = n := by
  have hmem : n ∈ accᶜ := hn
  refine le_antisymm (Nat.sInf_le hmem) ?_
  by_contra hlt
  exact Nat.sInf_mem ⟨n, hmem⟩ (hbelow _ (not_le.mp hlt))

/-- The place of a segment: the one within half the number space of the place `cur`. -/
def placeNear (base : U32) (cur : ℕ) (seq : U32) : ℤ := cur + (seq - seqAt base cur).toInt

/-- The places a segment covers. -/
def segmentPlaces (base : U32) (cur : ℕ) (seg : U32 × List U8) : Set ℕ :=
  { i | placeNear base cur seg.1 ≤ i ∧ (i : ℤ) < placeNear base cur seg.1 + seg.2.length }

/-- The places covered by a sequence of segments, each placed at the frontier of the earlier
ones. -/
noncomputable def receivedSet (base : U32) (segs : List (U32 × List U8)) : Set ℕ :=
  segs.foldl (fun acc seg => acc ∪ segmentPlaces base (frontier acc) seg) ∅

theorem receivedSet_append (base : U32) (segs : List (U32 × List U8)) (seg : U32 × List U8) :
    receivedSet base (segs ++ [seg]) =
      receivedSet base segs ∪ segmentPlaces base (frontier (receivedSet base segs)) seg := by
  simp [receivedSet]

/-- The bytes of a segment are those of `S` at its place. -/
def Agrees (S : ℕ → U8) (base : U32) (cur : ℕ) (seq : U32) (bytes : List U8) : Prop :=
  ∀ j < bytes.length, ∀ n : ℕ, (n : ℤ) = placeNear base cur seq + j → bytes[j]? = some (S n)

/-! ## Traces -/

/-- The segments `RBPut` accepted, oldest first. -/
def acceptedSegs (log : List Act) : List (U32 × List U8) :=
  log.filterMap fun a =>
    match a with
    | .accepted seq bytes => some (seq, bytes)
    | _ => none

/-- The bytes handed to the application, in order. -/
def deliveredBytes (log : List Act) : List U8 :=
  log.flatMap fun a =>
    match a with
    | .delivered bytes => bytes
    | _ => []

/-- The places a stream has received. -/
noncomputable def received (c : Conn) : Set ℕ := receivedSet (c.irs + 1) (acceptedSegs c.log)

theorem acceptedSegs_append (l : List Act) (a : Act) :
    acceptedSegs (l ++ [a]) = acceptedSegs l ++ acceptedSegs [a] := by
  simp [acceptedSegs]

theorem deliveredBytes_append (l : List Act) (a : Act) :
    deliveredBytes (l ++ [a]) = deliveredBytes l ++ deliveredBytes [a] := by
  simp [deliveredBytes]

/-! ## A buffer that refines a received set -/

/-- The buffer `b` is what is left of the received set `acc` after the bytes before place `h`
have been taken out. -/
structure Holds (S : ℕ → U8) (base : U32) (acc : Set ℕ) (h : ℕ) (b : RingBuffer) : Prop where
  size_lt : b.size < 2 ^ 30
  inv : ∃ ivs, RbInv S base h ivs b ∧ ∀ i, i ∈ acc ↔ i < h ∨ Covers ivs i

section

variable {S : ℕ → U8} {base : U32} {acc : Set ℕ} {h : ℕ} {b : RingBuffer}

theorem Holds.mergedLen_le (hb : Holds S base acc h b) : b.mergedLen ≤ b.size := by
  obtain ⟨ivs, hinv, -⟩ := hb.inv
  exact hinv.mergedLen_le_size

theorem Holds.headSeq_eq (hb : Holds S base acc h b) : b.headSeq = seqAt base h := by
  obtain ⟨ivs, hinv, -⟩ := hb.inv
  exact hinv.headSeq_eq

theorem rbInit_holds (S : ℕ → U8) (base : U32) {chunk : List U8} (hchunk : chunk.length < 2 ^ 30) :
    Holds S base ∅ 0 (rbInit chunk base) :=
  ⟨hchunk, [], rbInit_inv S base chunk, by simp⟩

/-- Everything before the end of the merged bytes has been received. -/
theorem Holds.mem_of_lt (hb : Holds S base acc h b) {i : ℕ} (hi : i < h + b.mergedLen) :
    i ∈ acc := by
  obtain ⟨ivs, hinv, hacc⟩ := hb.inv
  rw [hacc]
  rcases Nat.lt_or_ge i h with hlt | hge
  · exact Or.inl hlt
  · exact Or.inr (covers_of_lt_prefixLen hge (by rw [← hinv.merged_eq]; exact hi))

/-- The byte behind the merged ones is missing. -/
theorem Holds.not_mem (hb : Holds S base acc h b) : h + b.mergedLen ∉ acc := by
  obtain ⟨ivs, hinv, hacc⟩ := hb.inv
  rw [hacc]
  rintro (hlt | hcov)
  · omega
  · rw [hinv.merged_eq] at hcov
    exact not_covers_prefixLen hinv.canonical hcov

theorem Holds.frontier_eq (hb : Holds S base acc h b) : frontier acc = h + b.mergedLen :=
  MtcpStack.frontier_eq (fun _ hi => hb.mem_of_lt hi) hb.not_mem

/-- Removing bytes moves the head and leaves the received set. -/
theorem Holds.remove (hb : Holds S base acc h b) (len : ℕ) :
    ∃ b', rbRemove b len = some (b', min len b.mergedLen) ∧ b'.size = b.size ∧
      b'.mergedLen = b.mergedLen - min len b.mergedLen ∧
      Holds S base acc (h + min len b.mergedLen) b' := by
  obtain ⟨ivs, hinv, hacc⟩ := hb.inv
  obtain ⟨b', hrem, hsize, hmerged, ivs', hinv', hcov⟩ := rbRemove_spec hinv len
  refine ⟨b', hrem, hsize, hmerged, hsize ▸ hb.size_lt, ivs', hinv', fun i => ?_⟩
  rw [hcov, hacc]
  have hprefix : i < h + min len b.mergedLen → i ∈ acc := fun hi => hb.mem_of_lt (by omega)
  rw [hacc] at hprefix
  refine ⟨fun hi => ?_, fun hi => ?_⟩
  · by_cases hlt : i < h + min len b.mergedLen
    · exact Or.inl hlt
    · rcases hi with hi | hi
      · omega
      · exact Or.inr ⟨by omega, hi⟩
  · rcases hi with hi | hi
    · exact hprefix hi
    · exact Or.inr hi.2

/-- A segment that ends inside the window ends `e` places behind its left edge `m`. -/
theorem exists_end {m len : ℕ} {seq wnd : U32} (hwnd : wnd.toNat < 2 ^ 30)
    (hlo : ¬ tcpSeqLt (seq + BitVec.ofNat 32 len) (seqAt base m))
    (hhi : ¬ tcpSeqGt (seq + BitVec.ofNat 32 len) (seqAt base m + wnd)) :
    ∃ e, e ≤ wnd.toNat ∧ seq + BitVec.ofNat 32 len = seqAt base (m + e) := by
  obtain ⟨e, he, hend⟩ := exists_seqAt (seqAt base m) (seq + BitVec.ofNat 32 len)
  rw [seqAt_seqAt] at hend
  refine ⟨e, ?_, hend⟩
  have hwndAt : seqAt base m + wnd = seqAt base (m + wnd.toNat) := by
    rw [seqAt_add base m wnd.toNat, BitVec.ofNat_toNat, BitVec.setWidth_eq]
  rw [hend, tcpSeqLt, not_lt] at hlo
  have hhalf := lt_half_of_toInt_nonneg he hlo
  rw [hend, hwndAt, tcpSeqGt, toInt_seqAt_sub_seqAt (by omega) (by omega) (by omega)] at hhi
  omega

/-- Its place is found from its end. -/
theorem placeNear_of_end {m len e : ℕ} {seq : U32} (hlen : len < 2 ^ 31) (he : e < 2 ^ 30)
    (hend : seq + BitVec.ofNat 32 len = seqAt base (m + e)) :
    placeNear base m seq = (m + e : ℕ) - (len : ℤ) := by
  have hshift : seq - seqAt base m = seqAt base (m + e) - seqAt base (m + len) := by
    rw [← hend, seqAt_add base m len]
    ring
  have hdiff : seq - seqAt base m = BitVec.ofInt 32 ((e : ℤ) - len) := by
    rw [hshift, seqAt_sub_seqAt]
    congr 1
    push_cast
    ring
  rw [placeNear, hdiff, BitVec.toInt_ofInt, Int.bmod_eq_of_le (by omega) (by omega)]
  push_cast
  ring

/-- The result of putting a segment that ends inside the window: `RBPut` either accepts it, and
its places join the received set, or leaves the buffer as it was. It never lacks space when the
window ends with the buffer. -/
theorem Holds.put (hb : Holds S base acc h b) {bytes : List U8} {seq : U32} {wnd : U32}
    (hlen : bytes.length < 2 ^ 31) (hwnd : wnd.toNat < 2 ^ 30)
    (hlo : ¬ tcpSeqLt (seq + BitVec.ofNat 32 bytes.length) (seqAt base (h + b.mergedLen)))
    (hhi : ¬ tcpSeqGt (seq + BitVec.ofNat 32 bytes.length)
      (seqAt base (h + b.mergedLen) + wnd))
    (hagree : Agrees S base (h + b.mergedLen) seq bytes) :
    (∃ b' ret, rbPut b bytes seq = some (b', ret) ∧ 0 < ret ∧ b'.size = b.size ∧
        Holds S base (acc ∪ segmentPlaces base (h + b.mergedLen) (seq, bytes)) h b') ∨
      ∃ ret, rbPut b bytes seq = some (b, ret) ∧ ret ≤ 0 ∧
        (b.mergedLen + wnd.toNat ≤ b.size → ret = 0) := by
  have hmerged := hb.mergedLen_le
  have hsize := hb.size_lt
  obtain ⟨ivs, hinv, hacc⟩ := hb.inv
  obtain ⟨e, he, hend⟩ := exists_end hwnd hlo hhi
  have hplace := placeNear_of_end hlen (he.trans_lt hwnd) hend
  have hseq : seq = seqAt base (h + b.mergedLen + e) - BitVec.ofNat 32 bytes.length := by
    rw [← hend, add_sub_cancel_right]
  by_cases hzero : bytes.length = 0
  · exact Or.inr ⟨0, by simp [rbPut, hzero], le_rfl, fun _ => rfl⟩
  by_cases hold : h + b.mergedLen + e < h + bytes.length
  · -- the segment starts before the head
    have hdist : (b.headSeq - seq).toNat = h + bytes.length - (h + b.mergedLen + e) := by
      have hrw : b.headSeq - seq =
          seqAt base (h + bytes.length) - seqAt base (h + b.mergedLen + e) := by
        rw [hinv.headSeq_eq, hseq, seqAt_add base h bytes.length]
        ring
      rw [hrw, toNat_seqAt_sub_seqAt hold.le (by omega)]
    exact Or.inr ⟨0, rbPut_old (by omega) (by omega), le_rfl, fun _ => rfl⟩
  obtain ⟨s, hs⟩ : ∃ s, h + b.mergedLen + e = s + bytes.length :=
    ⟨h + b.mergedLen + e - bytes.length, by omega⟩
  have hseqs : seq = seqAt base s := by
    rw [hseq, hs, seqAt_add, add_sub_cancel_right]
  have hplaces : placeNear base (h + b.mergedLen) seq = s := by
    rw [hplace, hs]
    push_cast
    ring
  by_cases hfit : s + bytes.length ≤ h + b.size
  · left
    have hbytes : ∀ j, j < bytes.length → bytes[j]? = some (S (s + j)) := by
      intro j hj
      refine hagree j hj (s + j) ?_
      rw [hplaces]
      push_cast
      rfl
    obtain ⟨b', hput, hinv', hsz⟩ := rbPut_accept hinv hsize (by omega) hfit (by omega) hbytes
    refine ⟨b', bytes.length, by rw [hseqs, hput], by omega, hsz, hsz ▸ hsize, _, hinv', ?_⟩
    intro i
    have hcast : i ∈ segmentPlaces base (h + b.mergedLen) (seq, bytes) ↔
        s ≤ i ∧ i < s + bytes.length := by
      simp only [segmentPlaces, Set.mem_ofPred_eq, hplaces]
      omega
    rw [Set.mem_union, hacc, covers_insertIv hinv.canonical, hcast]
    exact or_assoc.trans (or_congr_right or_comm)
  · right
    exact ⟨-2, by rw [hseqs, rbPut_full hinv (by omega) (by omega) (by omega) (by omega)], by omega,
      fun hroom => by omega⟩

end

end MtcpStack
