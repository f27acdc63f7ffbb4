import Mathlib.Order.Interval.Set.Defs
import MtcpStack.Verification.RingBuffer

/-! # The fragment list of a receive buffer

Any sequence of `RBPut` and `RBRemove` calls leaves the fragment list in one form, whatever the
bytes of the segments are and however they overlap. That form is what the early exit of the loop in
`RBPut` and the test of the head behind it rely on. -/

namespace MtcpStack

open Serial Intervals

/-- A segment lies between `head_seq` and `head_seq + size`. -/
def RingBuffer.inWindow (b : RingBuffer) (payload : List U8) (curSeq : U32) : Prop :=
  (curSeq - b.headSeq).toNat + payload.length ≤ b.size

instance (b : RingBuffer) (payload : List U8) (curSeq : U32) :
    Decidable (b.inWindow payload curSeq) :=
  inferInstanceAs (Decidable (_ ≤ _))

/-- The states of a receive buffer under `RBPut` and `RBRemove`, with the number of bytes that have
been removed and the places of the stream that have been accepted. Place `i` has the sequence
number `seqAt base i`. -/
inductive Filled (base : U32) : RingBuffer → ℕ → Set ℕ → Prop
  | init (chunk : List U8) (hsize : chunk.length < 2 ^ 30) : Filled base (rbInit chunk base) 0 ∅
  | put {b b' : RingBuffer} {r : ℕ} {acc : Set ℕ} {payload : List U8} {curSeq : U32} {ret : ℤ}
      (hrun : Filled base b r acc) (hwindow : b.inWindow payload curSeq)
      (hput : rbPut b payload curSeq = some (b', ret)) :
      Filled base b' r (acc ∪ if 0 < ret then
        Set.Ico (r + (curSeq - b.headSeq).toNat) (r + (curSeq - b.headSeq).toNat + payload.length)
        else ∅)
  | remove {b b' : RingBuffer} {r n len : ℕ} {acc : Set ℕ} (hrun : Filled base b r acc)
      (hremove : rbRemove b len = some (b', n)) : Filled base b' (r + n) acc

/-- The form of the fragment list after `r` bytes have been removed. -/
structure FragmentForm (base : U32) (r : ℕ) (acc : Set ℕ) (b : RingBuffer) : Prop where
  headSeq_eq : b.headSeq = seqAt base r
  /-- In order, with a gap between any two, not empty, inside the window and inside the stored
  bytes; together they are the accepted places from the head on. -/
  fragments : ∃ ivs : List Interval, b.fctx = ivs.map (toFrag base) ∧
    ivs.Pairwise (fun p q => p.2 < q.1) ∧
    (∀ p ∈ ivs, r ≤ p.1 ∧ p.1 < p.2 ∧ p.2 ≤ r + b.size ∧ p.2 ≤ r + b.lastLen) ∧
    ∀ i, Covers ivs i ↔ r ≤ i ∧ i ∈ acc
  merged : b.mergedLen =
    match b.fctx with
    | [] => 0
    | first :: _ => if first.seq = b.headSeq then first.len else 0
  last : b.headOffset ≤ b.tailOffset ∧ b.tailOffset - b.headOffset = b.lastLen
  /-- No assertion fails, and no access leaves the block. -/
  puts : ∀ payload curSeq, b.inWindow payload curSeq →
    ∃ b', rbPut b payload curSeq = some (b', (payload.length : ℤ))
  removes : ∀ len, ∃ b', rbRemove b len = some (b', min len b.mergedLen)

/-- What the calls keep: the buffer holds some stream `S`, which every segment is written over. -/
structure FragmentInv (base : U32) (r : ℕ) (acc : Set ℕ) (b : RingBuffer) (S : ℕ → U8)
    (ivs : List Interval) : Prop where
  size_lt : b.size < 2 ^ 30
  inv : RbInv S base r ivs b
  covers_iff : ∀ i, Covers ivs i ↔ r ≤ i ∧ i ∈ acc

section

variable {base : U32} {r : ℕ} {acc : Set ℕ} {b : RingBuffer} {S : ℕ → U8} {ivs : List Interval}

/-- The sequence number of a segment in the window is that of its place. -/
theorem FragmentInv.curSeq_eq (hk : FragmentInv base r acc b S ivs) (curSeq : U32) :
    curSeq = seqAt base (r + (curSeq - b.headSeq).toNat) := by
  rw [← seqAt_seqAt, ← hk.inv.headSeq_eq, seqAt, BitVec.ofNat_toNat, BitVec.setWidth_eq]
  exact (add_sub_cancel b.headSeq curSeq).symm

theorem FragmentInv.put (hk : FragmentInv base r acc b S ivs) {payload : List U8} {curSeq : U32}
    (hwindow : b.inWindow payload curSeq) :
    ∃ b' S' ivs', rbPut b payload curSeq = some (b', (payload.length : ℤ)) ∧
      FragmentInv base r (acc ∪ Set.Ico (r + (curSeq - b.headSeq).toNat)
        (r + (curSeq - b.headSeq).toNat + payload.length)) b' S' ivs' := by
  unfold RingBuffer.inWindow at hwindow
  generalize hs : r + (curSeq - b.headSeq).toNat = s
  have hseq := hk.curSeq_eq curSeq
  rw [hs] at hseq
  rcases Nat.eq_zero_or_pos payload.length with hzero | hpos
  · refine ⟨b, S, ivs, by simp [rbPut, hzero], hk.size_lt, hk.inv, ?_⟩
    simpa [hzero] using hk.covers_iff
  · obtain ⟨b', hput, hinv, hsize⟩ :=
      rbPut_store hk.inv hk.size_lt (s := s) (by omega) (by omega) hpos
    refine ⟨b', _, _, hseq ▸ hput, hsize ▸ hk.size_lt, hinv, fun i => ?_⟩
    rw [covers_insertIv hk.inv.canonical, hk.covers_iff]
    simp only [Set.mem_union, Set.mem_Ico]
    constructor
    · rintro (hin | ⟨hle, hacc⟩)
      · exact ⟨by omega, .inr hin⟩
      · exact ⟨hle, .inl hacc⟩
    · rintro ⟨hle, hacc | hin⟩
      · exact .inr ⟨hle, hacc⟩
      · exact .inl hin

theorem FragmentInv.remove (hk : FragmentInv base r acc b S ivs) (len : ℕ) :
    ∃ b' ivs', rbRemove b len = some (b', min len b.mergedLen) ∧
      FragmentInv base (r + min len b.mergedLen) acc b' S ivs' := by
  obtain ⟨b', hremove, hsize, -, ivs', hinv, hcovers⟩ := rbRemove_spec hk.inv len
  refine ⟨b', ivs', hremove, hsize ▸ hk.size_lt, hinv, fun i => ?_⟩
  rw [hcovers, hk.covers_iff]
  exact ⟨fun h => ⟨h.1, h.2.2⟩, fun h => ⟨h.1, by omega, h.2⟩⟩

theorem Filled.inv (hrun : Filled base b r acc) : ∃ S ivs, FragmentInv base r acc b S ivs := by
  induction hrun with
  | init chunk hsize =>
    exact ⟨fun _ => 0, [], hsize, rbInit_inv _ base chunk, by simp⟩
  | @put b b' r acc payload curSeq ret _ hwindow hput ih =>
    obtain ⟨S, ivs, hk⟩ := ih
    obtain ⟨b'', S', ivs', hput', hk'⟩ := hk.put hwindow
    obtain ⟨rfl, rfl⟩ := Prod.mk.inj (Option.some.inj (hput.symm.trans hput'))
    refine ⟨S', ivs', ?_⟩
    split
    · exact hk'
    · have hzero : payload.length = 0 := by omega
      simpa [hzero] using hk'
  | remove _ hremove ih =>
    obtain ⟨S, ivs, hk⟩ := ih
    obtain ⟨b'', ivs', hremove', hk'⟩ := hk.remove _
    obtain ⟨rfl, rfl⟩ := Prod.mk.inj (Option.some.inj (hremove.symm.trans hremove'))
    exact ⟨S, ivs', hk'⟩

/-- The first fragment counts as merged if it starts at the head. -/
theorem FragmentInv.mergedLen_eq (hk : FragmentInv base r acc b S ivs) :
    b.mergedLen =
      match b.fctx with
      | [] => 0
      | first :: _ => if first.seq = b.headSeq then first.len else 0 := by
  rw [hk.inv.merged_eq, hk.inv.fctx_eq]
  cases ivs with
  | nil => rfl
  | cons p ivs =>
    have hwindow := hk.inv.inWindow hk.size_lt p List.mem_cons_self
    have hstart : (toFrag base p).seq = b.headSeq ↔ p.1 = r := by
      rw [hk.inv.headSeq_eq]
      have hlo := hwindow.1
      have hpos := hwindow.2.1
      have hhi := hwindow.2.2
      exact seqAt_inj (by omega) (by omega)
    simp only [List.map_cons, hstart, prefixLen]
    split
    · rename_i heq
      rw [← heq]
      rfl
    · rfl

/-- After any calls the fragment list has its form, and the next call goes through. -/
theorem fragment_list_canonical (hrun : Filled base b r acc) : FragmentForm base r acc b := by
  obtain ⟨S, ivs, hk⟩ := hrun.inv
  have hlast := hk.inv.last_eq
  have hroom := hk.inv.toRbMem.lastLen_le
  constructor
  case headSeq_eq => exact hk.inv.headSeq_eq
  case fragments =>
    refine ⟨ivs, hk.inv.fctx_eq, hk.inv.canonical.pairwise, fun p hp => ?_, hk.covers_iff⟩
    obtain ⟨hlo, hpos⟩ := hk.inv.canonical.bounds hp
    have hbound := hk.inv.bound p hp
    exact ⟨hlo, hpos, by omega, hbound⟩
  case merged => exact hk.mergedLen_eq
  case last => exact ⟨by omega, by omega⟩
  case puts =>
    intro payload curSeq hwindow
    obtain ⟨b', -, -, hput, -⟩ := hk.put hwindow
    exact ⟨b', hput⟩
  case removes =>
    intro len
    obtain ⟨b', -, hremove, -⟩ := hk.remove len
    exact ⟨b', hremove⟩

end

/-- Two segments with a gap between them, then one that overlaps both with other bytes, across the
end of the number space; then two bytes are read. -/
def overlapCalls : Option RingBuffer := do
  let b ← rbPut (rbInit (List.replicate 16 0) 4294967294) [1, 2] 4294967294
  let b ← rbPut b.1 [5, 6] 2
  let b ← rbPut b.1 [9, 9, 9, 9] 4294967295
  let b ← rbRemove b.1 2
  return b.1

theorem fragment_list_canonical_overlap :
    ∃ b acc, overlapCalls = some b ∧ b.fctx = [⟨0, 4⟩] ∧ FragmentForm 4294967294 2 acc b := by
  have hinit : Filled 4294967294 _ _ _ := .init (List.replicate 16 0) (by decide)
  have hfirst := hinit.put (show RingBuffer.inWindow _ [1, 2] 4294967294 by decide) rfl
  have hsecond := hfirst.put (show RingBuffer.inWindow _ [5, 6] 2 by decide) rfl
  have hthird := hsecond.put (show RingBuffer.inWindow _ [9, 9, 9, 9] 4294967295 by decide) rfl
  have hread := hthird.remove (show rbRemove _ 2 = some (_, 2) from rfl)
  exact ⟨_, _, rfl, rfl, fragment_list_canonical hread⟩

end MtcpStack
