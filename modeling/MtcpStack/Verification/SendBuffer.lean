import MtcpStack.Library.Serial
import MtcpStack.Model.SendBuffer

/-! # The send buffer as a queue of written bytes

`Queues W base r b` relates the buffer to everything written so far: the first `r` bytes of `W`
are gone and the rest lies in the block, in one piece. -/

namespace MtcpStack

open Serial Slice

structure Queues (W : List U8) (base : U32) (r : ℕ) (b : SendBuffer) : Prop where
  headSeq_eq : b.headSeq = seqAt base r
  length_eq : W.length = r + b.len
  head_eq : b.head = b.headOff
  tail_eq : b.tailOff = b.headOff + b.len
  tail_le : b.tailOff ≤ b.size
  data_length : b.data.length = b.size
  bytes_eq : slice b.data b.head b.len = some (W.drop r)

/-- A read inside the buffered bytes reads the written bytes. -/
theorem Queues.slice_eq {W : List U8} {base : U32} {r off n : ℕ} {b : SendBuffer}
    (h : Queues W base r b) (hfit : off + n ≤ b.len) :
    slice b.data (b.head + off) n = slice W (r + off) n := by
  have hW := h.length_eq
  have hrest := slice_take (slice_drop h.bytes_eq (show off ≤ b.len by omega))
    (show n ≤ b.len - off by omega)
  rw [hrest, eq_comm, slice_eq_some, List.drop_drop]
  exact ⟨by omega, rfl⟩

/-! ## What a put changes -/

/-- The ways `SBPut` can go. -/
inductive PutOutcome (b : SendBuffer) (payload : List U8) : SendBuffer × ℤ → Prop
  | empty (hlen : payload.length = 0) : PutOutcome b payload (b, 0)
  | full (hpos : 0 < payload.length) (hfull : b.size ≤ b.len) : PutOutcome b payload (b, -2)
  | stored (data : List U8) (head headOff tailOff n : ℕ)
      (hn : n = min payload.length (b.size - b.len)) (hpos : 0 < n) : PutOutcome b payload
        ({ b with
            data, head, headOff, tailOff
            len := b.len + n
            cumLen := b.cumLen + BitVec.ofNat 64 n }, (n : ℤ))

theorem sbPut_outcome {b : SendBuffer} {payload : List U8} {r : SendBuffer × ℤ}
    (h : sbPut b payload = some r) : PutOutcome b payload r := by
  unfold sbPut at h
  simp only at h
  split_ifs at h with hzero hfull hfit
  · cases h
    exact .empty hzero
  · cases h
    exact .full (by omega) (by omega)
  · obtain ⟨data, -, rfl⟩ := Option.map_eq_some_iff.mp h
    exact .stored data b.head b.headOff _ _ rfl (by omega)
  · obtain ⟨moved, -, h⟩ := Option.bind_eq_some_iff.mp h
    obtain ⟨data, -, h⟩ := Option.bind_eq_some_iff.mp h
    obtain ⟨data', -, rfl⟩ := Option.map_eq_some_iff.mp h
    exact .stored data' 0 0 _ _ rfl (by omega)

/-- A put takes a first part of the payload that fits, or leaves the buffer as it is. -/
theorem sbPut_shape {b b' : SendBuffer} {payload : List U8} {n : ℤ}
    (h : sbPut b payload = some (b', n)) :
    (n ≤ 0 ∧ b' = b) ∨
      (0 < n ∧ n.toNat ≤ payload.length ∧ n.toNat ≤ b.size - b.len ∧ b'.len = b.len + n.toNat ∧
        b'.headSeq = b.headSeq ∧ b'.size = b.size) := by
  cases sbPut_outcome h with
  | empty | full => exact Or.inl ⟨by omega, rfl⟩
  | stored data head headOff tailOff n hn hpos =>
    rw [Int.toNat_natCast]
    exact Or.inr ⟨by omega, by omega, by omega, rfl, rfl, rfl⟩

/-- It accepts as many bytes as there are and as fit. -/
theorem sbPut_accepts {b b' : SendBuffer} {payload : List U8} {n : ℤ}
    (h : sbPut b payload = some (b', n)) : n.toNat = min payload.length (b.size - b.len) := by
  cases sbPut_outcome h with
  | empty hlen => rw [hlen, Nat.zero_min, Int.toNat_zero]
  | full hpos hfull =>
    rw [Nat.sub_eq_zero_of_le hfull, Nat.min_zero]
    rfl
  | stored data head headOff tailOff n hn hpos => rw [Int.toNat_natCast, hn]

/-! ## Puts and removals -/

theorem sbInit_queues (chunk : List U8) (base : U32) : Queues [] base 0 (sbInit chunk base) := by
  refine ⟨by simp [sbInit], rfl, rfl, rfl, Nat.zero_le _, rfl, ?_⟩
  simp [sbInit, slice_eq_some]

/-- A put never copies outside the block, and appends what it takes. -/
theorem Queues.put {W : List U8} {base : U32} {r : ℕ} {b : SendBuffer} (h : Queues W base r b)
    (payload : List U8) :
    ∃ b' n, sbPut b payload = some (b', n) ∧ Queues (W ++ payload.take n.toNat) base r b' := by
  have htail := h.tail_eq
  have hhead := h.head_eq
  have hle := h.tail_le
  have hlen := h.data_length
  unfold sbPut
  simp only
  split_ifs with hzero hfull hfit
  · exact ⟨b, 0, rfl, by simpa using h⟩
  · exact ⟨b, -2, rfl, by simpa using h⟩
  · have hsrc : (payload.take (min payload.length (b.size - b.len))).length =
        min payload.length (b.size - b.len) := by simp
    obtain ⟨data, hblit⟩ : ∃ data, blit b.data b.tailOff
        (payload.take (min payload.length (b.size - b.len))) = some data :=
      ⟨_, blit_eq_some.mpr ⟨by omega, rfl⟩⟩
    refine ⟨_, _, by rw [hblit]; rfl, ?_⟩
    rw [Int.toNat_natCast]
    refine ⟨h.headSeq_eq, ?_, hhead, ?_, ?_, ?_, ?_⟩
    · simp only [List.length_append, h.length_eq, hsrc]
      omega
    · simp only
      omega
    · simp only
      omega
    · rw [blit_length hblit, hlen]
    · rw [htail, ← hhead] at hblit
      have happ := slice_blit_append h.bytes_eq hblit
      rw [hsrc] at happ
      rw [List.drop_append_of_le_length (by rw [h.length_eq]; omega)]
      exact happ
  · have hsrc : (payload.take (min payload.length (b.size - b.len))).length =
        min payload.length (b.size - b.len) := by simp
    have hmoved := slice_length h.bytes_eq
    obtain ⟨data, hblit⟩ : ∃ data, blit b.data 0 (W.drop r) = some data :=
      ⟨_, blit_eq_some.mpr ⟨by omega, rfl⟩⟩
    have hsame := blit_length hblit
    obtain ⟨data', hblit'⟩ : ∃ data', blit data b.len
        (payload.take (min payload.length (b.size - b.len))) = some data' :=
      ⟨_, blit_eq_some.mpr ⟨by omega, rfl⟩⟩
    refine ⟨_, _, by rw [h.bytes_eq, Option.bind_some, hblit, Option.bind_some, hblit']; rfl, ?_⟩
    rw [Int.toNat_natCast]
    refine ⟨h.headSeq_eq, ?_, rfl, ?_, ?_, ?_, ?_⟩
    · simp only [List.length_append, h.length_eq, hsrc]
      omega
    · simp only
      omega
    · simp only
      omega
    · rw [blit_length hblit', hsame, hlen]
    · have hfront := slice_blit_front hblit
      rw [hmoved] at hfront
      have happ := slice_blit_append hfront (by simpa using hblit')
      rw [hsrc] at happ
      rw [List.drop_append_of_le_length (by rw [h.length_eq]; omega)]
      exact happ

/-- A removal drops at most what is buffered from the front. -/
theorem sbRemove_shape (b : SendBuffer) (len : ℕ) :
    (sbRemove b len).1.len = b.len - min len b.len ∧
      (sbRemove b len).1.headSeq = b.headSeq + BitVec.ofNat 32 (min len b.len) ∧
      (sbRemove b len).1.size = b.size := by
  unfold sbRemove
  simp only
  split_ifs with hzero hnone hempty
  · simp [hzero]
  · simp [hnone]
  · exact ⟨rfl, rfl, rfl⟩
  · exact ⟨rfl, rfl, rfl⟩

theorem Queues.remove {W : List U8} {base : U32} {r : ℕ} {b : SendBuffer} (h : Queues W base r b)
    (len : ℕ) : Queues W base (r + min len b.len) (sbRemove b len).1 := by
  obtain ⟨hlen, hseq, hsize⟩ := sbRemove_shape b len
  have htail := h.tail_eq
  have hhead := h.head_eq
  have hle := h.tail_le
  have hdata := h.data_length
  have hW := h.length_eq
  have hbytes := slice_drop h.bytes_eq (min_le_right len b.len)
  rw [List.drop_drop] at hbytes
  have hheadSeq : (sbRemove b len).1.headSeq = seqAt base (r + min len b.len) := by
    rw [hseq, seqAt_add, h.headSeq_eq]
  have hlength : W.length = r + min len b.len + (sbRemove b len).1.len := by omega
  revert hlen hheadSeq hlength
  unfold sbRemove
  simp only
  split_ifs with hzero hnone hempty
  · intro _ _ _
    simpa [hzero] using h
  · intro _ _ _
    simpa [hnone] using h
  · intro _ hheadSeq hlength
    refine ⟨hheadSeq, hlength, rfl, by simp only; omega, Nat.zero_le _, hdata, ?_⟩
    simp only at hempty ⊢
    rw [slice_eq_some]
    refine ⟨by omega, ?_⟩
    rw [hempty.1, List.take_zero, List.drop_eq_nil_of_le (by omega)]
  · intro _ hheadSeq hlength
    refine ⟨hheadSeq, hlength, rfl, by simp only; omega, by simp only; omega, hdata, ?_⟩
    rw [hhead] at hbytes
    exact hbytes

end MtcpStack
