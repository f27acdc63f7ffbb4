import MtcpStack.Verification.Receive

/-! # The shape of a receive buffer

Where the bytes of a segment go does not depend on what they are. A buffer with all its bytes
blanked behaves like the buffer itself, so what is known about buffers that hold a stream carries
over to buffers that hold anything. -/

namespace MtcpStack

open Serial Slice

/-! ## Blank buffers -/

/-- As many zero bytes. -/
def blankBytes (bytes : List U8) : List U8 := List.replicate bytes.length 0

@[simp] theorem blankBytes_length (bytes : List U8) : (blankBytes bytes).length = bytes.length :=
  List.length_replicate

def RingBuffer.blank (b : RingBuffer) : RingBuffer := { b with data := blankBytes b.data }

theorem blit_blank (m : List U8) (off : ℕ) (src : List U8) :
    blit (blankBytes m) off (blankBytes src) = (blit m off src).map blankBytes := by
  unfold blit
  simp only [blankBytes_length]
  split
  case isTrue h =>
    simp only [Option.map_some, Option.some.injEq, blankBytes, List.take_replicate,
      List.drop_replicate, List.replicate_append_replicate, List.length_append, List.length_take,
      List.length_drop, List.append_assoc]
    congr 1
    omega
  case isFalse => rfl

theorem slice_blank (m : List U8) (off n : ℕ) :
    slice (blankBytes m) off n = (slice m off n).map blankBytes := by
  unfold slice
  simp only [blankBytes_length]
  split
  case isTrue h =>
    simp [blankBytes, List.take_replicate, List.drop_replicate]
  case isFalse => rfl

theorem rbSlide_blank (b : RingBuffer) (endAt : ℕ) :
    rbSlide b.blank endAt = (rbSlide b endAt).map RingBuffer.blank := by
  have hsize : b.blank.size = b.size := rfl
  have hslice : slice b.blank.data b.blank.head b.blank.lastLen =
      (slice b.data b.head b.lastLen).map blankBytes := slice_blank ..
  have hblit : ∀ src, blit b.blank.data 0 (blankBytes src) = (blit b.data 0 src).map blankBytes :=
    blit_blank b.data 0
  unfold rbSlide
  rw [hsize, hslice]
  split
  case isTrue =>
    cases slice b.data b.head b.lastLen with
    | none => rfl
    | some moved =>
      simp only [Option.map_some, Option.bind_some, hblit]
      cases blit b.data 0 moved <;> rfl
  case isFalse => rfl

theorem rbStore_blank (b : RingBuffer) (putx : ℕ) (payload : List U8) :
    rbStore b.blank putx (blankBytes payload) = (rbStore b putx payload).map RingBuffer.blank := by
  unfold rbStore
  simp only [RingBuffer.blank, blankBytes_length, blit_blank]
  cases blit b.data (b.head + putx) payload <;> rfl

theorem rbMerged_blank (b : RingBuffer) (fctx : List FragmentCtx) :
    rbMerged { b.blank with fctx } = (rbMerged { b with fctx }).map RingBuffer.blank := by
  cases fctx with
  | nil => rfl
  | cons first rest =>
    have hhead : b.blank.headSeq = b.headSeq := rfl
    simp only [rbMerged, hhead]
    split_ifs <;> rfl

/-- `RBPut` treats blank bytes like any others. -/
theorem rbPut_blank (b : RingBuffer) (payload : List U8) (curSeq : U32) :
    rbPut b.blank (blankBytes payload) curSeq =
      (rbPut b payload curSeq).map fun r => (r.1.blank, r.2) := by
  have hhead : b.blank.headSeq = b.headSeq := rfl
  have hsize : b.blank.size = b.size := rfl
  have hoff : b.blank.headOffset = b.headOffset := rfl
  unfold rbPut
  simp only [blankBytes_length, hhead, hsize, hoff]
  split_ifs
  · rfl
  · rfl
  · rfl
  rw [rbSlide_blank]
  cases rbSlide b ((b.headOffset + (curSeq - b.headSeq).toNat + payload.length) % 2 ^ 32) with
  | none => rfl
  | some b =>
    simp only [Option.map_some, Option.bind_some, rbStore_blank]
    cases rbStore b _ payload with
    | none => rfl
    | some b =>
      simp only [Option.map_some, Option.bind_some]
      change ((linkFragment b.fctx curSeq payload.length).bind fun fctx =>
        (rbMerged { b.blank with fctx }).map fun b => (b, (payload.length : ℤ))) = _
      cases linkFragment b.fctx curSeq payload.length with
      | none => rfl
      | some fctx =>
        simp only [Option.bind_some, rbMerged_blank]
        cases rbMerged { b with fctx } <;> rfl

theorem rbRemove_blank (b : RingBuffer) (len : ℕ) :
    rbRemove b.blank len = (rbRemove b len).map fun r => (r.1.blank, r.2) := by
  have hmerged : b.blank.mergedLen = b.mergedLen := rfl
  have hfctx : b.blank.fctx = b.fctx := rfl
  unfold rbRemove
  simp only [hmerged, hfctx]
  split_ifs
  · rfl
  · cases dropFragment b.fctx b.mergedLen <;> rfl
  · rfl
  · cases dropFragment b.fctx len <;> rfl

/-! ## Buffers of the right shape -/

/-- The buffer has the shape of one from which the first `h` bytes have been taken; nothing is
said about its bytes. -/
def Shaped (base : U32) (h : ℕ) (b : RingBuffer) : Prop :=
  ∃ acc, Holds (fun _ => 0) base acc h b.blank

section

variable {base : U32} {h : ℕ} {b : RingBuffer}

theorem Shaped.size_lt (hb : Shaped base h b) : b.size < 2 ^ 30 := by
  obtain ⟨acc, hholds⟩ := hb
  exact hholds.size_lt

theorem Shaped.mergedLen_le (hb : Shaped base h b) : b.mergedLen ≤ b.size := by
  obtain ⟨acc, hholds⟩ := hb
  exact hholds.mergedLen_le

theorem Shaped.headSeq_eq (hb : Shaped base h b) : b.headSeq = seqAt base h := by
  obtain ⟨acc, hholds⟩ := hb
  exact hholds.headSeq_eq

theorem rbInit_shaped (base : U32) {chunk : List U8} (hchunk : chunk.length < 2 ^ 30) :
    Shaped base 0 (rbInit chunk base) := by
  have hblank : (rbInit chunk base).blank = rbInit (blankBytes chunk) base := by
    simp [RingBuffer.blank, rbInit]
  refine ⟨∅, ?_⟩
  rw [hblank]
  exact rbInit_holds _ base (by simpa using hchunk)

/-- Removing bytes moves the head. -/
theorem Shaped.remove (hb : Shaped base h b) (len : ℕ) :
    ∃ b', rbRemove b len = some (b', min len b.mergedLen) ∧ b'.size = b.size ∧
      b'.mergedLen = b.mergedLen - min len b.mergedLen ∧ Shaped base (h + min len b.mergedLen) b' := by
  obtain ⟨acc, hholds⟩ := hb
  obtain ⟨b₀, hrem, hsize, hmerged, hholds'⟩ := hholds.remove len
  rw [rbRemove_blank, Option.map_eq_some_iff] at hrem
  obtain ⟨⟨b', n⟩, hrem, heq⟩ := hrem
  obtain ⟨rfl, rfl⟩ := Prod.mk.inj heq
  exact ⟨b', hrem, hsize, hmerged, acc, hholds'⟩

/-- A segment that ends inside a window that ends with the buffer is never refused for lack of
space, and `RBPut` leaves the head where it is. -/
theorem Shaped.put (hb : Shaped base h b) {bytes : List U8} {seq wnd : U32}
    (hlen : bytes.length < 2 ^ 31) (hwnd : b.mergedLen + wnd.toNat ≤ b.size)
    (hlo : ¬ tcpSeqLt (seq + BitVec.ofNat 32 bytes.length) (seqAt base (h + b.mergedLen)))
    (hhi : ¬ tcpSeqGt (seq + BitVec.ofNat 32 bytes.length) (seqAt base (h + b.mergedLen) + wnd)) :
    ∃ b' ret, rbPut b bytes seq = some (b', ret) ∧ 0 ≤ ret ∧ b'.size = b.size ∧ Shaped base h b' := by
  have hsize := hb.size_lt
  obtain ⟨acc, hholds⟩ := hb
  have hagree : Agrees (fun _ => 0) base (h + b.mergedLen) seq (blankBytes bytes) := by
    intro j hj n _
    rw [blankBytes_length] at hj
    simp [blankBytes, hj]
  have hput := rbPut_blank b bytes seq
  rw [← blankBytes_length bytes] at hlen hlo hhi
  rcases hholds.put hlen (by omega) hlo hhi hagree with ⟨b₀, ret, hput', hpos, hsz, hholds'⟩ | ⟨ret, hput', hle, hroom⟩
  · rw [hput', eq_comm, Option.map_eq_some_iff] at hput
    obtain ⟨⟨b', n⟩, hput, heq⟩ := hput
    obtain ⟨rfl, rfl⟩ := Prod.mk.inj heq
    exact ⟨b', n, hput, hpos.le, hsz, _, hholds'⟩
  · rw [hput', eq_comm, Option.map_eq_some_iff] at hput
    obtain ⟨⟨b', n⟩, hput, heq⟩ := hput
    obtain ⟨hsame, rfl⟩ := Prod.mk.inj heq
    have hzero := hroom hwnd
    exact ⟨b', n, hput, hzero.ge, congrArg (·.size) hsame, acc, hsame ▸ hholds⟩

end

end MtcpStack
