import MtcpStack.Verification.Fragments

/-! # The receive buffer

What a receive buffer holds, relative to the byte stream it reassembles: `h` is the place of the
first byte still in it, and the intervals are the places behind `h` that have arrived. `RBPut`
and `RBRemove` keep this, and every copy stays inside the block. -/

namespace MtcpStack

open Serial Intervals Slice

/-- The memory of a buffer: its offsets agree, and every arrived place holds its byte of `S`. -/
structure RbMem (S : ℕ → U8) (h : ℕ) (ivs : List Interval) (b : RingBuffer) : Prop where
  head_eq : b.head = b.headOffset
  data_length : b.data.length = b.size
  last_eq : b.headOffset + b.lastLen = b.tailOffset
  tail_le : b.tailOffset ≤ b.size
  bound : ∀ p ∈ ivs, p.2 ≤ h + b.lastLen
  bytes : ∀ i, Covers ivs i → b.data[b.headOffset + (i - h)]? = some (S i)

/-- A buffer that holds the arrived places `ivs` of the stream `S` from place `h` on. -/
structure RbInv (S : ℕ → U8) (base : U32) (h : ℕ) (ivs : List Interval) (b : RingBuffer) :
    Prop extends RbMem S h ivs b where
  headSeq_eq : b.headSeq = seqAt base h
  fctx_eq : b.fctx = ivs.map (toFrag base)
  canonical : Canonical h ivs
  merged_eq : b.mergedLen = prefixLen h ivs

section

variable {S : ℕ → U8} {base : U32} {h s : ℕ} {ivs : List Interval} {b : RingBuffer}
  {payload : List U8}

theorem rbInit_inv (S : ℕ → U8) (base : U32) (chunk : List U8) :
    RbInv S base 0 [] (rbInit chunk base) where
  head_eq := rfl
  data_length := rfl
  last_eq := rfl
  tail_le := Nat.zero_le _
  bound := by simp
  bytes := by simp
  headSeq_eq := by simp [rbInit]
  fctx_eq := rfl
  canonical := trivial
  merged_eq := rfl

theorem RbMem.lastLen_le (hm : RbMem S h ivs b) : b.headOffset + b.lastLen ≤ b.size :=
  hm.last_eq.trans_le hm.tail_le

theorem RbMem.lt_of_covers (hm : RbMem S h ivs b) {i : ℕ} (hi : Covers ivs i) :
    i < h + b.lastLen := by
  obtain ⟨p, hp, -, hlt⟩ := hi
  exact hlt.trans_le (hm.bound p hp)

theorem RbInv.mergedLen_le (hb : RbInv S base h ivs b) : b.mergedLen ≤ b.lastLen := by
  have hle := prefixLen_le (Nat.le_add_right h b.lastLen) hb.bound
  rw [hb.merged_eq]
  omega

theorem RbInv.mergedLen_le_size (hb : RbInv S base h ivs b) : b.mergedLen ≤ b.size := by
  have h₁ := hb.mergedLen_le
  have h₂ := hb.toRbMem.lastLen_le
  omega

theorem RbInv.inWindow (hb : RbInv S base h ivs b) (hsize : b.size < 2 ^ 30) :
    ∀ p ∈ ivs, InWindow h p := by
  intro p hp
  have hbounds := hb.canonical.bounds hp
  have hbound := hb.bound p hp
  have hlast := hb.toRbMem.lastLen_le
  exact ⟨hbounds.1, hbounds.2, by omega⟩

/-! ## The stages of `RBPut` -/

/-- Moving the data to the front keeps it, and makes room for a segment that ends `e` bytes
behind the head. -/
theorem rbSlide_spec (hm : RbMem S h ivs b) (hcan : Canonical h ivs) {e : ℕ} (he : e ≤ b.size) :
    ∃ b', rbSlide b (b.headOffset + e) = some b' ∧ RbMem S h ivs b' ∧
      b'.headOffset + e ≤ b'.size ∧ b'.size = b.size ∧ b'.headSeq = b.headSeq ∧
      b'.fctx = b.fctx ∧ b'.mergedLen = b.mergedLen := by
  unfold rbSlide
  split
  case isTrue hfull =>
    have hlast := hm.lastLen_le
    obtain ⟨moved, hmoved⟩ : ∃ moved, slice b.data b.head b.lastLen = some moved := by
      refine ⟨_, slice_eq_some.mpr ⟨?_, rfl⟩⟩
      rw [hm.head_eq, hm.data_length]
      exact hlast
    have hmlen := slice_length hmoved
    obtain ⟨data, hdata⟩ : ∃ data, blit b.data 0 moved = some data := by
      refine ⟨_, blit_eq_some.mpr ⟨?_, rfl⟩⟩
      rw [hm.data_length, hmlen]
      omega
    have htail : b.tailOffset - b.headOffset = b.lastLen := by
      rw [← hm.last_eq, Nat.add_sub_cancel_left]
    refine ⟨{ b with data, tailOffset := b.tailOffset - b.headOffset, headOffset := 0, head := 0 },
      by simp [hmoved, hdata], ⟨rfl, ?_, ?_, ?_, hm.bound, ?_⟩, ?_, rfl, rfl, rfl, rfl⟩
    · exact (blit_length hdata).trans hm.data_length
    · rw [htail, Nat.zero_add]
    · rw [htail]
      simp only
      omega
    · intro i hi
      have hlt := hm.lt_of_covers hi
      have hle := hcan.le_of_covers hi
      rw [blit_getElem?_inside hdata (by omega), slice_getElem? hmoved (by omega), hm.head_eq]
      exact hm.bytes i hi
    · rw [Nat.zero_add]
      exact he
  case isFalse hroom =>
    exact ⟨b, rfl, hm, by omega, rfl, rfl, rfl, rfl⟩

/-- The stream with a segment written over it from place `s` on. -/
def overwrite (S : ℕ → U8) (s : ℕ) (payload : List U8) (i : ℕ) : U8 :=
  if s ≤ i then payload.getD (i - s) (S i) else S i

theorem overwrite_inside {s i : ℕ} (hlo : s ≤ i)
    (hhi : i < s + payload.length) : payload[i - s]? = some (overwrite S s payload i) := by
  have hlt : i - s < payload.length := by omega
  rw [overwrite, if_pos hlo, List.getD_eq_getElem?_getD, List.getElem?_eq_getElem hlt,
    Option.getD_some]

theorem overwrite_outside {s i : ℕ}
    (hi : ¬ (s ≤ i ∧ i < s + payload.length)) : overwrite S s payload i = S i := by
  unfold overwrite
  split
  · rw [List.getD_eq_getElem?_getD, List.getElem?_eq_none (by omega), Option.getD_none]
  · rfl

/-- A segment that agrees with the stream leaves it. -/
theorem overwrite_of_agree (hagree : ∀ j, j < payload.length → payload[j]? = some (S (s + j))) :
    overwrite S s payload = S := by
  funext i
  by_cases hin : s ≤ i ∧ i < s + payload.length
  · have hbyte := hagree (i - s) (by omega)
    rw [overwrite_inside (S := S) hin.1 hin.2, Nat.add_sub_cancel' hin.1] at hbyte
    exact Option.some.inj hbyte
  · exact overwrite_outside hin

/-- Storing a segment makes its places arrive, whatever they held before. -/
theorem rbStore_spec (hm : RbMem S h ivs b) (hcan : Canonical h ivs) (putx : ℕ)
    (payload : List U8) (hroom : b.headOffset + putx + payload.length ≤ b.size)
    (hsize : b.size < 2 ^ 30) :
    ∃ b', rbStore b putx payload = some b' ∧
      RbMem (overwrite S (h + putx) payload) h
        (insertIv (h + putx, h + putx + payload.length) ivs) b' ∧
      b'.size = b.size ∧ b'.headSeq = b.headSeq ∧ b'.fctx = b.fctx ∧
      b'.mergedLen = b.mergedLen := by
  obtain ⟨data, hdata⟩ : ∃ data, blit b.data (b.head + putx) payload = some data := by
    refine ⟨_, blit_eq_some.mpr ⟨?_, rfl⟩⟩
    rw [hm.head_eq, hm.data_length]
    exact hroom
  have hend : (b.headOffset + putx + payload.length) % 2 ^ 32 =
      b.headOffset + putx + payload.length := Nat.mod_eq_of_lt (by omega)
  have hlast := hm.last_eq
  have htail := hm.tail_le
  have htop : (if b.tailOffset < b.headOffset + putx + payload.length then
      b.headOffset + putx + payload.length else b.tailOffset) =
      max b.tailOffset (b.headOffset + putx + payload.length) := by
    split <;> omega
  refine ⟨{ b with
      data
      tailOffset := max b.tailOffset (b.headOffset + putx + payload.length)
      lastLen := max b.tailOffset (b.headOffset + putx + payload.length) - b.headOffset },
    by simp only [rbStore, hdata, hend, htop, Option.map_some], ?_, rfl, rfl, rfl, rfl⟩
  refine ⟨hm.head_eq, (blit_length hdata).trans hm.data_length, ?_, ?_, ?_, ?_⟩
  · simp only
    omega
  · simp only
    omega
  · apply insertIv_bound
    · simp only
      omega
    · intro p hp
      have := hm.bound p hp
      simp only
      omega
  · intro i hi
    rw [covers_insertIv hcan] at hi
    by_cases hin : h + putx ≤ i ∧ i < h + putx + payload.length
    · -- a place of the segment
      have hplace : b.headOffset + (i - h) = b.head + putx + (i - (h + putx)) := by
        rw [hm.head_eq]
        omega
      rw [hplace, blit_getElem?_inside hdata (by omega), overwrite_inside hin.1 hin.2]
    · have hold := hi.resolve_left hin
      have hle := hcan.le_of_covers hold
      have hout : b.headOffset + (i - h) < b.head + putx ∨
          b.head + putx + payload.length ≤ b.headOffset + (i - h) := by
        rw [hm.head_eq]
        omega
      rw [blit_getElem?_outside hdata hout, overwrite_outside hin]
      exact hm.bytes i hold

/-- `merged_len` is again the length of the prefix once the segment has been linked in. -/
theorem rbMerged_spec {x : Interval} {b' : RingBuffer} (hcan : Canonical h ivs)
    (hm : RbMem S h (insertIv x ivs) b') (hmerged : b'.mergedLen = prefixLen h ivs)
    (hx : InWindow h x) (hw : ∀ p ∈ ivs, p.2 ≤ h + 2 ^ 30) (hseq : b'.headSeq = seqAt base h)
    (hfctx : b'.fctx = (insertIv x ivs).map (toFrag base)) :
    ∃ b'', rbMerged b' = some b'' ∧ RbInv S base h (insertIv x ivs) b'' ∧ b''.size = b'.size := by
  have hcan' := insertIv_canonical hcan hx.1 hx.2.1
  have hbound' : ∀ p ∈ insertIv x ivs, p.2 ≤ h + 2 ^ 30 := insertIv_bound hx.2.2 hw
  have hkeep : prefixLen h (insertIv x ivs) = 0 → prefixLen h ivs = 0 := by
    intro hzero
    by_contra hne
    have hcov := (prefixLen_pos hcan).mp (Nat.pos_of_ne_zero hne)
    have hpos := (prefixLen_pos hcan').mpr ((covers_insertIv hcan h).mpr (Or.inr hcov))
    omega
  cases hins : insertIv x ivs with
  | nil => exact absurd hins (insertIv_ne_nil x ivs)
  | cons p l =>
      rw [hins] at hcan' hbound' hfctx hkeep hm
      have hp := hbound' p List.mem_cons_self
      have hstart : b'.headSeq = (toFrag base p).seq ↔ h = p.1 := by
        rw [hseq]
        exact seqAt_inj (by have := hcan'.1; omega) (by have := hcan'.2.1; omega)
      rw [rbMerged, hfctx]
      simp only [List.map_cons, hstart]
      by_cases heq : h = p.1
      · rw [if_pos heq]
        refine ⟨_, rfl, ⟨⟨hm.head_eq, hm.data_length, hm.last_eq, hm.tail_le, hm.bound, hm.bytes⟩,
          hseq, rfl, hcan', ?_⟩, rfl⟩
        simp [prefixLen, heq, toFrag]
      · have hzero : prefixLen h (p :: l) = 0 := by
          rw [prefixLen, if_neg (Ne.symm heq)]
        rw [if_neg heq]
        exact ⟨b', rfl, ⟨hm, hseq, hfctx, hcan', by rw [hmerged, hkeep hzero, hzero]⟩, rfl⟩

/-! ## `RBPut` and `RBRemove` -/

/-- The offset of a place behind the head. -/
theorem RbInv.offset_eq (hb : RbInv S base h ivs b) (hlo : h ≤ s) (hhi : s < h + 2 ^ 31) :
    (seqAt base s - b.headSeq).toNat = s - h := by
  rw [hb.headSeq_eq, toNat_seqAt_sub_seqAt hlo (by omega)]

theorem RbInv.getMinSeq_eq (hb : RbInv S base h ivs b) (hlo : h ≤ s)
    (hhi : s < h + 2 ^ 31) : getMinSeq b.headSeq (seqAt base s) = b.headSeq := by
  rw [hb.headSeq_eq, getMinSeq_seqAt_eq_left base (by omega) (by omega)]
  exact hlo

/-- A segment inside the window is accepted: its interval is inserted. -/
theorem rbPut_store (hb : RbInv S base h ivs b) (hsize : b.size < 2 ^ 30)
    (hlo : h ≤ s) (hhi : s + payload.length ≤ h + b.size) (hpos : 0 < payload.length) :
    ∃ b', rbPut b payload (seqAt base s) = some (b', (payload.length : ℤ)) ∧
      RbInv (overwrite S s payload) base h (insertIv (s, s + payload.length) ivs) b' ∧
      b'.size = b.size := by
  have hputx := hb.offset_eq hlo (by omega)
  have hmin := hb.getMinSeq_eq hlo (by omega)
  have hendOff := toInt_ofNat_of_lt (w := 32) (n := s - h + payload.length) (by omega)
  have hlastLen := hb.toRbMem.lastLen_le
  have hx : InWindow h (s, s + payload.length) := ⟨hlo, by simp; omega, by simp; omega⟩
  obtain ⟨b₁, hslide, hm₁, hroom, hsz₁, hseq₁, hf₁, hmg₁⟩ :=
    rbSlide_spec hb.toRbMem hb.canonical (e := s - h + payload.length) (by omega)
  obtain ⟨b₂, hstore, hm₂, hsz₂, hseq₂, hf₂, hmg₂⟩ :=
    rbStore_spec hm₁ hb.canonical (s - h) payload (by omega) (by omega)
  rw [Nat.add_sub_cancel' hlo] at hm₂
  have hlink : linkFragment b₂.fctx (seqAt base s) payload.length =
      some ((insertIv (s, s + payload.length) ivs).map (toFrag base)) := by
    rw [hf₂, hf₁, hb.fctx_eq]
    have := linkFragment_toFrag base hb.canonical hx (hb.inWindow hsize)
    simpa using this
  have hm₃ : RbMem (overwrite S s payload) h (insertIv (s, s + payload.length) ivs)
      { b₂ with fctx := (insertIv (s, s + payload.length) ivs).map (toFrag base) } :=
    ⟨hm₂.head_eq, hm₂.data_length, hm₂.last_eq, hm₂.tail_le, hm₂.bound, hm₂.bytes⟩
  obtain ⟨b₃, hmerged, hb₃, hsz₃⟩ := rbMerged_spec hb.canonical hm₃
    (by rw [hmg₂, hmg₁, hb.merged_eq]) hx (fun p hp => (hb.inWindow hsize p hp).2.2)
    (by rw [hseq₂, hseq₁, hb.headSeq_eq]) rfl
  refine ⟨b₃, ?_, hb₃, hsz₃.trans (hsz₂.trans hsz₁)⟩
  have hmod : (b.headOffset + (s - h) + payload.length) % 2 ^ 32 =
      b.headOffset + (s - h + payload.length) := by
    rw [Nat.mod_eq_of_lt (by omega), Nat.add_assoc]
  unfold rbPut
  simp only [hputx, hmin, hendOff, hmod, hslide, hstore, hlink, hmerged, Option.bind_some,
    Option.map_some, ne_eq, not_true_eq_false, if_false]
  rw [if_neg (by omega), if_neg (by omega)]

/-- A segment that agrees with the stream is accepted as a part of it. -/
theorem rbPut_accept (hb : RbInv S base h ivs b) (hsize : b.size < 2 ^ 30)
    (hlo : h ≤ s) (hhi : s + payload.length ≤ h + b.size) (hpos : 0 < payload.length)
    (hagree : ∀ j, j < payload.length → payload[j]? = some (S (s + j))) :
    ∃ b', rbPut b payload (seqAt base s) = some (b', (payload.length : ℤ)) ∧
      RbInv S base h (insertIv (s, s + payload.length) ivs) b' ∧ b'.size = b.size := by
  obtain ⟨b', hput, hinv, hsize'⟩ := rbPut_store hb hsize hlo hhi hpos
  rw [overwrite_of_agree hagree] at hinv
  exact ⟨b', hput, hinv, hsize'⟩

/-- Data before the head is dropped. -/
theorem rbPut_old {seq : U32} (hpos : 0 < (b.headSeq - seq).toNat)
    (hhi : (b.headSeq - seq).toNat < 2 ^ 31) : rbPut b payload seq = some (b, 0) := by
  have hmin : getMinSeq b.headSeq seq = seq := getMinSeq_right hhi
  have hne : seq ≠ b.headSeq := by
    rintro rfl
    simp at hpos
  unfold rbPut
  simp only [hmin, hne, ne_eq, not_false_eq_true, if_true, ite_self]

/-- Data that does not fit behind the head is refused. -/
theorem rbPut_full (hb : RbInv S base h ivs b) (hlo : h ≤ s)
    (hfull : h + b.size < s + payload.length) (hhi : s + payload.length < h + 2 ^ 31)
    (hpos : 0 < payload.length) : rbPut b payload (seqAt base s) = some (b, -2) := by
  have hputx := hb.offset_eq hlo (by omega)
  have hmin := hb.getMinSeq_eq hlo (by omega)
  have hendOff := toInt_ofNat_of_lt (w := 32) (n := s - h + payload.length) (by omega)
  unfold rbPut
  simp only [hputx, hmin, hendOff, ne_eq, not_true_eq_false, if_false]
  rw [if_neg (by omega), if_pos (by omega)]

/-- Removing bytes takes the front of what has merged. -/
theorem rbRemove_spec (hb : RbInv S base h ivs b) (len : ℕ) :
    ∃ b', rbRemove b len = some (b', min len b.mergedLen) ∧ b'.size = b.size ∧
      b'.mergedLen = b.mergedLen - min len b.mergedLen ∧
      ∃ ivs', RbInv S base (h + min len b.mergedLen) ivs' b' ∧
        ∀ i, Covers ivs' i ↔ h + min len b.mergedLen ≤ i ∧ Covers ivs i := by
  have hmin : (if b.mergedLen < len then b.mergedLen else len) = min len b.mergedLen := by
    split <;> omega
  have hn : min len b.mergedLen ≤ prefixLen h ivs := by
    rw [hb.merged_eq]
    omega
  unfold rbRemove
  simp only [hmin]
  generalize min len b.mergedLen = n at hn ⊢
  by_cases hzero : n = 0
  · subst hzero
    refine ⟨b, by simp, rfl, rfl, ivs, hb, fun i => ⟨fun hi => ?_, fun hi => hi.2⟩⟩
    exact ⟨hb.canonical.le_of_covers hi, hi⟩
  · have hpos := Nat.pos_of_ne_zero hzero
    have hmerged := hb.mergedLen_le
    have hlast := hb.last_eq
    rw [hb.merged_eq] at hmerged
    rw [if_neg hzero, hb.fctx_eq, dropFragment_toFrag hb.canonical hn hpos]
    refine ⟨_, rfl, rfl, rfl, dropFirst n ivs, ?_, fun i => covers_dropFirst hb.canonical hn hpos⟩
    refine ⟨⟨rfl, hb.data_length, ?_, hb.tail_le, ?_, ?_⟩, ?_, rfl,
      dropFirst_canonical hb.canonical hn hpos, ?_⟩
    · simp only
      omega
    · intro p hp
      have := dropFirst_bound hb.bound p hp
      simp only
      omega
    · intro i hi
      rw [covers_dropFirst hb.canonical hn hpos] at hi
      have hplace : b.headOffset + n + (i - (h + n)) = b.headOffset + (i - h) := by omega
      simp only [hplace]
      exact hb.bytes i hi.2
    · rw [hb.headSeq_eq, seqAt_add]
    · rw [prefixLen_dropFirst hb.canonical hn hpos, hb.merged_eq]

/-- The first merged bytes are the next bytes of the stream. -/
theorem slice_merged (hb : RbInv S base h ivs b) {n : ℕ} (hn : n ≤ b.mergedLen) :
    slice b.data b.head n = some ((List.range n).map fun i => S (h + i)) := by
  have hmerged := hb.mergedLen_le
  have hlast := hb.toRbMem.lastLen_le
  have hprefix := hb.merged_eq
  obtain ⟨bytes, hbytes⟩ : ∃ bytes, slice b.data b.head n = some bytes := by
    refine ⟨_, slice_eq_some.mpr ⟨?_, rfl⟩⟩
    rw [hb.head_eq, hb.data_length]
    omega
  have hlen := slice_length hbytes
  rw [hbytes, Option.some.injEq]
  apply List.ext_getElem?
  intro i
  by_cases hi : i < n
  · rw [slice_getElem? hbytes hi, hb.head_eq]
    have hcov : Covers ivs (h + i) := covers_of_lt_prefixLen (Nat.le_add_right h i) (by omega)
    have hbyte := hb.bytes (h + i) hcov
    rw [Nat.add_sub_cancel_left] at hbyte
    rw [hbyte]
    simp [hi]
  · rw [List.getElem?_eq_none (by omega), List.getElem?_eq_none (by simp; omega)]

end

end MtcpStack
