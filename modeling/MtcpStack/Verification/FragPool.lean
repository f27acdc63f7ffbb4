import MtcpStack.Model.FragPool

/-! # Fragment descriptors and their allocators -/

namespace MtcpStack

/-! ## The buffers without their descriptors -/

@[simp] theorem FragDesc.frag_seq (d : FragDesc) : d.frag.seq = d.seq := rfl

@[simp] theorem FragDesc.frag_len (d : FragDesc) : d.frag.len = d.len := rfl

@[simp] theorem frag_mergeDescs (a b : FragDesc) :
    (mergeDescs a b).frag = mergeFragments a.frag b.frag := rfl

/-- The scan is the one of the receive buffer. -/
theorem descScan_ring (endSeq : U32) (rbm : RbManager) (passed : List FragDesc) (newCtx : FragDesc)
    (merged : Bool) (rest : List FragDesc) :
    let r := descScan endSeq rbm passed newCtx merged rest
    mergeScan endSeq (passed.map (·.frag)) newCtx.frag merged (rest.map (·.frag)) =
      ⟨r.passed.map (·.frag), r.newCtx.frag, r.merged, r.rest.map (·.frag)⟩ := by
  induction rest generalizing rbm passed newCtx merged with
  | nil => rfl
  | cons iter rest ih =>
    simp only [List.map_cons, mergeScan, descScan, FragDesc.frag_seq]
    by_cases hmerge : canMerge newCtx.frag iter.frag = true
    · rw [if_pos hmerge, if_pos hmerge, ← frag_mergeDescs]
      exact ih ..
    rw [if_neg hmerge, if_neg hmerge]
    by_cases hstop : (merged || getMaxSeq endSeq iter.seq == iter.seq) = true
    · rw [if_pos hstop]
      exact if_pos hstop
    · rw [if_neg hstop]
      refine (if_neg hstop).trans ?_
      have hpassed := ih rbm (passed ++ [iter]) newCtx merged
      rwa [List.map_append, List.map_singleton] at hpassed

theorem linkDesc_ring {rbm rbm' : RbManager} {fctx fctx' : List FragDesc} {newCtx : FragDesc}
    {curSeq : U32} {len : ℕ} (hlink : linkDesc rbm fctx newCtx curSeq len = some (rbm', fctx')) :
    linkFragment (fctx.map (·.frag)) curSeq len = some (fctx'.map (·.frag)) := by
  have hscan := descScan_ring (curSeq + BitVec.ofNat 32 len) rbm []
    { newCtx with seq := curSeq, len := len % 2 ^ 31 } false fctx
  simp only [linkDesc] at hlink
  generalize descScan (curSeq + BitVec.ofNat 32 len) rbm []
    { newCtx with seq := curSeq, len := len % 2 ^ 31 } false fctx = r at hlink hscan
  have hstart : FragDesc.frag { newCtx with seq := curSeq, len := len % 2 ^ 31 } =
      ⟨curSeq, len % 2 ^ 31⟩ := rfl
  rw [List.map_nil, hstart] at hscan
  simp only [linkFragment, hscan]
  by_cases hmerged : r.merged = true
  · rw [if_pos hmerged] at hlink ⊢
    cases hlink
    simp
  rw [if_neg hmerged] at hlink ⊢
  cases fctx with
  | nil =>
    cases hlink
    simp
  | cons first rest =>
    simp only [List.map_cons, FragDesc.frag_seq, List.getLast?_map] at hlink ⊢
    by_cases hfirst : getMinSeq curSeq first.seq = curSeq
    · rw [if_pos hfirst] at hlink ⊢
      cases hlink
      simp
    rw [if_neg hfirst] at hlink ⊢
    cases hlast : r.passed.getLast? with
    | none =>
      rw [hlast] at hlink
      cases hlink
    | some prev =>
      simp only [hlast, Option.map_some] at hlink ⊢
      split_ifs at hlink ⊢ with hprev
      cases hlink
      simp

theorem rbSlide_fctx (b : RingBuffer) (fctx : List FragmentCtx) (endAt : ℕ) :
    rbSlide { b with fctx } endAt = (rbSlide b endAt).map fun b => { b with fctx } := by
  simp only [rbSlide]
  split_ifs
  · cases Slice.slice b.data b.head b.lastLen with
    | none => rfl
    | some moved => simp [Option.map_map, Function.comp_def]
  · rfl

theorem rbStore_fctx (b : RingBuffer) (fctx : List FragmentCtx) (putx : ℕ) (payload : List U8) :
    rbStore { b with fctx } putx payload =
      (rbStore b putx payload).map fun b => { b with fctx } := by
  simp [rbStore, Option.map_map, Function.comp_def]

theorem fctx_rbMerged {b b' : RingBuffer} (h : rbMerged b = some b') : b'.fctx = b.fctx := by
  rw [rbMerged] at h
  split at h
  · cases h
  · split_ifs at h <;> cases h <;> rfl

/-- `RBPut` with descriptors does to the buffer what it does without them. -/
theorem rbPutDesc_ring {rbm rbm' : RbManager} {b b' : DescBuffer} {chunk : FragDesc}
    {payload : List U8} {curSeq : U32} {ret : ℤ}
    (hput : rbPutDesc rbm b chunk payload curSeq = some (rbm', b', ret)) :
    rbPut b.ring payload curSeq = some (b'.ring, ret) := by
  simp only [rbPutDesc] at hput
  rw [rbPut]
  by_cases hlen : payload.length = 0
  · rw [if_pos hlen] at hput ⊢
    cases hput
    rfl
  rw [if_neg hlen] at hput ⊢
  by_cases hmin : getMinSeq b.base.headSeq curSeq ≠ b.base.headSeq
  · rw [if_pos hmin] at hput
    cases hput
    exact if_pos hmin
  rw [if_neg hmin] at hput
  refine (if_neg hmin).trans ?_
  by_cases hsize : (b.base.size : ℤ) <
      (BitVec.ofNat 32 ((curSeq - b.base.headSeq).toNat + payload.length)).toInt
  · rw [if_pos hsize] at hput
    cases hput
    exact if_pos hsize
  rw [if_neg hsize] at hput
  refine (if_neg hsize).trans ?_
  simp only [Option.bind_eq_some_iff, Option.map_eq_some_iff] at hput
  obtain ⟨slid, hslide, stored, hstore, ⟨rbm₁, newCtx⟩, hallocate, ⟨rbm₂, fctx⟩, hlink, b₁, hmerged,
    heq⟩ := hput
  cases heq
  rw [DescBuffer.updateMerged, Option.map_eq_some_iff] at hmerged
  obtain ⟨base, hmerged, rfl⟩ := hmerged
  have hring : DescBuffer.ring ⟨base, fctx⟩ = base := by
    rw [DescBuffer.ring, ← show base.fctx = fctx.map (·.frag) from fctx_rbMerged hmerged]
  have hslide' := rbSlide_fctx b.base (b.fctx.map (·.frag))
    ((b.base.headOffset + (curSeq - b.base.headSeq).toNat + payload.length) % 2 ^ 32)
  have hstore' := rbStore_fctx slid (b.fctx.map (·.frag)) (curSeq - b.base.headSeq).toNat payload
  rw [hslide, Option.map_some] at hslide'
  rw [hstore, Option.map_some] at hstore'
  rw [hring]
  refine (congrArg (Option.bind · _) hslide').trans ?_
  refine (congrArg (Option.bind · _) hstore').trans ?_
  rw [Option.bind_some, linkDesc_ring hlink, Option.bind_some]
  exact congrArg (Option.map _) hmerged

/-- The second byte is merged into the fragment of the first. -/
theorem rbPutDesc_ring_byte :
    let b : DescBuffer :=
      ⟨{ rbInit [7, 0] 0 with tailOffset := 1, mergedLen := 1, cumLen := 1, lastLen := 1 },
        [⟨0, 0, 1, false⟩]⟩
    ∃ b', rbPut b.ring [8] 1 = some (b', 1) ∧ b'.fctx = [⟨0, 2⟩] := by
  intro b
  have hrun : (rbPutDesc (.create 1) b ⟨1, 0, 0, false⟩ [8] 1).map
      (fun r => (r.2.1.ring.fctx, r.2.2)) = some ([⟨0, 2⟩], 1) := by decide +kernel
  obtain ⟨⟨rbm, b', ret⟩, hput, heq⟩ := Option.map_eq_some_iff.mp hrun
  obtain ⟨hfctx, rfl⟩ := Prod.mk.inj heq
  exact ⟨b'.ring, rbPutDesc_ring hput, hfctx⟩

theorem dropDesc_ring {rbm rbm' : RbManager} {fctx fctx' : List FragDesc} {len : ℕ}
    {option : RemoveOption} (hdrop : dropDesc rbm fctx len option = some (rbm', fctx')) :
    dropFragment (fctx.map (·.frag)) len = some (fctx'.map (·.frag)) := by
  cases fctx with
  | nil => cases hdrop
  | cons first rest =>
    simp only [dropDesc] at hdrop
    by_cases heq : len = first.len
    · rw [if_pos heq] at hdrop
      cases hdrop
      exact if_pos heq
    rw [if_neg heq] at hdrop
    refine (if_neg heq).trans ?_
    by_cases hlt : len < first.len
    · rw [if_pos hlt] at hdrop
      cases hdrop
      exact if_pos hlt
    · rw [if_neg hlt] at hdrop
      cases hdrop

/-- `RBRemove` with descriptors does to the buffer what it does without them. -/
theorem rbRemoveDesc_ring {rbm rbm' : RbManager} {b b' : DescBuffer} {len n : ℕ}
    {option : RemoveOption} (hremove : rbRemoveDesc rbm b len option = some (rbm', b', n)) :
    rbRemove b.ring len = some (b'.ring, n) := by
  simp only [rbRemoveDesc] at hremove
  have hlen : b.ring.mergedLen = b.base.mergedLen := rfl
  rw [rbRemove, hlen]
  generalize (if b.base.mergedLen < len then b.base.mergedLen else len) = m at hremove ⊢
  by_cases hzero : m = 0
  · rw [if_pos hzero] at hremove ⊢
    cases hremove
    rfl
  rw [if_neg hzero] at hremove ⊢
  rw [Option.map_eq_some_iff] at hremove
  obtain ⟨⟨rbm₁, fctx⟩, hdrop, heq⟩ := hremove
  cases heq
  have hdrop' := dropDesc_ring hdrop
  exact congrArg (Option.map _) hdrop'

/-! ## Marks -/

/-- A descriptor is at hand: one of the queues or the pool is not empty. -/
def RbManager.hasSpare (rbm : RbManager) : Bool :=
  (streamDequeue rbm.freeFragq).2.isSome || (streamDequeue rbm.freeFragqInt).2.isSome ||
    !rbm.fragMp.isEmpty

/-- What the run has done so far: every release went to the pool, and no address comes from `calloc`
if there was a spare descriptor (`spared`) whenever one was needed. -/
structure RbManager.Marks (spared : Prop) (rbm : RbManager) : Prop where
  into_pool : ∀ r ∈ rbm.releases, r.into = .pool
  origin_heap : ∀ addr, rbm.origin addr = .heap → ¬ spared
  release_heap : ∀ r ∈ rbm.releases, r.origin = .heap → ¬ spared

namespace RbManager.Marks

variable {spared : Prop} {rbm rbm' : RbManager}

/-- A descriptor whose flag is clear goes to the pool. -/
theorem freeSingle (hm : rbm.Marks spared) {frag : FragDesc} (hflag : frag.isCalloc = false) :
    (rbm.freeFragmentContextSingle frag).Marks spared := by
  rw [freeFragmentContextSingle, hflag, if_neg Bool.false_ne_true, mpFreeChunk]
  refine ⟨fun r hr => ?_, hm.origin_heap, fun r hr horigin => ?_⟩
  · rcases List.mem_append.mp hr with hr | hr
    · exact hm.into_pool r hr
    · rw [List.mem_singleton.mp hr]
  · rcases List.mem_append.mp hr with hr | hr
    · exact hm.release_heap r hr horigin
    · rw [List.mem_singleton.mp hr] at horigin
      exact hm.origin_heap frag.addr horigin

theorem freeAll (hm : rbm.Marks spared) {fctx : List FragDesc}
    (hflags : ∀ d ∈ fctx, d.isCalloc = false) : (rbm.freeFragmentContext fctx).Marks spared := by
  induction fctx generalizing rbm with
  | nil => exact hm
  | cons d fctx ih =>
    rw [List.forall_mem_cons] at hflags
    exact ih (hm.freeSingle hflags.1) hflags.2

/-- A new address comes from the pool, or from `calloc` when the pool is empty. -/
theorem allocate (hm : rbm.Marks spared) (hpool : spared → rbm.fragMp ≠ []) (chunk : FragDesc) :
    (rbm.allocate chunk).1.Marks spared := by
  rw [RbManager.allocate]
  split
  case h_1 addr rest _ =>
    refine ⟨hm.into_pool, fun a ha => ?_, hm.release_heap⟩
    by_cases haddr : a = addr
    · subst haddr
      simp at ha
    · exact hm.origin_heap a (by simpa [haddr] using ha)
  case h_2 hempty =>
    have hnot : ¬ spared := fun h => hpool h hempty
    exact ⟨hm.into_pool, fun _ _ => hnot, fun _ _ _ => hnot⟩

/-- The element that `AllocateFragmentContext` returns has been cleared, its flag with it. -/
theorem allocateContext (hm : rbm.Marks spared) (hspare : spared → rbm.hasSpare = true)
    {chunk newCtx : FragDesc} (ha : rbm.allocateFragmentContext chunk = some (rbm', newCtx)) :
    rbm'.Marks spared ∧ newCtx.isCalloc = false := by
  rw [allocateFragmentContext] at ha
  split at ha
  case h_1 freeFragq frag hfirst =>
    obtain ⟨frag, -, heq⟩ := Option.map_eq_some_iff.mp ha
    cases heq
    exact ⟨⟨hm.into_pool, hm.origin_heap, hm.release_heap⟩, rfl⟩
  case h_2 hfirst =>
    split at ha
    case h_1 freeFragqInt frag hsecond =>
      obtain ⟨frag, -, heq⟩ := Option.map_eq_some_iff.mp ha
      cases heq
      exact ⟨⟨hm.into_pool, hm.origin_heap, hm.release_heap⟩, rfl⟩
    case h_2 hsecond =>
      cases ha
      refine ⟨hm.allocate (fun h => ?_) chunk, rfl⟩
      simpa [hasSpare, hfirst, hsecond] using hspare h

theorem recycle (hm : rbm.Marks spared) (option : RemoveOption) (frag : FragDesc) :
    (rbm.recycle option frag).Marks spared := by
  cases option <;> exact ⟨hm.into_pool, hm.origin_heap, hm.release_heap⟩

end RbManager.Marks

/-! ## Calls -/

/-- The payload is not empty and lies in the window. -/
def DescBuffer.stores (b : DescBuffer) (payload : List U8) (curSeq : U32) : Bool :=
  decide (payload.length ≠ 0 ∧ getMinSeq b.base.headSeq curSeq = b.base.headSeq ∧
    (BitVec.ofNat 32 ((curSeq - b.base.headSeq).toNat + payload.length)).toInt ≤ b.base.size)

/-- The flags of a fragment list are clear. -/
def Unflagged (fctx : List FragDesc) : Prop := ∀ d ∈ fctx, d.isCalloc = false

section Calls

variable {spared : Prop} {rbm rbm' : RbManager} {fctx fctx' : List FragDesc} {newCtx : FragDesc}
  {b b' : DescBuffer} {option : RemoveOption} {curSeq : U32}

theorem Unflagged.descScan (hm : rbm.Marks spared) {passed rest : List FragDesc}
    (hpassed : Unflagged passed) (hnew : newCtx.isCalloc = false) (hrest : Unflagged rest)
    (endSeq : U32) (merged : Bool) :
    let r := descScan endSeq rbm passed newCtx merged rest
    r.rbm.Marks spared ∧ Unflagged (r.passed ++ r.newCtx :: r.rest) := by
  induction rest generalizing rbm passed newCtx merged with
  | nil =>
    refine ⟨hm, ?_⟩
    exact List.forall_mem_append.mpr ⟨hpassed, List.forall_mem_cons.mpr ⟨hnew, hrest⟩⟩
  | cons iter rest ih =>
    have hiter := List.forall_mem_cons.mp hrest
    simp only [MtcpStack.descScan]
    split_ifs
    · have hmerged : (mergeDescs newCtx iter).isCalloc = false := hiter.1
      exact ih (hm.freeSingle hnew) hpassed hmerged hiter.2 true
    · refine ⟨hm, ?_⟩
      exact List.forall_mem_append.mpr ⟨hpassed, List.forall_mem_cons.mpr ⟨hnew, hrest⟩⟩
    · refine ih hm ?_ hnew hiter.2 merged
      exact List.forall_mem_append.mpr ⟨hpassed, by simpa using hiter.1⟩

theorem Unflagged.linkDesc (hf : Unflagged fctx) (hm : rbm.Marks spared)
    (hnew : newCtx.isCalloc = false) {len : ℕ}
    (hlink : linkDesc rbm fctx newCtx curSeq len = some (rbm', fctx')) :
    rbm'.Marks spared ∧ Unflagged fctx' := by
  have hsized : FragDesc.isCalloc { newCtx with seq := curSeq, len := len % 2 ^ 31 } = false := hnew
  have hnil : Unflagged [] := by simp [Unflagged]
  have hscan := hnil.descScan hm hsized hf (curSeq + BitVec.ofNat 32 len) false
  simp only [MtcpStack.linkDesc] at hlink
  generalize MtcpStack.descScan (curSeq + BitVec.ofNat 32 len) rbm []
    { newCtx with seq := curSeq, len := len % 2 ^ 31 } false fctx = r at hlink hscan
  have hctx : r.newCtx.isCalloc = false := hscan.2 _ (by simp)
  split_ifs at hlink
  · cases hlink
    exact hscan
  split at hlink
  · cases hlink
    exact ⟨hscan.1, by simpa [Unflagged] using hctx⟩
  split_ifs at hlink
  · cases hlink
    exact ⟨hscan.1, List.forall_mem_cons.mpr ⟨hctx, hf⟩⟩
  split at hlink
  · cases hlink
  split_ifs at hlink
  cases hlink
  exact hscan

theorem Unflagged.rbPut (hf : Unflagged b.fctx) (hm : rbm.Marks spared)
    {chunk : FragDesc} {payload : List U8} {ret : ℤ}
    (hspare : spared → b.stores payload curSeq = true → rbm.hasSpare = true)
    (hput : rbPutDesc rbm b chunk payload curSeq = some (rbm', b', ret)) :
    rbm'.Marks spared ∧ Unflagged b'.fctx := by
  simp only [rbPutDesc] at hput
  split_ifs at hput with hlen hbehind hsize
  · cases hput
    exact ⟨hm, hf⟩
  · cases hput
    exact ⟨hm, hf⟩
  · cases hput
    exact ⟨hm, hf⟩
  simp only [Option.bind_eq_some_iff, Option.map_eq_some_iff] at hput
  obtain ⟨-, -, stored, -, ⟨rbm₁, newCtx⟩, hallocate, ⟨rbm₂, fctx⟩, hlink, b₁, hmerged, heq⟩ := hput
  cases heq
  have hstores : b.stores payload curSeq = true :=
    decide_eq_true ⟨hlen, not_not.mp hbehind, Int.not_lt.mp hsize⟩
  obtain ⟨hm₁, hnew⟩ := hm.allocateContext (fun h => hspare h hstores) hallocate
  obtain ⟨base, -, rfl⟩ := Option.map_eq_some_iff.mp hmerged
  exact hf.linkDesc hm₁ hnew hlink

theorem Unflagged.dropDesc (hf : Unflagged fctx) (hm : rbm.Marks spared) {len : ℕ}
    (hdrop : dropDesc rbm fctx len option = some (rbm', fctx')) :
    rbm'.Marks spared ∧ Unflagged fctx' := by
  cases fctx with
  | nil => cases hdrop
  | cons first rest =>
    have hcons := List.forall_mem_cons.mp hf
    simp only [MtcpStack.dropDesc] at hdrop
    split_ifs at hdrop
    · cases hdrop
      exact ⟨hm.recycle option first, hcons.2⟩
    · cases hdrop
      exact ⟨hm, List.forall_mem_cons.mpr ⟨hcons.1, hcons.2⟩⟩

theorem Unflagged.rbRemove (hf : Unflagged b.fctx) (hm : rbm.Marks spared) {len n : ℕ}
    (hremove : rbRemoveDesc rbm b len option = some (rbm', b', n)) :
    rbm'.Marks spared ∧ Unflagged b'.fctx := by
  simp only [rbRemoveDesc] at hremove
  generalize (if b.base.mergedLen < len then b.base.mergedLen else len) = m at hremove
  split_ifs at hremove
  · cases hremove
    exact ⟨hm, hf⟩
  · obtain ⟨⟨rbm₁, fctx⟩, hdrop, heq⟩ := Option.map_eq_some_iff.mp hremove
    cases heq
    exact hf.dropDesc hm hdrop

end Calls

/-! ## Runs -/

namespace FragHost

variable {spared : Prop} {ok : FragHost → RbCall → Bool} {cnum : ℕ} {h h' : FragHost}

/-- `RBPut` stores a payload only when a descriptor is at hand. -/
def spares (h : FragHost) : RbCall → Bool
  | .put i _ payload curSeq =>
    h.rbm.hasSpare || !(h.buffs i).any fun b => b.stores payload curSeq
  | _ => true

/-- Every flag is clear and every release so far went to the pool. -/
structure Clear (spared : Prop) (h : FragHost) : Prop where
  marks : h.rbm.Marks spared
  flags : ∀ i b, h.buffs i = some b → Unflagged b.fctx

theorem Clear.setBuff (hc : h.Clear spared) {rbm : RbManager} (hm : rbm.Marks spared) (i : ℕ)
    {b : Option DescBuffer} (hb : ∀ b' ∈ b, Unflagged b'.fctx) :
    (h.setBuff rbm i b).Clear spared := by
  refine ⟨hm, fun k b' hk => ?_⟩
  by_cases hki : k = i
  · subst hki
    have hself : (h.setBuff rbm k b).buffs k = b := Function.update_self ..
    exact hb b' (hself.symm.trans hk)
  · exact hc.flags k b' ((Function.update_of_ne hki ..).symm.trans hk)

theorem Clear.apply (hc : h.Clear spared) {c : RbCall} (hspare : spared → h.spares c = true)
    (hcall : h.apply c = some h') :
    h'.Clear spared := by
  cases c with
  | init i block initSeq =>
    rw [FragHost.apply] at hcall
    split at hcall
    · cases hcall
      refine hc.setBuff hc.marks i fun b hb => ?_
      cases hb
      exact fun d hd => absurd hd List.not_mem_nil
    · cases hcall
  | put i chunk payload curSeq =>
    obtain ⟨b, hb, hmap⟩ := Option.bind_eq_some_iff.mp hcall
    obtain ⟨⟨rbm, b', ret⟩, hput, rfl⟩ := Option.map_eq_some_iff.mp hmap
    have hput' : spared → b.stores payload curSeq = true → h.rbm.hasSpare = true :=
      fun hs hstores => by simpa [spares, hb, hstores] using hspare hs
    obtain ⟨hm, hf⟩ := (hc.flags i b hb).rbPut hc.marks hput' hput
    refine hc.setBuff hm i fun b₁ hb₁ => ?_
    cases hb₁
    exact hf
  | remove i len option =>
    obtain ⟨b, hb, hmap⟩ := Option.bind_eq_some_iff.mp hcall
    obtain ⟨⟨rbm, b', n⟩, hremove, rfl⟩ := Option.map_eq_some_iff.mp hmap
    obtain ⟨hm, hf⟩ := (hc.flags i b hb).rbRemove hc.marks hremove
    refine hc.setBuff hm i fun b₁ hb₁ => ?_
    cases hb₁
    exact hf
  | free i =>
    obtain ⟨b, hb, rfl⟩ := Option.map_eq_some_iff.mp hcall
    exact hc.setBuff (hc.marks.freeAll (hc.flags i b hb)) i nofun

theorem Reached.clear (hreach : Reached ok cnum h) (hok : spared → ok = spares) :
    h.Clear spared := by
  induction hreach with
  | start => exact ⟨⟨nofun, nofun, nofun⟩, nofun⟩
  | call _ c hc hcall ih => exact ih.apply (fun h => hok h ▸ hc) hcall

/-- Every descriptor that is released goes to the pool: the flag that should tell where it came from
is cleared when it is handed out. So those from the pool go back to it in every run, and in a run
in which `RBPut` stores only while the pool or one of the queues is not empty, each descriptor goes
back to the allocator it came from. -/
theorem fragment_release {ok : FragHost → RbCall → Bool} {cnum : ℕ} {h : FragHost}
    (hreach : Reached ok cnum h) :
    (∀ r ∈ h.rbm.releases, r.origin = .pool → r.into = .pool) ∧
      (ok = spares → ∀ r ∈ h.rbm.releases, r.into = r.origin) := by
  have hm := (hreach.clear id).marks
  refine ⟨fun r hr _ => hm.into_pool r hr, fun hok r hr => ?_⟩
  cases horigin : r.origin with
  | pool => exact hm.into_pool r hr
  | heap => exact absurd hok (hm.release_heap r hr horigin)

/-- A run of calls that all satisfy `ok`. -/
def run (ok : FragHost → RbCall → Bool) (h : FragHost) (calls : List RbCall) : Option FragHost :=
  calls.foldlM (fun h c => if ok h c then h.apply c else none) h

theorem Reached.run (hreach : Reached ok cnum h) {calls : List RbCall}
    (hrun : h.run ok calls = some h') : Reached ok cnum h' := by
  induction calls generalizing h with
  | nil =>
    cases hrun
    exact hreach
  | cons c calls ih =>
    obtain ⟨h₁, hcall, hrest⟩ := Option.bind_eq_some_iff.mp hrun
    simp only at hcall
    split_ifs at hcall with hok
    exact ih (.call hreach c hok hcall) hrest

/-- Two segments with a gap between them arrive, then the buffer is freed. -/
def gapCalls : List RbCall :=
  [.init 0 (List.replicate 8 0) 0, .put 0 ⟨0, 0, 0, false⟩ [1] 0, .put 0 ⟨0, 0, 0, false⟩ [2] 4,
    .free 0]

/-- With a pool of one descriptor the second one comes from `calloc`, and `RBFree` gives both to the
pool. -/
theorem heap_fragment_to_pool :
    ∃ h, Reached (fun _ _ => true) 1 h ∧
      h.rbm.releases = [⟨0, .pool, .pool⟩, ⟨1, .heap, .pool⟩] := by
  have hrun : (run (fun _ _ => true) ⟨.create 1, fun _ => none⟩ gapCalls).map (·.rbm.releases) =
      some [⟨0, .pool, .pool⟩, ⟨1, .heap, .pool⟩] := by decide +kernel
  obtain ⟨h, hh, hreleases⟩ := Option.map_eq_some_iff.mp hrun
  exact ⟨h, .run .start hh, hreleases⟩

theorem fragment_release_two :
    ∃ h : FragHost, h.rbm.releases.length = 2 ∧ ∀ r ∈ h.rbm.releases, r.into = r.origin := by
  have hrun : (run spares ⟨.create 2, fun _ => none⟩ gapCalls).map (·.rbm.releases.length) =
      some 2 := by decide +kernel
  obtain ⟨h, hh, hlength⟩ := Option.map_eq_some_iff.mp hrun
  exact ⟨h, hlength, (fragment_release (.run .start hh)).2 rfl⟩

end FragHost

end MtcpStack
