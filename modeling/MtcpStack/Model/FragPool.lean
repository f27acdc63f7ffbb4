import MtcpStack.Model.RingBuffer
import MtcpStack.Model.StreamQueue

/-! # The descriptors of the receive buffers (`tcp_ring_buffer.c`, `tcp_rb_frag_queue.c`)

The receive buffers of a core take the elements of their fragment lists from a pool, from two
queues of elements that were used before, or from `calloc`. Here an element has an address and the
flag `is_calloc`. Beside the state of the source the model keeps which allocator handed out an
address last, and every call that gives one back. -/

namespace MtcpStack

/-- `struct fragment_ctx` with its address. -/
structure FragDesc where
  addr : ℕ
  seq : U32
  len : ℕ
  isCalloc : Bool
  deriving DecidableEq, Repr

def FragDesc.frag (d : FragDesc) : FragmentCtx := ⟨d.seq, d.len⟩

/-- `MPAllocateChunk` with `MPFreeChunk`, or `calloc` with `free`. -/
inductive FragAllocator where
  | pool
  | heap
  deriving DecidableEq, Repr

/-- A call of `MPFreeChunk` or `free`: the address, the allocator that had handed it out, and the
one it is given to. -/
structure FragRelease where
  addr : ℕ
  origin : FragAllocator
  into : FragAllocator
  deriving DecidableEq, Repr

/-- `struct rb_manager`, as far as the descriptors are concerned: the free chunks of `frag_mp`, as
the stack that the chunk pool is, and the two queues. `nextAddr` is the address of the next block
from `calloc`. -/
structure RbManager where
  fragMp : List ℕ
  freeFragq : StreamQueue FragDesc
  freeFragqInt : StreamQueue FragDesc
  nextAddr : ℕ
  origin : ℕ → FragAllocator
  releases : List FragRelease

namespace RbManager

/-- `RBManagerCreate` with `cnum` descriptors. -/
def create (cnum : ℕ) : RbManager where
  fragMp := List.range cnum
  freeFragq := createStreamQueue cnum
  freeFragqInt := createStreamQueue cnum
  nextAddr := cnum
  origin _ := .pool
  releases := []

variable (rbm : RbManager)

/-- `MPFreeChunk`. -/
def mpFreeChunk (addr : ℕ) : RbManager :=
  { rbm with
    fragMp := addr :: rbm.fragMp
    releases := rbm.releases ++ [⟨addr, rbm.origin addr, .pool⟩] }

/-- `free`. -/
def free (addr : ℕ) : RbManager :=
  { rbm with releases := rbm.releases ++ [⟨addr, rbm.origin addr, .heap⟩] }

/-- `FreeFragmentContextSingle`. -/
def freeFragmentContextSingle (frag : FragDesc) : RbManager :=
  if frag.isCalloc then rbm.free frag.addr else rbm.mpFreeChunk frag.addr

/-- `FreeFragmentContext`. -/
def freeFragmentContext (fctx : List FragDesc) : RbManager :=
  fctx.foldl freeFragmentContextSingle rbm

/-- `memset(frag, 0, sizeof(*frag))`. -/
def clear (frag : FragDesc) : FragDesc := { frag with seq := 0, len := 0, isCalloc := false }

/-- `MPAllocateChunk`, or `calloc` when the pool is empty. A chunk of the pool has whatever its
memory holds; `calloc` gives one that is marked. -/
def allocate (chunk : FragDesc) : RbManager × FragDesc :=
  match rbm.fragMp with
  | addr :: rest =>
    ({ rbm with fragMp := rest, origin := Function.update rbm.origin addr .pool },
      { chunk with addr })
  | [] =>
    ({ rbm with
        nextAddr := rbm.nextAddr + 1
        origin := Function.update rbm.origin rbm.nextAddr .heap },
      { addr := rbm.nextAddr, seq := 0, len := 0, isCalloc := true })

/-- `AllocateFragmentContext`; an assertion fails when a queue has an empty slot. -/
def allocateFragmentContext (chunk : FragDesc) : Option (RbManager × FragDesc) :=
  match streamDequeue rbm.freeFragq with
  | (freeFragq, some frag) => frag.map fun frag => ({ rbm with freeFragq }, clear frag)
  | (_, none) =>
    match streamDequeue rbm.freeFragqInt with
    | (freeFragqInt, some frag) => frag.map fun frag => ({ rbm with freeFragqInt }, clear frag)
    | (_, none) =>
      let r := rbm.allocate chunk
      some (r.1, clear r.2)

end RbManager

/-! ## Fragment lists -/

/-- Where the loop of `RBPut` stops, as in `MergeScan`, with the manager. -/
structure DescScan where
  rbm : RbManager
  passed : List FragDesc
  newCtx : FragDesc
  merged : Bool
  rest : List FragDesc

/-- `MergeFragments`: the second element, grown to hold the first. -/
def mergeDescs (a b : FragDesc) : FragDesc :=
  let merged := mergeFragments a.frag b.frag
  { b with seq := merged.seq, len := merged.len }

/-- The loop of `RBPut`; the element that is merged into the next one is given back. -/
def descScan (endSeq : U32) (rbm : RbManager) (passed : List FragDesc) (newCtx : FragDesc)
    (merged : Bool) : List FragDesc → DescScan
  | [] => ⟨rbm, passed, newCtx, merged, []⟩
  | iter :: rest =>
    if canMerge newCtx.frag iter.frag then
      descScan endSeq (rbm.freeFragmentContextSingle newCtx) passed (mergeDescs newCtx iter) true
        rest
    else if merged || getMaxSeq endSeq iter.seq == iter.seq then
      ⟨rbm, passed, newCtx, merged, iter :: rest⟩
    else
      descScan endSeq rbm (passed ++ [iter]) newCtx merged rest

/-- The list after the new element has been linked in. -/
def linkDesc (rbm : RbManager) (fctx : List FragDesc) (newCtx : FragDesc) (curSeq : U32) (len : ℕ) :
    Option (RbManager × List FragDesc) :=
  let endSeq := curSeq + BitVec.ofNat 32 len
  let r := descScan endSeq rbm [] { newCtx with seq := curSeq, len := len % 2 ^ 31 } false fctx
  if r.merged then some (r.rbm, r.passed ++ r.newCtx :: r.rest)
  else
    match fctx with
    | [] => some (r.rbm, [r.newCtx])
    | first :: _ =>
      if getMinSeq curSeq first.seq = curSeq then some (r.rbm, r.newCtx :: fctx)
      else
        match r.passed.getLast? with
        | none => none
        | some prev =>
          if getMinSeq curSeq prev.frag.endSeq = prev.frag.endSeq then
            some (r.rbm, r.passed ++ r.newCtx :: r.rest)
          else none

/-! ## Buffers -/

/-- `struct tcp_ring_buffer`; the fragments are those of `fctx`, and `base` has the rest. -/
structure DescBuffer where
  base : RingBuffer
  fctx : List FragDesc
  deriving DecidableEq, Repr

def DescBuffer.ring (b : DescBuffer) : RingBuffer := { b.base with fctx := b.fctx.map (·.frag) }

/-- The last step of `RBPut`. -/
def DescBuffer.updateMerged (b : DescBuffer) : Option DescBuffer :=
  (rbMerged b.ring).map fun base => { b with base }

/-- `RBPut`; `chunk` is what the memory of a chunk from the pool holds. -/
def rbPutDesc (rbm : RbManager) (b : DescBuffer) (chunk : FragDesc) (payload : List U8)
    (curSeq : U32) : Option (RbManager × DescBuffer × ℤ) :=
  let len := payload.length
  if len = 0 then some (rbm, b, 0)
  else if getMinSeq b.base.headSeq curSeq ≠ b.base.headSeq then some (rbm, b, 0)
  else
    let putx := (curSeq - b.base.headSeq).toNat
    let endOff := (BitVec.ofNat 32 (putx + len)).toInt
    if (b.base.size : ℤ) < endOff then some (rbm, b, -2)
    else
      (rbSlide b.base ((b.base.headOffset + putx + len) % 2 ^ 32)).bind fun base =>
        (rbStore base putx payload).bind fun base =>
          (rbm.allocateFragmentContext chunk).bind fun (rbm, newCtx) =>
            (linkDesc rbm b.fctx newCtx curSeq len).bind fun (rbm, fctx) =>
              (DescBuffer.updateMerged ⟨base, fctx⟩).map fun b => (rbm, b, (len : ℤ))

/-- Who calls `RBRemove`: `AT_APP` or `AT_MTCP`. -/
inductive RemoveOption where
  | atApp
  | atMtcp
  deriving DecidableEq, Repr

/-- `RBFragEnqueue` of a removed element; the answer is not looked at. -/
def RbManager.recycle (rbm : RbManager) (option : RemoveOption) (frag : FragDesc) : RbManager :=
  match option with
  | .atApp => { rbm with freeFragq := (streamEnqueue rbm.freeFragq frag).1 }
  | .atMtcp => { rbm with freeFragqInt := (streamEnqueue rbm.freeFragqInt frag).1 }

/-- The list after `len` bytes have been taken from its first fragment. -/
def dropDesc (rbm : RbManager) (fctx : List FragDesc) (len : ℕ) (option : RemoveOption) :
    Option (RbManager × List FragDesc) :=
  match fctx with
  | [] => none
  | first :: rest =>
    if len = first.len then some (rbm.recycle option first, rest)
    else if len < first.len then
      let first := { first with seq := first.seq + BitVec.ofNat 32 len, len := first.len - len }
      some (rbm, first :: rest)
    else none

/-- `RBRemove`. -/
def rbRemoveDesc (rbm : RbManager) (b : DescBuffer) (len : ℕ) (option : RemoveOption) :
    Option (RbManager × DescBuffer × ℕ) :=
  let len := if b.base.mergedLen < len then b.base.mergedLen else len
  if len = 0 then some (rbm, b, 0)
  else
    (dropDesc rbm b.fctx len option).map fun (rbm, fctx) =>
      (rbm,
        { base := { b.base with
            headOffset := b.base.headOffset + len
            head := b.base.headOffset + len
            headSeq := b.base.headSeq + BitVec.ofNat 32 len
            mergedLen := b.base.mergedLen - len
            lastLen := b.base.lastLen - len }
          fctx },
        len)

/-! ## Runs -/

/-- The manager of a core and its receive buffers, by number. -/
structure FragHost where
  rbm : RbManager
  buffs : ℕ → Option DescBuffer

inductive RbCall where
  | init (i : ℕ) (block : List U8) (initSeq : U32)
  | put (i : ℕ) (chunk : FragDesc) (payload : List U8) (curSeq : U32)
  | remove (i : ℕ) (len : ℕ) (option : RemoveOption)
  | free (i : ℕ)

namespace FragHost

variable (h : FragHost)

def setBuff (rbm : RbManager) (i : ℕ) (b : Option DescBuffer) : FragHost :=
  { rbm, buffs := Function.update h.buffs i b }

/-- A call on a buffer that exists, or `RBInit` of one that does not. -/
def apply : RbCall → Option FragHost
  | .init i block initSeq =>
    match h.buffs i with
    | none => some (h.setBuff h.rbm i (some ⟨rbInit block initSeq, []⟩))
    | some _ => none
  | .put i chunk payload curSeq =>
    (h.buffs i).bind fun b =>
      (rbPutDesc h.rbm b chunk payload curSeq).map fun r => h.setBuff r.1 i (some r.2.1)
  | .remove i len option =>
    (h.buffs i).bind fun b =>
      (rbRemoveDesc h.rbm b len option).map fun r => h.setBuff r.1 i (some r.2.1)
  | .free i =>
    (h.buffs i).map fun b => h.setBuff (h.rbm.freeFragmentContext b.fctx) i none

/-- The states of the runs with `cnum` descriptors in the pool whose calls all satisfy `ok`. -/
inductive Reached (ok : FragHost → RbCall → Bool) (cnum : ℕ) : FragHost → Prop
  | start : Reached ok cnum ⟨.create cnum, fun _ => none⟩
  | call {h h' : FragHost} (hreach : Reached ok cnum h) (c : RbCall) (hok : ok h c = true)
      (hc : h.apply c = some h') : Reached ok cnum h'

end FragHost

end MtcpStack
