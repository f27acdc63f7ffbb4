import MtcpStack.Library.WordStore
import MtcpStack.Model.Basic

/-! # The chunk pool (`memory_mgt.c`, build without DPDK)

A pool is a block of memory cut into chunks of one size. The free chunks form a list of runs: the
first chunk of a run has in its first bytes how many free chunks follow each other from there on,
and where the next run is. An address of `0` is `NULL`; a result of `none` is a failed assertion. -/

namespace MtcpStack

open WordStore

/-- `struct mem_pool`, with the memory. -/
structure MemPool where
  startPtr : ℕ
  freePtr : ℕ
  freeChunks : ℤ
  totalChunks : ℤ
  chunkSize : ℤ
  mem : ℕ → U8

/-- `sizeof(mem_chunk)`: a counter of 4 bytes, 4 that are not used, and a pointer. -/
def sizeofMemChunk : ℕ := 16

/-- `p->mc_free_chunks`. -/
def mcFreeChunks (mem : ℕ → U8) (p : ℕ) : ℤ := (BitVec.ofNat 32 (readWord mem p 4)).toInt

/-- `p->mc_next`. -/
def mcNext (mem : ℕ → U8) (p : ℕ) : ℕ := readWord mem (p + 8) 8

def setMcFreeChunks (mem : ℕ → U8) (p : ℕ) (n : ℤ) : ℕ → U8 :=
  writeWord mem p 4 (BitVec.ofInt 32 n).toNat

def setMcNext (mem : ℕ → U8) (p next : ℕ) : ℕ → U8 := writeWord mem (p + 8) 8 next

/-- Whether `posix_memalign` can answer with the block at this address: it is not `NULL`, the block
is not larger than any object can be, and it ends inside the address space. -/
def memalignGives (block : ℕ) (size : BitVec 64) : Prop :=
  block ≠ 0 ∧ size.toNat < 2 ^ 63 ∧ block + size.toNat ≤ 2 ^ 64

instance (block : ℕ) (size : BitVec 64) : Decidable (memalignGives block size) :=
  inferInstanceAs (Decidable (_ ∧ _))

/-- `MPCreate`. The sizes are compared, added, divided and multiplied as `size_t`, and the number of
chunks is cut to an `int`. `block` is what `posix_memalign` answers. -/
def mpCreate (chunkSize : U32) (totalSize : BitVec 64) (block : ℕ) (mem : ℕ → U8) :
    Option MemPool :=
  let size : BitVec 64 := chunkSize.signExtend 64
  if size.toNat < sizeofMemChunk then none
  else if chunkSize.toInt.tmod 4 ≠ 0 then none
  else
    let freeChunks : U32 := ((totalSize + (chunkSize - 1).signExtend 64) / size).setWidth 32
    if memalignGives block (size * freeChunks.signExtend 64) then
      some
        { startPtr := block
          freePtr := block
          freeChunks := freeChunks.toInt
          totalChunks := freeChunks.toInt
          chunkSize := chunkSize.toInt
          mem := setMcNext (setMcFreeChunks mem block freeChunks.toInt) block 0 }
    else none

namespace MemPool

variable (mp : MemPool)

/-- `MPAllocateChunk`; the second component is the pointer it returns. -/
def mpAllocateChunk : Option (MemPool × Option ℕ) :=
  let p := mp.freePtr
  if mp.freeChunks = 0 then some (mp, none)
  else if mcFreeChunks mp.mem p ≤ 0 then none
  else
    let mem := setMcFreeChunks mp.mem p (mcFreeChunks mp.mem p - 1)
    if mcFreeChunks mem p ≠ 0 then
      -- the run goes on in the next chunk
      let q := ((p : ℤ) + mp.chunkSize).toNat
      let mem' := setMcFreeChunks mem q (mcFreeChunks mem p)
      some ({ mp with
        freePtr := q
        freeChunks := mp.freeChunks - 1
        mem := setMcNext mem' q (mcNext mem' p) }, some p)
    else
      some ({ mp with freePtr := mcNext mem p, freeChunks := mp.freeChunks - 1, mem }, some p)

/-- `MPFreeChunk`. -/
def mpFreeChunk (p : ℕ) : Option MemPool :=
  if ((p : ℤ) - mp.startPtr).tmod mp.chunkSize ≠ 0 then none
  else
    some { mp with
      freePtr := p
      freeChunks := mp.freeChunks + 1
      mem := setMcNext (setMcFreeChunks mp.mem p 1) p mp.freePtr }

/-- A client writes a byte. -/
def clientWrite (a : ℕ) (v : U8) : MemPool := { mp with mem := Function.update mp.mem a v }

end MemPool

/-- The runs of a pool: the chunks that are live are beside it. Only live chunks are freed, and
clients write inside live chunks. -/
inductive PoolReached (chunkSize : U32) (totalSize : BitVec 64) : MemPool → List ℕ → Prop
  | create {block : ℕ} {mem : ℕ → U8} {mp : MemPool}
      (hmp : mpCreate chunkSize totalSize block mem = some mp) :
      PoolReached chunkSize totalSize mp []
  | allocate {mp mp' : MemPool} {live : List ℕ} {p : ℕ}
      (hreach : PoolReached chunkSize totalSize mp live)
      (ha : mp.mpAllocateChunk = some (mp', some p)) :
      PoolReached chunkSize totalSize mp' (p :: live)
  | refuse {mp mp' : MemPool} {live : List ℕ} (hreach : PoolReached chunkSize totalSize mp live)
      (ha : mp.mpAllocateChunk = some (mp', none)) : PoolReached chunkSize totalSize mp' live
  | free {mp mp' : MemPool} {live : List ℕ} {p : ℕ}
      (hreach : PoolReached chunkSize totalSize mp live) (hp : p ∈ live)
      (hf : mp.mpFreeChunk p = some mp') : PoolReached chunkSize totalSize mp' (live.erase p)
  | write {mp : MemPool} {live : List ℕ} {p a : ℕ}
      (hreach : PoolReached chunkSize totalSize mp live) (hp : p ∈ live) (hlo : p ≤ a)
      (hhi : (a : ℤ) < p + mp.chunkSize) (v : U8) :
      PoolReached chunkSize totalSize (mp.clientWrite a v) live

end MtcpStack
