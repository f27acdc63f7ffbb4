import MtcpStack.Library.Slice
import MtcpStack.Model.Basic

/-! # The receive buffer (`tcp_ring_buffer.c`)

The buffer keeps the bytes from `headSeq` on, at `head` in its memory block, and a list of
fragments that says which of them have arrived. A result of `none` is an access the source
makes outside the block, a null dereference or a failed assertion. -/

namespace MtcpStack

open Slice

/-- `struct fragment_ctx`; the length is a 31-bit field. -/
structure FragmentCtx where
  seq : U32
  len : ℕ
  deriving DecidableEq, Repr

/-- `struct tcp_ring_buffer`; `head` is the pointer, as an offset into `data`. -/
structure RingBuffer where
  data : List U8
  head : ℕ
  headOffset : ℕ
  tailOffset : ℕ
  mergedLen : ℕ
  cumLen : BitVec 64
  lastLen : ℕ
  size : ℕ
  headSeq : U32
  initSeq : U32
  fctx : List FragmentCtx
  deriving DecidableEq, Repr

/-- `RBInit` on a memory block; the block keeps whatever bytes it had. -/
def rbInit (chunk : List U8) (initSeq : U32) : RingBuffer where
  data := chunk
  head := 0
  headOffset := 0
  tailOffset := 0
  mergedLen := 0
  cumLen := 0
  lastLen := 0
  size := chunk.length
  headSeq := initSeq
  initSeq := initSeq
  fctx := []

/-! ## Fragments -/

/-- `MAXSEQ / 2`. -/
def halfMaxSeq : ℕ := 2147483647

def getMinSeq (a b : U32) : U32 :=
  if a = b then a
  else if a.toNat < b.toNat then
    if (b - a).toNat ≤ halfMaxSeq then a else b
  else if (a - b).toNat ≤ halfMaxSeq then b else a

def getMaxSeq (a b : U32) : U32 :=
  if a = b then a
  else if a.toNat < b.toNat then
    if (b - a).toNat ≤ halfMaxSeq then b else a
  else if (a - b).toNat ≤ halfMaxSeq then a else b

/-- The sequence number after the last byte of a fragment. -/
def FragmentCtx.endSeq (f : FragmentCtx) : U32 := f.seq + BitVec.ofNat 32 f.len

def canMerge (a b : FragmentCtx) : Bool :=
  let aEnd := a.endSeq + 1
  let bEnd := b.endSeq + 1
  !(getMinSeq aEnd b.seq == aEnd || getMinSeq bEnd a.seq == bEnd)

/-- `MergeFragments`: the second fragment, grown to hold the first. -/
def mergeFragments (a b : FragmentCtx) : FragmentCtx :=
  let minSeq := getMinSeq a.seq b.seq
  let maxSeq := getMaxSeq a.endSeq b.endSeq
  { seq := minSeq, len := (maxSeq - minSeq).toNat % 2 ^ 31 }

/-- Where the loop of `RBPut` over the fragment list stops: the fragments it has stepped over,
the new fragment with all it has absorbed, whether it has absorbed any, and the rest. -/
structure MergeScan where
  passed : List FragmentCtx
  newCtx : FragmentCtx
  merged : Bool
  rest : List FragmentCtx
  deriving DecidableEq, Repr

/-- The loop of `RBPut`; `endSeq` is `cur_seq + len` of the segment. -/
def mergeScan (endSeq : U32) (passed : List FragmentCtx) (newCtx : FragmentCtx) (merged : Bool) :
    List FragmentCtx → MergeScan
  | [] => ⟨passed, newCtx, merged, []⟩
  | iter :: rest =>
    if canMerge newCtx iter then
      -- the element that held the new fragment so far is unlinked, `iter` takes its place
      mergeScan endSeq passed (mergeFragments newCtx iter) true rest
    else if merged || getMaxSeq endSeq iter.seq == iter.seq then
      ⟨passed, newCtx, merged, iter :: rest⟩
    else
      mergeScan endSeq (passed ++ [iter]) newCtx merged rest

/-- The fragment list after the segment `[curSeq, curSeq + len)` has been linked in. -/
def linkFragment (fctx : List FragmentCtx) (curSeq : U32) (len : ℕ) :
    Option (List FragmentCtx) :=
  let endSeq := curSeq + BitVec.ofNat 32 len
  let r := mergeScan endSeq [] ⟨curSeq, len % 2 ^ 31⟩ false fctx
  if r.merged then some (r.passed ++ r.newCtx :: r.rest)
  else
    match fctx with
    | [] => some [r.newCtx]
    | first :: _ =>
      if getMinSeq curSeq first.seq = curSeq then some (r.newCtx :: fctx)
      else
        match r.passed.getLast? with
        | none => none
        | some prev =>
          if getMinSeq curSeq prev.endSeq = prev.endSeq then
            some (r.passed ++ r.newCtx :: r.rest)
          else none

/-! ## Putting and removing -/

/-- The data is moved to the front of the block when the segment would reach its end. -/
def rbSlide (b : RingBuffer) (endAt : ℕ) : Option RingBuffer :=
  if b.size ≤ endAt then
    (slice b.data b.head b.lastLen).bind fun moved =>
      (blit b.data 0 moved).map fun data =>
        { b with data, tailOffset := b.tailOffset - b.headOffset, headOffset := 0, head := 0 }
  else some b

/-- The segment is copied to its place behind the head. -/
def rbStore (b : RingBuffer) (putx : ℕ) (payload : List U8) : Option RingBuffer :=
  (blit b.data (b.head + putx) payload).map fun data =>
    let endAt := (b.headOffset + putx + payload.length) % 2 ^ 32
    let tailOffset := if b.tailOffset < endAt then endAt else b.tailOffset
    { b with data, tailOffset, lastLen := tailOffset - b.headOffset }

/-- `merged_len` follows the first fragment once it starts at the head. -/
def rbMerged (b : RingBuffer) : Option RingBuffer :=
  match b.fctx with
  | [] => none
  | first :: _ =>
    if b.headSeq = first.seq then
      some { b with
        cumLen := b.cumLen + (BitVec.ofNat 64 first.len - BitVec.ofNat 64 b.mergedLen)
        mergedLen := first.len }
    else some b

def rbPut (b : RingBuffer) (payload : List U8) (curSeq : U32) : Option (RingBuffer × ℤ) :=
  let len := payload.length
  if len = 0 then some (b, 0)
  else if getMinSeq b.headSeq curSeq ≠ b.headSeq then some (b, 0)
  else
    let putx := (curSeq - b.headSeq).toNat
    let endOff := (BitVec.ofNat 32 (putx + len)).toInt
    if (b.size : ℤ) < endOff then some (b, -2)
    else
      (rbSlide b ((b.headOffset + putx + len) % 2 ^ 32)).bind fun b =>
        (rbStore b putx payload).bind fun b =>
          (linkFragment b.fctx curSeq len).bind fun fctx =>
            (rbMerged { b with fctx }).map fun b => (b, (len : ℤ))

/-- The fragment list after `len` bytes have been taken from its first fragment. -/
def dropFragment (fctx : List FragmentCtx) (len : ℕ) : Option (List FragmentCtx) :=
  match fctx with
  | [] => none
  | first :: rest =>
    if len = first.len then some rest
    else if len < first.len then
      some (⟨first.seq + BitVec.ofNat 32 len, first.len - len⟩ :: rest)
    else none

def rbRemove (b : RingBuffer) (len : ℕ) : Option (RingBuffer × ℕ) :=
  let len := if b.mergedLen < len then b.mergedLen else len
  if len = 0 then some (b, 0)
  else
    (dropFragment b.fctx len).map fun fctx =>
      ({ b with
          headOffset := b.headOffset + len
          head := b.headOffset + len
          headSeq := b.headSeq + BitVec.ofNat 32 len
          mergedLen := b.mergedLen - len
          lastLen := b.lastLen - len
          fctx }, len)

end MtcpStack
