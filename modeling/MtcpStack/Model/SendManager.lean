import MtcpStack.Library.BoundedQueue
import MtcpStack.Model.SendBuffer
import MtcpStack.Model.StreamQueue

/-! # The send buffers of a core (`tcp_send_buffer.c`)

`SBInit` takes a buffer from the queue of those that were freed, or allocates one; `SBFree` puts it
back. A buffer in the queue keeps its memory block. -/

namespace MtcpStack

/-- `struct sb_manager`. The pool is in the calls: they are told what `MPAllocateChunk` answers. -/
structure SbManager where
  chunkSize : ℕ
  curNum : U32
  cnum : ℕ
  freeq : StreamQueue SendBuffer

/-- The bytes of a block: `MPCreate` takes the chunk size as an `int`, and `size` is a `uint32_t`. -/
def blockSize (chunkSize : ℕ) : ℕ := chunkSize % 2 ^ 32

def sbManagerCreate (chunkSize cnum : ℕ) : SbManager where
  chunkSize := chunkSize
  curNum := 0
  cnum := cnum
  freeq := createStreamQueue cnum

namespace SbManager

variable (sbm : SbManager)

/-- The assignments at the end of `SBInit`. -/
def start (data : List U8) (initSeq : U32) : SendBuffer where
  data := data
  head := 0
  headOff := 0
  tailOff := 0
  len := 0
  cumLen := 0
  size := blockSize sbm.chunkSize
  headSeq := initSeq
  initSeq := initSeq

/-- `SBInit`; `chunk` is the answer of `malloc` and `MPAllocateChunk`. An assertion fails when the
queue has an empty slot. -/
def sbInit (chunk : Option (List U8)) (initSeq : U32) : Option (SbManager × Option SendBuffer) :=
  match streamDequeue sbm.freeq with
  | (freeq, some slot) =>
    slot.map fun buf => ({ sbm with freeq }, some (sbm.start buf.data initSeq))
  | (_, none) =>
    match chunk with
    | some data => some ({ sbm with curNum := sbm.curNum + 1 }, some (sbm.start data initSeq))
    | none => some (sbm, none)

/-- `SBFree`; a queue that is full loses the buffer. -/
def sbFree (buf : SendBuffer) : SbManager :=
  { sbm with freeq := (streamEnqueue sbm.freeq buf).1 }

end SbManager

/-! ## Sequences of calls -/

/-- The manager and the buffers in use, by their pointers. -/
structure SbHost where
  sbm : SbManager
  bufs : ℕ → Option SendBuffer

inductive SbCall where
  | init (p : ℕ) (chunk : Option (List U8)) (initSeq : U32)
  | put (p : ℕ) (payload : List U8)
  | remove (p : ℕ) (len : ℕ)
  | free (p : ℕ)

namespace SbHost

def create (chunkSize cnum : ℕ) : SbHost where
  sbm := sbManagerCreate chunkSize cnum
  bufs _ := none

/-- A call; `none` is a copy outside a block, a failed assertion, or a pointer to no buffer. -/
def call (h : SbHost) : SbCall → Option SbHost
  | .init p chunk initSeq =>
    (h.sbm.sbInit chunk initSeq).map fun r => ⟨r.1, Function.update h.bufs p r.2⟩
  | .put p payload =>
    (h.bufs p).bind fun b => (sbPut b payload).map fun r =>
      { h with bufs := Function.update h.bufs p (some r.1) }
  | .remove p len =>
    (h.bufs p).map fun b => { h with bufs := Function.update h.bufs p (some (sbRemove b len).1) }
  | .free p => (h.bufs p).map fun b => ⟨h.sbm.sbFree b, Function.update h.bufs p none⟩

/-- The pointer of a new buffer is not in use, that of another call is; the pool hands out blocks of
its own size. -/
def allows (h : SbHost) : SbCall → Bool
  | .init p chunk _ =>
    (h.bufs p).isNone && chunk.all fun data => data.length == blockSize h.sbm.chunkSize
  | .put p _ | .remove p _ | .free p => (h.bufs p).isSome

end SbHost

/-- What has become of a buffer since `SBInit`: a queue of bytes. -/
structure SendTrace (n : ℕ) where
  initSeq : U32
  queue : BoundedQueue U8 n

namespace SendTrace

variable {n : ℕ}

def start (initSeq : U32) : SendTrace n := ⟨initSeq, .empty⟩

def put (t : SendTrace n) (payload : List U8) : SendTrace n := ⟨t.initSeq, t.queue.put payload⟩

def remove (t : SendTrace n) (len : ℕ) : SendTrace n := ⟨t.initSeq, t.queue.remove len⟩

end SendTrace

/-- Calls in any order on any buffers, with the trace of every buffer. -/
def sbSystem (n : ℕ) : Noting SbHost SbCall (ℕ → SendTrace n) where
  apply h c := (h.call c).getD h
  note ts _
    | .init p _ initSeq => Function.update ts p (.start initSeq)
    | .put p payload => Function.update ts p ((ts p).put payload)
    | .remove p len => Function.update ts p ((ts p).remove len)
    | .free _ => ts
  allowed _ h c := h.allows c

/-- The states that calls reach on a manager of this chunk size. -/
def SbReached (chunkSize cnum : ℕ) (h : SbHost) (ts : ℕ → SendTrace (blockSize chunkSize)) : Prop :=
  (sbSystem (blockSize chunkSize)).Run (SbHost.create chunkSize cnum) (fun _ => .start 0) h ts

end MtcpStack
