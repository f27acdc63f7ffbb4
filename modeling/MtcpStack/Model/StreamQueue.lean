import Mathlib.Data.Int.Notation
import Mathlib.Data.List.Basic
import MtcpStack.Library.NotedRun

/-! # The queue between two threads

`StreamEnqueue` and `StreamDequeue` of `tcp_stream_queue.c`, which an application thread and the
stack thread call without a lock. `SBEnqueue` and `RBFragEnqueue` (`tcp_sb_queue.c`,
`tcp_rb_frag_queue.c`) are the same text over other pointers. -/

namespace MtcpStack

/-- `struct stream_queue`: an array of `_capacity + 1` slots, one of which stays free. An index is at
most `_capacity`, an `int`, so `index_type` does not overflow. A slot is `none` until it is
written. -/
structure StreamQueue (α : Type*) where
  capacity : ℕ
  head : ℕ
  tail : ℕ
  q : List (Option α)
deriving DecidableEq, Repr

variable {α : Type*}

def nextIndex (sq : StreamQueue α) (i : ℕ) : ℕ := if i ≠ sq.capacity then i + 1 else 0

def createStreamQueue (capacity : ℕ) : StreamQueue α where
  capacity := capacity
  head := 0
  tail := 0
  q := List.replicate (capacity + 1) none

/-! ## The calls, undisturbed -/

def streamEnqueue (sq : StreamQueue α) (stream : α) : StreamQueue α × ℤ :=
  let h := sq.head
  let t := sq.tail
  let nt := nextIndex sq t
  if nt ≠ h then
    ({ sq with q := sq.q.set t (some stream), tail := nt }, 0)
  else
    (sq, -1)

/-- The answer is the pointer in the slot; `assert(stream)` fails where that is `none`. -/
def streamDequeue (sq : StreamQueue α) : StreamQueue α × Option (Option α) :=
  let h := sq.head
  let t := sq.tail
  if h ≠ t then
    ({ sq with head := nextIndex sq h }, some (sq.q.getD h none))
  else
    (sq, none)

/-! ## The calls, one access of the shared memory at a time -/

/-- Where the producer stands in `StreamEnqueue`. The loads that `StreamMemoryBarrier` makes for its
arguments are accesses too. -/
inductive Producer (α : Type*)
  | idle
  | entered (stream : α)
  | headRead (stream : α) (h : ℕ)
  | roomy (stream : α) (t nt : ℕ)
  | written (stream : α) (t nt : ℕ)
  | slotFenced (stream : α) (t nt : ℕ)
  | fenced (stream : α) (nt : ℕ)
deriving DecidableEq, Repr

/-- Where the consumer stands in `StreamDequeue`. -/
inductive Consumer (α : Type*)
  | idle
  | headRead (h : ℕ)
  | filled (h : ℕ)
  | taken (h : ℕ) (stream : Option α)
  | slotFenced (h : ℕ) (stream : Option α)
  | fenced (h : ℕ) (stream : Option α)
deriving DecidableEq, Repr

/-- The shared memory and the two threads. -/
structure QueueThreads (α : Type*) where
  sq : StreamQueue α
  producer : Producer α
  consumer : Consumer α
deriving DecidableEq, Repr

/-- The producer calls `StreamEnqueue`, makes its next access, or the consumer makes its next one;
an idle consumer calls `StreamDequeue` with it. -/
inductive QueueStep (α : Type*)
  | call (stream : α)
  | produce
  | consume
deriving DecidableEq, Repr

/-- The producer's next access. -/
def producerStep (w : QueueThreads α) : QueueThreads α :=
  match w.producer with
  | .idle => w
  | .entered stream => { w with producer := .headRead stream w.sq.head }
  | .headRead stream h =>
    let t := w.sq.tail
    let nt := nextIndex w.sq t
    if nt ≠ h then { w with producer := .roomy stream t nt } else { w with producer := .idle }
  | .roomy stream t nt =>
    { w with sq.q := w.sq.q.set t (some stream), producer := .written stream t nt }
  | .written stream t nt => { w with producer := .slotFenced stream t nt }
  | .slotFenced stream _ nt => { w with producer := .fenced stream nt }
  | .fenced _ nt => { w with sq.tail := nt, producer := .idle }

/-- The consumer's next access. -/
def consumerStep (w : QueueThreads α) : QueueThreads α :=
  match w.consumer with
  | .idle => { w with consumer := .headRead w.sq.head }
  | .headRead h =>
    let t := w.sq.tail
    if h ≠ t then { w with consumer := .filled h } else { w with consumer := .idle }
  | .filled h => { w with consumer := .taken h (w.sq.q.getD h none) }
  | .taken h stream => { w with consumer := .slotFenced h stream }
  | .slotFenced h stream => { w with consumer := .fenced h stream }
  | .fenced h _ => { w with sq.head := nextIndex w.sq h, consumer := .idle }

def QueueStep.apply (w : QueueThreads α) : QueueStep α → QueueThreads α
  | .call stream => { w with producer := .entered stream }
  | .produce => producerStep w
  | .consume => consumerStep w

/-- A thread is in one call at a time. -/
def QueueStep.enabled (w : QueueThreads α) : QueueStep α → Bool
  | .call _ => match w.producer with
    | .idle => true
    | _ => false
  | .produce => match w.producer with
    | .idle => false
    | _ => true
  | .consume => true

/-! ## What the calls have answered -/

/-- The pointers whose `StreamEnqueue` has succeeded, those that `StreamDequeue` has returned, and
for the calls that failed how many pointers were in the queue: when the producer read `_head`, for
an enqueue, and when the consumer read `_tail`, for a dequeue. -/
structure QueueHistory (α : Type*) where
  enqueued : List α := []
  dequeued : List (Option α) := []
  presentAtHead : ℕ := 0
  refused : List ℕ := []
  nulls : List ℕ := []
deriving DecidableEq, Repr

/-- The pointers in the queue: enqueued and not dequeued yet. -/
def QueueHistory.present (n : QueueHistory α) : ℕ := n.enqueued.length - n.dequeued.length

def QueueHistory.noteProduce (n : QueueHistory α) (w : QueueThreads α) : QueueHistory α :=
  match w.producer with
  | .entered _ => { n with presentAtHead := n.present }
  | .headRead _ h =>
    if nextIndex w.sq w.sq.tail ≠ h then n
    else { n with refused := n.refused ++ [n.presentAtHead] }
  | .fenced stream _ => { n with enqueued := n.enqueued ++ [stream] }
  | _ => n

def QueueHistory.noteConsume (n : QueueHistory α) (w : QueueThreads α) : QueueHistory α :=
  match w.consumer with
  | .headRead h => if h ≠ w.sq.tail then n else { n with nulls := n.nulls ++ [n.present] }
  | .fenced _ stream => { n with dequeued := n.dequeued ++ [stream] }
  | _ => n

/-- Any interleaving of the two threads. -/
def queueSystem (α : Type*) : Noting (QueueThreads α) (QueueStep α) (QueueHistory α) where
  apply := QueueStep.apply
  note n w
    | .call _ => n
    | .produce => n.noteProduce w
    | .consume => n.noteConsume w
  allowed _ w s := s.enabled w

def queueStart (capacity : ℕ) : QueueThreads α := ⟨createStreamQueue capacity, .idle, .idle⟩

/-- The states that the threads reach with a queue of this capacity, and their histories. -/
def QueueReached (capacity : ℕ) (w : QueueThreads α) (n : QueueHistory α) : Prop :=
  (queueSystem α).Run (queueStart capacity) {} w n

end MtcpStack
