import MtcpStack.Library.CircularQueue
import MtcpStack.Model.Sockets

/-! # Events of the stack (`eventpoll.c`, `socket.c`, `FlushEpollEvents`)

The three event queues of an epoll socket and what the socket map holds for them. The queues, the
pending bits and the free list are those of the source; beside them the model keeps the number of
times each socket has been allocated, every event that was stored in a queue, and what became of
it. -/

namespace MtcpStack

abbrev EpollData := BitVec 64

/-- `MTCP_EPOLLIN`, `MTCP_EPOLLOUT`, `MTCP_EPOLLERR`, `MTCP_EPOLLHUP`. -/
def epollIn : U32 := 0x001
def epollOut : U32 := 0x004
def epollErr : U32 := 0x008
def epollHup : U32 := 0x010

/-- `struct mtcp_epoll_event_int`; `stamp` numbers the entries in the order they were stored. -/
structure EventInt where
  sockid : ℕ
  events : U32
  data : EpollData
  stamp : ℕ
deriving DecidableEq, Repr

/-- `struct event_queue`. -/
abbrev EventQueue := CircularQueue EventInt

/-- `enum event_queue_type`. -/
inductive QueueType where
  | usr
  | usrShadow
  | mtcp
deriving DecidableEq, Repr

/-- The fields of `struct socket_map` that the events depend on. -/
structure EpollSocket where
  socktype : SockType
  epoll : U32
  events : U32
  epData : EpollData
deriving DecidableEq, Repr

/-- An event that was stored: for which socket and which of its incarnations, and the data of the
registration at that time. -/
structure Raised where
  sockid : ℕ
  event : U32
  epData : EpollData
  incarnation : ℕ
deriving DecidableEq, Repr

structure Epoll where
  usrQueue : EventQueue
  usrShadowQueue : EventQueue
  mtcpQueue : EventQueue
  smap : ℕ → EpollSocket
  freeSmap : List ℕ
  incarnation : ℕ → ℕ
  raised : List Raised
  returned : List EventInt
  invalidated : List EventInt

namespace Epoll

variable (ep : Epoll)

def queue : QueueType → EventQueue
  | .usr => ep.usrQueue
  | .usrShadow => ep.usrShadowQueue
  | .mtcp => ep.mtcpQueue

def setQueue (q : QueueType) (eq : EventQueue) : Epoll :=
  match q with
  | .usr => { ep with usrQueue := eq }
  | .usrShadow => { ep with usrShadowQueue := eq }
  | .mtcp => { ep with mtcpQueue := eq }

def setSocket (i : ℕ) (socket : EpollSocket) : Epoll :=
  { ep with smap := Function.update ep.smap i socket }

/-- `CreateEventQueue`. -/
def createEventQueue (size : ℕ) : EventQueue :=
  CircularQueue.ofSlots (List.replicate size ⟨0, 0, 0, 0⟩)

/-- `mtcp_epoll_create` on a socket map. -/
def create (size : ℕ) (smap : ℕ → EpollSocket) (freeSmap : List ℕ) : Epoll where
  usrQueue := createEventQueue size
  usrShadowQueue := createEventQueue size
  mtcpQueue := createEventQueue size
  smap := smap
  freeSmap := freeSmap
  incarnation _ := 0
  raised := []
  returned := []
  invalidated := []

/-! ## Raising -/

/-- The part of `AddEpollEvent` that stores the entry. -/
def storeEvent (q : QueueType) (i : ℕ) (event : U32) : Epoll :=
  let socket := ep.smap i
  let entry : EventInt := ⟨i, event, socket.epData, ep.raised.length⟩
  let raise : Raised := ⟨i, event, socket.epData, ep.incarnation i⟩
  let ep := { ep with raised := ep.raised ++ [raise] }
  (ep.setSocket i { socket with events := socket.events ||| event }).setQueue q
    ((ep.queue q).enqueue entry)

/-- `AddEpollEvent`. -/
def addEpollEvent (q : QueueType) (i : ℕ) (event : U32) : Epoll × ℤ :=
  if event = 0 then (ep, error)
  else if (ep.smap i).events &&& event ≠ 0 then (ep, 0)
  else if (ep.queue q).slots.length ≤ (ep.queue q).num then (ep, error)
  else (ep.storeEvent q i event, 0)

/-! ## Moving -/

/-- The loop of `FlushEpollEvents` over `usrq` and `mtcpq`. -/
def flushLoop : ℕ → EventQueue → EventQueue → EventQueue × EventQueue
  | 0, usrq, mtcpq => (usrq, mtcpq)
  | fuel + 1, usrq, mtcpq =>
    if 0 < mtcpq.num ∧ usrq.num < usrq.slots.length then
      match mtcpq.front? with
      | some entry => flushLoop fuel (usrq.enqueue entry) mtcpq.dequeue
      | none => (usrq, mtcpq)
    else (usrq, mtcpq)

/-- `FlushEpollEvents`. Every round takes an entry from the queue of the stack. -/
def flushEpollEvents : Epoll :=
  let queues := flushLoop ep.mtcpQueue.num ep.usrQueue ep.mtcpQueue
  { ep with usrQueue := queues.1, mtcpQueue := queues.2 }

/-! ## Waiting -/

/-- The test that an entry is still valid. -/
def Validity (entry : EventInt) : Prop :=
  (ep.smap entry.sockid).socktype ≠ .unused ∧
    (ep.smap entry.sockid).epoll &&& entry.events ≠ 0 ∧
    (ep.smap entry.sockid).events &&& entry.events ≠ 0

instance (entry : EventInt) : Decidable (ep.Validity entry) :=
  inferInstanceAs (Decidable (_ ∧ _))

/-- One round of the loops that fetch events: the entry is returned or dropped, and its bit is
cleared. -/
def fetchEvent (q : QueueType) (entry : EventInt) : Epoll :=
  let socket := ep.smap entry.sockid
  let next := (ep.setSocket entry.sockid
    { socket with events := socket.events &&& ~~~ entry.events }).setQueue q (ep.queue q).dequeue
  if ep.Validity entry then { next with returned := ep.returned ++ [entry] }
  else { next with invalidated := ep.invalidated ++ [entry] }

/-- The loop that fetches up to `room` events from one queue, of the `n` that it has; the result
says for how many there is room after it. -/
def fetchLoop (q : QueueType) : ℕ → ℕ → Epoll → Epoll × ℕ
  | 0, room, ep => (ep, room)
  | n + 1, room, ep =>
    if room = 0 then (ep, room)
    else
      match (ep.queue q).front? with
      | some entry =>
        fetchLoop q n (if ep.Validity entry then room - 1 else room) (ep.fetchEvent q entry)
      | none => (ep, room)

/-- `mtcp_epoll_wait`, from where it has found events or its time is up. -/
def mtcpEpollWait (maxevents : ℕ) : Epoll :=
  let usr := fetchLoop .usr ep.usrQueue.num maxevents ep
  (fetchLoop .usrShadow usr.1.usrShadowQueue.num usr.2 usr.1).1

/-- The events that a call of `mtcp_epoll_wait` returns. -/
def waitReturns (maxevents : ℕ) : List EventInt :=
  (ep.mtcpEpollWait maxevents).returned.drop ep.returned.length

/-! ## Sockets -/

/-- `AllocateSocket`: the first free socket without a pending bit; the others go to the end of the
list. Without one it fails, or goes round for ever. -/
def allocateSocket (socktype : SockType) : Epoll × Option ℕ :=
  let busy := fun i => (ep.smap i).events ≠ 0
  match ep.freeSmap.dropWhile busy with
  | [] => (ep, none)
  | i :: rest =>
    let ep := ep.setSocket i ⟨socktype, 0, 0, 0⟩
    ({ ep with
        freeSmap := rest ++ ep.freeSmap.takeWhile busy
        incarnation := Function.update ep.incarnation i (ep.incarnation i + 1) }, some i)

/-- `FreeSocket`, the last thing `mtcp_close` and the first thing `mtcp_abort` does; what they do
to the stream, the listener or the pipe does not touch these fields. -/
def freeSocket (i : ℕ) : Epoll :=
  if (ep.smap i).socktype = .unused then ep
  else
    { ep.setSocket i { ep.smap i with socktype := .unused, epoll := 0, events := 0 } with
      freeSmap := ep.freeSmap ++ [i] }

/-- `enum mtcp_epoll_op`. -/
inductive CtlOp where
  | add
  | mod
  | del
deriving DecidableEq, Repr

/-- `RaisePendingStreamEvents` and `RaisePendingPipeEvents`; `readable` and `writable` say what the
stream or the pipe has to offer. -/
def raisePending (i : ℕ) (readable writable : Bool) : Epoll :=
  let ep :=
    if (ep.smap i).epoll &&& epollIn ≠ 0 ∧ readable then (ep.addEpollEvent .usrShadow i epollIn).1
    else ep
  if (ep.smap i).epoll &&& epollOut ≠ 0 ∧ writable then (ep.addEpollEvent .usrShadow i epollOut).1
  else ep

/-- The registration that `mtcp_epoll_ctl` stores. -/
def register (i : ℕ) (events : U32) (data : EpollData) : Epoll :=
  ep.setSocket i
    { ep.smap i with epData := data, epoll := events ||| (epollErr ||| epollHup) }

/-- `mtcp_epoll_ctl` on sockets in range. -/
def mtcpEpollCtl (op : CtlOp) (i : ℕ) (events : U32) (data : EpollData)
    (readable writable : Bool) : Epoll × ℤ :=
  match op with
  | .add =>
    if (ep.smap i).epoll ≠ 0 then (ep, -1)
    else ((ep.register i events data).raisePending i readable writable, 0)
  | .mod =>
    if (ep.smap i).epoll = 0 then (ep, -1)
    else ((ep.register i events data).raisePending i readable writable, 0)
  | .del =>
    if (ep.smap i).epoll = 0 then (ep, -1)
    else (ep.setSocket i { ep.smap i with epoll := 0 }, 0)

/-! ## Runs -/

end Epoll

/-- A call that changes the queues or the sockets. -/
inductive EpollCall where
  | raise (q : QueueType) (i : ℕ) (event : U32)
  | flush
  | wait (maxevents : ℕ)
  | allocate (socktype : SockType)
  | ctl (op : Epoll.CtlOp) (i : ℕ) (events : U32) (data : EpollData) (readable writable : Bool)
  | close (i : ℕ)
deriving DecidableEq, Repr

def EpollCall.apply (call : EpollCall) (ep : Epoll) : Epoll :=
  match call with
  | .raise q i event => (ep.addEpollEvent q i event).1
  | .flush => ep.flushEpollEvents
  | .wait maxevents => ep.mtcpEpollWait maxevents
  | .allocate socktype => (ep.allocateSocket socktype).1
  | .ctl op i events data readable writable =>
    (ep.mtcpEpollCtl op i events data readable writable).1
  | .close i => ep.freeSocket i

def Epoll.run (ep : Epoll) (calls : List EpollCall) : Epoll :=
  calls.foldl (fun ep call => call.apply ep) ep

end MtcpStack
