import MtcpStack.Model.Epoll

/-! # Pipes (`pipe.c`) on the socket map

A pipe is a ring buffer that two sockets of the map point to. The fields of `struct socket_map`
that matter here are those of `EpollSocket`, the option `MTCP_NONBLOCK` and the union. Streams and
listeners are named by numbers; what happens inside them is left to the stack. -/

namespace MtcpStack

open Slice

/-! ## The ring buffer -/

/-- `enum pipe_state`. -/
inductive PipeState where
  | closed
  | active
  | closeWait
  deriving DecidableEq, Repr

/-- The buffer of `struct pipe`. -/
structure Pipe where
  state : PipeState
  buf : List U8
  bufOff : ℕ
  bufTail : ℕ
  bufLen : ℕ
  bufSize : ℕ
  deriving DecidableEq, Repr

def pipeBufSize : ℕ := 10240

/-- The values of `errno` of the pipe calls. -/
inductive PipeErrno where
  | badf
  | inval
  | again
  | pipe
  | nFile
  | inherited
  deriving DecidableEq, Repr

/-- What a call comes to. It `faults` when it copies outside the buffer or follows a pointer that
does not lead to a pipe, and `blocks` when it waits. -/
inductive PipeRet (α : Type) where
  | ok (a : α)
  | error (e : PipeErrno)
  | blocks
  | faults
  deriving DecidableEq, Repr

/-- What a call does to the buffer: the result, whether bytes have been copied, and whether the
other end is to be told. -/
structure PipeCopy (α : Type) where
  pipe : Pipe
  ret : PipeRet α
  copied : Bool
  toNotify : Bool
  deriving DecidableEq, Repr

namespace Pipe

variable (p : Pipe)

/-- The copy of `PipeRead`. -/
def copyOut (toRead : ℕ) : Option (Pipe × List U8) :=
  if p.bufOff + toRead < p.bufSize then
    (slice p.buf p.bufOff toRead).map fun data =>
      ({ p with bufOff := p.bufOff + toRead, bufLen := p.bufLen - toRead }, data)
  else
    let tempRead := p.bufSize - p.bufOff
    (slice p.buf p.bufOff tempRead).bind fun first =>
      (slice p.buf 0 (toRead - tempRead)).map fun second =>
        ({ p with bufOff := toRead - tempRead, bufLen := p.bufLen - toRead }, first ++ second)

/-- The copy of `PipeWrite`. -/
def copyIn (data : List U8) : Option Pipe :=
  if p.bufTail + data.length < p.bufSize then
    (blit p.buf p.bufTail data).map fun buf =>
      { p with buf, bufTail := p.bufTail + data.length, bufLen := p.bufLen + data.length }
  else
    let tempWrite := p.bufSize - p.bufTail
    (blit p.buf p.bufTail (data.take tempWrite)).bind fun buf =>
      (blit buf 0 (data.drop tempWrite)).map fun buf =>
        { p with buf, bufTail := data.length - tempWrite, bufLen := p.bufLen + data.length }

/-- A call that copies nothing. -/
def idle {α : Type} (ret : PipeRet α) : PipeCopy α := ⟨p, ret, false, false⟩

/-- `PipeRead` on a pipe. -/
def read (nonblock : Bool) (len : ℤ) : PipeCopy (List U8) :=
  if p.state = .closed then p.idle (.error .inval)
  else if p.state = .closeWait ∧ p.bufLen = 0 then p.idle (.ok [])
  else if len ≤ 0 then p.idle (if nonblock then .error .again else .ok [])
  else if ¬ nonblock ∧ p.bufLen = 0 then p.idle .blocks
  else
    let toRead := min len.toNat p.bufLen
    if toRead = 0 then p.idle (if p.state = .active then .error .again else .ok [])
    else
      match p.copyOut toRead with
      | none => p.idle .faults
      | some (q, data) => ⟨q, .ok data, true, p.bufLen = p.bufSize⟩

/-- `PipeWrite` of the bytes `data` to a pipe. -/
def write (nonblock : Bool) (data : List U8) : PipeCopy ℕ :=
  if p.state = .closed then p.idle (.error .inval)
  else if p.state = .closeWait then p.idle (.error .pipe)
  else if data.length = 0 then p.idle (if nonblock then .error .again else .ok 0)
  else if ¬ nonblock ∧ p.bufLen = p.bufSize then p.idle .blocks
  else
    let toWrite := min data.length (p.bufSize - p.bufLen)
    if toWrite = 0 then p.idle (.error .again)
    else
      match p.copyIn (data.take toWrite) with
      | none => p.idle .faults
      | some q => ⟨q, .ok toWrite, true, p.bufLen = 0⟩

end Pipe

/-! ## The socket map -/

/-- `struct pipe` with the two sockets it points to. -/
structure PipeCtx extends Pipe where
  socket0 : ℕ
  socket1 : ℕ
  deriving DecidableEq, Repr

/-- The union of `struct socket_map`. -/
inductive UnionRef where
  | null
  | stream (sid : ℕ)
  | listener (l : ℕ)
  | ep
  | pp (p : ℕ)
  deriving DecidableEq, Repr

/-- The socket map with the pipes. `hasEp` says that `mtcp->ep` is set; `wild` records that the
memory of a freed pipe was used, or a union that does not hold a pipe. -/
structure PipeHost where
  maxConcurrency : ℕ
  ep : Epoll
  hasEp : Bool
  nonblock : ℕ → Bool
  ref : ℕ → UnionRef
  pipes : ℕ → Option PipeCtx
  nextPipe : ℕ
  wild : Bool

/-- `MTCP_EPOLLET`. -/
def epollEt : U32 := 0x80000000

namespace PipeHost

variable (h : PipeHost)

/-- An entry of the socket map. -/
def entry (i : ℕ) : EpollSocket × Bool × UnionRef := (h.ep.smap i, h.nonblock i, h.ref i)

def setRef (i : ℕ) (r : UnionRef) : PipeHost := { h with ref := Function.update h.ref i r }

def setPipe (p : ℕ) (ctx : Option PipeCtx) : PipeHost :=
  { h with pipes := Function.update h.pipes p ctx }

/-- `AllocateSocket`. -/
def allocateSocket (socktype : SockType) : PipeHost × Option ℕ :=
  match h.ep.allocateSocket socktype with
  | (_, none) => (h, none)
  | (ep, some i) =>
    ({ h with
        ep
        nonblock := Function.update h.nonblock i false
        ref := Function.update h.ref i .null }, some i)

/-- `FreeSocket`; the options stay. -/
def freeSocket (i : ℕ) : PipeHost :=
  if (h.ep.smap i).socktype = .unused then h
  else { h with ep := h.ep.freeSocket i, ref := Function.update h.ref i .null }

/-- `AddEpollEvent` with `mtcp->ep`. -/
def addEpollEvent (q : QueueType) (i : ℕ) (event : U32) : PipeHost :=
  if h.hasEp then { h with ep := (h.ep.addEpollEvent q i event).1 } else h

/-! ## `pipe.c` -/

/-- `mtcp_pipe`; `memory` says that the pipe, its buffer and its locks can be had. The buffer is not
cleared: its cells are those of `chunk`. -/
def mtcpPipe (memory : Bool) (chunk : ℕ → U8) : PipeHost × PipeRet (ℕ × ℕ) :=
  match h.allocateSocket .pipe with
  | (h, none) => (h, .error .nFile)
  | (h, some i) =>
    match h.allocateSocket .pipe with
    | (h, none) => (h.freeSocket i, .error .nFile)
    | (h, some j) =>
      if ¬ memory then ((h.freeSocket i).freeSocket j, .error .inherited)
      else
        let ctx : PipeCtx :=
          { state := .active
            buf := (List.range pipeBufSize).map chunk
            bufOff := 0
            bufTail := 0
            bufLen := 0
            bufSize := pipeBufSize
            socket0 := i
            socket1 := j }
        let h := { h with nextPipe := h.nextPipe + 1 }.setPipe h.nextPipe (some ctx)
        ((h.setRef i (.pp (h.nextPipe - 1))).setRef j (.pp (h.nextPipe - 1)), .ok (i, j))

/-- The other socket, as the pipe of socket `i` has it. -/
def pairSocket (ctx : PipeCtx) (i : ℕ) : ℕ := if ctx.socket0 = i then ctx.socket1 else ctx.socket0

/-- `RaiseEventToPair`; waking a blocked thread does not change the map. -/
def raiseEventToPair (ctx : PipeCtx) (i : ℕ) (event : U32) : PipeHost :=
  let pair := pairSocket ctx i
  if h.nonblock pair ∧ (h.ep.smap pair).epoll ≠ 0 then h.addEpollEvent .usr pair event else h

/-- The pipe of socket `i`, or what a call returns without one. -/
def findPipe {α : Type} (i : ℕ) (noPipe : PipeRet α) :
    Except (PipeHost × PipeRet α) (ℕ × PipeCtx) :=
  if h.maxConcurrency ≤ i then .error (h, .error .badf)
  else if (h.ep.smap i).socktype ≠ .pipe then .error (h, noPipe)
  else
    match h.ref i with
    | .null => .error (h, noPipe)
    | .pp p =>
      match h.pipes p with
      | some ctx => .ok (p, ctx)
      | none => .error ({ h with wild := true }, .faults)
    | _ => .error ({ h with wild := true }, .faults)

/-- The event `PipeRead` raises for its own socket after it has copied. -/
def readAgain (i : ℕ) (p : Pipe) : PipeHost :=
  if 0 < p.bufLen then
    if (h.ep.smap i).epoll &&& epollIn ≠ 0 ∧ (h.ep.smap i).epoll &&& epollEt = 0 then
      h.addEpollEvent .usrShadow i epollIn
    else h
  else if p.state = .closeWait then h.addEpollEvent .usrShadow i epollIn
  else h

/-- The event `PipeWrite` raises for its own socket after it has copied. -/
def writeAgain (i : ℕ) (p : Pipe) : PipeHost :=
  if p.bufLen < p.bufSize then
    if (h.ep.smap i).epoll &&& epollOut ≠ 0 ∧ (h.ep.smap i).epoll &&& epollEt = 0 then
      h.addEpollEvent .usrShadow i epollOut
    else h
  else h

/-- What follows a copy: the other end is told, then the own socket. -/
def afterCopy {α : Type} (i p : ℕ) (ctx : PipeCtx) (r : PipeCopy α) (event : U32)
    (again : PipeHost → ℕ → Pipe → PipeHost) : PipeHost :=
  let h := h.setPipe p (some { ctx with toPipe := r.pipe })
  let h := if r.toNotify then h.raiseEventToPair ctx i event else h
  if r.copied then again h i r.pipe else h

/-- `PipeRead`. -/
def pipeRead (i : ℕ) (len : ℤ) : PipeHost × PipeRet (List U8) :=
  match h.findPipe i (.error .badf) with
  | .error r => r
  | .ok (p, ctx) =>
    let r := ctx.toPipe.read (h.nonblock i) len
    (h.afterCopy i p ctx r epollOut readAgain, r.ret)

/-- `PipeWrite`. -/
def pipeWrite (i : ℕ) (data : List U8) : PipeHost × PipeRet ℕ :=
  match h.findPipe i (.error .badf) with
  | .error r => r
  | .ok (p, ctx) =>
    let r := ctx.toPipe.write (h.nonblock i) data
    (h.afterCopy i p ctx r epollIn writeAgain, r.ret)

/-- `PipeClose` on the socket of a pipe: the first call tells the other end, the second one clears
both unions and frees the pipe. -/
def closePipe (i p : ℕ) (ctx : PipeCtx) : PipeHost :=
  match ctx.state with
  | .closed => h
  | .active =>
    (h.setPipe p (some { ctx with state := .closeWait })).raiseEventToPair ctx i epollIn
  | .closeWait => ((h.setRef ctx.socket0 .null).setRef ctx.socket1 .null).setPipe p none

/-- `PipeClose`. -/
def pipeClose (i : ℕ) : PipeHost × PipeRet Unit :=
  match h.findPipe i (if (h.ep.smap i).socktype = .pipe then .ok () else .error .inval) with
  | .error r => r
  | .ok (p, ctx) => (h.closePipe i p ctx, .ok ())

/-! ## Other calls -/

/-- `mtcp_close`, as far as the map is concerned. -/
def mtcpClose (i : ℕ) : PipeHost :=
  if h.maxConcurrency ≤ i then h
  else
    match (h.ep.smap i).socktype with
    | .unused => h
    | .stream | .proxy => h.freeSocket i
    | .listener => (h.setRef i .null).freeSocket i
    | .epoll =>
      if h.ref i = .ep then { h with hasEp := false }.setRef i .null |>.freeSocket i
      else h.freeSocket i
    | .pipe => (h.pipeClose i).1.freeSocket i

/-- `mtcp_socket`. -/
def mtcpSocket : PipeHost := (h.allocateSocket .stream).1

/-- `mtcp_accept` of stream `sid` on the listener at socket `i`; `more` says that others wait. -/
def mtcpAccept (i sid : ℕ) (more : Bool) : PipeHost :=
  if h.maxConcurrency ≤ i ∨ (h.ep.smap i).socktype ≠ .listener then h
  else
    match h.allocateSocket .stream with
    | (h, none) => h
    | (h, some k) =>
      let h := h.setRef k (.stream sid)
      if more ∧ (h.ep.smap i).epoll &&& epollEt = 0 then h.addEpollEvent .usrShadow i epollIn else h

/-- `mtcp_connect`, when it creates stream `sid` for socket `i`. -/
def mtcpConnect (i sid : ℕ) : PipeHost :=
  if h.maxConcurrency ≤ i then h
  else if (h.ep.smap i).socktype = .stream ∧ h.ref i = .null then h.setRef i (.stream sid)
  else h

/-- `mtcp_listen`: the type is changed first; `ok` says that listener `l` can be created. -/
def mtcpListen (i l : ℕ) (ok : Bool) : PipeHost :=
  let s := h.ep.smap i
  if h.maxConcurrency ≤ i then h
  else if s.socktype = .stream ∨ s.socktype = .listener then
    let h := { h with ep := h.ep.setSocket i { s with socktype := .listener } }
    if ok then h.setRef i (.listener l) else h
  else h

/-- `mtcp_setsock_nonblock`. -/
def mtcpSetsockNonblock (i : ℕ) : PipeHost :=
  if h.maxConcurrency ≤ i ∨ (h.ep.smap i).socktype = .unused then h
  else { h with nonblock := Function.update h.nonblock i true }

/-- `mtcp_epoll_create`. The model keeps the queues of the last epoll socket only. -/
def mtcpEpollCreate (size : ℕ) : PipeHost :=
  if size = 0 then h
  else
    match h.allocateSocket .epoll with
    | (h, none) => h
    | (h, some i) =>
      let queue := Epoll.createEventQueue size
      { h with
        ep := { h.ep with usrQueue := queue, usrShadowQueue := queue, mtcpQueue := queue }
        hasEp := true }.setRef i .ep

/-- `mtcp_epoll_ctl` on the epoll socket `epid`; it does not ask whether socket `i` is in use. -/
def mtcpEpollCtl (epid : ℕ) (op : Epoll.CtlOp) (i : ℕ) (events : U32) (data : EpollData)
    (readable writable : Bool) : PipeHost :=
  if h.maxConcurrency ≤ epid ∨ h.maxConcurrency ≤ i then h
  else if (h.ep.smap epid).socktype ≠ .epoll ∨ h.ref epid ≠ .ep then h
  else { h with ep := (h.ep.mtcpEpollCtl op i events data readable writable).1 }

end PipeHost

/-! ## Runs -/

/-- A call of the application; `raise`, `flush` and `wait` are the stack's events and their
delivery. -/
inductive PipeCall where
  | pipe (memory : Bool) (chunk : ℕ → U8)
  | socket
  | accept (i sid : ℕ) (more : Bool)
  | connect (i sid : ℕ)
  | listen (i l : ℕ) (ok : Bool)
  | setNonblock (i : ℕ)
  | epollCreate (size : ℕ)
  | ctl (epid : ℕ) (op : Epoll.CtlOp) (i : ℕ) (events : U32) (data : EpollData)
      (readable writable : Bool)
  | read (i : ℕ) (len : ℤ)
  | write (i : ℕ) (data : List U8)
  | close (i : ℕ)
  | raise (q : QueueType) (i : ℕ) (event : U32)
  | flush
  | wait (maxevents : ℕ)

namespace PipeHost

variable (h : PipeHost)

def apply : PipeCall → PipeHost
  | .pipe memory chunk => (h.mtcpPipe memory chunk).1
  | .socket => h.mtcpSocket
  | .accept i sid more => h.mtcpAccept i sid more
  | .connect i sid => h.mtcpConnect i sid
  | .listen i l ok => h.mtcpListen i l ok
  | .setNonblock i => h.mtcpSetsockNonblock i
  | .epollCreate size => h.mtcpEpollCreate size
  | .ctl epid op i events data readable writable =>
    h.mtcpEpollCtl epid op i events data readable writable
  | .read i len => (h.pipeRead i len).1
  | .write i data => (h.pipeWrite i data).1
  | .close i => h.mtcpClose i
  | .raise q i event => h.addEpollEvent q i event
  | .flush => { h with ep := h.ep.flushEpollEvents }
  | .wait maxevents => { h with ep := h.ep.mtcpEpollWait maxevents }

/-- A core after start-up: every socket is free. -/
def init (maxConcurrency : ℕ) : PipeHost where
  maxConcurrency := maxConcurrency
  ep := Epoll.create 0 (fun _ => ⟨.unused, 0, 0, 0⟩) (List.range maxConcurrency)
  hasEp := false
  nonblock := fun _ => false
  ref := fun _ => .null
  pipes := fun _ => none
  nextPipe := 0
  wild := false

/-- The states of the runs whose calls all satisfy `ok`. -/
inductive Reached (ok : PipeHost → PipeCall → Prop) (maxConcurrency : ℕ) : PipeHost → Prop
  | init : Reached ok maxConcurrency (init maxConcurrency)
  | call {h : PipeHost} (hreach : Reached ok maxConcurrency h) (c : PipeCall) (hok : ok h c) :
      Reached ok maxConcurrency (h.apply c)

end PipeHost

end MtcpStack
