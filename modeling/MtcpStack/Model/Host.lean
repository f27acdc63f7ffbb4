import MtcpStack.Model.Sockets

/-! # The socket interface (`api.c`) on one core

The calls that open, bind, listen, accept, connect and close, with every exit in the order of the
source, and the steps of the stack between them. -/

namespace MtcpStack

/-- The values of `errno` the calls set; `inherited` is left by a failed library call. -/
inductive Errno where
  | badf
  | notSock
  | inval
  | fault
  | afNoSupport
  | isConn
  | already
  | again
  | noMem
  | inProgress
  | noSys
  | addrInUse
  | nFile
  | intr
  | notConn
  | inherited
  deriving DecidableEq, Repr

/-- What a call comes to. A call `faults` when it follows a null or dangling pointer, and
`blocks` when it waits. -/
inductive Ret (α : Type) where
  | ok (a : α)
  | error (e : Errno)
  | blocks
  | faults
  deriving DecidableEq, Repr

/-- Memory and locks for a listener, in the order they are asked for. -/
structure ListenMem where
  listener : Bool
  cond : Bool
  lock : Bool
  queue : Bool
  deriving DecidableEq, Repr

namespace Host

/-- The range check of every call. -/
def inRange (h : Host) (sockid : ℤ) : Bool :=
  decide (0 ≤ sockid ∧ sockid < h.core.maxConcurrency)

/-! ## Sockets and binding -/

def mtcpSocket (h : Host) : Host × Ret ℕ :=
  match h.allocateSocket .stream with
  | (h, .full) => (h, .error .nFile)
  | (h, .spins) => (h, .blocks)
  | (h, .socket i) => (h, .ok i)

def mtcpSetsockNonblock (sockid : ℤ) (h : Host) : Host × Ret Unit :=
  if !h.inRange sockid then (h, .error .badf)
  else if (h.smap sockid.toNat).socktype = .unused then (h, .error .badf)
  else (h.setSocket sockid.toNat { h.smap sockid.toNat with nonblock := true }, .ok ())

/-- `mtcp_bind`; `inet` says that the family and the length of the address are right. -/
def mtcpBind (sockid : ℤ) (addr : Option SockAddr) (inet : Bool) (h : Host) : Host × Ret Unit :=
  let i := sockid.toNat
  let s := h.smap i
  if !h.inRange sockid then (h, .error .badf)
  else if s.socktype = .unused then (h, .error .badf)
  else if s.socktype ≠ .stream ∧ s.socktype ≠ .listener then (h, .error .notSock)
  else
    match addr with
    | none => (h, .error .inval)
    | some a =>
      if s.addrBind then (h, .error .inval)
      else if !inet then (h, .error .inval)
      else (h.setSocket i { s with saddr := a, addrBind := true }, .ok ())

/-! ## Listening and accepting -/

/-- `mtcp_listen` from the check of the backlog on, on a socket of type LISTENER. -/
def listenOn (i : ℕ) (backlog : ℤ) (mem : ListenMem) (h : Host) : Host × Ret Unit :=
  let port := (h.smap i).saddr.port
  if backlog ≤ 0 ∨ h.core.maxConcurrency < backlog then (h, .error .inval)
  else if (h.listenerHTSearch port).isSome then (h, .error .addrInUse)
  else if !mem.listener then (h, .error .inherited)
  else if !mem.cond then (h, .error .inherited)
  else if !mem.lock then (h, .error .inherited)
  else if !mem.queue then (h, .error .noMem)
  else
    let l := h.nextListener
    let h := setListener l ⟨i, backlog.toNat, some []⟩ { h with nextListener := l + 1 }
    let h := h.setSocket i { h.smap i with ref := .listener l }
    (listenerHTInsert l port h, .ok ())

/-- `mtcp_listen`: the type of the socket is changed before the other checks. -/
def mtcpListen (sockid backlog : ℤ) (mem : ListenMem) (h : Host) : Host × Ret Unit :=
  let i := sockid.toNat
  if !h.inRange sockid then (h, .error .badf)
  else if (h.smap i).socktype = .unused then (h, .error .badf)
  else
    let h :=
      if (h.smap i).socktype = .stream then h.setSocket i { h.smap i with socktype := .listener }
      else h
    if (h.smap i).socktype ≠ .listener then (h, .error .notSock)
    else listenOn i backlog mem h

/-- A stream taken from the accept queue is given a socket, unless it has one. -/
def acceptStream (sid : ℕ) (h : Host) : Host × Ret ℕ :=
  match h.streams sid with
  | none => ({ h with corrupt := true }, .faults)
  | some f =>
    match f.sockid with
    | some i => (h, .ok i)
    | none =>
      match h.allocateSocket .stream with
      | (h, .full) => (h, .error .nFile)
      | (h, .spins) => (h, .blocks)
      | (h, .socket i) =>
        let h := h.setSocket i { h.smap i with ref := .stream sid, saddr := f.dst }
        (h.setStream sid { f with sockid := some i }, .ok i)

/-- `mtcp_accept`; `interrupted` says that the stack stops while the call waits. Events for the
listening socket are left to the stack. -/
def mtcpAccept (sockid : ℤ) (interrupted : Bool) (h : Host) : Host × Ret ℕ :=
  let s := h.smap sockid.toNat
  if !h.inRange sockid then (h, .error .badf)
  else if s.socktype ≠ .listener then (h, .error .inval)
  else
    match s.ref with
    | .listener l =>
      match h.listener l with
      | some ⟨i, backlog, some (sid :: rest)⟩ =>
        acceptStream sid (setListener l ⟨i, backlog, some rest⟩ h)
      | some ⟨i, _, some []⟩ =>
        if (h.smap i).nonblock then (h, .error .again)
        else if interrupted then (h, .error .intr)
        else (h, .blocks)
      | _ => (h, .faults)
    | _ => (h, .faults)

/-! ## Connecting -/

/-- `mtcp_init_rss`; `memory` says that the new pool can be allocated. -/
def mtcpInitRss (saddrBase : U32) (numAddr : ℕ) (daddr : SockAddr) (memory : Bool) (h : Host) :
    Host × Ret Unit :=
  let h := { h with ap := none }
  let create := fun base =>
    if memory then
      ({ h with
          ap := some (createAddressPoolPerCore h.core.cpu h.core.numCpus h.core.endianCheck base
            numAddr daddr)
          apGen := h.apGen + 1 }, Ret.ok ())
    else (h, .error .noMem)
  if saddrBase = 0 then
    match (getOutputInterface h.net daddr.addr).map (nifToEidx h.net) with
    | none => (h, .error .inval)
    | some eidx =>
      match eidx.bind fun e => h.net.eths[e]? with
      | none => ({ h with corrupt := true }, .faults)
      | some eth => create eth.1
  else create saddrBase

/-- The source address `mtcp_connect` takes from a pool for the stream it opens next. -/
def fetchSource (dst saddr : SockAddr) (h : Host) : Except Errno (Host × SockAddr) :=
  match h.ap with
  | some ap =>
    match fetchAddressPerCore ap with
    | none => .error .again
    | some (ap, a) =>
      .ok ({ h with ap := some ap, log := h.log ++ [.fetched h.gId (.perCore h.apGen) a] }, a)
  | none =>
    match getOutputInterface h.net dst.addr with
    | none => .error .inval
    | some nif =>
      match (h.pools[nif]?).bind fun ap => fetchAddress ap h.core.cpu h.core.numQueues
          h.core.endianCheck dst saddr with
      | none => .error .again
      | some (ap, a) =>
        .ok ({ h with
          pools := h.pools.set nif ap
          log := h.log ++ [.fetched h.gId (.global nif) a] }, a)

/-- A new stream is set up for its SYN. -/
def startStream (sid : ℕ) (isDynBound : Bool) (h : Host) : Host :=
  match h.streams sid with
  | none => h
  | some f =>
    let stream :=
      { f.stream with cwnd := 1, ssthresh := f.stream.mss.setWidth 32 * 10, state := .synSent }
    h.setStream sid { f with isBoundAddr := isDynBound, stream }

/-- The stream is queued for its SYN, or for its destruction when the connect queue is full.
`waited` is the state a blocking call finds at last, if it returns. -/
def queueConnect (i sid : ℕ) (waited : Option TcpState) (h : Host) : Host × Ret Unit :=
  if h.connectq.length < h.core.connectqSize then
    let h := { h with connectq := h.connectq ++ [sid] }
    if (h.smap i).nonblock then (h, .error .inProgress)
    else
      match waited with
      | none => (h, .blocks)
      | some s =>
        if TcpState.established.code < s.code then (h, .error .noSys)
        else if s = .established then (h, .ok ())
        else (h, .blocks)
  else ({ h with destroyq := h.destroyq ++ [sid] }, .error .again)

/-- `mtcp_connect` once the source address is known. -/
def openStream (i : ℕ) (dst : SockAddr) (isDynBound : Bool) (mem : StreamMem)
    (waited : Option TcpState) (h : Host) : Host × Ret Unit :=
  match h.createTCPStream mem (some i) (h.smap i).saddr dst with
  | (h, none) => (h, .error .noMem)
  | (h, some sid) => queueConnect i sid waited (startStream sid isDynBound h)

/-- `mtcp_connect` on a socket without a stream. -/
def connectSocket (i : ℕ) (dst : SockAddr) (mem : StreamMem) (waited : Option TcpState)
    (h : Host) : Host × Ret Unit :=
  let s := h.smap i
  if s.explicit then
    if connectRssCore s.saddr dst h.core.numQueues h.core.endianCheck = some h.core.cpu then
      openStream i dst false mem waited h
    else (h, .error .inval)
  else
    match fetchSource dst s.saddr h with
    | .error e => (h, .error e)
    | .ok (h, a) =>
      openStream i dst true mem waited (h.setSocket i { s with saddr := a, addrBind := true })

def mtcpConnect (sockid : ℤ) (addr : Option SockAddr) (inet : Bool) (mem : StreamMem)
    (waited : Option TcpState) (h : Host) : Host × Ret Unit :=
  let i := sockid.toNat
  let s := h.smap i
  if !h.inRange sockid then (h, .error .badf)
  else if s.socktype = .unused then (h, .error .badf)
  else if s.socktype ≠ .stream then (h, .error .notSock)
  else
    match addr with
    | none => (h, .error .fault)
    | some dst =>
      if !inet then (h, .error .afNoSupport)
      else
        match s.ref with
        | .null => connectSocket i dst mem waited h
        | .stream sid =>
          match h.streams sid with
          | none => ({ h with corrupt := true }, .faults)
          | some f =>
            if TcpState.established.code ≤ f.stream.state.code then (h, .error .isConn)
            else (h, .error .already)
        | _ => (h, .faults)

/-! ## Closing -/

/-- `CloseStreamSocket`; the close queue belongs to the stack and is left to it. -/
def closeStreamSocket (i : ℕ) (h : Host) : Host × Ret Unit :=
  match (h.smap i).ref with
  | .stream sid =>
    match h.streams sid with
    | none => ({ h with corrupt := true }, .faults)
    | some f =>
      if f.stream.closed then (h, .ok ())
      else
        let f := { f with sockid := none, stream := { f.stream with closed := true, socket := none } }
        let h := h.setStream sid f
        match f.stream.state with
        | .closed => ({ h with destroyq := h.destroyq ++ [sid] }, .ok ())
        | .synSent => ({ h with destroyq := h.destroyq ++ [sid] }, .error .inherited)
        | .established | .closeWait => (h, .ok ())
        | _ => (h, .error .badf)
  | _ => (h, .error .notConn)

/-- `CloseListeningSocket`: the listener is freed but stays in the table. -/
def closeListeningSocket (i : ℕ) (h : Host) : Host × Ret Unit :=
  match (h.smap i).ref with
  | .listener l =>
    match h.listener l with
    | none => (h, .faults)
    | some x => (setListener l { x with acceptq := none } h, .ok ())
  | .null => (h, .error .inval)
  | _ => (h, .faults)

/-- `mtcp_close`; sockets of other types are only freed here. -/
def mtcpClose (sockid : ℤ) (h : Host) : Host × Ret Unit :=
  let i := sockid.toNat
  if !h.inRange sockid then (h, .error .badf)
  else
    match (h.smap i).socktype with
    | .unused => (h, .error .badf)
    | .stream =>
      let r := closeStreamSocket i h
      (freeSocket i r.1, r.2)
    | .listener =>
      let r := closeListeningSocket i h
      (freeSocket i r.1, r.2)
    | .epoll | .pipe => (freeSocket i h, .ok ())
    | .proxy => (freeSocket i h, .error .inval)

/-! ## The stack -/

/-- `FilterSYNPacket` for a SYN to the address `loc`. -/
def filterSYNPacket (h : Host) (loc : SockAddr) : Bool :=
  match (h.listenerHTSearch loc.port).bind h.listener with
  | none => false
  | some x =>
    let a := (h.smap x.sockid).saddr
    if a.port = loc.port then
      if a.addr ≠ 0 then loc.addr == a.addr else h.net.eths.any fun e => e.1 == loc.addr
    else false

/-- A SYN from `rem` to `loc`: a stream that has the 4-tuple takes it, and otherwise
`CreateNewFlowHTEntry` opens one if somebody listens. -/
def synArrives (rem loc : SockAddr) (mem : StreamMem) (h : Host) : Host :=
  match h.streamHTSearch (loc, rem) with
  | some _ => h
  | none => if h.filterSYNPacket loc then (h.createTCPStream mem none loc rem).1 else h

/-- A stream that has completed its handshake is offered to the listener of its port. -/
def offerStream (sid : ℕ) (h : Host) : Host :=
  match (h.streams sid).bind fun f => h.listenerHTSearch f.src.port with
  | none => { h with corrupt := true }
  | some l =>
    match h.listener l with
    | some ⟨i, backlog, some q⟩ =>
      if q.length < backlog then setListener l ⟨i, backlog, some (q ++ [sid])⟩ h else h
    | _ => { h with corrupt := true }

end Host

/-! ## Runs -/

/-- A call of the application, or a step of the stack: a SYN arrives, a stream is offered to its
listener, changes its own variables, leaves the connect queue or is destroyed, and events of a
socket become pending or are taken. -/
inductive Call where
  | socket
  | setNonblock (sockid : ℤ)
  | bind (sockid : ℤ) (addr : Option SockAddr) (inet : Bool)
  | listen (sockid backlog : ℤ) (mem : ListenMem)
  | accept (sockid : ℤ) (interrupted : Bool)
  | initRss (saddrBase : U32) (numAddr : ℕ) (daddr : SockAddr) (memory : Bool)
  | connect (sockid : ℤ) (addr : Option SockAddr) (inet : Bool) (mem : StreamMem)
      (waited : Option TcpState)
  | close (sockid : ℤ)
  | syn (rem loc : SockAddr) (mem : StreamMem)
  | offer (sid : ℕ)
  | stack (sid : ℕ) (s : TcpStream)
  | dequeueConnect
  | destroy (sid : ℕ)
  | events (i : ℕ) (pending : Bool)

/-- The stack works on streams that exist, and the number of addresses of a pool is an `int`;
everything else can happen at any time. -/
def Call.enabled (h : Host) : Call → Bool
  | .offer sid | .stack sid _ | .destroy sid => (h.streams sid).isSome
  | .initRss _ numAddr _ _ => decide (numAddr < 2 ^ 31)
  | _ => true

def Host.apply (h : Host) : Call → Host
  | .socket => h.mtcpSocket.1
  | .setNonblock sockid => (h.mtcpSetsockNonblock sockid).1
  | .bind sockid addr inet => (h.mtcpBind sockid addr inet).1
  | .listen sockid backlog mem => (h.mtcpListen sockid backlog mem).1
  | .accept sockid interrupted => (h.mtcpAccept sockid interrupted).1
  | .initRss saddrBase numAddr daddr memory => (h.mtcpInitRss saddrBase numAddr daddr memory).1
  | .connect sockid addr inet mem waited => (h.mtcpConnect sockid addr inet mem waited).1
  | .close sockid => (h.mtcpClose sockid).1
  | .syn rem loc mem => h.synArrives rem loc mem
  | .offer sid => h.offerStream sid
  | .stack sid s =>
    match h.streams sid with
    | none => h
    | some f => h.setStream sid { f with stream := s }
  | .dequeueConnect => { h with connectq := h.connectq.tail }
  | .destroy sid => h.destroyTCPStream sid
  | .events i pending => h.setSocket i { h.smap i with events := pending }

/-- A core after start-up: no stream and no listener, every socket free, and one pool with one
address for each interface. -/
def Host.init (cfg : Config) (core : CoreConfig) (net : NetConfig) : Host where
  cfg := cfg
  core := core
  net := net
  smap := fun _ => freshSocket .unused
  freeSmap := List.range core.maxConcurrency
  listener := fun _ => none
  listeners := fun _ => []
  nextListener := 0
  ap := none
  apGen := 0
  pools := net.eths.map fun e => createAddressPool e.1 1
  streams := fun _ => none
  flowTable := fun _ => []
  gId := 0
  connectq := []
  destroyq := []
  corrupt := false
  log := []

end MtcpStack
