import MtcpStack.Model.AddrPool
import MtcpStack.Model.Api

/-! # Sockets, listeners and the flow table (`socket.c`, `fhash.c`, `tcp_stream.c`)

What the calls of the socket interface work on: the socket map, the tables of flows and of
listeners, the address pools and the queues they fill. Streams, sockets and listeners are named
by numbers where the source has pointers. -/

namespace MtcpStack

/-! ## State -/

/-- `enum socket_type`. -/
inductive SockType where
  | unused
  | stream
  | proxy
  | listener
  | epoll
  | pipe
  deriving DecidableEq, Repr

/-- The union of `struct socket_map`. -/
inductive SockRef where
  | null
  | stream (sid : ℕ)
  | listener (l : ℕ)
  | ep
  | pp
  deriving DecidableEq, Repr

/-- `struct socket_map`; `nonblock` and `addrBind` are its options, `events` says that some are
still pending. -/
structure SockEntry extends Socket where
  socktype : SockType
  addrBind : Bool
  saddr : SockAddr
  ref : SockRef
  events : Bool
  deriving DecidableEq, Repr

/-- `struct tcp_listener`; the accept queue is gone once the socket has been closed. -/
structure Listener where
  sockid : ℕ
  backlog : ℕ
  acceptq : Option (List ℕ)
  deriving DecidableEq, Repr

/-- A stream as the socket interface sees it: its 4-tuple, whether the source address was taken
from a pool, its socket, and the stream itself. -/
structure Flow where
  src : SockAddr
  dst : SockAddr
  isBoundAddr : Bool
  sockid : Option ℕ
  stream : TcpStream

/-- The 4-tuple. -/
def Flow.key (f : Flow) : SockAddr × SockAddr := (f.src, f.dst)

/-- The pools of a core: its own, renewed by every `mtcp_init_rss`, and one per interface. -/
inductive PoolId where
  | perCore (gen : ℕ)
  | global (i : ℕ)
  deriving DecidableEq, Repr

/-- The trace of the pools: an address is fetched for the stream with the number `sid`, and it goes
back when the stream is destroyed. -/
inductive PoolAct where
  | fetched (sid : ℕ) (pool : PoolId) (addr : SockAddr)
  | returned (sid : ℕ) (pool : PoolId) (addr : SockAddr)
  deriving DecidableEq, Repr

/-- What `mtcp_connect` and `mtcp_init_rss` read of the core they run on. -/
structure CoreConfig where
  cpu : U32
  numCpus : U32
  numQueues : U32
  endianCheck : Bool
  maxConcurrency : ℕ
  connectqSize : ℕ
  deriving DecidableEq, Repr

/-- One core of the stack, as the socket interface sees it. `corrupt` records an access through a
dangling pointer or a list operation on the wrong list. -/
structure Host where
  cfg : Config
  core : CoreConfig
  net : NetConfig
  smap : ℕ → SockEntry
  freeSmap : List ℕ
  listener : ℕ → Option Listener
  listeners : ℕ → List ℕ
  nextListener : ℕ
  ap : Option AddrPool
  apGen : ℕ
  pools : List AddrPool
  streams : ℕ → Option Flow
  flowTable : ℕ → List ℕ
  gId : ℕ
  connectq : List ℕ
  destroyq : List ℕ
  corrupt : Bool
  log : List PoolAct

/-- What a new stream needs: chunks of the three pools, locks that can be initialised, and the
initial sequence number drawn for it. -/
structure StreamMem where
  chunks : Bool
  locks : Bool
  iss : U32
  deriving DecidableEq, Repr

/-- The socket has an explicit address, so `mtcp_connect` asks no pool. -/
def SockEntry.explicit (s : SockEntry) : Bool :=
  s.addrBind && s.saddr.port != 0 && s.saddr.addr != 0

namespace Host

/-! ## The socket map -/

def setSocket (h : Host) (i : ℕ) (s : SockEntry) : Host :=
  { h with smap := Function.update h.smap i s }

/-- What `AllocateSocket` comes to: it goes round for ever when every free socket has pending
events. -/
inductive Allocated where
  | full
  | spins
  | socket (i : ℕ)
  deriving DecidableEq, Repr

/-- The fields `AllocateSocket` resets. -/
def freshSocket (socktype : SockType) : SockEntry where
  nonblock := false
  epollIn := false
  epollOut := false
  epollErr := false
  epollRdhup := false
  epollEt := false
  socktype := socktype
  addrBind := false
  saddr := .any
  ref := .null
  events := false

/-- `AllocateSocket`: free sockets with pending events go to the end of the list. -/
def allocateSocket (socktype : SockType) (h : Host) : Host × Allocated :=
  let busy := h.freeSmap.takeWhile fun i => (h.smap i).events
  match h.freeSmap.dropWhile fun i => (h.smap i).events with
  | [] => (h, if h.freeSmap = [] then .full else .spins)
  | i :: rest =>
    ({ h with freeSmap := rest ++ busy }.setSocket i (freshSocket socktype), .socket i)

def freeSocket (i : ℕ) (h : Host) : Host :=
  let s := h.smap i
  if s.socktype = .unused then h
  else
    { h with freeSmap := h.freeSmap ++ [i] }.setSocket i
      { s with
        socktype := .unused
        epollIn := false
        epollOut := false
        epollErr := false
        epollRdhup := false
        epollEt := false
        events := false
        ref := .null }

/-! ## Listeners -/

def numBinsListeners : ℕ := 1024

def hashListener (port : U16) : ℕ := (port &&& BitVec.ofNat 16 (numBinsListeners - 1)).toNat

/-- The port a listener is found under: that of its socket, at this moment. -/
def listenerPort (h : Host) (l : ℕ) : Option U16 :=
  (h.listener l).map fun x => (h.smap x.sockid).saddr.port

def listenerHTSearch (h : Host) (port : U16) : Option ℕ :=
  (h.listeners (hashListener port)).find? fun l => h.listenerPort l == some port

def listenerHTInsert (l : ℕ) (port : U16) (h : Host) : Host :=
  { h with
    listeners := Function.update h.listeners (hashListener port)
      (h.listeners (hashListener port) ++ [l]) }

def setListener (l : ℕ) (x : Listener) (h : Host) : Host :=
  { h with listener := Function.update h.listener l (some x) }

/-! ## The flow table -/

def numBinsFlows : ℕ := 131072

/-- The twelve bytes of a stream from `saddr` on, as they lie in memory. -/
def flowBytes (src dst : SockAddr) : List U8 :=
  (List.range 4).map (fun i => src.addr.extractLsb' (8 * i) 8) ++
    (List.range 4).map (fun i => dst.addr.extractLsb' (8 * i) 8) ++
    (List.range 2).map (fun i => src.port.extractLsb' (8 * i) 8) ++
    (List.range 2).map fun i => dst.port.extractLsb' (8 * i) 8

/-- `HashFlow`; the bytes are signed characters. -/
def hashFlow (key : SockAddr × SockAddr) : ℕ :=
  let hash := (flowBytes key.1 key.2).foldl (fun (hash : U32) b =>
    let hash := hash + b.signExtend 32
    let hash := hash + hash <<< 10
    hash ^^^ hash >>> 6) 0
  let hash := hash + hash <<< 3
  let hash := hash ^^^ hash >>> 11
  let hash := hash + hash <<< 15
  (hash &&& BitVec.ofNat 32 (numBinsFlows - 1)).toNat

def streamHTInsert (sid : ℕ) (key : SockAddr × SockAddr) (h : Host) : Host :=
  { h with
    flowTable := Function.update h.flowTable (hashFlow key) (h.flowTable (hashFlow key) ++ [sid]) }

def streamHTRemove (sid : ℕ) (key : SockAddr × SockAddr) (h : Host) : Host :=
  { h with
    flowTable := Function.update h.flowTable (hashFlow key)
      ((h.flowTable (hashFlow key)).erase sid) }

/-- `StreamHTSearch`: the first stream of the bin with this 4-tuple. -/
def streamHTSearch (h : Host) (key : SockAddr × SockAddr) : Option ℕ :=
  (h.flowTable (hashFlow key)).find? fun sid => (h.streams sid).map Flow.key == some key

def setStream (sid : ℕ) (f : Flow) (h : Host) : Host :=
  { h with streams := Function.update h.streams sid (some f) }

/-! ## Creating and destroying a stream -/

/-- `CreateTCPStream`. A lock that cannot be initialised makes it return without a result, with
the stream in the table and at its socket. -/
def createTCPStream (mem : StreamMem) (sockid : Option ℕ) (src dst : SockAddr) (h : Host) :
    Host × Option ℕ :=
  if mem.chunks then
    let sid := h.gId
    let stream := MtcpStack.createTCPStream h.cfg mem.iss
      (sockid.map fun i => (h.smap i).toSocket)
    let h := streamHTInsert sid (src, dst)
      ({ h with gId := sid + 1 }.setStream sid ⟨src, dst, false, sockid, stream⟩)
    let h :=
      match sockid with
      | none => h
      | some i => h.setSocket i { h.smap i with ref := .stream sid }
    (h, if mem.locks then some sid else none)
  else (h, none)

/-- The address of a destroyed stream goes to the pool chosen by the present state: that of the
core if there is one, and otherwise that of the interface the address is routed to. -/
def returnAddress (sid : ℕ) (a : SockAddr) (h : Host) : Host :=
  match h.ap with
  | some ap =>
    match freeAddress ap a with
    | .freed ap =>
      { h with ap := some ap, log := h.log ++ [.returned sid (.perCore h.apGen) a] }
    | .broken => { h with corrupt := true }
    | .missing => h
  | none =>
    match (getOutputInterface h.net a.addr).map (nifToEidx h.net) with
    | none => h
    | some none => { h with corrupt := true }
    | some (some eidx) =>
      match (h.pools[eidx]?).map (freeAddress · a) with
      | some (.freed ap) =>
        { h with
          pools := h.pools.set eidx ap
          log := h.log ++ [.returned sid (.global eidx) a] }
      | some .broken => { h with corrupt := true }
      | some .missing => h
      | none => h

/-- `DestroyTCPStream`, as far as the table and the pools are concerned. -/
def destroyTCPStream (sid : ℕ) (h : Host) : Host :=
  match h.streams sid with
  | none => { h with corrupt := true }
  | some f =>
    let h := streamHTRemove sid f.key { h with streams := Function.update h.streams sid none }
    if f.isBoundAddr then returnAddress sid f.src h else h

end Host

end MtcpStack
