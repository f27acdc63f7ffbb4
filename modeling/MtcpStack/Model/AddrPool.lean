import MtcpStack.Model.Rss

/-! # Address pools (`addr_pool.c`) and routes (`ip_out.c`)

A pool hands out source addresses with ports. Its entries are on the free list or on the used
list; an entry is named by the address it stands for. -/

namespace MtcpStack

def minPort : ℕ := 1025
def maxPort : ℕ := 65536

/-! ## Pools -/

/-- `struct addr_pool`; `addrBase` is in host order. -/
structure AddrPool where
  pool : List SockAddr
  addrBase : U32
  numAddr : ℕ
  numFree : ℤ
  numUsed : ℤ
  freeList : List SockAddr
  usedList : List SockAddr
  deriving DecidableEq, Repr

/-- The address of the entry `mapper[i].addrmap[j]`. -/
def poolEntry (addrBase : U32) (i j : ℕ) : SockAddr :=
  ⟨ntohl (addrBase + BitVec.ofNat 32 i), ntohs (BitVec.ofNat 16 j)⟩

/-- The addresses the creating loops run through. -/
def addressSpace (addrBase : U32) (numAddr : ℕ) : List SockAddr :=
  (List.range' 0 numAddr).flatMap fun i =>
    (List.range' minPort (maxPort - minPort)).map (poolEntry addrBase i)

/-- A pool of the given entries, all of them free. -/
def AddrPool.ofEntries (addrBase : U32) (numAddr : ℕ) (entries : List SockAddr) : AddrPool where
  pool := entries
  addrBase := addrBase
  numAddr := numAddr
  numFree := entries.length
  numUsed := 0
  freeList := entries
  usedList := []

/-- `CreateAddressPool`; `saddrBase` is in network order. -/
def createAddressPool (saddrBase : U32) (numAddr : ℕ) : AddrPool :=
  .ofEntries (ntohl saddrBase) numAddr (addressSpace (ntohl saddrBase) numAddr)

/-- `CreateAddressPoolPerCore`: the addresses whose connections to `daddr` arrive at `core`, as
many as a core's share. -/
def createAddressPoolPerCore (core numQueues : U32) (endianCheck : Bool) (saddrBase : U32)
    (numAddr : ℕ) (daddr : SockAddr) : AddrPool :=
  let own := (addressSpace (ntohl saddrBase) numAddr).filter fun e =>
    poolRssCore e daddr numQueues endianCheck = some core
  .ofEntries (ntohl saddrBase) numAddr
    (own.take (numAddr * (maxPort - minPort) / numQueues.toNat))

/-- The entry `e` moves from the free list to the used list. -/
def AddrPool.use (ap : AddrPool) (e : SockAddr) : AddrPool :=
  { ap with
    freeList := ap.freeList.erase e
    usedList := ap.usedList ++ [e]
    numFree := ap.numFree - 1
    numUsed := ap.numUsed + 1 }

/-- The loop of `FetchAddress` stops at an entry that agrees with what `saddr` leaves open and
whose connections to `daddr` arrive at `core`. -/
def fetchMatches (core numQueues : U32) (endianCheck : Bool) (daddr saddr e : SockAddr) : Bool :=
  (saddr.addr == 0 || e.addr == saddr.addr) && (saddr.port == 0 || e.port == saddr.port) &&
    decide (fetchRssCore e daddr numQueues endianCheck = some core)

/-- `FetchAddress`; `none` is the result `-1`. -/
def fetchAddress (ap : AddrPool) (core numQueues : U32) (endianCheck : Bool)
    (daddr saddr : SockAddr) : Option (AddrPool × SockAddr) :=
  (ap.freeList.find? (fetchMatches core numQueues endianCheck daddr saddr)).map fun e =>
    (ap.use e, e)

/-- `FetchAddressPerCore` takes the first free entry. -/
def fetchAddressPerCore (ap : AddrPool) : Option (AddrPool × SockAddr) :=
  ap.freeList.head?.map fun e => (ap.use e, e)

/-- The entry the mapper holds for an address. -/
def AddrPool.mapped (ap : AddrPool) (a : SockAddr) : Bool :=
  let index := (ntohl a.addr - ap.addrBase).toInt
  decide (0 ≤ index ∧ index < ap.numAddr) && ap.pool.contains a

/-- What `FreeAddress` does. `TAILQ_REMOVE` of an entry that is not on the used list destroys the
lists. -/
inductive Freed where
  | missing
  | broken
  | freed (ap : AddrPool)
  deriving DecidableEq, Repr

def freeAddress (ap : AddrPool) (a : SockAddr) : Freed :=
  if ap.mapped a then
    if a ∈ ap.usedList then
      .freed
        { ap with
          usedList := ap.usedList.erase a
          freeList := ap.freeList ++ [a]
          numFree := ap.numFree + 1
          numUsed := ap.numUsed - 1 }
    else .broken
  else .missing

/-! ## Routes -/

/-- `struct route_table`, as far as the lookup reads it. -/
structure Route where
  mask : U32
  masked : U32
  prefixLen : ℕ
  nif : ℕ
  deriving DecidableEq, Repr

/-- The interfaces and routes of `CONFIG`: `eths` holds the address and the index of each
interface, `gateway` the interface of the default route. -/
structure NetConfig where
  eths : List (U32 × ℕ)
  rtable : List Route
  gateway : Option ℕ
  deriving DecidableEq, Repr

/-- `GetOutputInterface`: the first route that matches decides. `none` is the result `-1`, at
which a build with assertions stops. -/
def getOutputInterface (net : NetConfig) (daddr : U32) : Option ℕ :=
  match net.rtable.find? fun r => daddr &&& r.mask == r.masked with
  | none => none
  | some r => if 0 < r.prefixLen then some r.nif else net.gateway

/-- `CONFIG.nif_to_eidx`: the last interface listed with this index. -/
def nifToEidx (net : NetConfig) (nif : ℕ) : Option ℕ :=
  (List.range net.eths.length).reverse.find? fun i => (net.eths.map Prod.snd)[i]? == some nif

end MtcpStack
