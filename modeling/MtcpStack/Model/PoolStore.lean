import MtcpStack.Library.TailQueue
import MtcpStack.Model.AddrPool

/-! # Address pools with their lists and their map (`addr_pool.c`)

`AddrPool` names an entry by the address it stands for. Here an entry is a cell of the array
`pool`; the two lists go through pointers in the cells, and `mapper` leads from an address and a
port to a cell. A result of `none` is a call that makes no pool, writes outside its memory, divides
by zero, or whose loop does not end. -/

namespace MtcpStack

open TailQueue

/-- `free_list` and `used_list`. -/
inductive PoolList where
  | free
  | used
  deriving DecidableEq, Repr

/-- `struct addr_pool`. The cells of `pool` that have been filled are listed; a cell is named by its
index. `mapper` may be `NULL`. -/
structure PoolStore where
  pool : List SockAddr
  mapper : Option (ℕ → ℕ → Option ℕ)
  addrBase : U32
  numAddr : ℤ
  numEntry : ℤ
  numFree : ℤ
  numUsed : ℤ
  links : Links PoolList ℕ

namespace PoolStore

/-! ## Creation -/

/-- What the loops of the creating functions change. -/
structure Fill where
  pool : List SockAddr
  mapper : ℕ → ℕ → Option ℕ
  links : Links PoolList ℕ

/-- The pointers after `calloc`. There is no null pointer to a slot; nothing reads these before they
are set. -/
def nullLinks : Links PoolList ℕ where
  first _ := none
  last _ := .head .free
  next _ := none
  prev _ := .head .free

/-- After `calloc` and `TAILQ_INIT`. -/
def Fill.start : Fill where
  pool := []
  mapper _ _ := none
  links := (nullLinks.init .free).init .used

/-- The next cell gets the address and the port, and becomes the last free one. -/
def Fill.add (addrBase : U32) (f : Fill) (v : ℕ × ℕ) : Fill where
  pool := f.pool ++ [poolEntry addrBase v.1 v.2]
  mapper i j := if (i, j) = v then some f.pool.length else f.mapper i j
  links := f.links.insertTail .free f.pool.length

/-- The inner loop of `CreateAddressPool` for address `i`; it leaves off when the array is full, but
only after it has filled a cell. -/
def fillPorts (addrBase : U32) (numEntry : ℤ) (i : ℕ) : List ℕ → Fill → Option Fill
  | [], f => some f
  | j :: js, f =>
    if numEntry ≤ f.pool.length then none
    else
      let f := f.add addrBase (i, j)
      if numEntry ≤ f.pool.length then some f else fillPorts addrBase numEntry i js f

/-- The inner loop of `CreateAddressPoolPerCore`; `own` says that the address and the port belong to
the core. -/
def fillPortsPerCore (addrBase : U32) (numEntry : ℤ) (own : ℕ × ℕ → Bool) (i : ℕ) :
    List ℕ → Fill → Fill
  | [], f => f
  | j :: js, f =>
    if numEntry ≤ f.pool.length then f
    else if own (i, j) then
      fillPortsPerCore addrBase numEntry own i js (f.add addrBase (i, j))
    else fillPortsPerCore addrBase numEntry own i js f

/-- The ports from `MIN_PORT` to `MAX_PORT`. -/
def ports : List ℕ := List.range' minPort (maxPort - minPort)

/-- The pool after the loops. -/
def Fill.finish (f : Fill) (addrBase : U32) (numAddr : U32) : PoolStore where
  pool := f.pool
  mapper := some f.mapper
  addrBase := addrBase
  numAddr := numAddr.toInt
  numEntry := f.pool.length
  numFree := f.pool.length
  numUsed := 0
  links := f.links

/-- `CreateAddressPool`. The number of cells is a product of two `int`s; `calloc` has no negative
number of cells, and `memory` says that it has the others. -/
def createAddressPool (memory : Bool) (saddrBase numAddr : U32) : Option PoolStore :=
  let numEntry := (numAddr * BitVec.ofNat 32 (maxPort - minPort)).toInt
  if ¬ memory ∨ numEntry < 0 ∨ numAddr.toInt < 0 then none
  else
    ((List.range numAddr.toInt.toNat).foldlM
      (fun f i => fillPorts (ntohl saddrBase) numEntry i ports f) Fill.start).map
        fun f => f.finish (ntohl saddrBase) numAddr

/-- `CreateAddressPoolPerCore`. -/
def createAddressPoolPerCore (memory : Bool) (core numQueues : U32) (endianCheck : Bool)
    (saddrBase numAddr : U32) (daddr : SockAddr) : Option PoolStore :=
  if numQueues = 0 then none
  else
    let numEntry := ((numAddr * BitVec.ofNat 32 (maxPort - minPort)).sdiv numQueues).toInt
    if ¬ memory ∨ numEntry < 0 ∨ numAddr.toInt < 0 then none
    else
      let own := fun v : ℕ × ℕ =>
        decide (poolRssCore (poolEntry (ntohl saddrBase) v.1 v.2) daddr numQueues endianCheck =
          some core)
      let f := (List.range numAddr.toInt.toNat).foldl
        (fun f i => fillPortsPerCore (ntohl saddrBase) numEntry own i ports f) Fill.start
      some (f.finish (ntohl saddrBase) numAddr)

/-! ## Calls -/

variable (ps : PoolStore)

/-- The address in cell `k`. -/
def cell (k : ℕ) : SockAddr := ps.pool.getD k ⟨0, 0⟩

/-- Cell `k` moves from the free list to the used list. -/
def take (k : ℕ) : PoolStore :=
  { ps with
    links := (ps.links.remove .free k).insertTail .used k
    numFree := ps.numFree - 1
    numUsed := ps.numUsed + 1 }

/-- `FetchAddress`; without an address the result is `-1`. -/
def fetchAddress (core numQueues : U32) (endianCheck : Bool) (daddr saddr : SockAddr) :
    Option (PoolStore × Option SockAddr) :=
  (ps.links.walk (fun k => fetchMatches core numQueues endianCheck daddr saddr (ps.cell k))
    ps.pool.length (ps.links.first .free)).map fun
      | some k => (ps.take k, some (ps.cell k))
      | none => (ps, none)

/-- `FetchAddressPerCore`. -/
def fetchAddressPerCore : PoolStore × Option SockAddr :=
  match ps.links.first .free with
  | some k => (ps.take k, some (ps.cell k))
  | none => (ps, none)

/-- The lookup of `FreeAddress`: through the mapper, or by a search of the used list. -/
def lookup (a : SockAddr) : Option (Option ℕ) :=
  match ps.mapper with
  | some mapper =>
    let index := ntohl a.addr - ps.addrBase
    if 0 ≤ index.toInt ∧ index.toInt < ps.numAddr then
      some (mapper index.toNat (ntohs a.port).toNat)
    else some none
  | none =>
    ps.links.walk (fun k => a.port == (ps.cell k).port && a.addr == (ps.cell k).addr)
      ps.pool.length (ps.links.first .used)

/-- Cell `k` moves from the used list to the free list. -/
def giveBack (k : ℕ) : PoolStore :=
  { ps with
    links := (ps.links.remove .used k).insertTail .free k
    numFree := ps.numFree + 1
    numUsed := ps.numUsed - 1 }

/-- `FreeAddress`. -/
def freeAddress (a : SockAddr) : Option (PoolStore × ℤ) :=
  (ps.lookup a).map fun
    | some k => (ps.giveBack k, 0)
    | none => (ps, -1)

end PoolStore

/-! ## Runs -/

/-- The pools that are made. -/
inductive MadePool : PoolStore → Prop
  | pool {memory : Bool} {saddrBase numAddr : U32} {ps : PoolStore}
      (hps : PoolStore.createAddressPool memory saddrBase numAddr = some ps) : MadePool ps
  | perCore {memory : Bool} {core numQueues : U32} {endianCheck : Bool} {saddrBase numAddr : U32}
      {daddr : SockAddr} {ps : PoolStore}
      (hps : PoolStore.createAddressPoolPerCore memory core numQueues endianCheck saddrBase numAddr
        daddr = some ps) : MadePool ps

/-- The runs from a pool in which only addresses that are out are given back; those that are out
stand beside it. -/
inductive StoreReached (start : PoolStore) : PoolStore → List SockAddr → Prop
  | start : StoreReached start start []
  | fetch {ps ps' : PoolStore} {out : List SockAddr} {core numQueues : U32} {endianCheck : Bool}
      {daddr saddr : SockAddr} {a : Option SockAddr} (hreach : StoreReached start ps out)
      (hcall : ps.fetchAddress core numQueues endianCheck daddr saddr = some (ps', a)) :
      StoreReached start ps' (a.toList ++ out)
  | fetchPerCore {ps : PoolStore} {out : List SockAddr} (hreach : StoreReached start ps out) :
      StoreReached start ps.fetchAddressPerCore.1 (ps.fetchAddressPerCore.2.toList ++ out)
  | free {ps ps' : PoolStore} {out : List SockAddr} {a : SockAddr} {ret : ℤ}
      (hreach : StoreReached start ps out) (ha : a ∈ out)
      (hcall : ps.freeAddress a = some (ps', ret)) : StoreReached start ps' (out.erase a)

end MtcpStack
